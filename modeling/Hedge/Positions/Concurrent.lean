import Hedge.Common.Pool
import Hedge.Positions.Aggregate

/-!
# Concurrent calls on a position engine

Reference: `on_fill`, `on_tick` and `recompute_aggregate` in `hedge-position/src/engine.rs`.

The engine is shared by concurrent calls. A call is a thread that stops between its atomic sections:
one position is changed or read under its own lock, and the aggregate is read, written and published
under the lock of the engine state, each time anew. The walk over the positions reads them one at a
time in the order the map gives them; it reads every position that was there when it began, and may
read positions that came later.

A call that runs alone does what the function of `Positions.Engine` does (`solo_onFill`,
`solo_onTick`).
-/

namespace Hedge.Positions

open Hedge Hedge.Common

namespace Concurrent

/-! ## Sections -/

/-- A call on the engine. -/
inductive Op where
  | onFill (symbol : SymbolId) (fill : Fill) (nowNs : UInt64)
  | onTick (symbol : SymbolId) (markPx : Int64) (nowNs : UInt64)

/-- What a call does with the aggregate it has recomputed. -/
inductive After where
  | fill (symbol : SymbolId) (snapshot : Position) (nowNs : UInt64)
  | tick (events : List PositionEvent)

/-- Where a call is, and what it remembers. -/
inductive Thread where
  | idle
  | filling (symbol : SymbolId) (fill : Fill) (nowNs : UInt64)
  | marking (symbol : SymbolId) (markPx : Int64) (nowNs : UInt64)
  | throttling (symbol : SymbolId) (snapshot : Position) (nowNs : UInt64)
  | walking (after : After) (required seen : List SymbolId) (positions : List Position)
  | reading (after : After) (positions : List Position)
  | writing (after : After) (positions : List Position) (prevPeak : Int64)
  | publishing (after : After) (newState : TraderRiskState)

/-- The first section of a call. -/
def Op.start : Op → Thread
  | .onFill symbol fill nowNs => .filling symbol fill nowNs
  | .onTick symbol markPx nowNs => .marking symbol markPx nowNs

/-- The engine and every equity a call has computed. -/
structure Shared where
  engine : PositionEngine
  equities : List ℤ

/-- The engine with the calls in flight. -/
abbrev Config := Pool Shared Thread

/-- A fresh engine with no call in flight. -/
def Config.new (baseCapitalPaise : Int64) (posUpdateThrottleNs : UInt64) : Config :=
  ⟨⟨.withThrottle baseCapitalPaise posUpdateThrottleNs, []⟩, fun _ => .idle⟩

/-- Which call starts, which thread moves, or which position a walk reads next. -/
inductive Label where
  | start (tid : ℕ) (op : Op)
  | advance (tid : ℕ)
  | read (tid : ℕ) (symbol : SymbolId)

/-- The equity of a list of positions. -/
def equityOf (baseCapitalPaise : Int64) (positions : List Position) : ℤ :=
  baseCapitalPaise.toInt + ((positions.map (·.realizedPnlPaise.toInt)).sum
    + (positions.map (·.unrealizedPnlPaise.toInt)).sum)

/-- `recompute_aggregate` begins its walk. -/
def startWalk (engine : PositionEngine) (after : After) : Thread :=
  .walking after engine.positions.keys [] []

/-- One section of one call; the events are there when the call returns. -/
def advance (cfg : Config) (tid : ℕ) : Option (List PositionEvent) × Config :=
  let engine := cfg.shared.engine
  let goto := fun next engine => cfg.goto tid next { cfg.shared with engine }
  match cfg.threads tid with
  | .idle => (none, cfg)
  -- the position of the fill
  | .filling symbol fill nowNs =>
    let position := ((engine.positionOf symbol).getD (.flat symbol)).applyFill fill
    let engine := { engine with positions := engine.positions.insert symbol position }
    (none, goto (startWalk engine (.fill symbol position nowNs)) engine)
  -- the position of the tick
  | .marking symbol markPx nowNs => match engine.positionOf symbol with
    | none => (some [], goto .idle engine)
    | some position =>
      if position.quantity = 0 then
        let position := { position with lastMarkPx := markPx, unrealizedPnlPaise := 0 }
        (some [],
          goto .idle { engine with positions := engine.positions.insert symbol position })
      else
        let position := position.applyMark markPx
        (none, goto (.throttling symbol position nowNs)
          { engine with positions := engine.positions.insert symbol position })
  -- the state: the time of the last update of the symbol
  | .throttling symbol position nowNs =>
    let elapsed := nowNs.saturatingSub ((engine.lastEmitNs.lookup symbol).getD 0)
    if engine.posUpdateThrottleNs ≤ elapsed then
      let engine := { engine with lastEmitNs := engine.lastEmitNs.insert symbol nowNs }
      (none, goto (startWalk engine (.tick [.positionUpdate symbol position])) engine)
    else (none, goto (startWalk engine (.tick [])) engine)
  -- the walk ends when it has read all it has to
  | .walking after required seen positions =>
    if required ⊆ seen then (none, goto (.reading after positions) engine) else (none, cfg)
  -- the state: the previous peak
  | .reading after positions =>
    (none, cfg.goto tid (.writing after positions engine.aggregate.peakEquityPaise)
      { cfg.shared with
        equities := cfg.shared.equities ++ [equityOf engine.baseCapitalPaise positions] })
  -- the state: the new aggregate
  | .writing after positions prevPeak =>
    let newState := aggregateState positions engine.baseCapitalPaise prevPeak
    (none, goto (.publishing after newState) { engine with aggregate := newState })
  -- the state: what was published last
  | .publishing (.fill symbol snapshot nowNs) newState =>
    (some [.positionUpdate symbol snapshot, .riskState newState],
      goto .idle { engine with
        lastEmitNs := engine.lastEmitNs.insert symbol nowNs
        lastPublishedAggregate := some newState })
  | .publishing (.tick events) newState =>
    if engine.lastPublishedAggregate != some newState then
      (some (events ++ [.riskState newState]),
        goto .idle { engine with lastPublishedAggregate := some newState })
    else (some events, goto .idle engine)

/-- A walk reads the position of a symbol it has not read yet. -/
def readPosition (cfg : Config) (tid : ℕ) (symbol : SymbolId) : Config :=
  match cfg.threads tid, cfg.shared.engine.positionOf symbol with
  | .walking after required seen positions, some position =>
    if symbol ∈ seen then cfg
    else
      cfg.goto tid (.walking after required (seen ++ [symbol]) (positions ++ [position])) cfg.shared
  | _, _ => cfg

/-- A call only starts on an idle thread. -/
def startCall (cfg : Config) (tid : ℕ) (op : Op) : Config :=
  match cfg.threads tid with
  | .idle => cfg.goto tid op.start cfg.shared
  | _ => cfg

/-- One step of a schedule. -/
def threadStep (cfg : Config) : Label → Option (List PositionEvent) × Config
  | .start tid op => (none, startCall cfg tid op)
  | .advance tid => advance cfg tid
  | .read tid symbol => (none, readPosition cfg tid symbol)

/-- The configuration after a schedule. -/
abbrev threadRun (cfg : Config) (labels : List Label) : Config := runState threadStep cfg labels

/-! ## A call that runs alone -/

/-- The walk over the positions `entries`. -/
def walk (tid : ℕ) (entries : List (Sigma fun _ : SymbolId => Position)) : List Label :=
  entries.map fun entry => .read tid entry.1

section Solo

variable {cfg : Config} {tid : ℕ} {shared : Shared}

/-- A walk collects the positions in the order it reads them. -/
theorem threadRun_walk {after : After} {required : List SymbolId}
    (entries : List (Sigma fun _ : SymbolId => Position)) (seen : List SymbolId)
    (positions : List Position)
    (hread : ∀ entry ∈ entries, shared.engine.positionOf entry.1 = some entry.2)
    (hnodup : (seen ++ entries.keys).Nodup) :
    threadRun (cfg.goto tid (.walking after required seen positions) shared) (walk tid entries)
      = cfg.goto tid (.walking after required (seen ++ entries.keys)
          (positions ++ entries.map (·.2))) shared := by
  induction entries generalizing seen positions with
  | nil => simp [walk, List.keys]
  | cons entry entries ih =>
    have hfirst := hread entry (by simp)
    have hunseen : entry.1 ∉ seen := by
      intro hmem
      exact (List.nodup_append.mp hnodup).2.2 _ hmem _ (by simp [List.keys]) rfl
    have hstep : (threadStep (cfg.goto tid (.walking after required seen positions) shared)
        (.read tid entry.1)).2 = cfg.goto tid (.walking after required (seen ++ [entry.1])
          (positions ++ [entry.2])) shared := by
      simp [threadStep, readPosition, hfirst, hunseen]
    have htail := ih (seen ++ [entry.1]) (positions ++ [entry.2])
      (fun e he => hread e (by simp [he])) (by simpa [List.keys] using hnodup)
    rw [walk, List.map_cons, threadRun, runState_cons, hstep]
    refine htail.trans ?_
    simp [List.keys]

/-- A recomputation that runs alone: the walk and the three sections after it. -/
def soloRecompute (tid : ℕ) (positions : Map SymbolId Position) : List Label :=
  walk tid positions.entries ++ [.advance tid, .advance tid, .advance tid]

/-- Alone, the sections of a recomputation store what `recomputeAggregate` stores. -/
theorem threadRun_soloRecompute (after : After) :
    threadRun (cfg.goto tid (startWalk shared.engine after) shared)
        (soloRecompute tid shared.engine.positions)
      = cfg.goto tid (.publishing after shared.engine.recomputeAggregate.1)
          ⟨shared.engine.recomputeAggregate.2, shared.equities ++ [shared.engine.equity]⟩ := by
  have hread : ∀ entry ∈ shared.engine.positions.entries,
      shared.engine.positionOf entry.1 = some entry.2 :=
    fun entry hmem => AList.mem_lookup_iff.mpr hmem
  have hwalk : runState threadStep (cfg.goto tid (startWalk shared.engine after) shared)
      (walk tid shared.engine.positions.entries) = _ :=
    threadRun_walk _ [] [] hread shared.engine.positions.nodupKeys
  have hequity : equityOf shared.engine.baseCapitalPaise (shared.engine.positions.entries.map (·.2))
      = shared.engine.equity := by
    simp only [equityOf, PositionEngine.equity, mapTotal, List.map_map]
    rfl
  rw [soloRecompute, threadRun, runState_append, hwalk]
  simp [threadStep, advance, PositionEngine.recomputeAggregate, AList.keys, hequity]

/-- A thread that has returned does nothing more. -/
theorem threadRun_soloRecompute_of_idle (h : cfg.threads tid = .idle)
    (positions : Map SymbolId Position) : threadRun cfg (soloRecompute tid positions) = cfg := by
  have hadvance : (advance cfg tid).2 = cfg := by rw [advance, h]
  have hwalk : ∀ entries, runState threadStep cfg (walk tid entries) = cfg := by
    intro entries
    induction entries with
    | nil => rfl
    | cons entry entries ih =>
      have hstep : (threadStep cfg (.read tid entry.1)).2 = cfg := by
        rw [threadStep, readPosition, h]
      rw [walk, List.map_cons, runState_cons, hstep]
      exact ih
  rw [soloRecompute, threadRun, runState_append, hwalk]
  simp [threadStep, hadvance]

/-- The schedule of a call that runs alone: `n` sections, a recomputation, the last section. -/
def solo (tid : ℕ) (op : Op) (n : ℕ) (positions : Map SymbolId Position) : List Label :=
  .start tid op :: List.replicate n (.advance tid) ++ soloRecompute tid positions ++ [.advance tid]

/-- A call that comes to its recomputation alone goes on to publish what it computes. -/
theorem threadRun_solo {op : Op} {n : ℕ} {after : After} {engine : PositionEngine}
    (h : threadRun cfg (.start tid op :: List.replicate n (.advance tid))
      = cfg.goto tid (startWalk engine after) { cfg.shared with engine }) :
    threadRun cfg (solo tid op n engine.positions)
      = (advance (cfg.goto tid (.publishing after engine.recomputeAggregate.1)
          ⟨engine.recomputeAggregate.2, cfg.shared.equities ++ [engine.equity]⟩) tid).2 := by
  have hrecompute : runState threadStep
      (cfg.goto tid (startWalk engine after) { cfg.shared with engine })
      (soloRecompute tid engine.positions) = _ := threadRun_soloRecompute after
  rw [solo, threadRun, runState_append, runState_append]
  rw [threadRun] at h
  rw [h, hrecompute]
  rfl

/-- A call that returns before its recomputation stays there. -/
theorem threadRun_solo_of_idle {op : Op} {n : ℕ} {cfg' : Config}
    (h : threadRun cfg (.start tid op :: List.replicate n (.advance tid)) = cfg')
    (hidle : cfg'.threads tid = .idle) (positions : Map SymbolId Position) :
    threadRun cfg (solo tid op n positions) = cfg' := by
  have hrecompute : runState threadStep cfg' (soloRecompute tid positions) = cfg' :=
    threadRun_soloRecompute_of_idle hidle positions
  rw [solo, threadRun, runState_append, runState_append]
  rw [threadRun] at h
  rw [h, hrecompute, runState_cons, runState_nil, threadStep, advance, hidle]

/-- A tick remembers the aggregate it publishes. -/
theorem engine_advance_publishing {events : List PositionEvent} {newState : TraderRiskState}
    (h : cfg.threads tid = .publishing (.tick events) newState) :
    (advance cfg tid).2.shared.engine =
      if cfg.shared.engine.lastPublishedAggregate != some newState
      then { cfg.shared.engine with lastPublishedAggregate := some newState }
      else cfg.shared.engine := by
  rw [advance, h]
  dsimp only
  split <;> rfl

/-- Alone, an `on_fill` thread computes `onFill`. -/
theorem solo_onFill (h : cfg.threads tid = .idle) (symbol : SymbolId) (fill : Fill)
    (nowNs : UInt64) :
    (threadRun cfg (solo tid (.onFill symbol fill nowNs) 1
        (cfg.shared.engine.onFill symbol fill nowNs).2.positions)).shared.engine
      = (cfg.shared.engine.onFill symbol fill nowNs).2 := by
  let position := ((cfg.shared.engine.positionOf symbol).getD (.flat symbol)).applyFill fill
  let engine := { cfg.shared.engine with
    positions := cfg.shared.engine.positions.insert symbol position }
  have hrun :
      threadRun cfg (.start tid (.onFill symbol fill nowNs) :: List.replicate 1 (.advance tid))
        = cfg.goto tid (startWalk engine (.fill symbol position nowNs))
            { cfg.shared with engine } := by
    simp [threadStep, startCall, h, Op.start, advance, engine, position]
  have hsolo := threadRun_solo hrun
  simp only [advance, Pool.threads_goto_self] at hsolo
  exact congrArg (·.shared.engine) hsolo

/-- Alone, an `on_tick` thread computes `onTick`. -/
theorem solo_onTick (h : cfg.threads tid = .idle) (symbol : SymbolId) (markPx : Int64)
    (nowNs : UInt64) :
    (threadRun cfg (solo tid (.onTick symbol markPx nowNs) 2
        (cfg.shared.engine.onTick symbol markPx nowNs).2.positions)).shared.engine
      = (cfg.shared.engine.onTick symbol markPx nowNs).2 := by
  cases hposition : cfg.shared.engine.positionOf symbol with
  | none =>
    have hrun : threadRun cfg
        (.start tid (.onTick symbol markPx nowNs) :: List.replicate 2 (.advance tid))
        = cfg.goto tid .idle cfg.shared := by
      simp [threadStep, startCall, h, Op.start, advance, hposition, List.replicate]
    rw [threadRun_solo_of_idle hrun (Pool.threads_goto_self ..),
      PositionEngine.onTick_of_untracked hposition]
    rfl
  | some position =>
    by_cases hflat : position.quantity = 0
    · have hrun : threadRun cfg
          (.start tid (.onTick symbol markPx nowNs) :: List.replicate 2 (.advance tid))
          = cfg.goto tid .idle { cfg.shared with
              engine := (cfg.shared.engine.onTick symbol markPx nowNs).2 } := by
        rw [PositionEngine.onTick_of_flat hposition hflat]
        simp [threadStep, startCall, h, Op.start, advance, hposition, hflat, List.replicate]
      rw [threadRun_solo_of_idle hrun (Pool.threads_goto_self ..)]
      rfl
    · -- the mark and the throttle stand in two sections, and the walk starts from what both leave
      let marked := { cfg.shared.engine with
        positions := cfg.shared.engine.positions.insert symbol (position.applyMark markPx) }
      let engine := if marked.posUpdateThrottleNs
          ≤ nowNs.saturatingSub ((marked.lastEmitNs.lookup symbol).getD 0)
        then { marked with lastEmitNs := marked.lastEmitNs.insert symbol nowNs } else marked
      have hpositions : engine.positions
          = (cfg.shared.engine.onTick symbol markPx nowNs).2.positions := by
        rw [PositionEngine.positions_onTick hposition hflat]
        simp only [engine]
        split <;> rfl
      obtain ⟨events, hrun⟩ : ∃ events, threadRun cfg
          (.start tid (.onTick symbol markPx nowNs) :: List.replicate 2 (.advance tid))
          = cfg.goto tid (startWalk engine (.tick events)) { cfg.shared with engine } := by
        simp only [List.replicate, runState_cons, runState_nil, threadStep, startCall, h, Op.start,
          advance, Pool.threads_goto_self, Pool.shared_goto, Pool.goto_goto, hposition,
          if_neg hflat, engine, marked]
        split
        · exact ⟨_, rfl⟩
        · exact ⟨_, rfl⟩
      rw [← hpositions, threadRun_solo hrun, engine_advance_publishing (Pool.threads_goto_self ..)]
      simp only [PositionEngine.onTick, hposition, if_neg hflat, decide_eq_true_eq]
      rfl

end Solo

/-! ## The carried peak -/

/-- The stored peak. -/
def peak (shared : Shared) : ℤ := shared.engine.aggregate.peakEquityPaise.toInt

/-- The positions and the previous peak of a call that has not stored its aggregate yet. -/
def Thread.held : Thread → Option (List Position × Int64)
  | .writing _ positions prevPeak => some (positions, prevPeak)
  | _ => none

/-- What the thread that moves is about to store. -/
def Label.stores (cfg : Config) : Label → Option (List Position × Int64)
  | .advance tid => (cfg.threads tid).held
  | _ => none

/-- Nobody has raised the stored peak since a call that is about to store its aggregate read it, and
the equity of the positions that call has collected fits the field. -/
def Unraised (cfg : Config) (label : Label) : Prop :=
  ∀ held ∈ label.stores cfg, peak cfg.shared ≤ held.2.toInt ∧
    equityOf cfg.shared.engine.baseCapitalPaise held.1 ≤ 2 ^ 63 - 1

instance (cfg : Config) (label : Label) : Decidable (Unraised cfg label) :=
  inferInstanceAs (Decidable (∀ held ∈ label.stores cfg, _ ∧ _))

/-- Every equity computed so far is under the stored peak, or its call has not stored it yet. -/
structure Covered (baseCapitalPaise : Int64) (cfg : Config) : Prop where
  base : cfg.shared.engine.baseCapitalPaise = baseCapitalPaise
  equities : ∀ equity ∈ cfg.shared.equities, equity ≤ peak cfg.shared ∨
    ∃ tid held, (cfg.threads tid).held = some held ∧ equity = equityOf baseCapitalPaise held.1

/-- The peak `aggregate_state` returns, as far as the field goes. -/
theorem toInt_peak_aggregateState (positions : List Position)
    (baseCapitalPaise previousPeak : Int64) :
    (aggregateState positions baseCapitalPaise previousPeak).peakEquityPaise.toInt
      = min (max previousPeak.toInt (equityOf baseCapitalPaise positions)) (2 ^ 63 - 1) := by
  have hlow := previousPeak.le_toInt
  change (Int64.clamp (max (equityOf baseCapitalPaise positions) previousPeak.toInt)).toInt = _
  rw [Int64.toInt_clamp]
  omega

section Steps

variable {baseCapitalPaise : Int64} {cfg : Config} {tid : ℕ} {next : Thread} {shared : Shared}

/-- A section keeps the equities covered when the peak does not go down, what is new is covered and
what the thread held is stored. -/
theorem Covered.goto (h : Covered baseCapitalPaise cfg)
    (hbase : shared.engine.baseCapitalPaise = baseCapitalPaise)
    (hpeak : peak cfg.shared ≤ peak shared)
    (hnew : ∀ equity ∈ shared.equities, equity ∈ cfg.shared.equities ∨
      ∃ held, next.held = some held ∧ equity = equityOf baseCapitalPaise held.1)
    (hheld : ∀ held, (cfg.threads tid).held = some held →
      equityOf baseCapitalPaise held.1 ≤ peak shared) :
    Covered baseCapitalPaise (cfg.goto tid next shared) := by
  refine ⟨hbase, fun equity hmem => ?_⟩
  rcases hnew equity hmem with hold | ⟨held, hnext, hequity⟩
  · rcases h.equities equity hold with hle | ⟨t, held, ht, hequity⟩
    · exact .inl (hle.trans hpeak)
    · by_cases htid : t = tid
      · subst htid
        rw [hequity]
        exact .inl (hheld held ht)
      · refine .inr ⟨t, held, ?_, hequity⟩
        rw [Pool.threads_goto_of_ne cfg htid]
        exact ht
  · refine .inr ⟨tid, held, ?_, hequity⟩
    rw [Pool.threads_goto_self]
    exact hnext

/-- What a step has to keep. -/
def Kept (baseCapitalPaise : Int64) (cfg cfg' : Config) : Prop :=
  peak cfg.shared ≤ peak cfg'.shared ∧ Covered baseCapitalPaise cfg'

theorem Kept.refl (h : Covered baseCapitalPaise cfg) : Kept baseCapitalPaise cfg cfg :=
  ⟨le_rfl, h⟩

/-- A section that leaves the aggregate alone, of a thread that holds none, keeps all. -/
theorem kept_goto_of_quiet (h : Covered baseCapitalPaise cfg)
    (hheld : (cfg.threads tid).held = none) {engine : PositionEngine}
    (hbase : engine.baseCapitalPaise = cfg.shared.engine.baseCapitalPaise)
    (haggregate : engine.aggregate = cfg.shared.engine.aggregate) :
    Kept baseCapitalPaise cfg (cfg.goto tid next { cfg.shared with engine }) := by
  have hpeak : peak cfg.shared ≤ peak { cfg.shared with engine } := by
    rw [peak, peak, haggregate]
  refine ⟨hpeak, h.goto (hbase.trans h.base) hpeak (fun _ => .inl) ?_⟩
  intro held hsome
  rw [hheld] at hsome
  cases hsome

theorem kept_advance (h : Covered baseCapitalPaise cfg) (hfresh : Unraised cfg (.advance tid)) :
    Kept baseCapitalPaise cfg (advance cfg tid).2 := by
  unfold advance
  cases hthread : cfg.threads tid with
  | idle => exact .refl h
  | filling symbol fill nowNs => exact kept_goto_of_quiet h (by rw [hthread]; rfl) rfl rfl
  | marking symbol markPx nowNs =>
    dsimp only
    split
    · exact kept_goto_of_quiet h (by rw [hthread]; rfl) rfl rfl
    · split <;> exact kept_goto_of_quiet h (by rw [hthread]; rfl) rfl rfl
  | throttling symbol snapshot nowNs =>
    dsimp only
    split <;> exact kept_goto_of_quiet h (by rw [hthread]; rfl) rfl rfl
  | walking after required seen positions =>
    dsimp only
    split
    · exact kept_goto_of_quiet h (by rw [hthread]; rfl) rfl rfl
    · exact .refl h
  | reading after positions =>
    refine ⟨le_rfl, h.goto h.base le_rfl (fun equity hmem => ?_) ?_⟩
    · rcases List.mem_append.mp hmem with hold | hnew
      · exact .inl hold
      · refine .inr ⟨(positions, _), rfl, ?_⟩
        rw [List.mem_singleton.mp hnew, h.base]
    · intro _ hsome
      rw [hthread] at hsome
      cases hsome
  | writing after positions prevPeak =>
    have hheld : (positions, prevPeak) ∈ (Label.advance tid).stores cfg := by
      rw [Label.stores, hthread]
      rfl
    have hunraised : peak cfg.shared ≤ prevPeak.toInt := (hfresh _ hheld).1
    have hfits : equityOf cfg.shared.engine.baseCapitalPaise positions ≤ 2 ^ 63 - 1 :=
      (hfresh _ hheld).2
    have hstored := toInt_peak_aggregateState positions cfg.shared.engine.baseCapitalPaise prevPeak
    have hbound : prevPeak.toInt < 2 ^ 63 := prevPeak.toInt_lt
    -- The peak written is the larger of the peak read and the equity.
    rw [min_eq_left (by omega)] at hstored
    have hpeak : peak cfg.shared ≤ max prevPeak.toInt
        (equityOf cfg.shared.engine.baseCapitalPaise positions) := by omega
    refine ⟨hpeak.trans hstored.ge, h.goto h.base (hpeak.trans hstored.ge) (fun _ => .inl) ?_⟩
    intro held hsome
    rw [hthread] at hsome
    cases hsome
    rw [← h.base]
    exact (le_max_right _ _).trans hstored.ge
  | publishing after newState =>
    cases after with
    | fill symbol snapshot nowNs => exact kept_goto_of_quiet h (by rw [hthread]; rfl) rfl rfl
    | tick events =>
      dsimp only
      split <;> exact kept_goto_of_quiet h (by rw [hthread]; rfl) rfl rfl

theorem kept_readPosition (h : Covered baseCapitalPaise cfg) (symbol : SymbolId) :
    Kept baseCapitalPaise cfg (readPosition cfg tid symbol) := by
  unfold readPosition
  split
  next after required seen positions position hthread _ =>
    split
    · exact .refl h
    · exact kept_goto_of_quiet h (by rw [hthread]; rfl) rfl rfl
  next => exact .refl h

theorem kept_startCall (h : Covered baseCapitalPaise cfg) (op : Op) :
    Kept baseCapitalPaise cfg (startCall cfg tid op) := by
  unfold startCall
  split
  next hthread => exact kept_goto_of_quiet h (by rw [hthread]; rfl) rfl rfl
  next => exact .refl h

/-- No step lowers the peak or leaves an equity uncovered, when nobody has raised the peak under a
call that stores its aggregate. -/
theorem kept_threadStep (h : Covered baseCapitalPaise cfg) {label : Label}
    (hfresh : Unraised cfg label) : Kept baseCapitalPaise cfg (threadStep cfg label).2 := by
  cases label with
  | start tid op => exact kept_startCall h op
  | advance tid => exact kept_advance h hfresh
  | read tid symbol => exact kept_readPosition h symbol

end Steps

/-! ## Schedules -/

theorem covered_new (baseCapitalPaise : Int64) (throttleNs : UInt64) :
    Covered baseCapitalPaise (Config.new baseCapitalPaise throttleNs) :=
  ⟨rfl, fun _ h => (by cases h)⟩

/-- Along the schedule the stored peak never goes down, and when every call has returned it is at
least every equity a call has computed. -/
def PeakHolds (cfg : Config) (labels : List Label) : Prop :=
  (∀ pre label post, labels = pre ++ label :: post →
    peak (threadRun cfg pre).shared ≤ peak (threadRun cfg (pre ++ [label])).shared) ∧
  ((∀ tid, (threadRun cfg labels).threads tid = .idle) →
    ∀ equity ∈ (threadRun cfg labels).shared.equities, equity ≤ peak (threadRun cfg labels).shared)

/-- The peak never goes back, whatever the interleaving, as long as no call stores an aggregate that
carries a peak lower than the one stored by then. -/
theorem peak_holds_of_unraised (baseCapitalPaise : Int64) (throttleNs : UInt64)
    (labels : List Label)
    (hfresh : ∀ pre label post, labels = pre ++ label :: post →
      Unraised (threadRun (Config.new baseCapitalPaise throttleNs) pre) label) :
    PeakHolds (Config.new baseCapitalPaise throttleNs) labels := by
  have hcovered : ∀ pre post, labels = pre ++ post →
      Covered baseCapitalPaise (threadRun (Config.new baseCapitalPaise throttleNs) pre) :=
    runState_invariant_split threadStep (Covered baseCapitalPaise)
      (fun _ _ hprev hlabel => (kept_threadStep hprev hlabel).2)
      (covered_new baseCapitalPaise throttleNs) hfresh
  refine ⟨fun pre label post hsplit => ?_, fun hidle equity hmem => ?_⟩
  · have hkept :=
      (kept_threadStep (hcovered pre (label :: post) hsplit) (hfresh pre label post hsplit)).1
    simp only [runState_append]
    exact hkept
  · rcases (hcovered labels [] (List.append_nil _).symm).equities equity hmem with
      hle | ⟨tid, positions, hheld, -⟩
    · exact hle
    · rw [hidle tid] at hheld
      cases hheld

/-- A buy, then a tick that falls and one that rises at once: each has read the peak before the other
stores, and the one that rises stores last. -/
def overlapping : List Label :=
  [.start 0 (.onFill ⟨1⟩ ⟨.buy, 10, 100⟩ 1), .advance 0, .read 0 ⟨1⟩, .advance 0, .advance 0,
    .advance 0, .advance 0,
    .start 0 (.onTick ⟨1⟩ 90 2), .advance 0, .advance 0, .read 0 ⟨1⟩, .advance 0,
    .start 1 (.onTick ⟨1⟩ 200 3), .advance 1, .advance 1, .read 1 ⟨1⟩, .advance 1,
    .advance 0, .advance 1, .advance 0, .advance 1, .advance 0, .advance 1]

theorem peak_holds_overlapping : PeakHolds (Config.new 1000 0) overlapping :=
  peak_holds_of_unraised 1000 0 overlapping (forall_split_of_all (by decide +kernel))

/-- Both equities have been computed in this schedule, and the peak is the greater one. -/
example : (threadRun (Config.new 1000 0) overlapping).shared.equities.toFinset = {900, 1000, 2000} ∧
    peak (threadRun (Config.new 1000 0) overlapping).shared = 2000 := by
  decide +kernel

/-- A buy, then a tick that falls overtaken by a tick that rises: both read the peak of the base
capital, and the one that falls stores last. -/
def overtaken : List Label :=
  [.start 0 (.onFill ⟨1⟩ ⟨.buy, 10, 100⟩ 1), .advance 0, .read 0 ⟨1⟩, .advance 0, .advance 0,
    .advance 0, .advance 0,
    .start 0 (.onTick ⟨1⟩ 90 2), .advance 0, .advance 0, .read 0 ⟨1⟩, .advance 0, .advance 0,
    .start 1 (.onTick ⟨1⟩ 200 3), .advance 1, .advance 1, .read 1 ⟨1⟩, .advance 1, .advance 1,
    .advance 1, .advance 1,
    .advance 0]

/-- The last section of the schedule lowers the peak from 2000 to 1000. -/
theorem not_peakHolds_overtaken :
    ¬ ∀ (baseCapitalPaise : Int64) (throttleNs : UInt64) (labels : List Label),
      PeakHolds (Config.new baseCapitalPaise throttleNs) labels := by
  intro h
  have hstep := (h 1000 0 overtaken).1 overtaken.dropLast (.advance 0) [] rfl
  have hbefore : peak (threadRun (Config.new 1000 0) overtaken.dropLast).shared = 2000 := by
    decide +kernel
  have hafter : peak (threadRun (Config.new 1000 0) (overtaken.dropLast ++ [.advance 0])).shared
      = 1000 := by
    decide +kernel
  rw [hbefore, hafter] at hstep
  exact absurd hstep (by decide)

end Concurrent

end Hedge.Positions
