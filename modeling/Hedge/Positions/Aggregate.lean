import Hedge.Common.Run
import Hedge.Positions.Engine

/-!
# The aggregate of a position engine

Reference: `hedge-position/src/engine.rs`, `hedge-position/src/risk_state.rs`.

The aggregate is a function of three totals over the positions and of the carried peak. It is
recomputed by every fill and by every tick on an open position. A tick on a flat position and a new
allocation are not followed by a recomputation, and leave the totals as they are.
-/

namespace Hedge.Positions

open Hedge Hedge.Common

/-! ## Totals over a map -/

section Total

variable {κ ν : Type*} [DecidableEq κ]

/-- The total of `f` over the values of a map. -/
def mapTotal (m : Map κ ν) (f : ν → ℤ) : ℤ := (m.entries.map fun e => f e.2).sum

theorem sum_kerase (f : ν → ℤ) (key : κ) (entries : List (Sigma fun _ : κ => ν)) :
    ((entries.kerase key).map fun e => f e.2).sum + (entries.dlookup key).elim 0 f
      = (entries.map fun e => f e.2).sum := by
  induction entries with
  | nil => rfl
  | cons e entries ih =>
    by_cases hkey : key = e.1
    · subst hkey
      rw [List.kerase_cons_eq rfl, List.dlookup_cons_eq, List.map_cons, List.sum_cons,
        Option.elim_some, Int.add_comm]
    · rw [List.kerase_cons_ne hkey, List.dlookup_cons_ne _ _ hkey, List.map_cons, List.map_cons,
        List.sum_cons, List.sum_cons, Int.add_assoc, ih]

/-- Replacing a value changes a total by the difference. -/
theorem mapTotal_insert (m : Map κ ν) (f : ν → ℤ) (key : κ) (value : ν) :
    mapTotal (m.insert key value) f + (m.lookup key).elim 0 f = f value + mapTotal m f := by
  rw [mapTotal, AList.entries_insert, List.map_cons, List.sum_cons, Int.add_assoc]
  congr 1
  exact sum_kerase f key m.entries

/-- A value that counts the same leaves the total alone. -/
theorem mapTotal_insert_of_eq {m : Map κ ν} {f : ν → ℤ} {key : κ} {value : ν}
    (h : f value = (m.lookup key).elim 0 f) : mapTotal (m.insert key value) f = mapTotal m f := by
  have hinsert := mapTotal_insert m f key value
  omega

end Total

/-! ## Aggregate and equity -/

/-- The peak of a list of equities over the base capital. -/
def peakOf (baseCapitalPaise : Int64) (equities : List ℤ) : ℤ :=
  equities.foldl max baseCapitalPaise.toInt

theorem peakOf_concat (baseCapitalPaise : Int64) (equities : List ℤ) (equity : ℤ) :
    peakOf baseCapitalPaise (equities ++ [equity]) = max (peakOf baseCapitalPaise equities) equity :=
  List.foldl_append

namespace PositionEngine

/-- The equity: base capital, realised and unrealised PnL. -/
def equity (engine : PositionEngine) : ℤ :=
  engine.baseCapitalPaise.toInt
    + (mapTotal engine.positions (·.realizedPnlPaise.toInt)
      + mapTotal engine.positions (·.unrealizedPnlPaise.toInt))

/-- `aggregate_state` of the current positions. -/
def aggregateWith (engine : PositionEngine) (previousPeak : Int64) : TraderRiskState :=
  aggregateState (engine.positions.entries.map (·.2)) engine.baseCapitalPaise previousPeak

theorem aggregateWith_eq (engine : PositionEngine) (previousPeak : Int64) :
    engine.aggregateWith previousPeak =
      { aggregateExposurePaise := Int64.clamp (mapTotal engine.positions (·.exposurePaise.toInt))
        drawdownPaise :=
          Int64.clamp (max (max engine.equity previousPeak.toInt - engine.equity) 0)
        availableMarginPaise := Int64.clamp (engine.baseCapitalPaise.toInt
          + mapTotal engine.positions (·.realizedPnlPaise.toInt)
          - mapTotal engine.positions (·.exposurePaise.toInt))
        peakEquityPaise := Int64.clamp (max engine.equity previousPeak.toInt) } := by
  simp only [aggregateWith, aggregateState, List.map_map]
  rfl

/-- The peak only goes up, as far as the field goes. -/
theorem toInt_peak_aggregateWith (engine : PositionEngine) (previousPeak : Int64) :
    (engine.aggregateWith previousPeak).peakEquityPaise.toInt
      = min (max previousPeak.toInt engine.equity) (2 ^ 63 - 1) := by
  have hlow := previousPeak.le_toInt
  rw [aggregateWith_eq, Int64.toInt_clamp]
  omega

/-- The new peak can be carried instead of the old one. -/
theorem aggregateWith_peak (engine : PositionEngine) (previousPeak : Int64) :
    engine.aggregateWith (engine.aggregateWith previousPeak).peakEquityPaise
      = engine.aggregateWith previousPeak := by
  have hhigh : previousPeak.toInt ≤ 2 ^ 63 - 1 := Int.le_sub_one_of_lt previousPeak.toInt_lt
  have hmax : max engine.equity (engine.aggregateWith previousPeak).peakEquityPaise.toInt
      = max engine.equity previousPeak.toInt := by
    rw [toInt_peak_aggregateWith]
    omega
  rw [aggregateWith_eq, hmax, ← aggregateWith_eq]

/-- The aggregate depends on the positions through the three totals. -/
theorem aggregateWith_congr {engine engine' : PositionEngine}
    (hbase : engine'.baseCapitalPaise = engine.baseCapitalPaise)
    (hexposure : mapTotal engine'.positions (·.exposurePaise.toInt)
      = mapTotal engine.positions (·.exposurePaise.toInt))
    (hrealized : mapTotal engine'.positions (·.realizedPnlPaise.toInt)
      = mapTotal engine.positions (·.realizedPnlPaise.toInt))
    (hunrealized : mapTotal engine'.positions (·.unrealizedPnlPaise.toInt)
      = mapTotal engine.positions (·.unrealizedPnlPaise.toInt)) (previousPeak : Int64) :
    engine'.aggregateWith previousPeak = engine.aggregateWith previousPeak := by
  have hequity : engine'.equity = engine.equity := by
    rw [equity, equity, hbase, hrealized, hunrealized]
  rw [aggregateWith_eq, aggregateWith_eq, hequity, hbase, hexposure, hrealized]

/-! ## Calls -/

/-- A call of the engine. -/
inductive Call where
  | onFill (symbol : SymbolId) (fill : Fill) (nowNs : UInt64)
  | onTick (symbol : SymbolId) (markPx : Int64) (nowNs : UInt64)
  | setStrategyAllocations (symbol : SymbolId) (allocs : List StrategyAllocation)
deriving DecidableEq, Repr

/-- One call: the events it returns and the next engine. -/
def callStep (engine : PositionEngine) : Call → List PositionEvent × PositionEngine
  | .onFill symbol fill nowNs => engine.onFill symbol fill nowNs
  | .onTick symbol markPx nowNs => engine.onTick symbol markPx nowNs
  | .setStrategyAllocations symbol allocs => ([], engine.setStrategyAllocations symbol allocs)

/-- The engine after a sequence of calls. -/
def callRun (engine : PositionEngine) (calls : List Call) : PositionEngine :=
  runState callStep engine calls

/-- The call recomputes the aggregate. -/
def recomputes (engine : PositionEngine) : Call → Bool
  | .onFill _ _ _ => true
  | .onTick symbol _ _ => (engine.positionOf symbol).elim false (·.quantity ≠ 0)
  | .setStrategyAllocations _ _ => false

/-- The equity a call computes, if it does. -/
def computedEquity (engine : PositionEngine) (call : Call) : List ℤ :=
  if engine.recomputes call then [(engine.callStep call).2.equity] else []

/-- The last aggregate among a list of events. -/
def lastRiskState (events : List PositionEvent) : Option TraderRiskState :=
  (events.filterMap fun
    | .riskState state => some state
    | .positionUpdate _ _ => none).getLast?

/-! ## What a call does to the aggregate -/

/-- A flat position carries no unrealised PnL. -/
def FlatUnmarked (engine : PositionEngine) : Prop :=
  ∀ symbol position, engine.positionOf symbol = some position →
    position.quantity = 0 → position.unrealizedPnlPaise = 0

theorem unrealizedPnlPaise_of_flat {qty : Int64} (h : qty = 0) (avgEntryPx markPx : Int64) :
    unrealizedPnlPaise qty avgEntryPx markPx = 0 := if_pos (.inl h)

theorem FlatUnmarked.insert {engine engine' : PositionEngine} (h : engine.FlatUnmarked)
    {symbol : SymbolId} {position : Position}
    (hinsert : engine'.positions = engine.positions.insert symbol position)
    (hposition : position.quantity = 0 → position.unrealizedPnlPaise = 0) :
    engine'.FlatUnmarked := by
  intro s p hp
  rw [positionOf, hinsert] at hp
  by_cases hs : s = symbol
  · rw [hs, AList.lookup_insert] at hp
    cases hp
    exact hposition
  · rw [AList.lookup_insert_ne hs] at hp
    exact h s p hp

/-- The call leaves the aggregate and everything it depends on as it was. -/
structure Quiet (engine engine' : PositionEngine) : Prop where
  base : engine'.baseCapitalPaise = engine.baseCapitalPaise
  aggregate : engine'.aggregate = engine.aggregate
  published : engine'.lastPublishedAggregate = engine.lastPublishedAggregate
  current : ∀ peak, engine'.aggregateWith peak = engine.aggregateWith peak

/-- The call recomputes the aggregate, and has published what it computed. -/
structure Recomputed (engine engine' : PositionEngine) (events : List PositionEvent) : Prop where
  base : engine'.baseCapitalPaise = engine.baseCapitalPaise
  aggregate : engine'.aggregate = engine'.aggregateWith engine.aggregate.peakEquityPaise
  published : engine'.lastPublishedAggregate = some engine'.aggregate
  last : (lastRiskState events).or engine.lastPublishedAggregate = some engine'.aggregate

/-- Putting back a position that counts the same is quiet. -/
theorem quiet_insert {engine : PositionEngine} {symbol : SymbolId} {position : Position}
    (h : ∀ old, (engine.positionOf symbol).getD (.flat symbol) = old →
      position.exposurePaise = old.exposurePaise ∧
      position.realizedPnlPaise = old.realizedPnlPaise ∧
      position.unrealizedPnlPaise = old.unrealizedPnlPaise) :
    Quiet engine { engine with positions := engine.positions.insert symbol position } := by
  obtain ⟨hexposure, hrealized, hunrealized⟩ := h _ rfl
  have htotal : ∀ f : Position → ℤ, f (.flat symbol) = 0 →
      f position = f ((engine.positionOf symbol).getD (.flat symbol)) →
      mapTotal (engine.positions.insert symbol position) f = mapTotal engine.positions f := by
    intro f hzero hsame
    apply mapTotal_insert_of_eq
    rw [hsame, positionOf]
    cases engine.positions.lookup symbol with
    | none => exact hzero
    | some old => rfl
  refine ⟨rfl, rfl, rfl, aggregateWith_congr rfl ?_ ?_ ?_⟩
  · exact htotal _ rfl (by rw [hexposure])
  · exact htotal _ rfl (by rw [hrealized])
  · exact htotal _ rfl (by rw [hunrealized])

section Calls

variable {engine : PositionEngine}

theorem onFill_recomputed (symbol : SymbolId) (fill : Fill) (nowNs : UInt64) :
    Recomputed engine (engine.onFill symbol fill nowNs).2 (engine.onFill symbol fill nowNs).1 :=
  ⟨rfl, rfl, rfl, rfl⟩

theorem onTick_recomputed {symbol : SymbolId} {position : Position}
    (hposition : engine.positionOf symbol = some position) (hopen : position.quantity ≠ 0)
    (markPx : Int64) (nowNs : UInt64) :
    Recomputed engine (engine.onTick symbol markPx nowNs).2
      (engine.onTick symbol markPx nowNs).1 := by
  unfold onTick
  rw [hposition]
  dsimp only
  rw [if_neg hopen]
  dsimp only [recomputeAggregate]
  -- An aggregate that is not published again is the one published last.
  split_ifs with hdue hchanged hchanged
  · exact ⟨rfl, rfl, rfl, rfl⟩
  · have hsame := not_not.mp (mt bne_iff_ne.mpr hchanged)
    exact ⟨rfl, rfl, hsame, hsame⟩
  · exact ⟨rfl, rfl, rfl, rfl⟩
  · have hsame := not_not.mp (mt bne_iff_ne.mpr hchanged)
    exact ⟨rfl, rfl, hsame, hsame⟩

theorem positions_onTick {symbol : SymbolId} {position : Position}
    (hposition : engine.positionOf symbol = some position) (hopen : position.quantity ≠ 0)
    (markPx : Int64) (nowNs : UInt64) :
    (engine.onTick symbol markPx nowNs).2.positions
      = engine.positions.insert symbol (position.applyMark markPx) := by
  unfold onTick
  rw [hposition]
  dsimp only
  rw [if_neg hopen]
  dsimp only [recomputeAggregate]
  split_ifs <;> rfl

/-- A tick on a flat position only moves its mark. -/
theorem onTick_of_flat {symbol : SymbolId} {position : Position}
    (hposition : engine.positionOf symbol = some position) (hflat : position.quantity = 0)
    (markPx : Int64) (nowNs : UInt64) :
    engine.onTick symbol markPx nowNs = ([], { engine with
      positions := engine.positions.insert symbol
        { position with lastMarkPx := markPx, unrealizedPnlPaise := 0 } }) := by
  unfold onTick
  rw [hposition]
  dsimp only
  rw [if_pos hflat]

theorem onTick_of_untracked {symbol : SymbolId} (h : engine.positionOf symbol = none)
    (markPx : Int64) (nowNs : UInt64) : engine.onTick symbol markPx nowNs = ([], engine) := by
  unfold onTick
  rw [h]

theorem flatUnmarked_callStep (h : engine.FlatUnmarked) (call : Call) :
    (engine.callStep call).2.FlatUnmarked := by
  cases call with
  | onFill symbol fill nowNs =>
    exact h.insert rfl fun hflat => unrealizedPnlPaise_of_flat hflat _ _
  | setStrategyAllocations symbol allocs =>
    refine h.insert rfl ?_
    cases hposition : engine.positionOf symbol with
    | none => exact fun _ => rfl
    | some position => exact h symbol position hposition
  | onTick symbol markPx nowNs =>
    cases hposition : engine.positionOf symbol with
    | none =>
      rw [callStep, onTick_of_untracked hposition]
      exact h
    | some position =>
      by_cases hflat : position.quantity = 0
      · rw [callStep, onTick_of_flat hposition hflat]
        exact h.insert rfl fun _ => rfl
      · refine h.insert (positions_onTick hposition hflat markPx nowNs) ?_
        exact fun hzero => unrealizedPnlPaise_of_flat hzero _ _

/-- What a call can do: recompute and publish the aggregate, or nothing that concerns it. -/
theorem callStep_cases (h : engine.FlatUnmarked) (call : Call) :
    (engine.recomputes call = true ∧
      Recomputed engine (engine.callStep call).2 (engine.callStep call).1) ∨
    (engine.recomputes call = false ∧ (engine.callStep call).1 = [] ∧
      Quiet engine (engine.callStep call).2) := by
  cases call with
  | onFill symbol fill nowNs => exact .inl ⟨rfl, onFill_recomputed symbol fill nowNs⟩
  | setStrategyAllocations symbol allocs =>
    refine .inr ⟨rfl, rfl, quiet_insert ?_⟩
    rintro old rfl
    exact ⟨rfl, rfl, rfl⟩
  | onTick symbol markPx nowNs =>
    cases hposition : engine.positionOf symbol with
    | none =>
      refine .inr ⟨by simp [recomputes, hposition], ?_⟩
      rw [callStep, onTick_of_untracked hposition]
      exact ⟨rfl, rfl, rfl, rfl, fun _ => rfl⟩
    | some position =>
      by_cases hflat : position.quantity = 0
      · refine .inr ⟨by simp [recomputes, hposition, hflat], ?_⟩
        rw [callStep, onTick_of_flat hposition hflat]
        refine ⟨rfl, quiet_insert ?_⟩
        rintro old rfl
        rw [hposition]
        exact ⟨rfl, rfl, (h symbol position hposition hflat).symm⟩
      · refine .inl ⟨by simp [recomputes, hposition, hflat], ?_⟩
        exact onTick_recomputed hposition hflat markPx nowNs

end Calls

/-! ## Runs -/

/-- The engine agrees with its positions and with what it computed and published so far. -/
structure Consistent (baseCapitalPaise : Int64) (engine : PositionEngine) (equities : List ℤ) :
    Prop where
  base : engine.baseCapitalPaise = baseCapitalPaise
  flat : engine.FlatUnmarked
  current : engine.aggregate = engine.aggregateWith engine.aggregate.peakEquityPaise
  peak : engine.aggregate.peakEquityPaise.toInt = min (peakOf baseCapitalPaise equities) (2 ^ 63 - 1)
  published : ∀ state, engine.lastPublishedAggregate = some state → state = engine.aggregate

theorem consistent_withThrottle (baseCapitalPaise : Int64) (throttleNs : UInt64) :
    Consistent baseCapitalPaise (withThrottle baseCapitalPaise throttleNs) [] := by
  have hequity : (withThrottle baseCapitalPaise throttleNs).equity = baseCapitalPaise.toInt :=
    Int.add_zero _
  have hnone : ∀ f : Position → ℤ, mapTotal (withThrottle baseCapitalPaise throttleNs).positions f
      = 0 := fun _ => rfl
  refine ⟨rfl, fun _ _ h => (by cases h), ?_, ?_, fun _ h => (by cases h)⟩
  · rw [aggregateWith_eq, hequity, hnone, hnone]
    simp [withThrottle, TraderRiskState.fresh]
    rfl
  · have hhigh := baseCapitalPaise.toInt_lt
    change baseCapitalPaise.toInt = min baseCapitalPaise.toInt _
    omega

section Runs

variable {baseCapitalPaise : Int64} {engine : PositionEngine} {equities : List ℤ}

theorem Consistent.step (h : Consistent baseCapitalPaise engine equities) (call : Call) :
    Consistent baseCapitalPaise (engine.callStep call).2
      (equities ++ engine.computedEquity call) := by
  have hflat := flatUnmarked_callStep h.flat call
  rcases callStep_cases h.flat call with ⟨hcall, hstep⟩ | ⟨hcall, -, hstep⟩
  · rw [computedEquity, if_pos hcall]
    generalize (engine.callStep call).2 = engine' at hstep hflat ⊢
    refine ⟨hstep.base.trans h.base, hflat, ?_, ?_, ?_⟩
    · have hidem := aggregateWith_peak engine' engine.aggregate.peakEquityPaise
      rw [← hstep.aggregate] at hidem
      exact hidem.symm
    · rw [hstep.aggregate, toInt_peak_aggregateWith, h.peak, peakOf_concat]
      omega
    · intro state hstate
      rw [hstep.published] at hstate
      exact (Option.some.inj hstate).symm
  · rw [computedEquity, hcall, if_neg Bool.false_ne_true, List.append_nil]
    generalize (engine.callStep call).2 = engine' at hstep hflat ⊢
    refine ⟨hstep.base.trans h.base, hflat, ?_, ?_, ?_⟩
    · rw [hstep.aggregate, hstep.current]
      exact h.current
    · rw [hstep.aggregate]
      exact h.peak
    · rw [hstep.published, hstep.aggregate]
      exact h.published

theorem Consistent.run (h : Consistent baseCapitalPaise engine equities) (calls : List Call) :
    Consistent baseCapitalPaise (engine.callRun calls)
      (equities ++ runCollect callStep computedEquity engine calls) := by
  induction calls generalizing engine equities with
  | nil =>
    rw [runCollect_nil, List.append_nil]
    exact h
  | cons call calls ih =>
    rw [runCollect_cons, ← List.append_assoc]
    exact ih (h.step call)

theorem lastRiskState_append (xs ys : List PositionEvent) :
    lastRiskState (xs ++ ys) = (lastRiskState ys).or (lastRiskState xs) := by
  rw [lastRiskState, List.filterMap_append, List.getLast?_append]
  rfl

/-- What was published last is remembered. -/
theorem lastRiskState_run (h : engine.FlatUnmarked) (calls : List Call) :
    (lastRiskState (runOutputs callStep engine calls).flatten).or engine.lastPublishedAggregate
      = (engine.callRun calls).lastPublishedAggregate := by
  induction calls generalizing engine with
  | nil => rfl
  | cons call calls ih =>
    have hstep : (lastRiskState (engine.callStep call).1).or engine.lastPublishedAggregate
        = (engine.callStep call).2.lastPublishedAggregate := by
      rcases callStep_cases h call with ⟨-, hstep⟩ | ⟨-, hevents, hstep⟩
      · rw [hstep.last, hstep.published]
      · rw [hevents, hstep.published]
        rfl
    rw [runOutputs_cons, List.flatten_cons, lastRiskState_append, Option.or_assoc, hstep]
    exact ih (flatUnmarked_callStep h call)

end Runs

/-- After every sequence of calls the snapshot is the aggregate of the current positions, with the
peak of the base capital and every equity computed, and the drawdown from it, both cut off at the
range of the field; the last aggregate published is the snapshot. -/
theorem aggregate_agrees (baseCapitalPaise : Int64) (throttleNs : UInt64) (calls : List Call) :
    let fresh := withThrottle baseCapitalPaise throttleNs
    let engine := fresh.callRun calls
    let state := engine.snapshotRiskState
    state = engine.aggregateWith state.peakEquityPaise ∧
    state.peakEquityPaise.toInt
      = min (peakOf baseCapitalPaise (runCollect callStep computedEquity fresh calls)) (2 ^ 63 - 1) ∧
    state.drawdownPaise.toInt
      = min (max (state.peakEquityPaise.toInt - engine.equity) 0) (2 ^ 63 - 1) ∧
    ∀ last, lastRiskState (runOutputs callStep fresh calls).flatten = some last → last = state := by
  intro fresh engine state
  have hrun := (consistent_withThrottle baseCapitalPaise throttleNs).run calls
  rw [List.nil_append] at hrun
  refine ⟨hrun.current, hrun.peak, ?_, ?_⟩
  · have hcurrent : state = engine.aggregateWith state.peakEquityPaise := hrun.current
    have hdrawdown := congrArg TraderRiskState.drawdownPaise hcurrent
    rw [aggregateWith_eq] at hdrawdown
    rw [hdrawdown, Int64.toInt_clamp]
    omega
  · intro last hlast
    have hpublished := lastRiskState_run (consistent_withThrottle baseCapitalPaise throttleNs).flat
      calls
    rw [hlast] at hpublished
    exact hrun.published last hpublished.symm

/-- At the top of the range the peak and the drawdown are not those of the equities. -/
theorem peak_saturates :
    ¬ ∀ (baseCapitalPaise : Int64) (throttleNs : UInt64) (calls : List Call),
      let fresh := withThrottle baseCapitalPaise throttleNs
      let engine := fresh.callRun calls
      let state := engine.snapshotRiskState
      state.peakEquityPaise.toInt
          = peakOf baseCapitalPaise (runCollect callStep computedEquity fresh calls) ∧
        state.drawdownPaise.toInt = state.peakEquityPaise.toInt - engine.equity := by
  intro h
  have hpeak := (h Int64.maxValue 0 [.onFill ⟨1⟩ ⟨.buy, 1, 100⟩ 0, .onTick ⟨1⟩ 200 1]).1
  exact absurd hpeak (by decide +kernel)

end PositionEngine

end Hedge.Positions
