import Hedge.Orderflow.Engine

/-!
# The windows in real time

Reference: `hedge-orderflow/src/engine.rs`, `hedge-orderflow/src/bin/main.rs`.

What a tick reads of the window is the volume of the last thirty seconds. What a book reads is
measured on the clock of the service, which is close to the epoch for the times of the trades, so it
is everything the window still holds. The two agree as long as nothing that is read is older than
the window.
-/

namespace Hedge.Orderflow

open Hedge Hedge.Common Hedge.Bus Hedge.Core
open Hedge.Warm (clockNs)

/-! ## Recorded trades -/

/-- The trade that a message adds to a symbol. -/
def recorded (symbol : SymbolId) (engine : OrderflowEngine) : FlowEvent → List Trade
  | .tick tick =>
    if symbol = ⟨tick.symbol⟩ then
      let volumes := OrderflowState.aggressor (engine.stateOf symbol).book tick
      [⟨tick.tsRecvNs, volumes.1, volumes.2⟩]
    else []
  | .book _ _ => []

/-- The trades of a symbol over some messages. -/
def tradesOf (startNs : ℕ) (symbol : SymbolId) (events : List FlowEvent) : List Trade :=
  runCollect (flowStep startNs) (recorded symbol) .new events

/-- The volumes of a snapshot are those of the trades in the window before a real time. -/
structure CountsRealTime (trades : List Trade) (realNs : ℕ) (snap : OrderflowSnapshot) : Prop where
  buyer : RollingDelta.CountsWindow 30000000000 100000000 realNs .buy trades
    snap.aggressiveBuyerVolume
  seller : RollingDelta.CountsWindow 30000000000 100000000 realNs .sell trades
    snap.aggressiveSellerVolume

/-- Every snapshot of a run counts real time. -/
def VolumesCountRealTime (startNs : ℕ) (events : List FlowEvent) : Prop :=
  ∀ pre ev post, events = pre ++ ev :: post →
    ∀ snap, (flowStep startNs (flowRun startNs pre) ev).1 = some snap →
      CountsRealTime (tradesOf startNs snap.symbol (pre ++ [ev])) ev.atNs snap

/-- A book that is applied reads nothing of its symbol that is older than the window. -/
def ReadsCurrent (startNs : ℕ) (engine : OrderflowEngine) : FlowEvent → Prop
  | .tick _ => True
  | .book envelope atNs => ∀ book ∈ readBook envelope (clockNs startNs atNs),
    ((engine.stateOf ⟨book.symbol⟩).book.apply book).1 = true →
      ∀ b ∈ (engine.stateOf ⟨book.symbol⟩).delta.held,
        (clockNs startNs atNs).toNat - 30000000000 ≤ b.bucketStartNs.toNat →
          atNs - 30000000000 ≤ b.bucketStartNs.toNat

instance (startNs : ℕ) (engine : OrderflowEngine) (ev : FlowEvent) :
    Decidable (ReadsCurrent startNs engine ev) :=
  match ev with
  | .tick _ => isTrue trivial
  | .book envelope atNs => inferInstanceAs (Decidable (∀ book ∈
    readBook envelope (clockNs startNs atNs), _ → ∀ b ∈ _, _ ≤ _ → _ ≤ _))

/-! ## The window of a symbol over a run -/

/-- The state of a symbol stands for its trades, in a window of thirty seconds. -/
structure Follows (symbol : SymbolId) (s : OrderflowState) (trades : List Trade) : Prop where
  symbol : s.symbol = symbol
  windowNs : s.delta.windowNs = 30000000000
  bucketSizeNs : s.delta.bucketSizeNs = 100000000
  tracks : ∃ closed, s.delta.Tracks closed trades

section Step

variable {symbol : SymbolId} {s : OrderflowState} {trades : List Trade} {startNs : ℕ}
  {engine : OrderflowEngine}

theorem follows_withWindow (symbol : SymbolId) :
    Follows symbol (.withWindow symbol defaultRollingDeltaWindowNs) [] where
  symbol := rfl
  windowNs := rfl
  bucketSizeNs := rfl
  tracks := ⟨[], RollingDelta.tracks_withWindow (by decide)⟩

/-- A book changes neither the symbol nor the window. -/
theorem Follows.ingestBook (h : Follows symbol s trades) (book : OrderBook) (nowNs : UInt64) :
    Follows symbol (s.ingestBook book nowNs).2 trades := by
  unfold OrderflowState.ingestBook
  dsimp only
  split_ifs
  · exact ⟨h.symbol, h.windowNs, h.bucketSizeNs, h.tracks⟩
  · exact h

/-- A tick adds its trade. -/
theorem Follows.recordTick (h : Follows symbol s trades) {tick : Tick} {nowNs : UInt64}
    (hnow : ∀ t ∈ trades, t.atNs ≤ nowNs) :
    Follows symbol (s.recordTick tick nowNs) (trades ++
      [⟨nowNs, (OrderflowState.aggressor s.book tick).1,
        (OrderflowState.aggressor s.book tick).2⟩]) := by
  obtain ⟨closed, htracks⟩ := h.tracks
  unfold OrderflowState.recordTick
  dsimp only
  split_ifs with hvolume
  · obtain ⟨hwindow, hsize⟩ := s.delta.record_config nowNs
      (OrderflowState.aggressor s.book tick).1 (OrderflowState.aggressor s.book tick).2
    exact ⟨h.symbol, hwindow.trans h.windowNs, hsize.trans h.bucketSizeNs,
      htracks.record ⟨nowNs, _, _⟩ hnow⟩
  · obtain ⟨hbuyer, hseller⟩ := not_or.mp hvolume
    rw [not_not.mp hbuyer, not_not.mp hseller]
    exact ⟨h.symbol, h.windowNs, h.bucketSizeNs, closed, htracks.skip nowNs⟩

/-- One step: the state of every symbol follows the trades of the symbol. -/
theorem follows_flowStep (h : Follows symbol (engine.stateOf symbol) trades) {ev : FlowEvent}
    (hnow : ∀ t ∈ trades, t.atNs.toNat ≤ ev.atNs) :
    Follows symbol ((flowStep startNs engine ev).2.stateOf symbol)
      (trades ++ recorded symbol engine ev) := by
  cases ev with
  | book envelope atNs =>
    rw [recorded, List.append_nil, flowStep]
    cases readBook envelope (clockNs startNs atNs) with
    | none => exact h
    | some book =>
      show Follows symbol ((engine.put _ _).stateOf symbol) trades
      rw [OrderflowEngine.stateOf_put]
      split_ifs with hsymbol
      · rw [← hsymbol]
        exact h.ingestBook book _
      · exact h
  | tick tick =>
    show Follows symbol ((engine.put _ _).stateOf symbol) (trades ++ recorded symbol engine _)
    rw [OrderflowEngine.stateOf_put, recorded]
    split_ifs with hsymbol
    · rw [← hsymbol]
      exact h.recordTick fun t ht => UInt64.le_iff_toNat_le.mpr (hnow t ht)
    · rw [List.append_nil]
      exact h

/-- A trade comes from a message of its time. -/
theorem exists_of_mem_tradesOf {events : List FlowEvent} {t : Trade}
    (ht : t ∈ tradesOf startNs symbol events) : ∃ ev ∈ events, t.atNs.toNat = ev.atNs := by
  have hall : ∀ t ∈ tradesOf startNs symbol events, ∃ ev ∈ events, t.atNs.toNat = ev.atNs := by
    refine forall_mem_runCollect_iff.mpr ?_
    intro pre ev post hsplit t ht
    refine ⟨ev, by rw [hsplit]; simp, ?_⟩
    cases ev with
    | book envelope atNs => exact absurd ht List.not_mem_nil
    | tick tick =>
      rw [recorded] at ht
      split_ifs at ht
      · rw [List.mem_singleton.mp ht]
        rfl
      · exact absurd ht List.not_mem_nil
  exact hall t ht

/-- The whole run. -/
theorem follows_flowRun (startNs : ℕ) (symbol : SymbolId) {events : List FlowEvent}
    (hordered : events.Pairwise fun a b => a.atNs ≤ b.atNs) :
    Follows symbol ((flowRun startNs events).stateOf symbol) (tradesOf startNs symbol events) := by
  induction events using List.reverseRecOn with
  | nil => exact follows_withWindow symbol
  | append_singleton events ev ih =>
    obtain ⟨hbefore, -, hlast⟩ := List.pairwise_append.mp hordered
    rw [flowRun, runState_append, tradesOf, runCollect_concat]
    refine follows_flowStep (ih hbefore) ?_
    intro t ht
    obtain ⟨ev', hmem, htime⟩ := exists_of_mem_tradesOf ht
    rw [htime]
    exact hlast ev' hmem ev (List.mem_singleton_self _)

/-- A snapshot counts real time if its cutoff tells the buckets of the window apart like the real
one does. -/
theorem Follows.countsRealTime (h : Follows symbol s trades) {realNs : ℕ} {nowNs : UInt64}
    (hnow : ∀ t ∈ trades, t.atNs.toNat ≤ realNs)
    (hcutoff : ∀ b ∈ s.delta.held, nowNs.toNat - 30000000000 ≤ b.bucketStartNs.toNat ↔
      realNs - 30000000000 ≤ b.bucketStartNs.toNat) :
    CountsRealTime trades realNs (s.snapshot nowNs) := by
  obtain ⟨closed, htracks⟩ := h.tracks
  have hwindow : s.delta.windowNs.toNat = 30000000000 := congrArg UInt64.toNat h.windowNs
  have hsize : s.delta.bucketSizeNs.toNat = 100000000 := congrArg UInt64.toNat h.bucketSizeNs
  have hsame : ∀ b ∈ s.delta.held,
      (nowNs.saturatingSub s.delta.windowNs).toNat ≤ b.bucketStartNs.toNat ↔
        realNs - s.delta.windowNs.toNat ≤ b.bucketStartNs.toNat := by
    rw [UInt64.toNat_saturatingSub, hwindow]
    exact hcutoff
  have hcount := htracks.countsWindow hnow hsame
  rw [hwindow, hsize] at hcount
  exact ⟨hcount .buy, hcount .sell⟩

/-- A clock that starts after the epoch is behind the real time. -/
theorem toNat_clockNs_le (startNs realNs : ℕ) : (clockNs startNs realNs).toNat ≤ realNs := by
  rw [Hedge.Warm.clockNs, UInt64.toNat_ofNat', Nat.mod_eq_of_lt (by omega)]
  omega

/-- The snapshot of a message is read from the state it leaves. A message that reads nothing older
than the window tells the buckets apart like the real time does. -/
theorem ReadsCurrent.exists_snapshot {ev : FlowEvent} (h : ReadsCurrent startNs engine ev)
    {snap : OrderflowSnapshot} (hsnap : (flowStep startNs engine ev).1 = some snap) :
    ∃ symbol nowNs, snap = ((flowStep startNs engine ev).2.stateOf symbol).snapshot nowNs ∧
      ∀ b ∈ ((flowStep startNs engine ev).2.stateOf symbol).delta.held,
        nowNs.toNat - 30000000000 ≤ b.bucketStartNs.toNat ↔
          ev.atNs - 30000000000 ≤ b.bucketStartNs.toNat := by
  cases ev with
  | tick tick =>
    refine ⟨⟨tick.symbol⟩, tick.tsRecvNs, ?_, fun b _ => Iff.rfl⟩
    show snap = ((engine.put _ _).stateOf _).snapshot _
    rw [OrderflowEngine.stateOf_put, if_pos rfl]
    exact (Option.some.inj hsnap).symm
  | book envelope atNs =>
    rw [flowStep] at hsnap ⊢
    cases hread : readBook envelope (clockNs startNs atNs) with
    | none =>
      rw [hread] at hsnap
      exact absurd hsnap nofun
    | some book =>
      rw [hread] at hsnap
      have hcurrent := h book hread
      refine ⟨⟨book.symbol⟩, clockNs startNs atNs, ?_⟩
      show snap = ((engine.put _ _).stateOf _).snapshot _ ∧
        ∀ b ∈ ((engine.put _ _).stateOf _).delta.held, _
      rw [OrderflowEngine.stateOf_put, if_pos rfl]
      have hingest : ((engine.stateOf ⟨book.symbol⟩).ingestBook book (clockNs startNs atNs)).1
        = some snap := hsnap
      unfold OrderflowState.ingestBook at hingest ⊢
      dsimp only at hingest ⊢
      split_ifs at hingest ⊢ with haccepted
      refine ⟨(Option.some.inj hingest).symm, fun b hb => ⟨hcurrent haccepted b hb, ?_⟩⟩
      exact (Nat.sub_le_sub_right (toNat_clockNs_le startNs atNs) _).trans

/-- One step: the snapshot counts real time. -/
theorem ReadsCurrent.countsRealTime {ev : FlowEvent} (h : ReadsCurrent startNs engine ev)
    {tradesOf' : SymbolId → List Trade}
    (hfollows : ∀ symbol, Follows symbol ((flowStep startNs engine ev).2.stateOf symbol)
      (tradesOf' symbol))
    (hnow : ∀ symbol, ∀ t ∈ tradesOf' symbol, t.atNs.toNat ≤ ev.atNs)
    {snap : OrderflowSnapshot} (hsnap : (flowStep startNs engine ev).1 = some snap) :
    CountsRealTime (tradesOf' snap.symbol) ev.atNs snap := by
  obtain ⟨symbol, nowNs, rfl, hcutoff⟩ := h.exists_snapshot hsnap
  have hsymbol : (((flowStep startNs engine ev).2.stateOf symbol).snapshot nowNs).symbol = symbol :=
    (hfollows symbol).symbol
  rw [hsymbol]
  exact (hfollows symbol).countsRealTime (hnow symbol) hcutoff

end Step

/-! ## Every run -/

/-- A time that no message of a run passes is passed by none of its trades. -/
theorem atNs_le_of_mem_tradesOf {startNs atNs : ℕ} {symbol : SymbolId} {events : List FlowEvent}
    (hevents : ∀ ev ∈ events, ev.atNs ≤ atNs) :
    ∀ t ∈ tradesOf startNs symbol events, t.atNs.toNat ≤ atNs := by
  intro t ht
  obtain ⟨ev, hmem, htime⟩ := exists_of_mem_tradesOf ht
  rw [htime]
  exact hevents ev hmem

/-- In a run whose books read nothing older than the window, every snapshot counts real time: its
volumes are those of the ticks of its symbol in the last thirty seconds, up to one bucket. -/
theorem volumes_count_real_time (startNs : ℕ) (events : List FlowEvent)
    (hordered : events.Pairwise fun a b => a.atNs ≤ b.atNs)
    (hcurrent : ∀ pre ev post, events = pre ++ ev :: post →
      ReadsCurrent startNs (flowRun startNs pre) ev) :
    VolumesCountRealTime startNs events := by
  intro pre ev post hsplit snap hsnap
  have hupTo : (pre ++ [ev]).Pairwise fun a b => a.atNs ≤ b.atNs := by
    rw [hsplit, List.append_cons] at hordered
    exact (List.pairwise_append.mp hordered).1
  have hlast : ∀ ev' ∈ pre ++ [ev], ev'.atNs ≤ ev.atNs := by
    rw [List.forall_mem_append]
    refine ⟨fun ev' hmem => ?_, List.forall_mem_singleton.mpr (Nat.le_refl _)⟩
    exact (List.pairwise_append.mp hupTo).2.2 ev' hmem ev (List.mem_singleton_self _)
  have hfollows : ∀ symbol, Follows symbol
      ((flowStep startNs (flowRun startNs pre) ev).2.stateOf symbol)
      (tradesOf startNs symbol (pre ++ [ev])) := by
    intro symbol
    have hrun := follows_flowRun startNs symbol hupTo
    rw [flowRun, runState_append] at hrun
    exact hrun
  exact (hcurrent pre ev post hsplit).countsRealTime hfollows
    (fun symbol => atNs_le_of_mem_tradesOf hlast) hsnap

/-! ## A book a minute after a trade -/

/-- The top of a book at a real time. -/
def bookAt (atNs : UInt64) : FlowEvent :=
  .book (.obj [("kind", .str "book"), ("data", .obj [("symbol", .str "INFY"),
    ("bid_paise", .num (.posInt 149900)), ("bid_qty", .num (.posInt 40)),
    ("ask_paise", .num (.posInt 150000)), ("ask_qty", .num (.posInt 60)),
    ("ts_ns", .num (.posInt atNs))])]) atNs.toNat

/-- A trade of ten at the ask. -/
def buyAt (atNs : UInt64) : FlowEvent :=
  .tick ⟨Vector.replicate 16 0, 2, 0, 150000, 149900, 150000, 10, 0, 0, atNs, atNs⟩

/-- The time the process starts. -/
def bootNs : ℕ := 1700000000000000000

theorem volumes_count_real_time_book_tick_book :
    VolumesCountRealTime bootNs [bookAt 1700000001000000000, buyAt 1700000002000000000,
      bookAt 1700000003000000000] :=
  volumes_count_real_time bootNs [bookAt 1700000001000000000, buyAt 1700000002000000000,
    bookAt 1700000003000000000] (by decide) (forall_split_of_all (by decide +kernel))

/-- The book of a minute later still counts the trade. -/
theorem minute_later_counts_trade : ∃ snap,
    (flowStep bootNs (flowRun bootNs [bookAt 1700000001000000000, buyAt 1700000002000000000])
      (bookAt 1700000062000000000)).1 = some snap ∧ snap.symbol = ⟨2⟩ ∧
        snap.aggressiveBuyerVolume = 10 := by
  refine ⟨_, rfl, rfl, ?_⟩
  decide +kernel

theorem tradesOf_minute_later :
    tradesOf bootNs ⟨2⟩ [bookAt 1700000001000000000, buyAt 1700000002000000000,
      bookAt 1700000062000000000] = [⟨1700000002000000000, 10, 0⟩] :=
  rfl

theorem book_counts_expired_trade :
    ¬ ∀ startNs, ∀ events : List FlowEvent, (events.Pairwise fun a b => a.atNs ≤ b.atNs) →
      VolumesCountRealTime startNs events := by
  intro h
  obtain ⟨snap, hsnap, hsymbol, hbuyer⟩ := minute_later_counts_trade
  have hcount := h bootNs [bookAt 1700000001000000000, buyAt 1700000002000000000,
    bookAt 1700000062000000000] (by decide) [bookAt 1700000001000000000, buyAt 1700000002000000000]
    (bookAt 1700000062000000000) [] rfl snap hsnap
  rw [hsymbol] at hcount
  obtain ⟨since, hlow, -, hvolume⟩ := hcount.buyer
  have hexpired : tradedSince .buy since [⟨1700000002000000000, 10, 0⟩] = 0 := by
    refine volumeSince_eq_zero (List.forall_mem_singleton.mpr ?_)
    show 1700000002000000000 < since
    have hwindow : 1700000062000000000 ≤ since + 30000000000 + 100000000 := hlow
    omega
  rw [hbuyer, List.cons_append, List.cons_append, List.nil_append, tradesOf_minute_later,
    hexpired] at hvolume
  exact absurd hvolume (by decide)

end Hedge.Orderflow
