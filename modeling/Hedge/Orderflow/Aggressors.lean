import Hedge.Orderflow.Spoofing

/-!
# The aggressor of a trade

Reference: `hedge-orderflow/src/engine.rs`, `hedge-orderflow/src/events.rs`.

A trade is classified twice. The state compares its price with the best ask and with the best bid, one
independently of the other, and adds to the rolling delta; the detector looks at the bid only when
there is an ask above the price. The two disagree when the trade hits a bid that the detector does not
look at: there is no ask, or the book is locked or crossed.
-/

namespace Hedge.Orderflow

open Hedge Hedge.Common Hedge.Core

/-! ## A state with its detector -/

/-- The state of a symbol and its detector. -/
structure DetectingState where
  flow : OrderflowState
  detector : Detector

/-- A snapshot and its events. -/
abbrev EventSnapshot := OrderflowSnapshot × List OrderflowEvent

namespace DetectingState

/-- `with_window`. -/
def withWindow (symbol : SymbolId) (rollingDeltaWindowNs : UInt64) : DetectingState :=
  ⟨.withWindow symbol rollingDeltaWindowNs, .new⟩

/-- `ingest_book`. -/
def ingestBook (s : DetectingState) (book : OrderBook) (nowNs : UInt64) :
    Option EventSnapshot × DetectingState :=
  let (accepted, live) := s.flow.book.apply book
  if accepted then
    let ((_, events), detector) := s.detector.observeBook live nowNs []
    let flow := { s.flow with book := live }
    (some (flow.snapshot nowNs, events), ⟨flow, detector⟩)
  else (none, s)

/-- `ingest_tick`. -/
def ingestTick (s : DetectingState) (tick : Tick) (nowNs : UInt64) :
    EventSnapshot × DetectingState :=
  let flow := s.flow.recordTick tick nowNs
  let ((_, events), detector) := s.detector.observeTrade tick s.flow.book []
  ((flow.snapshot nowNs, events), ⟨flow, detector⟩)

/-- The call that a book makes to the detector; none when it is dropped. -/
def bookCalls (s : DetectingState) (book : OrderBook) (nowNs : UInt64) : List DetectorCall :=
  let (accepted, live) := s.flow.book.apply book
  if accepted then [.book live nowNs] else []

/-- A message for the state, with the time it is handled at. -/
inductive Message where
  | book (book : OrderBook) (nowNs : UInt64)
  | tick (tick : Tick) (nowNs : UInt64)

/-- One message. -/
def handle (s : DetectingState) : Message → Option EventSnapshot × DetectingState
  | .book book nowNs => s.ingestBook book nowNs
  | .tick tick nowNs =>
    let (snapshot, s) := s.ingestTick tick nowNs
    (some snapshot, s)

/-- The calls of the detector that a message makes. -/
def callsOf (s : DetectingState) : Message → List DetectorCall
  | .book book nowNs => s.bookCalls book nowNs
  | .tick tick _ => [.trade tick s.flow.book]

/-- The state after some messages. -/
def after (symbol : SymbolId) (rollingDeltaWindowNs : UInt64) (messages : List Message) :
    DetectingState :=
  runState handle (.withWindow symbol rollingDeltaWindowNs) messages

theorem handle_detector (s : DetectingState) (message : Message) :
    (s.handle message).2.detector = runState detectorStep s.detector (s.callsOf message) := by
  cases message with
  | book book nowNs =>
    rw [handle, callsOf, ingestBook, bookCalls]
    simp only
    split_ifs <;> rfl
  | tick tick nowNs => rfl

/-- The detector of a state makes a run of its own. -/
theorem after_detector (symbol : SymbolId) (rollingDeltaWindowNs : UInt64)
    (messages : List Message) :
    (after symbol rollingDeltaWindowNs messages).detector =
      detectorRun defaultTickSizePaise
        (runCollect handle callsOf (.withWindow symbol rollingDeltaWindowNs) messages) := by
  induction messages using List.reverseRecOn with
  | nil => rfl
  | append_singleton messages message ih =>
    rw [after, runState_append, runState_cons, runState_nil, handle_detector, runCollect_concat,
      detectorRun, runState_append, ← detectorRun, ← ih]
    rfl

end DetectingState

/-! ## Two classifications -/

/-- A trade is added to one side of the rolling delta at most, and to the side that the detector
names. -/
def OneAggressor (live : LiveBook) (tick : Tick) : Prop :=
  ((OrderflowState.aggressor live tick).1 = tick.ltq ↔ aggressorSide live tick = some .buy) ∧
    ((OrderflowState.aggressor live tick).2 = tick.ltq ↔ aggressorSide live tick = some .sell) ∧
    ¬ ((OrderflowState.aggressor live tick).1 = tick.ltq ∧
      (OrderflowState.aggressor live tick).2 = tick.ltq)

/-- The best bid is at or above the price of the trade, and no ask is above it. -/
def BidIgnored (live : LiveBook) (tick : Tick) : Prop :=
  (∃ bid ∈ live.topBid, tick.ltpPaise ≤ bid.pricePaise) ∧
    ∀ ask ∈ live.topAsk, ask.pricePaise ≤ tick.ltpPaise

/-- The volume of the buyer. -/
theorem aggressor_fst {live : LiveBook} {tick : Tick} (h : tick.ltq ≠ 0) :
    (OrderflowState.aggressor live tick).1 = tick.ltq ↔
      ∃ ask ∈ live.topAsk, ask.pricePaise ≤ tick.ltpPaise := by
  rw [OrderflowState.aggressor]
  cases live.topAsk with
  | none => simpa using h.symm
  | some ask =>
    simp only [Option.mem_some_iff, exists_eq_left']
    split_ifs with hle
    · exact iff_of_true rfl hle
    · exact iff_of_false h.symm hle

/-- The volume of the seller. -/
theorem aggressor_snd {live : LiveBook} {tick : Tick} (h : tick.ltq ≠ 0) :
    (OrderflowState.aggressor live tick).2 = tick.ltq ↔
      ∃ bid ∈ live.topBid, tick.ltpPaise ≤ bid.pricePaise := by
  rw [OrderflowState.aggressor]
  cases live.topBid with
  | none => simpa using h.symm
  | some bid =>
    simp only [Option.mem_some_iff, exists_eq_left']
    split_ifs with hle
    · exact iff_of_true rfl hle
    · exact iff_of_false h.symm hle

/-- The detector sees a buy if the trade is at or above the best ask. -/
theorem aggressorSide_eq_buy {live : LiveBook} {tick : Tick} :
    aggressorSide live tick = some .buy ↔ ∃ ask ∈ live.topAsk, ask.pricePaise ≤ tick.ltpPaise := by
  rw [aggressorSide]
  cases live.topAsk with
  | none => simp
  | some ask =>
    simp only [Option.mem_some_iff, exists_eq_left']
    split_ifs with hle
    · exact iff_of_true rfl hle
    · refine iff_of_false ?_ hle
      cases live.topBid with
      | none => simp
      | some bid =>
        simp only
        split_ifs <;> simp

/-- The detector sees a sell if there is an ask, above the trade, and the trade is at or below the best
bid. -/
theorem aggressorSide_eq_sell {live : LiveBook} {tick : Tick} :
    aggressorSide live tick = some .sell ↔
      (∃ ask ∈ live.topAsk, tick.ltpPaise < ask.pricePaise) ∧
        ∃ bid ∈ live.topBid, tick.ltpPaise ≤ bid.pricePaise := by
  rw [aggressorSide]
  cases live.topAsk with
  | none => simp
  | some ask =>
    simp only [Option.mem_some_iff, exists_eq_left']
    split_ifs with hle
    · exact iff_of_false (by simp) fun h => Int64.not_le.mpr h.1 hle
    · rw [and_iff_right (Int64.not_le.mp hle)]
      cases live.topBid with
      | none => simp
      | some bid => simp

/-- The two classifications of a trade agree unless it hits a bid that the detector ignores. -/
theorem oneAggressor_iff {live : LiveBook} {tick : Tick} (h : tick.ltq ≠ 0) :
    OneAggressor live tick ↔ ¬ BidIgnored live tick := by
  have hexclusive : (∃ ask ∈ live.topAsk, ask.pricePaise ≤ tick.ltpPaise) →
      ¬ ∃ ask ∈ live.topAsk, tick.ltpPaise < ask.pricePaise := by
    rintro ⟨ask, htop, hle⟩ ⟨other, hother, hlt⟩
    cases Option.mem_unique htop hother
    exact Int64.not_le.mpr hlt hle
  rw [OneAggressor, aggressor_fst h, aggressor_snd h, aggressorSide_eq_buy, aggressorSide_eq_sell,
    BidIgnored]
  constructor
  · rintro ⟨-, hsell, -⟩ ⟨hbid, hasks⟩
    obtain ⟨⟨ask, htop, hlt⟩, -⟩ := hsell.mp hbid
    exact Int64.not_le.mpr hlt (hasks ask htop)
  · intro hlooked
    have habove : (∃ bid ∈ live.topBid, tick.ltpPaise ≤ bid.pricePaise) →
        ∃ ask ∈ live.topAsk, tick.ltpPaise < ask.pricePaise := by
      intro hbid
      by_contra hnone
      refine hlooked ⟨hbid, fun ask htop => Int64.not_lt.mp fun hlt => hnone ⟨ask, htop, hlt⟩⟩
    exact ⟨Iff.rfl, ⟨fun hbid => ⟨habove hbid, hbid⟩, And.right⟩,
      fun hboth => hexclusive hboth.1 (habove hboth.2)⟩

/-- After any messages a trade adds its volumes to the rolling delta, and it adds to one side at most,
the one that the detector names, unless it hits a bid that the detector ignores. -/
theorem ingestTick_oneAggressor_iff (symbol : SymbolId) (rollingDeltaWindowNs : UInt64)
    (messages : List DetectingState.Message) (tick : Tick) (nowNs : UInt64) (h : 0 < tick.ltq) :
    let s := DetectingState.after symbol rollingDeltaWindowNs messages
    let volumes := OrderflowState.aggressor s.flow.book tick
    (s.ingestTick tick nowNs).2.flow.delta =
        (if volumes.1 ≠ 0 ∨ volumes.2 ≠ 0 then s.flow.delta.record nowNs volumes.1 volumes.2
        else s.flow.delta) ∧
      (OneAggressor s.flow.book tick ↔ ¬ BidIgnored s.flow.book tick) := by
  refine ⟨?_, oneAggressor_iff (UInt64.ne_of_lt h).symm⟩
  rw [DetectingState.ingestTick, OrderflowState.recordTick]
  simp only
  split_ifs <;> rfl

/-- A trade of 5 shares at 100 paise. -/
def tradeOfFive : Tick := ⟨Vector.replicate 16 0, 1, 0, 100, 0, 0, 5, 0, 0, 0, 0⟩

/-- A book of bids at 99 paise and asks at 100. -/
def twoSided : OrderBook := ⟨1, [⟨99, 10, 1⟩], [⟨100, 10, 1⟩], 1⟩

/-- A book of bids at 100 paise. -/
def bidsOnly : OrderBook := ⟨1, [⟨100, 10, 1⟩], [], 1⟩

/-- A book of bids and asks at 100 paise. -/
def locked : OrderBook := ⟨1, [⟨100, 10, 1⟩], [⟨100, 10, 1⟩], 1⟩

/-- The trade lifts the offer of the book. -/
theorem ingestTick_oneAggressor_iff_twoSided :
    OneAggressor (DetectingState.after ⟨1⟩ 1000 [.book twoSided 1]).flow.book tradeOfFive :=
  (ingestTick_oneAggressor_iff ⟨1⟩ 1000 [.book twoSided 1] tradeOfFive 2 (by decide)).2.mpr
    fun ⟨⟨bid, htop, hle⟩, _⟩ => by
      cases htop
      exact absurd hle (by decide)

/-- The state adds the volume of a sell of which the detector does not know, and in a locked book the
volume of both sides. -/
theorem not_oneAggressor_bidsOnly_locked :
    0 < tradeOfFive.ltq ∧
      ¬ OneAggressor (DetectingState.after ⟨1⟩ 1000 [.book bidsOnly 1]).flow.book tradeOfFive ∧
      ¬ OneAggressor (DetectingState.after ⟨1⟩ 1000 [.book locked 1]).flow.book tradeOfFive := by
  refine ⟨by decide, fun h => ?_, fun h => ?_⟩
  · exact absurd (h.2.1.mp rfl) (by decide)
  · exact h.2.2 ⟨rfl, rfl⟩

end Hedge.Orderflow
