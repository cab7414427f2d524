import Hedge.Orderflow.Engine
import Mathlib.Data.List.Sort

/-!
# The detector

Reference: `hedge-orderflow/src/events.rs`.

A book is looked through for gaps, for candidates that have vanished, and for new candidates; a trade
for liquidity that was not shown. Events go into a list of four places, which the caller passes. A
candidate is a quote at the top of a side that is much larger than the usual one; at most 32 are
watched.
-/

namespace Hedge.Orderflow

open Hedge Hedge.Common Hedge.Core

/-! ## Events -/

/-- `OrderflowEvent`; a level is a price in paise. -/
inductive OrderflowEvent where
  | liquidityGap (side : Side) (level : Int64) (size : UInt64)
  | absorption (side : Side) (level : Int64) (size : UInt64)
  | hiddenLiquidity (side : Side) (level : Int64)
  | spoofing (side : Side) (level : Int64) (evidenceScore : ExactFloat)
deriving DecidableEq

/-- `try_push` of an inline list with a capacity. -/
def tryPush {α : Type*} (capacity : ℕ) (items : List α) (value : α) : Option (List α) :=
  if items.length < capacity then some (items ++ [value]) else none

/-- The number of events pushed so far, and the list they are pushed into. -/
abbrev Emitted := ℕ × List OrderflowEvent

/-- Push an event; one that does not fit is dropped and not counted. -/
def emit (acc : Emitted) (event : OrderflowEvent) : Emitted :=
  match tryPush 4 acc.2 event with
  | some out => (acc.1 + 1, out)
  | none => acc

/-! ## State -/

/-- `LIQUIDITY_GAP_TICKS`. -/
def liquidityGapTicks : Int64 := 3

/-- `DEFAULT_TICK_SIZE_PAISE`. -/
def defaultTickSizePaise : Int64 := 1

/-- `SPOOF_QTY_MULTIPLIER`. -/
def spoofQtyMultiplier : ℕ := 5

/-- `SPOOF_WINDOW_NS`. -/
def spoofWindowNs : UInt64 := 500000000

/-- `SPOOF_MEDIAN_WINDOW`. -/
def spoofMedianWindow : ℕ := 64

/-- `SPOOF_PENDING_CAPACITY`. -/
def spoofPendingCapacity : ℕ := 32

/-- `PendingOrder`. -/
structure PendingOrder where
  side : Side
  pricePaise : Int64
  qty : UInt64
  placedTsNs : UInt64
  filledQty : UInt64
deriving DecidableEq

/-- `Detector`. -/
structure Detector where
  tickSizePaise : Int64
  qtyHistory : RingWindow UInt64 spoofMedianWindow
  pending : List PendingOrder
  lastTopBid : Option BookLevel
  lastTopAsk : Option BookLevel

/-- The levels of a side, best first. -/
def LiveBook.levelsOf (book : LiveBook) : Side → List BookLevel
  | .buy => book.bids
  | .sell => book.asks

/-- The best level of a side. -/
def LiveBook.topOf (book : LiveBook) : Side → Option BookLevel
  | .buy => book.topBid
  | .sell => book.topAsk

/-- The larger quantity of the two best levels. -/
def LiveBook.dominantQty (book : LiveBook) : UInt64 :=
  max ((book.topBid.map BookLevel.qty).getD 0) ((book.topAsk.map BookLevel.qty).getD 0)

/-! ## The rolling median -/

/-- `rolling_median_qty` of the quantities in the window; of an even number of them it is the average
of the middle two, rounded down. -/
def rollingMedianQty (qtys : List UInt64) : UInt64 :=
  let buf := qtys.insertionSort (· ≤ ·)
  let n := buf.length
  if n = 0 then 0
  else if n % 2 = 0 then
    UInt64.ofNat (((buf.getD (n / 2 - 1) 0).toNat + (buf.getD (n / 2) 0).toNat) / 2)
  else buf.getD (n / 2) 0

/-- Five times a quantity, `saturating_mul`. -/
def spoofThreshold (median : UInt64) : UInt64 :=
  UInt64.ofNat (min (median.toNat * spoofQtyMultiplier) (2 ^ 64 - 1))

/-! ## Candidates -/

namespace PendingOrder

/-- The quote is still at the top of its side, with at least half its quantity. -/
def stillPresent (book : LiveBook) (p : PendingOrder) : Bool :=
  match book.topOf p.side with
  | some level => level.pricePaise = p.pricePaise && p.qty / 2 ≤ level.qty
  | none => false

/-- The quote vanished within the window without a meaningful fill. -/
def spoofs (book : LiveBook) (nowNs : UInt64) (p : PendingOrder) : Bool :=
  !p.stillPresent book && nowNs.saturatingSub p.placedTsNs ≤ spoofWindowNs &&
    p.filledQty < p.qty / 4

/-- The event of a candidate that spoofs. -/
def event (p : PendingOrder) : OrderflowEvent :=
  .spoofing p.side p.pricePaise
    ((ExactFloat.fin ((p.qty.saturatingSub p.filledQty).toNat / (max p.qty 1).toNat : ℚ)).clampTo
      0 1)

/-- What a trade at a price does to a candidate. -/
def fill (pricePaise : Int64) (qty : UInt64) (p : PendingOrder) : PendingOrder :=
  if p.pricePaise = pricePaise then { p with filledQty := p.filledQty.saturatingAdd qty } else p

/-- What a trade leaves unchanged of a candidate. -/
def placement (p : PendingOrder) : Side × Int64 × UInt64 × UInt64 :=
  (p.side, p.pricePaise, p.qty, p.placedTsNs)

/-- The quote that a candidate stands for. -/
def quote (p : PendingOrder) : Side × Int64 := (p.side, p.pricePaise)

end PendingOrder

/-- `advance_spoofing`: the candidates that are kept, and the events. -/
def advanceSpoofing (book : LiveBook) (nowNs : UInt64) :
    List PendingOrder → Emitted → List PendingOrder × Emitted
  | [], acc => ([], acc)
  | p :: pending, acc =>
    if p.spoofs book nowNs then advanceSpoofing book nowNs pending (emit acc p.event)
    else if spoofWindowNs < nowNs.saturatingSub p.placedTsNs then
      advanceSpoofing book nowNs pending acc
    else
      let rest := advanceSpoofing book nowNs pending acc
      (p :: rest.1, rest.2)

/-- The scan for the entry that was placed first: its index and its time. -/
def oldest (pending : List PendingOrder) : ℕ × UInt64 :=
  pending.zipIdx.foldl
    (fun best entry => if entry.1.placedTsNs < best.2 then (entry.2, entry.1.placedTsNs) else best)
    (0, 0xffffffffffffffff)

/-- The entry of a new candidate. -/
def newCandidate (side : Side) (top : BookLevel) (nowNs : UInt64) : PendingOrder :=
  ⟨side, top.pricePaise, top.qty, nowNs, 0⟩

/-- `try_register_pending`. -/
def tryRegisterPending (pending : List PendingOrder) (side : Side) (top : BookLevel)
    (nowNs : UInt64) : List PendingOrder :=
  if pending.any fun p => p.side = side && p.pricePaise = top.pricePaise then pending
  else match tryPush spoofPendingCapacity pending (newCandidate side top nowNs) with
    | some pending => pending
    | none => pending.set (oldest pending).1 (newCandidate side top nowNs)

/-- The registration of a side: its best level, if that is larger than the threshold. -/
def registerTop (book : LiveBook) (nowNs threshold : UInt64) (side : Side)
    (pending : List PendingOrder) : List PendingOrder :=
  match book.topOf side with
  | some top => if threshold < top.qty then tryRegisterPending pending side top nowNs else pending
  | none => pending

/-! ## Books -/

/-- `detect_liquidity_gap`. -/
def detectLiquidityGap (side : Side) (levels : List BookLevel) (tickSizePaise : Int64) :
    Option OrderflowEvent :=
  match levels with
  | top :: next :: _ =>
    if liquidityGapTicks.saturatingMul tickSizePaise < (top.pricePaise - next.pricePaise).abs then
      some (.liquidityGap side top.pricePaise top.qty)
    else none
  | _ => none

namespace Detector

/-- `with_tick_size`. -/
def withTickSize (tickSizePaise : Int64) : Detector :=
  ⟨max tickSizePaise 1, RingWindow.new 0 (by decide), [], none, none⟩

/-- `new`. -/
def new : Detector := withTickSize defaultTickSizePaise

/-- The gap events of a book. -/
def gaps (d : Detector) (book : LiveBook) : List OrderflowEvent :=
  (detectLiquidityGap .buy book.bids d.tickSizePaise).toList ++
    (detectLiquidityGap .sell book.asks d.tickSizePaise).toList

/-- `observe_book`: the number of events pushed, the list after them and the next state. -/
def observeBook (d : Detector) (book : LiveBook) (nowNs : UInt64) (out : List OrderflowEvent) :
    Emitted × Detector :=
  let (kept, acc) := advanceSpoofing book nowNs d.pending ((d.gaps book).foldl emit (0, out))
  let history := d.qtyHistory.push book.dominantQty
  let median := rollingMedianQty history.iter
  let pending :=
    if 0 < median then
      registerTop book nowNs (spoofThreshold median) .sell
        (registerTop book nowNs (spoofThreshold median) .buy kept)
    else kept
  (acc, ⟨d.tickSizePaise, history, pending, book.topBid, book.topAsk⟩)

end Detector

/-! ## Trades -/

/-- `Side::opposite`. -/
def oppositeSide : Side → Side
  | .buy => .sell
  | .sell => .buy

/-- The aggressor of `observe_trade`. -/
def aggressorSide (book : LiveBook) (tick : Tick) : Option Side :=
  match book.topAsk with
  | some ask =>
    if ask.pricePaise ≤ tick.ltpPaise then some .buy
    else match book.topBid with
      | some bid => if tick.ltpPaise ≤ bid.pricePaise then some .sell else none
      | none => none
  | none => none

/-- The events of a trade: more was traded than the level that was hit had shown. -/
def hiddenEvents (book : LiveBook) (tick : Tick) : List OrderflowEvent :=
  match aggressorSide book tick with
  | none => []
  | some aggressor => match book.topOf (oppositeSide aggressor) with
    | none => []
    | some level =>
      if level.qty < tick.ltq then
        [.absorption (oppositeSide aggressor) level.pricePaise tick.ltq,
          .hiddenLiquidity (oppositeSide aggressor) level.pricePaise]
      else []

/-- The candidates after a trade; those that are filled are discarded. -/
def fillPending (pending : List PendingOrder) (tick : Tick) : List PendingOrder :=
  (pending.map (PendingOrder.fill tick.ltpPaise tick.ltq)).filter fun p => p.filledQty < p.qty

/-- `observe_trade`. -/
def Detector.observeTrade (d : Detector) (tick : Tick) (book : LiveBook)
    (out : List OrderflowEvent) : Emitted × Detector :=
  if tick.ltq = 0 then ((0, out), d)
  else
    ((hiddenEvents book tick).foldl emit (0, out),
      { d with pending := fillPending d.pending tick })

/-! ## Pushed events -/

theorem emit_of_lt {acc : Emitted} (h : acc.2.length < 4) (event : OrderflowEvent) :
    emit acc event = (acc.1 + 1, acc.2 ++ [event]) := by
  rw [emit, tryPush, if_pos h]

theorem emit_of_full {acc : Emitted} (h : 4 ≤ acc.2.length) (event : OrderflowEvent) :
    emit acc event = acc := by
  rw [emit, tryPush, if_neg (Nat.not_lt.mpr h)]

/-- As many events are pushed as there are places left. -/
theorem foldl_emit (events : List OrderflowEvent) (acc : Emitted) :
    events.foldl emit acc =
      (acc.1 + min events.length (4 - acc.2.length), acc.2 ++ events.take (4 - acc.2.length)) := by
  induction events generalizing acc with
  | nil => simp
  | cons event events ih =>
    rw [List.foldl_cons]
    rcases Nat.lt_or_ge acc.2.length 4 with hlt | hfull
    · have hplaces : 4 - acc.2.length = 4 - (acc.2 ++ [event]).length + 1 := by
        rw [List.length_append, List.length_singleton]
        omega
      rw [emit_of_lt hlt, ih, hplaces, List.take_succ_cons, List.length_cons,
        Nat.add_min_add_right, List.append_assoc]
      refine Prod.ext ?_ rfl
      change acc.1 + 1 + min events.length (4 - (acc.2 ++ [event]).length) = _
      omega
    · have hplaces : 4 - acc.2.length = 0 := by omega
      rw [emit_of_full hfull, ih, hplaces, List.take_zero, List.take_zero, Nat.min_zero,
        Nat.min_zero]

/-! ## The walk over the candidates -/

/-- The candidate is kept by a book: it has not vanished, and it is not too old. -/
def PendingOrder.kept (book : LiveBook) (nowNs : UInt64) (p : PendingOrder) : Bool :=
  !p.spoofs book nowNs && nowNs.saturatingSub p.placedTsNs ≤ spoofWindowNs

/-- The walk keeps some candidates in their order, and pushes the events of others. -/
theorem advanceSpoofing_eq (book : LiveBook) (nowNs : UInt64) (pending : List PendingOrder)
    (acc : Emitted) :
    advanceSpoofing book nowNs pending acc =
      (pending.filter (PendingOrder.kept book nowNs),
        ((pending.filter (PendingOrder.spoofs book nowNs)).map PendingOrder.event).foldl emit
          acc) := by
  induction pending generalizing acc with
  | nil => rfl
  | cons p pending ih =>
    rw [advanceSpoofing, List.filter_cons, List.filter_cons, PendingOrder.kept]
    by_cases hspoofs : p.spoofs book nowNs
    · simp [hspoofs, ih]
    · by_cases hold : spoofWindowNs < nowNs.saturatingSub p.placedTsNs
      · simp [hspoofs, hold, ih]
      · simp [hspoofs, hold, ih, UInt64.not_lt.mp hold]

/-! ## Registrations -/

theorem oldest_concat (pending : List PendingOrder) (p : PendingOrder) :
    oldest (pending ++ [p]) =
      if p.placedTsNs < (oldest pending).2 then (pending.length, p.placedTsNs)
      else oldest pending := by
  rw [oldest, List.zipIdx_append, List.foldl_append, Nat.zero_add]
  rfl

theorem oldest_le {pending : List PendingOrder} {p : PendingOrder} (h : p ∈ pending) :
    (oldest pending).2 ≤ p.placedTsNs := by
  induction pending using List.reverseRecOn with
  | nil => exact absurd h List.not_mem_nil
  | append_singleton pending last ih =>
    rw [oldest_concat]
    split_ifs with hlt
    · rcases List.mem_append.mp h with hmem | hlast
      · exact UInt64.le_of_lt (UInt64.lt_of_lt_of_le hlt (ih hmem))
      · rw [List.mem_singleton.mp hlast]
        exact UInt64.le_refl _
    · rcases List.mem_append.mp h with hmem | hlast
      · exact ih hmem
      · rw [List.mem_singleton.mp hlast]
        exact UInt64.not_lt.mp hlt

theorem getElem?_oldest {pending : List PendingOrder} (h : pending ≠ []) :
    ∃ p, pending[(oldest pending).1]? = some p ∧ p.placedTsNs = (oldest pending).2 := by
  induction pending using List.reverseRecOn with
  | nil => exact absurd rfl h
  | append_singleton pending last ih =>
    rw [oldest_concat]
    split_ifs with hlt
    · exact ⟨last, List.getElem?_concat_length, rfl⟩
    · by_cases hnil : pending = []
      · subst hnil
        -- A first entry that is not older than the start of the scan has the largest stamp.
        refine ⟨last, rfl, UInt64.le_antisymm ?_ (UInt64.not_lt.mp hlt)⟩
        exact UInt64.le_iff_toNat_le.mpr (Nat.le_of_lt_succ last.placedTsNs.toNat_lt)
      · obtain ⟨p, hget, hstamp⟩ := ih hnil
        have hindex : (oldest pending).1 < pending.length := (List.getElem?_eq_some_iff.mp hget).1
        exact ⟨p, by rw [List.getElem?_append_left hindex, hget], hstamp⟩

/-- What a registration does: nothing for a quote that is watched, a new entry at the end, or, when
all 32 places are taken, the new entry in the place of one that was placed first. -/
inductive Registers (entry : PendingOrder) (pending : List PendingOrder) :
    List PendingOrder → Prop
  | watched : entry.quote ∈ pending.map PendingOrder.quote → Registers entry pending pending
  | added : entry.quote ∉ pending.map PendingOrder.quote →
      pending.length < spoofPendingCapacity → Registers entry pending (pending ++ [entry])
  | overwritten (i : ℕ) (first : PendingOrder) :
      entry.quote ∉ pending.map PendingOrder.quote → pending.length = spoofPendingCapacity →
      pending[i]? = some first → (∀ p ∈ pending, first.placedTsNs ≤ p.placedTsNs) →
      Registers entry pending (pending.set i entry)

theorem tryRegisterPending_registers {pending : List PendingOrder}
    (h : pending.length ≤ spoofPendingCapacity) (side : Side) (top : BookLevel) (nowNs : UInt64) :
    Registers (newCandidate side top nowNs) pending
      (tryRegisterPending pending side top nowNs) := by
  have hwatched : (pending.any fun p => p.side = side && p.pricePaise = top.pricePaise) = true ↔
      (newCandidate side top nowNs).quote ∈ pending.map PendingOrder.quote := by
    simp [newCandidate, PendingOrder.quote]
  rw [tryRegisterPending]
  split_ifs with hany
  · exact .watched (hwatched.mp hany)
  · have hfresh := mt hwatched.mpr hany
    rw [tryPush]
    split_ifs with hroom
    · exact .added hfresh hroom
    · have hfull : pending.length = spoofPendingCapacity := le_antisymm h (Nat.not_lt.mp hroom)
      have hne : pending ≠ [] := by
        rintro rfl
        exact absurd hfull (by decide)
      obtain ⟨first, hget, hstamp⟩ := getElem?_oldest hne
      exact .overwritten _ first hfresh hfull hget fun p hmem => hstamp ▸ oldest_le hmem

namespace Registers

variable {entry : PendingOrder} {pending after : List PendingOrder}

theorem mem (h : Registers entry pending after) {p : PendingOrder} (hp : p ∈ after) :
    p = entry ∨ p ∈ pending := by
  cases h with
  | watched => exact .inr hp
  | added => exact (List.mem_append.mp hp).symm.imp List.mem_singleton.mp id
  | overwritten => exact (List.mem_or_eq_of_mem_set hp).symm

theorem length_le (h : Registers entry pending after) (hle : pending.length ≤ spoofPendingCapacity) :
    after.length ≤ spoofPendingCapacity := by
  cases h with
  | watched => exact hle
  | added _ hroom =>
    rw [List.length_append]
    exact hroom
  | overwritten => rwa [List.length_set]

theorem nodup (h : Registers entry pending after)
    (hnodup : (pending.map PendingOrder.quote).Nodup) : (after.map PendingOrder.quote).Nodup := by
  cases h with
  | watched => exact hnodup
  | added hfresh =>
    rw [List.map_append]
    exact hnodup.append (List.nodup_singleton _) (by simpa using hfresh)
  | overwritten _ _ hfresh =>
    rw [List.map_set]
    exact hnodup.set hfresh

end Registers

end Hedge.Orderflow
