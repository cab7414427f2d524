import Hedge.Common.Run
import Hedge.Orderflow.Detector

/-!
# Spoofing over the life of a detector

Reference: `hedge-orderflow/src/events.rs`.

The detector is called with books and with trades, each time with an empty list of events. The
candidates that can still be reported all stand at the price that the last book showed at the top of
their side (`AtTop`), so a book reports at most two of them, and with the two gaps every event finds a
place.
-/

namespace Hedge.Orderflow

open Hedge Hedge.Common Hedge.Core

/-! ## Runs -/

/-- A call of the detector. -/
inductive DetectorCall where
  | book (book : LiveBook) (nowNs : UInt64)
  | trade (tick : Tick) (book : LiveBook)

/-- One call, with an empty list of events. -/
def detectorStep (d : Detector) : DetectorCall → Emitted × Detector
  | .book book nowNs => d.observeBook book nowNs []
  | .trade tick book => d.observeTrade tick book []

/-- The detector after some calls. -/
def detectorRun (tickSizePaise : Int64) (calls : List DetectorCall) : Detector :=
  runState detectorStep (.withTickSize tickSizePaise) calls

@[simp] theorem detectorRun_concat (tickSizePaise : Int64) (calls : List DetectorCall)
    (call : DetectorCall) :
    detectorRun tickSizePaise (calls ++ [call]) =
      (detectorStep (detectorRun tickSizePaise calls) call).2 :=
  runState_append _ _ _

/-! ## What one call does -/

namespace PendingOrder

@[simp] theorem fill_placement (pricePaise : Int64) (qty : UInt64) (p : PendingOrder) :
    (p.fill pricePaise qty).placement = p.placement := by
  rw [fill]
  split_ifs <;> rfl

theorem quote_eq_of_placement {p q : PendingOrder} (h : p.placement = q.placement) :
    p.quote = q.quote :=
  congrArg (fun placement => (placement.1, placement.2.1)) h

theorem toNat_filledQty_fill (pricePaise : Int64) (qty : UInt64) (p : PendingOrder) :
    (p.fill pricePaise qty).filledQty.toNat =
      min (p.filledQty.toNat + if p.pricePaise = pricePaise then qty.toNat else 0)
        (2 ^ 64 - 1) := by
  have hlt := p.filledQty.toNat_lt
  rw [fill]
  split_ifs
  · exact UInt64.toNat_saturatingAdd _ _
  · omega

end PendingOrder

/-- A candidate after a trade was one before it. -/
theorem mem_fillPending {pending : List PendingOrder} {tick : Tick} {p : PendingOrder}
    (h : p ∈ fillPending pending tick) :
    p.filledQty < p.qty ∧ ∃ q ∈ pending, p = q.fill tick.ltpPaise tick.ltq := by
  obtain ⟨hmem, hlt⟩ := List.mem_filter.mp h
  obtain ⟨q, hq, rfl⟩ := List.mem_map.mp hmem
  exact ⟨of_decide_eq_true hlt, q, hq, rfl⟩

theorem placement_fillPending_sublist (pending : List PendingOrder) (tick : Tick) :
    ((fillPending pending tick).map PendingOrder.placement).Sublist
      (pending.map PendingOrder.placement) := by
  have hsame : (pending.map (PendingOrder.fill tick.ltpPaise tick.ltq)).map PendingOrder.placement
      = pending.map PendingOrder.placement := by
    rw [List.map_map]
    exact List.map_congr_left fun p _ => PendingOrder.fill_placement _ _ p
  rw [← hsame]
  exact List.filter_sublist.map _

/-- A quantity above the threshold is more than five times the median. -/
theorem lt_of_spoofThreshold_lt {median qty : UInt64} (h : spoofThreshold median < qty) :
    5 * median.toNat < qty.toNat := by
  have hlt := qty.toNat_lt
  have hthreshold : (spoofThreshold median).toNat = min (median.toNat * 5) (2 ^ 64 - 1) := by
    rw [spoofThreshold, spoofQtyMultiplier, UInt64.toNat_ofNat', Nat.mod_eq_of_lt]
    omega
  have hnat := UInt64.lt_iff_toNat_lt.mp h
  omega

/-- A book registers the best level of a side, or leaves the side alone. -/
def RegistersTop (book : LiveBook) (nowNs median : UInt64) (side : Side)
    (before after : List PendingOrder) : Prop :=
  after = before ∨ ∃ top, book.topOf side = some top ∧ 5 * median.toNat < top.qty.toNat ∧
    Registers (newCandidate side top nowNs) before after

theorem registerTop_registersTop {pending : List PendingOrder}
    (h : pending.length ≤ spoofPendingCapacity) (book : LiveBook) (nowNs median : UInt64)
    (side : Side) :
    RegistersTop book nowNs median side pending
      (registerTop book nowNs (spoofThreshold median) side pending) := by
  rw [registerTop]
  cases htop : book.topOf side with
  | none => exact .inl rfl
  | some top =>
    simp only
    split_ifs with hlarge
    · exact .inr ⟨top, htop, lt_of_spoofThreshold_lt hlarge, tryRegisterPending_registers h _ _ _⟩
    · exact .inl rfl

namespace RegistersTop

variable {book : LiveBook} {nowNs median : UInt64} {side : Side} {before after : List PendingOrder}

theorem length_le (h : RegistersTop book nowNs median side before after)
    (hle : before.length ≤ spoofPendingCapacity) : after.length ≤ spoofPendingCapacity := by
  obtain rfl | ⟨_, _, _, h⟩ := h
  · exact hle
  · exact h.length_le hle

theorem nodup (h : RegistersTop book nowNs median side before after)
    (hnodup : (before.map PendingOrder.quote).Nodup) : (after.map PendingOrder.quote).Nodup := by
  obtain rfl | ⟨_, _, _, h⟩ := h
  · exact hnodup
  · exact h.nodup hnodup

/-- A candidate is one of before, or the best level of the side. -/
theorem mem (h : RegistersTop book nowNs median side before after) {p : PendingOrder}
    (hp : p ∈ after) :
    p ∈ before ∨ ∃ top, book.topOf side = some top ∧ 5 * median.toNat < top.qty.toNat ∧
      p = newCandidate side top nowNs := by
  obtain rfl | ⟨top, htop, hlarge, h⟩ := h
  · exact .inl hp
  · rcases h.mem hp with rfl | hbefore
    · exact .inr ⟨top, htop, hlarge, rfl⟩
    · exact .inl hbefore

end RegistersTop

namespace Detector

variable (d : Detector) (book : LiveBook) (nowNs : UInt64)

/-- The median that a book is compared with. -/
def medianWith : UInt64 := rollingMedianQty (d.qtyHistory.push book.dominantQty).iter

/-- The candidates that a book reports. -/
def spoofers : List PendingOrder := d.pending.filter (PendingOrder.spoofs book nowNs)

/-- A book drops candidates and registers at most one for each side. -/
theorem observeBook_registers (h : d.pending.length ≤ spoofPendingCapacity)
    (out : List OrderflowEvent) :
    ∃ between, RegistersTop book nowNs (d.medianWith book) .buy
        (d.pending.filter (PendingOrder.kept book nowNs)) between ∧
      RegistersTop book nowNs (d.medianWith book) .sell between
        (d.observeBook book nowNs out).2.pending := by
  have hkept : (d.pending.filter (PendingOrder.kept book nowNs)).length ≤ spoofPendingCapacity :=
    (List.length_filter_le _ _).trans h
  rw [observeBook, advanceSpoofing_eq]
  simp only
  split_ifs
  · have hbuy := registerTop_registersTop hkept book nowNs (d.medianWith book) .buy
    exact ⟨_, hbuy, registerTop_registersTop (hbuy.length_le hkept) _ _ _ _⟩
  · exact ⟨_, .inl rfl, .inl rfl⟩

theorem observeBook_events :
    (d.observeBook book nowNs []).1 =
      (min (d.gaps book ++ (d.spoofers book nowNs).map PendingOrder.event).length 4,
        (d.gaps book ++ (d.spoofers book nowNs).map PendingOrder.event).take 4) := by
  rw [observeBook, advanceSpoofing_eq]
  simp only
  rw [← List.foldl_append, foldl_emit]
  simp [spoofers]

theorem length_gaps_le : (d.gaps book).length ≤ 2 := by
  have hle : ∀ gap : Option OrderflowEvent, gap.toList.length ≤ 1 := by
    intro gap
    cases gap <;> simp
  rw [gaps, List.length_append]
  exact Nat.add_le_add (hle _) (hle _)

end Detector

/-! ## Nothing is lost -/

/-- What holds of the candidates after every call. -/
structure WellKept (pending : List PendingOrder) : Prop where
  length_le : pending.length ≤ spoofPendingCapacity
  nodup : (pending.map PendingOrder.quote).Nodup
  unfilled : ∀ p ∈ pending, p.filledQty < p.qty

/-- Every candidate that can still be reported stands at a given price of its side. -/
def AtTop (top : Side → Option Int64) (pending : List PendingOrder) : Prop :=
  ∀ p ∈ pending, p.filledQty < p.qty / 4 → top p.side = some p.pricePaise

/-- The price at the top of a side. -/
def LiveBook.topPrice (book : LiveBook) (side : Side) : Option Int64 :=
  (book.topOf side).map BookLevel.pricePaise

/-- A call drops candidates and then registers at most two; the others keep their order. -/
def KeepsOrder (before after : List PendingOrder) : Prop :=
  ∃ kept between,
    (kept.map PendingOrder.placement).Sublist (before.map PendingOrder.placement) ∧
      (between = kept ∨ ∃ entry, Registers entry kept between) ∧
      (after = between ∨ ∃ entry, Registers entry between after)

theorem RegistersTop.registers {book : LiveBook} {nowNs median : UInt64} {side : Side}
    {before after : List PendingOrder} (h : RegistersTop book nowNs median side before after) :
    after = before ∨ ∃ entry, Registers entry before after := by
  obtain rfl | ⟨_, _, _, h⟩ := h
  · exact .inl rfl
  · exact .inr ⟨_, h⟩

/-- A candidate that can still be reported is kept only while it is at the top. -/
theorem PendingOrder.topPrice_of_kept {book : LiveBook} {nowNs : UInt64} {p : PendingOrder}
    (hkept : p.kept book nowNs) (hfilled : p.filledQty < p.qty / 4) :
    book.topPrice p.side = some p.pricePaise := by
  rw [kept, Bool.and_eq_true] at hkept
  have hpresent : p.stillPresent book = true := by
    have hstays := hkept.1
    rw [spoofs, hkept.2, decide_eq_true hfilled] at hstays
    simpa using hstays
  rw [stillPresent] at hpresent
  rw [LiveBook.topPrice]
  cases htop : book.topOf p.side with
  | none => simp [htop] at hpresent
  | some level =>
    rw [htop, Bool.and_eq_true] at hpresent
    exact congrArg some (of_decide_eq_true hpresent.1)

theorem RegistersTop.atTop {book : LiveBook} {nowNs median : UInt64} {side : Side}
    {before after : List PendingOrder} (h : RegistersTop book nowNs median side before after)
    (htop : AtTop book.topPrice before) : AtTop book.topPrice after := by
  intro p hp hfilled
  rcases h.mem hp with hbefore | ⟨top, hshown, -, rfl⟩
  · exact htop p hbefore hfilled
  · exact congrArg (Option.map BookLevel.pricePaise) hshown

theorem RegistersTop.unfilled {book : LiveBook} {nowNs median : UInt64} {side : Side}
    {before after : List PendingOrder} (h : RegistersTop book nowNs median side before after)
    (hunfilled : ∀ p ∈ before, p.filledQty < p.qty) : ∀ p ∈ after, p.filledQty < p.qty := by
  intro p hp
  rcases h.mem hp with hbefore | ⟨top, -, hlarge, rfl⟩
  · exact hunfilled p hbefore
  · exact UInt64.lt_iff_toNat_lt.mpr (Nat.zero_lt_of_lt hlarge)

theorem RegistersTop.wellKept {book : LiveBook} {nowNs median : UInt64} {side : Side}
    {before after : List PendingOrder} (h : RegistersTop book nowNs median side before after)
    (hkept : WellKept before) : WellKept after :=
  ⟨h.length_le hkept.length_le, h.nodup hkept.nodup, h.unfilled hkept.unfilled⟩

theorem WellKept.filter {pending : List PendingOrder} (h : WellKept pending)
    (keep : PendingOrder → Bool) : WellKept (pending.filter keep) where
  length_le := (List.length_filter_le _ _).trans h.length_le
  nodup := (List.filter_sublist.map _).nodup h.nodup
  unfilled p hp := h.unfilled p (List.mem_of_mem_filter hp)

/-- What a book makes of well kept candidates. -/
theorem WellKept.observeBook {d : Detector} (h : WellKept d.pending) (book : LiveBook)
    (nowNs : UInt64) (out : List OrderflowEvent) :
    WellKept (d.observeBook book nowNs out).2.pending ∧
      AtTop book.topPrice (d.observeBook book nowNs out).2.pending ∧
      KeepsOrder d.pending (d.observeBook book nowNs out).2.pending := by
  obtain ⟨between, hbuy, hsell⟩ := d.observeBook_registers book nowNs h.length_le out
  have htop : AtTop book.topPrice (d.pending.filter (PendingOrder.kept book nowNs)) :=
    fun p hp => p.topPrice_of_kept (List.mem_filter.mp hp).2
  refine ⟨hsell.wellKept (hbuy.wellKept (h.filter _)), hsell.atTop (hbuy.atTop htop), ?_⟩
  exact ⟨_, between, List.filter_sublist.map _, hbuy.registers, hsell.registers⟩

/-- What a trade makes of well kept candidates. -/
theorem WellKept.observeTrade {d : Detector} (h : WellKept d.pending) {top : Side → Option Int64}
    (htop : AtTop top d.pending) (tick : Tick) (book : LiveBook) (out : List OrderflowEvent) :
    WellKept (d.observeTrade tick book out).2.pending ∧
      AtTop top (d.observeTrade tick book out).2.pending ∧
      KeepsOrder d.pending (d.observeTrade tick book out).2.pending := by
  rw [Detector.observeTrade]
  split_ifs with hzero
  · exact ⟨h, htop, _, _, List.Sublist.refl _, .inl rfl, .inl rfl⟩
  · have hsub := placement_fillPending_sublist d.pending tick
    refine ⟨⟨?_, ?_, fun p hp => (mem_fillPending hp).1⟩, ?_, _, _, hsub, .inl rfl, .inl rfl⟩
    · have hle := hsub.length_le
      rw [List.length_map, List.length_map] at hle
      exact hle.trans h.length_le
    · have hquotes := (hsub.map fun placement => (placement.1, placement.2.1)).nodup
      rw [List.map_map, List.map_map] at hquotes
      exact hquotes h.nodup
    · intro p hp hfilled
      obtain ⟨-, q, hq, rfl⟩ := mem_fillPending hp
      -- The trade only adds to what was filled, and changes nothing else.
      have hgrows : q.filledQty < q.qty / 4 := by
        have hqty : (q.fill tick.ltpPaise tick.ltq).qty = q.qty :=
          congrArg (fun placement => placement.2.2.1) (q.fill_placement _ _)
        have hlt := q.filledQty.toNat_lt
        have hfill := q.toNat_filledQty_fill tick.ltpPaise tick.ltq
        rw [hqty] at hfilled
        have hfilled' := UInt64.lt_iff_toNat_lt.mp hfilled
        exact UInt64.lt_iff_toNat_lt.mpr (by omega)
      have hquote := PendingOrder.quote_eq_of_placement (q.fill_placement tick.ltpPaise tick.ltq)
      have hsame := htop q hq hgrows
      obtain ⟨hside, hprice⟩ := Prod.mk.injEq _ _ _ _ ▸ hquote
      rwa [← hside, ← hprice] at hsame

/-- Candidates of different quotes that stand at one price on each side are at most two. -/
theorem length_le_two_of_atTop {pending : List PendingOrder} {top : Side → Option Int64}
    (hnodup : (pending.map PendingOrder.quote).Nodup)
    (htop : ∀ p ∈ pending, top p.side = some p.pricePaise) : pending.length ≤ 2 := by
  have hsub : pending.map PendingOrder.quote ⊆
      [(.buy, (top .buy).getD 0), (.sell, (top .sell).getD 0)] := by
    intro quote hmem
    obtain ⟨p, hp, rfl⟩ := List.mem_map.mp hmem
    have hprice := htop p hp
    rw [PendingOrder.quote]
    cases hside : p.side <;> rw [hside] at hprice <;> simp [hprice]
  have hle := (List.subperm_of_subset hnodup hsub).length_le
  rwa [List.length_map] at hle

/-- No event of a book is dropped. -/
theorem WellKept.observeBook_events {d : Detector} (h : WellKept d.pending)
    {top : Side → Option Int64} (htop : AtTop top d.pending) (book : LiveBook) (nowNs : UInt64) :
    (d.observeBook book nowNs []).1.2 =
      d.gaps book ++ (d.spoofers book nowNs).map PendingOrder.event := by
  have hprice : ∀ p ∈ d.spoofers book nowNs, top p.side = some p.pricePaise := by
    intro p hp
    obtain ⟨hmem, hspoofs⟩ := List.mem_filter.mp hp
    rw [PendingOrder.spoofs, Bool.and_eq_true] at hspoofs
    exact htop p hmem (of_decide_eq_true hspoofs.2)
  have hspoofers : (d.spoofers book nowNs).length ≤ 2 :=
    length_le_two_of_atTop ((List.filter_sublist.map _).nodup h.nodup) hprice
  have hgaps := d.length_gaps_le book
  rw [d.observeBook_events]
  apply List.take_of_length_le
  rw [List.length_append, List.length_map]
  omega

/-- The candidates of every run are well kept, and those that can still be reported stand at one price
on each side. -/
theorem detectorRun_wellKept (tickSizePaise : Int64) (calls : List DetectorCall) :
    WellKept (detectorRun tickSizePaise calls).pending ∧
      ∃ top, AtTop top (detectorRun tickSizePaise calls).pending := by
  refine runState_invariant_all detectorStep
    (fun d => WellKept d.pending ∧ ∃ top, AtTop top d.pending) ?_ ?_ calls
  · rintro d call ⟨hkept, top, htop⟩
    cases call with
    | book book nowNs =>
      obtain ⟨hkept', htop', -⟩ := hkept.observeBook book nowNs []
      exact ⟨hkept', _, htop'⟩
    | trade tick book =>
      obtain ⟨hkept', htop', -⟩ := hkept.observeTrade htop tick book []
      exact ⟨hkept', _, htop'⟩
  · exact ⟨⟨Nat.zero_le _, List.nodup_nil, by simp [Detector.withTickSize]⟩, fun _ => none,
      by simp [AtTop, Detector.withTickSize]⟩

end Hedge.Orderflow
