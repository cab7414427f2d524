import Hedge.Orderflow.Spoofing

/-!
# The quotes that are reported

Reference: `hedge-orderflow/src/events.rs`.

A candidate goes back to a book that showed it at the top of its side, and carries what has been traded
at its price since (`Placed`). The detector takes a candidate for withdrawn as soon as it is not at the
top, so a large quote behind a better one is reported although it has not vanished.
-/

namespace Hedge.Orderflow

open Hedge Hedge.Common Hedge.Core

/-! ## Where a candidate comes from -/

/-- The quantity that was traded at a price. -/
def tradedAt (pricePaise : Int64) (calls : List DetectorCall) : ℕ :=
  (calls.map fun
    | .trade tick _ => if pricePaise = tick.ltpPaise then tick.ltq.toNat else 0
    | .book _ _ => 0).sum

/-- The quantities of the books, each the larger one of its two best levels. -/
def dominantQtys (calls : List DetectorCall) : List UInt64 :=
  calls.filterMap fun
    | .book book _ => some book.dominantQty
    | .trade _ _ => none

/-- The median of the last 64 books. -/
def medianAfter (calls : List DetectorCall) : UInt64 :=
  rollingMedianQty ((dominantQtys calls).rtake spoofMedianWindow)

theorem tradedAt_concat (pricePaise : Int64) (calls : List DetectorCall) (call : DetectorCall) :
    tradedAt pricePaise (calls ++ [call]) =
      tradedAt pricePaise calls + tradedAt pricePaise [call] := by
  rw [tradedAt, List.map_append, List.sum_append]
  rfl

/-- The window of the detector holds the quantities of the last 64 books. -/
theorem iter_qtyHistory (tickSizePaise : Int64) (calls : List DetectorCall) :
    (detectorRun tickSizePaise calls).qtyHistory.iter =
      (dominantQtys calls).rtake spoofMedianWindow := by
  induction calls using List.reverseRecOn with
  | nil => rfl
  | append_singleton calls call ih =>
    rw [detectorRun_concat]
    cases call with
    | book book nowNs =>
      have hqtys : dominantQtys (calls ++ [.book book nowNs]) =
          dominantQtys calls ++ [book.dominantQty] := by
        rw [dominantQtys, List.filterMap_append]
        rfl
      rw [hqtys]
      exact RingWindow.iter_push_of_eq ih book.dominantQty
    | trade tick book =>
      have hqtys : dominantQtys (calls ++ [.trade tick book]) = dominantQtys calls := by
        rw [dominantQtys, List.filterMap_append]
        exact List.append_nil _
      have hsame : (detectorStep (detectorRun tickSizePaise calls) (.trade tick book)).2.qtyHistory
          = (detectorRun tickSizePaise calls).qtyHistory := by
        rw [detectorStep, Detector.observeTrade]
        split_ifs <;> rfl
      rw [hqtys, hsame, ih]

theorem medianWith_detectorRun (tickSizePaise : Int64) (calls : List DetectorCall)
    (book : LiveBook) (nowNs : UInt64) :
    (detectorRun tickSizePaise calls).medianWith book =
      medianAfter (calls ++ [.book book nowNs]) := by
  rw [medianAfter, ← iter_qtyHistory tickSizePaise, detectorRun_concat]
  rfl

/-- A book showed the quote of a candidate at the top of its side, larger than five times the median,
and the candidate has been charged with the trades at its price since. -/
def Placed (calls : List DetectorCall) (p : PendingOrder) : Prop :=
  ∃ earlier book since,
    calls = earlier ++ DetectorCall.book book p.placedTsNs :: since ∧
      (∃ top, book.topOf p.side = some top ∧ top.pricePaise = p.pricePaise ∧ top.qty = p.qty) ∧
      5 * (medianAfter (earlier ++ [.book book p.placedTsNs])).toNat < p.qty.toNat ∧
      p.filledQty.toNat = min (tradedAt p.pricePaise since) (2 ^ 64 - 1)

/-- A candidate that is charged with what a call trades at its price stays placed. -/
theorem Placed.concat {calls : List DetectorCall} {p q : PendingOrder} (h : Placed calls p)
    (call : DetectorCall) (hplacement : q.placement = p.placement)
    (hfilled : q.filledQty.toNat =
      min (p.filledQty.toNat + tradedAt p.pricePaise [call]) (2 ^ 64 - 1)) :
    Placed (calls ++ [call]) q := by
  obtain ⟨side, pricePaise, qty, placedTsNs, filledQty⟩ := q
  cases hplacement
  obtain ⟨earlier, book, since, rfl, hshown, hlarge, htraded⟩ := h
  refine ⟨earlier, book, since ++ [call], by simp, hshown, hlarge, ?_⟩
  change filledQty.toNat = min (tradedAt p.pricePaise (since ++ [call])) (2 ^ 64 - 1)
  change filledQty.toNat = _ at hfilled
  rw [hfilled, htraded, tradedAt_concat]
  omega

/-- The quote that a book registers is placed by it. -/
theorem placed_newCandidate {calls : List DetectorCall} {book : LiveBook} {nowNs : UInt64}
    {side : Side} {top : BookLevel} (htop : book.topOf side = some top)
    (hlarge : 5 * (medianAfter (calls ++ [.book book nowNs])).toNat < top.qty.toNat) :
    Placed (calls ++ [.book book nowNs]) (newCandidate side top nowNs) :=
  ⟨calls, book, [], rfl, ⟨top, htop, rfl, rfl⟩, hlarge, rfl⟩

theorem detectorRun_placed (tickSizePaise : Int64) (calls : List DetectorCall) :
    ∀ p ∈ (detectorRun tickSizePaise calls).pending, Placed calls p := by
  induction calls using List.reverseRecOn with
  | nil => exact fun p hp => absurd hp List.not_mem_nil
  | append_singleton calls call ih =>
    have hkept := (detectorRun_wellKept tickSizePaise calls).1
    intro p hp
    rw [detectorRun_concat] at hp
    cases call with
    | book book nowNs =>
      obtain ⟨between, hbuy, hsell⟩ :=
        (detectorRun tickSizePaise calls).observeBook_registers book nowNs hkept.length_le []
      rw [medianWith_detectorRun tickSizePaise calls book nowNs] at hbuy hsell
      have hold : ∀ q ∈ (detectorRun tickSizePaise calls).pending,
          Placed (calls ++ [.book book nowNs]) q := by
        intro q hq
        refine (ih q hq).concat _ rfl ?_
        have hlt := q.filledQty.toNat_lt
        have hnone : tradedAt q.pricePaise [.book book nowNs] = 0 := rfl
        omega
      rcases hsell.mem hp with hp | ⟨top, htop, hlarge, rfl⟩
      · rcases hbuy.mem hp with hp | ⟨top, htop, hlarge, rfl⟩
        · exact hold p (List.mem_of_mem_filter hp)
        · exact placed_newCandidate htop hlarge
      · exact placed_newCandidate htop hlarge
    | trade tick book =>
      have htraded : ∀ q : PendingOrder, tradedAt q.pricePaise [.trade tick book] =
          if q.pricePaise = tick.ltpPaise then tick.ltq.toNat else 0 := by
        intro q
        rw [tradedAt, List.map_singleton, List.sum_singleton]
      rw [detectorStep, Detector.observeTrade] at hp
      split_ifs at hp with hzero
      · refine (ih p hp).concat _ rfl ?_
        have hlt := p.filledQty.toNat_lt
        rw [htraded, hzero]
        split_ifs <;> simp <;> omega
      · obtain ⟨-, q, hq, rfl⟩ := mem_fillPending hp
        refine (ih q hq).concat _ (q.fill_placement _ _) ?_
        rw [htraded, PendingOrder.toNat_filledQty_fill]

/-! ## What a spoofing event says -/

/-- A quote has vanished from a book: an earlier one, of at most 500 ms before, showed it at the top of
its side with more than five times the median, less than a quarter of it was traded at its price, and
no level of the book at that price shows half of it. -/
def Vanished (calls : List DetectorCall) (book : LiveBook) (nowNs : UInt64) (side : Side)
    (pricePaise : Int64) : Prop :=
  ∃ earlier placed placedNs since top,
    calls = earlier ++ DetectorCall.book placed placedNs :: since ∧
      nowNs.toNat ≤ placedNs.toNat + 500000000 ∧
      placed.topOf side = some top ∧ top.pricePaise = pricePaise ∧
      5 * (medianAfter (earlier ++ [.book placed placedNs])).toNat < top.qty.toNat ∧
      tradedAt pricePaise since < top.qty.toNat / 4 ∧
      ∀ level ∈ book.levelsOf side, level.pricePaise = pricePaise →
        level.qty.toNat < top.qty.toNat / 2

/-- Every spoofing event of a run names a quote that has vanished. -/
def NamesVanished (tickSizePaise : Int64) (calls : List DetectorCall) : Prop :=
  ∀ pre book nowNs post, calls = pre ++ DetectorCall.book book nowNs :: post →
    ∀ side pricePaise evidenceScore,
      .spoofing side pricePaise evidenceScore ∈
        ((detectorRun tickSizePaise pre).observeBook book nowNs []).1.2 →
      Vanished pre book nowNs side pricePaise

/-- A candidate that can still be reported stands behind the top of its side with half its quantity. -/
def ShownBehind (d : Detector) (book : LiveBook) (nowNs : UInt64) : Prop :=
  ∃ p ∈ d.pending, nowNs.saturatingSub p.placedTsNs ≤ spoofWindowNs ∧ p.filledQty < p.qty / 4 ∧
    ∃ level ∈ (book.levelsOf p.side).tail, level.pricePaise = p.pricePaise ∧ p.qty / 2 ≤ level.qty

/-- A spoofing event of a book is that of a candidate. -/
theorem Detector.exists_of_spoofing_mem {d : Detector} {book : LiveBook} {nowNs : UInt64}
    {side : Side} {pricePaise : Int64} {evidenceScore : ExactFloat}
    (h : .spoofing side pricePaise evidenceScore ∈ (d.observeBook book nowNs []).1.2) :
    ∃ p ∈ d.pending, p.spoofs book nowNs ∧ p.side = side ∧ p.pricePaise = pricePaise := by
  rw [d.observeBook_events] at h
  rcases List.mem_append.mp (List.mem_of_mem_take h) with hgap | hspoofer
  · -- A gap is no spoofing event.
    have hnot : ∀ (side' : Side) (levels : List BookLevel),
        .spoofing side pricePaise evidenceScore ∉
          (detectLiquidityGap side' levels d.tickSizePaise).toList := by
      intro side' levels hmem
      rw [Option.mem_toList, detectLiquidityGap.eq_def] at hmem
      split at hmem
      · split_ifs at hmem
        cases hmem
      · cases hmem
    rcases List.mem_append.mp hgap with hbids | hasks
    · exact absurd hbids (hnot _ _)
    · exact absurd hasks (hnot _ _)
  · obtain ⟨p, hp, hevent⟩ := List.mem_map.mp hspoofer
    obtain ⟨hmem, hspoofs⟩ := List.mem_filter.mp hp
    cases hevent
    exact ⟨p, hmem, hspoofs, rfl, rfl⟩

theorem LiveBook.levelsOf_eq (book : LiveBook) (side : Side) :
    book.levelsOf side = (book.topOf side).toList ++ (book.levelsOf side).tail := by
  have hcons : ∀ levels : List BookLevel, levels = levels.head?.toList ++ levels.tail := by
    intro levels
    cases levels <;> rfl
  cases side <;> exact hcons _

/-- The levels of each side stand best first, with different prices. -/
def LiveBook.BestFirst (book : LiveBook) : Prop :=
  book.bids.Pairwise (fun better level => level.pricePaise < better.pricePaise) ∧
    book.asks.Pairwise (fun better level => better.pricePaise < level.pricePaise)

instance (book : LiveBook) : Decidable book.BestFirst := inferInstanceAs (Decidable (_ ∧ _))

/-- The level at the top of a side has another price than those behind it. -/
theorem LiveBook.BestFirst.ne_of_mem_tail {book : LiveBook} (h : book.BestFirst) {side : Side}
    {top level : BookLevel} (htop : book.topOf side = some top)
    (hlevel : level ∈ (book.levelsOf side).tail) : level.pricePaise ≠ top.pricePaise := by
  cases side with
  | buy =>
    obtain ⟨rest, hrest⟩ := List.head?_eq_some_iff.mp htop
    rw [LiveBook.levelsOf, hrest] at hlevel
    have hpair := h.1
    rw [hrest, List.pairwise_cons] at hpair
    exact Int64.ne_of_lt (hpair.1 level hlevel)
  | sell =>
    obtain ⟨rest, hrest⟩ := List.head?_eq_some_iff.mp htop
    rw [LiveBook.levelsOf, hrest] at hlevel
    have hpair := h.2
    rw [hrest, List.pairwise_cons] at hpair
    exact (Int64.ne_of_lt (hpair.1 level hlevel)).symm

/-- The large quote of a candidate behind the top of its side is reported nevertheless. -/
theorem event_mem_of_shownBehind (tickSizePaise : Int64) (calls : List DetectorCall)
    {book : LiveBook} {nowNs : UInt64} (hsorted : book.BestFirst)
    (h : ShownBehind (detectorRun tickSizePaise calls) book nowNs) :
    ∃ p ∈ (detectorRun tickSizePaise calls).pending,
      p.event ∈ ((detectorRun tickSizePaise calls).observeBook book nowNs []).1.2 ∧
      ∃ level ∈ book.levelsOf p.side, level.pricePaise = p.pricePaise ∧ p.qty / 2 ≤ level.qty := by
  obtain ⟨p, hp, hage, hfilled, level, hlevel, hprice, hhalf⟩ := h
  have hgone : p.stillPresent book = false := by
    rw [PendingOrder.stillPresent]
    cases htop : book.topOf p.side with
    | none => rfl
    | some top =>
      have hne := hsorted.ne_of_mem_tail htop hlevel
      simp [← hprice, Ne.symm hne]
  have hspoofs : p.spoofs book nowNs = true := by
    rw [PendingOrder.spoofs, hgone, decide_eq_true hage, decide_eq_true hfilled]
    rfl
  obtain ⟨hkept, top, htop⟩ := detectorRun_wellKept tickSizePaise calls
  refine ⟨p, hp, ?_, level, List.mem_of_mem_tail hlevel, hprice, hhalf⟩
  rw [hkept.observeBook_events htop]
  exact List.mem_append_right _ (List.mem_map_of_mem (List.mem_filter.mpr ⟨hp, hspoofs⟩))

/-- If no candidate is shown behind the top of its side, then every spoofing event of the run names a
quote that has vanished. -/
theorem namesVanished_of_not_shownBehind (tickSizePaise : Int64) (calls : List DetectorCall)
    (h : ∀ pre book nowNs post, calls = pre ++ DetectorCall.book book nowNs :: post →
      ¬ ShownBehind (detectorRun tickSizePaise pre) book nowNs) :
    NamesVanished tickSizePaise calls := by
  intro pre book nowNs post hsplit side pricePaise evidenceScore hevent
  obtain ⟨p, hp, hspoofs, rfl, rfl⟩ := Detector.exists_of_spoofing_mem hevent
  obtain ⟨earlier, placed, since, hpre, ⟨top, htop, hprice, hqty⟩, hlarge, htraded⟩ :=
    detectorRun_placed tickSizePaise pre p hp
  rw [PendingOrder.spoofs, Bool.and_eq_true, Bool.and_eq_true] at hspoofs
  obtain ⟨⟨hgone, hage⟩, hfilled⟩ := hspoofs
  have hage := of_decide_eq_true hage
  have hfilled := of_decide_eq_true hfilled
  have hhalf : ∀ level ∈ book.levelsOf p.side, level.pricePaise = p.pricePaise →
      level.qty < p.qty / 2 := by
    intro level hlevel hsame
    rw [book.levelsOf_eq] at hlevel
    rcases List.mem_append.mp hlevel with hbest | hbehind
    · rw [PendingOrder.stillPresent, Option.mem_toList.mp hbest] at hgone
      simpa [hsame] using hgone
    · refine UInt64.not_le.mp fun hle => h pre book nowNs post hsplit ?_
      exact ⟨p, hp, hage, hfilled, level, hbehind, hsame, hle⟩
  refine ⟨earlier, placed, p.placedTsNs, since, top, hpre, ?_, htop, hprice, hqty ▸ hlarge, ?_, ?_⟩
  · have hwindow := UInt64.le_iff_toNat_le.mp hage
    have hns : spoofWindowNs.toNat = 500000000 := rfl
    rw [UInt64.toNat_saturatingSub] at hwindow
    omega
  · have hquarter := UInt64.lt_iff_toNat_lt.mp hfilled
    have hlt := p.qty.toNat_lt
    have hdiv : (p.qty / 4).toNat = p.qty.toNat / 4 := UInt64.toNat_div _ _
    rw [hqty]
    omega
  · intro level hlevel hsame
    have hlt := UInt64.lt_iff_toNat_lt.mp (hhalf level hlevel hsame)
    have hdiv : (p.qty / 2).toNat = p.qty.toNat / 2 := UInt64.toNat_div _ _
    rw [hqty]
    omega

/-- The times of the books, in nanoseconds. -/
def bookTimes (calls : List DetectorCall) : List ℕ :=
  calls.filterMap fun
    | .book _ nowNs => some nowNs.toNat
    | .trade _ _ => none

/-- A book of one bid, at 100 paise. -/
def bidOf (qty : UInt64) : LiveBook := ⟨[⟨100, qty, 1⟩], [], 1⟩

/-- Three books, the last of them with a large bid. -/
def largeBid : List DetectorCall := [.book (bidOf 10) 1, .book (bidOf 10) 2, .book (bidOf 1000) 3]

/-- The large bid is gone. -/
def withdrawn : LiveBook := ⟨[⟨99, 10, 1⟩], [], 2⟩

/-- The large bid stands behind a better one. -/
def outbid : LiveBook := ⟨[⟨101, 1, 1⟩, ⟨100, 1000, 1⟩], [], 2⟩

/-- A book in which the large bid is not at the top is answered with its event. -/
theorem spoofing_mem_largeBid {book : LiveBook}
    (h : (⟨.buy, 100, 1000, 3, 0⟩ : PendingOrder).spoofs book 4) :
    (⟨.buy, 100, 1000, 3, 0⟩ : PendingOrder).event ∈
      ((detectorRun 1 largeBid).observeBook book 4 []).1.2 := by
  have hpending : (detectorRun 1 largeBid).pending = [⟨.buy, 100, 1000, 3, 0⟩] := by decide
  obtain ⟨hkept, top, htop⟩ := detectorRun_wellKept 1 largeBid
  rw [hkept.observeBook_events htop, Detector.spoofers, hpending, List.filter_singleton, h]
  exact List.mem_append_right _ (List.mem_singleton_self _)

/-- The bid that is withdrawn has vanished. -/
theorem namesVanished_of_not_shownBehind_withdrawn :
    Vanished largeBid withdrawn 4 .buy 100 := by
  have honly : ∀ call ∈ largeBid ++ [.book withdrawn 4], ∀ book nowNs,
      call = .book book nowNs → ∀ side, (book.levelsOf side).tail = [] := by
    intro call hcall book nowNs hbook side
    subst hbook
    simp only [largeBid, List.cons_append, List.nil_append, List.mem_cons, List.not_mem_nil,
      or_false, DetectorCall.book.injEq] at hcall
    obtain ⟨rfl, -⟩ | ⟨rfl, -⟩ | ⟨rfl, -⟩ | ⟨rfl, -⟩ := hcall <;> cases side <;> rfl
  refine namesVanished_of_not_shownBehind 1 (largeBid ++ [.book withdrawn 4]) ?_ largeBid
    withdrawn 4 [] rfl .buy 100 _ (spoofing_mem_largeBid (by decide))
  rintro pre book nowNs post hsplit ⟨p, -, -, -, level, hlevel, -⟩
  rw [honly _ (by rw [hsplit]; simp) book nowNs rfl p.side] at hlevel
  exact absurd hlevel List.not_mem_nil

/-- A bid is reported although it stands behind a better one with all its quantity. -/
theorem not_namesVanished_outbid :
    let calls := largeBid ++ [.book outbid 4]
    (∀ book nowNs, .book book nowNs ∈ calls → book.BestFirst) ∧ (bookTimes calls).Pairwise (· ≤ ·) ∧
      ¬ NamesVanished 1 calls := by
  refine ⟨?_, by decide, fun h => ?_⟩
  · intro book nowNs hmem
    simp only [largeBid, List.cons_append, List.nil_append, List.mem_cons, List.not_mem_nil,
      or_false, DetectorCall.book.injEq] at hmem
    obtain ⟨rfl, -⟩ | ⟨rfl, -⟩ | ⟨rfl, -⟩ | ⟨rfl, -⟩ := hmem <;> decide
  · obtain ⟨earlier, placed, placedNs, since, top, hsplit, -, htop, -, -, -, hgone⟩ :=
      h largeBid outbid 4 [] rfl .buy 100 _ (spoofing_mem_largeBid (by decide))
    have hhalf : 1000 < top.qty.toNat / 2 := hgone ⟨100, 1000, 1⟩ (by decide) rfl
    have hmem : .book placed placedNs ∈ largeBid := by
      rw [hsplit]
      simp
    simp only [largeBid, List.mem_cons, List.not_mem_nil, or_false,
      DetectorCall.book.injEq] at hmem
    -- No book showed more than 1000 shares.
    obtain ⟨rfl, -⟩ | ⟨rfl, -⟩ | ⟨rfl, -⟩ := hmem <;> cases htop <;> exact absurd hhalf (by decide)

end Hedge.Orderflow
