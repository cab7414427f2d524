import Hedge.Common.CostBasis
import Hedge.Common.Run
import Hedge.Positions.Pnl

/-!
# Conservation of cash

Reference: `hedge-position/src/pnl.rs`, `hedge-position/src/position.rs`,
`hedge-position/tests/conservation.rs`.

A ledger is an average-cost book whose fields are `i64`. As long as the exact figures fit the
fields, folding fills into a position is trading in the exact book (`toBook_book`), so the position
inherits the conservation law of the book: what is realised is what was taken in, up to the
truncated part of each average price.
-/

namespace Hedge.Positions

open Hedge.Common

/-! ## The exact book behind a ledger -/

/-- A fill as a trade. -/
def Fill.trade (fill : Fill) : Trade := ⟨signedFill fill.side fill.quantity, fill.px.toInt⟩

/-- The figures of a ledger. -/
def Ledger.toBook (l : Ledger) : CostBook :=
  ⟨l.quantity.toInt, l.avgEntryPx.toInt, l.realizedPnlPaise.toInt⟩

/-- The value is one of `i64`. -/
def FitsI64 (z : ℤ) : Prop := -2 ^ 63 ≤ z ∧ z < 2 ^ 63

/-- The exact figures a fill leads to fit the fields of a ledger. -/
structure ExactFits (b : CostBook) (fill : Fill) : Prop where
  quantity : FitsI64 (b.trade fill.trade).quantity
  delta : FitsI64 (b.profit fill.trade)
  realized : FitsI64 (b.trade fill.trade).realized

instance (z : ℤ) : Decidable (FitsI64 z) :=
  inferInstanceAs (Decidable (-2 ^ 63 ≤ z ∧ z < 2 ^ 63))

instance (b : CostBook) (fill : Fill) : Decidable (ExactFits b fill) :=
  decidable_of_iff
    (FitsI64 (b.trade fill.trade).quantity ∧ FitsI64 (b.profit fill.trade) ∧
      FitsI64 (b.trade fill.trade).realized)
    ⟨fun h => ⟨h.1, h.2.1, h.2.2⟩, fun h => ⟨h.quantity, h.delta, h.realized⟩⟩

theorem toBook_empty : Ledger.empty.toBook = CostBook.empty := rfl

theorem toInt_ofInt_of_fits {z : ℤ} (h : FitsI64 z) : (Int64.ofInt z).toInt = z :=
  Int64.toInt_ofInt_of_le h.1 h.2

theorem toInt_eq_zero_iff {x : Int64} : x.toInt = 0 ↔ x = 0 := by
  rw [← Int64.toInt_zero, Int64.toInt_inj]

theorem quantity_toBook_eq_zero_iff {l : Ledger} : l.toBook.quantity = 0 ↔ l.quantity = 0 :=
  toInt_eq_zero_iff

theorem abs_amount (fill : Fill) : |fill.trade.amount| = fill.quantity.toNat := by
  obtain ⟨side, quantity, px⟩ := fill
  cases side <;> simp [Fill.trade, signedFill]

theorem amount_eq_zero_iff (fill : Fill) : fill.trade.amount = 0 ↔ fill.quantity = 0 := by
  rw [← abs_eq_zero, abs_amount, Nat.cast_eq_zero, ← UInt64.toNat_zero, UInt64.toNat_inj]

theorem sameDirection_buy (q : Int64) : sameDirection q .buy = true ↔ 0 < q.toInt := by
  simp [sameDirection, Int64.lt_iff_toInt_lt]

theorem sameDirection_sell (q : Int64) : sameDirection q .sell = true ↔ q.toInt < 0 := by
  simp [sameDirection, Int64.lt_iff_toInt_lt]

/-- The code's test for scaling is that of the book. -/
theorem sameDirection_iff (l : Ledger) {fill : Fill} (h : fill.quantity ≠ 0) :
    sameDirection l.quantity fill.side = true ↔ l.toBook.Scales fill.trade := by
  obtain ⟨side, quantity, px⟩ := fill
  have hne : quantity.toNat ≠ 0 := by
    intro hzero
    rw [← UInt64.toNat_zero, UInt64.toNat_inj] at hzero
    exact h hzero
  rw [CostBook.scales_iff]
  cases side with
  | buy =>
    rw [sameDirection_buy]
    change _ ↔ 0 < l.quantity.toInt ∧ 0 < (quantity.toNat : ℤ) ∨
      l.quantity.toInt < 0 ∧ (quantity.toNat : ℤ) < 0
    omega
  | sell =>
    rw [sameDirection_sell]
    change _ ↔ 0 < l.quantity.toInt ∧ 0 < -(quantity.toNat : ℤ) ∨
      l.quantity.toInt < 0 ∧ -(quantity.toNat : ℤ) < 0
    omega

section Refinement

variable {l : Ledger} {fill : Fill}

theorem quantity_book (hfits : ExactFits l.toBook fill) :
    (l.book fill).quantity.toInt = (l.toBook.trade fill.trade).quantity := by
  have hnew : (l.book fill).quantity
      = Int64.ofInt (l.quantity.toInt + signedFill fill.side fill.quantity) := by
    rw [Int64.ofInt_add, Int64.ofInt_toInt]
    exact applyFillInner_newQuantity ..
  rw [hnew]
  exact toInt_ofInt_of_fits hfits.quantity

/-- What a fill realises. -/
theorem delta_book (hfits : ExactFits l.toBook fill) :
    (applyFillInner l.quantity l.avgEntryPx fill.side fill.quantity
      fill.px).deltaRealizedPaise.toInt = l.toBook.profit fill.trade := by
  have hdelta := hfits.delta
  unfold CostBook.profit at hdelta ⊢
  by_cases hzero : fill.quantity = 0
  · rw [applyFillInner, if_pos hzero, (amount_eq_zero_iff fill).mpr hzero]
    simp
  by_cases hflat : l.quantity = 0
  · rw [applyFillInner_of_flat hzero hflat]
    simp [Ledger.toBook, hflat]
  by_cases hsame : sameDirection l.quantity fill.side = true
  · rw [applyFillInner_of_same hzero hflat hsame, if_pos ((sameDirection_iff l hzero).mp hsame),
      Int64.toInt_zero]
  · have hagainst := mt (sameDirection_iff l hzero).mpr hsame
    rw [if_neg hagainst, abs_amount, Int.abs_eq_natAbs] at hdelta ⊢
    rw [applyFillInner_of_against hzero hflat hsame]
    exact toInt_ofInt_of_fits hdelta

theorem cost_toBook (l : Ledger) (fill : Fill) : l.toBook.cost fill.trade
    = (l.quantity.toInt.natAbs : ℤ) * l.avgEntryPx.toInt + fill.quantity.toNat * fill.px.toInt := by
  rw [CostBook.cost, abs_amount, Int.abs_eq_natAbs]
  rfl

theorem size_toBook (l : Ledger) (fill : Fill) : l.toBook.size fill.trade
    = (l.quantity.toInt.natAbs : ℤ) + fill.quantity.toNat := by
  rw [CostBook.size, abs_amount, Int.abs_eq_natAbs]
  rfl

/-- The truncated `i128` division gives the average of the book. -/
theorem average_exact (hs : l.toBook.Scales fill.trade) (havg : 0 ≤ l.avgEntryPx.toInt)
    (hpx : 0 ≤ fill.px.toInt) (hfits : ExactFits l.toBook fill) :
    (Int64.ofInt ((Int.bmod (l.quantity.toInt.natAbs * l.avgEntryPx.toInt
      + fill.quantity.toNat * fill.px.toInt) (2 ^ 128)).tdiv
        (l.quantity.toInt.natAbs + fill.quantity.toNat))).toInt
      = l.toBook.cost fill.trade / l.toBook.size fill.trade := by
  have hmax : l.toBook.avg ≤ 2 ^ 63 - 1 := Int.le_sub_one_of_lt l.avgEntryPx.toInt_lt
  have hmax' : fill.trade.price ≤ 2 ^ 63 - 1 := Int.le_sub_one_of_lt fill.px.toInt_lt
  have hlo := CostBook.le_average hs havg hpx
  have hhi := CostBook.average_le hs hmax hmax'
  have hpos := CostBook.size_pos hs
  -- the denominator is the new quantity, so the numerator stays below 2^126
  have hlarge : l.toBook.size fill.trade ≤ 2 ^ 63 := by
    rw [← CostBook.abs_quantity_trade_of_scales hs, abs_le]
    exact ⟨hfits.quantity.1, hfits.quantity.2.le⟩
  have hcost_nonneg : 0 ≤ l.toBook.cost fill.trade := by
    have h := (Int.le_ediv_iff_mul_le hpos).mp hlo
    rwa [zero_mul] at h
  have hcost_lt : l.toBook.cost fill.trade < 2 ^ 127 := by
    have h := Int.lt_ediv_add_one_mul_self (l.toBook.cost fill.trade) hpos
    nlinarith
  rw [← cost_toBook, ← size_toBook, Int.bmod_eq_of_le (by omega) (by omega),
    Int.tdiv_eq_ediv_of_nonneg hcost_nonneg]
  exact toInt_ofInt_of_fits ⟨by omega, by omega⟩

/-- Where the average price moves to. -/
theorem avg_book (havg : 0 ≤ l.avgEntryPx.toInt) (hpx : 0 ≤ fill.px.toInt)
    (hfits : ExactFits l.toBook fill) :
    (applyFillInner l.quantity l.avgEntryPx fill.side fill.quantity fill.px).newAvgEntryPx.toInt
      = (l.toBook.trade fill.trade).avg := by
  unfold CostBook.trade
  dsimp only
  by_cases hzero : fill.quantity = 0
  · rw [applyFillInner, if_pos hzero, if_pos ((amount_eq_zero_iff fill).mpr hzero)]
    rfl
  rw [if_neg (mt (amount_eq_zero_iff fill).mp hzero)]
  by_cases hflat : l.quantity = 0
  · rw [applyFillInner_of_flat hzero hflat, if_pos (quantity_toBook_eq_zero_iff.mpr hflat)]
    rfl
  rw [if_neg (mt quantity_toBook_eq_zero_iff.mp hflat)]
  by_cases hsame : sameDirection l.quantity fill.side = true
  · have hs := (sameDirection_iff l hzero).mp hsame
    rw [applyFillInner_of_same hzero hflat hsame, if_pos hs]
    exact average_exact hs havg hpx hfits
  · have hagainst := mt (sameDirection_iff l hzero).mpr hsame
    have hnatAbs : |l.toBook.quantity| = l.quantity.toInt.natAbs := Int.abs_eq_natAbs _
    have hnew : Int64.ofInt (l.quantity.toInt + signedFill fill.side fill.quantity) = 0 ↔
        (l.toBook.trade fill.trade).quantity = 0 := by
      rw [← toInt_eq_zero_iff]
      exact iff_of_eq (congrArg (· = 0) (toInt_ofInt_of_fits hfits.quantity))
    rw [applyFillInner_of_against hzero hflat hsame, if_neg hagainst, abs_amount, hnatAbs]
    dsimp only
    rcases lt_trichotomy fill.quantity.toNat l.quantity.toInt.natAbs with hlt | heq | hgt
    · have hleft : (l.toBook.trade fill.trade).quantity ≠ 0 := by
        apply CostBook.quantity_trade_ne_zero
        rw [abs_amount, hnatAbs]
        exact_mod_cast hlt.ne
      rw [if_neg hlt.not_gt, if_neg (mt hnew.mp hleft), if_pos (by exact_mod_cast hlt)]
      rfl
    · have hclosed : (l.toBook.trade fill.trade).quantity = 0 := by
        apply CostBook.quantity_trade_eq_zero hagainst
        rw [abs_amount, hnatAbs, heq]
      rw [if_neg heq.not_gt, if_pos (hnew.mpr hclosed), heq, if_neg (lt_irrefl _), if_pos rfl]
      rfl
    · rw [if_pos hgt, if_neg (by exact_mod_cast hgt.not_gt), if_neg (by exact_mod_cast hgt.ne')]
      rfl

/-- A ledger whose figures fit follows the exact book. -/
theorem toBook_book (havg : 0 ≤ l.avgEntryPx.toInt) (hpx : 0 ≤ fill.px.toInt)
    (hfits : ExactFits l.toBook fill) : (l.book fill).toBook = l.toBook.trade fill.trade := by
  have hrealized : (l.book fill).realizedPnlPaise.toInt
      = (l.toBook.trade fill.trade).realized := by
    have hsum : l.realizedPnlPaise.toInt + l.toBook.profit fill.trade
        = (l.toBook.trade fill.trade).realized := rfl
    have hfit := hfits.realized
    rw [Ledger.book, Int64.toInt_saturatingAdd, delta_book hfits, hsum]
    unfold FitsI64 at hfit
    omega
  have havg_new : (l.book fill).avgEntryPx.toInt = (l.toBook.trade fill.trade).avg :=
    avg_book havg hpx hfits
  rw [Ledger.toBook, quantity_book hfits, havg_new, hrealized]

end Refinement

/-! ## Tapes -/

/-- One event on a tape: a fill or a mark. -/
inductive TapeEvent where
  | fill (fill : Fill)
  | mark (px : Int64)
deriving DecidableEq, Repr

/-- Apply one event. -/
def Position.applyEvent (p : Position) : TapeEvent → Position
  | .fill fill => p.applyFill fill
  | .mark px => p.applyMark px

/-- The fills of a tape. -/
def tapeFills (tape : List TapeEvent) : List Fill :=
  tape.filterMap fun
    | .fill fill => some fill
    | .mark _ => none

/-- Marks do not touch the ledger. -/
theorem ledger_foldl_applyEvent (tape : List TapeEvent) (p : Position) :
    (tape.foldl Position.applyEvent p).ledger = (tapeFills tape).foldl Ledger.book p.ledger := by
  induction tape generalizing p with
  | nil => rfl
  | cons event tape ih =>
    rw [List.foldl_cons, ih]
    cases event <;> rfl

/-- Proceeds of the sells of a tape. -/
def sellProceeds (fills : List Fill) : ℤ :=
  ((fills.filter (·.side = .sell)).map fun f => (f.quantity.toNat : ℤ) * f.px.toInt).sum

/-- Cost of the buys of a tape. -/
def buyCosts (fills : List Fill) : ℤ :=
  ((fills.filter (·.side = .buy)).map fun f => (f.quantity.toNat : ℤ) * f.px.toInt).sum

/-- A fill that scaled an open leg: the remainder of its average-price division and the quantity
it led to. A buy scales a long leg, a sell a short one. -/
structure Scaling where
  side : Side
  remainder : ℤ
  quantityAfter : ℤ
deriving DecidableEq, Repr

/-- The scaling a fill makes of the leg it meets, if it makes one. -/
def Ledger.scaling (l : Ledger) (fill : Fill) : List Scaling :=
  let absOld : ℤ := l.quantity.toInt.natAbs
  if fill.quantity ≠ 0 ∧ sameDirection l.quantity fill.side = true then
    [⟨fill.side, (absOld * l.avgEntryPx.toInt + fill.quantity.toNat * fill.px.toInt)
      % (absOld + fill.quantity.toNat), (l.book fill).quantity.toInt⟩]
  else []

/-- The scalings of a tape. -/
def scalings : Ledger → List Fill → List Scaling
  | _, [] => []
  | l, fill :: fills => l.scaling fill ++ scalings (l.book fill) fills

/-- Sum of the remainders on one side. -/
def remainders (side : Side) (ss : List Scaling) : ℤ :=
  ((ss.filter (·.side = side)).map (·.remainder)).sum

/-- Entry prices of the leg that is open after a tape: the fills that opened and scaled it. -/
def currentLeg : Ledger → List ℤ → List Fill → List ℤ
  | _, leg, [] => leg
  | l, leg, fill :: fills => currentLeg (l.book fill) (l.toBook.leg leg fill.trade) fills

/-- Along the fills every exact figure fits its field. -/
def FillsFit (b : CostBook) (fills : List Fill) : Prop :=
  ∀ pre fill post, fills = pre ++ fill :: post →
    ExactFits ((pre.map Fill.trade).foldl CostBook.trade b) fill

theorem fillsFit_nil {b : CostBook} : FillsFit b [] := forall_split_nil

theorem fillsFit_cons {b : CostBook} {fill : Fill} {fills : List Fill} (hfill : ExactFits b fill)
    (hfills : FillsFit (b.trade fill.trade) fills) : FillsFit b (fill :: fills) :=
  forall_split_cons hfill hfills

/-- The fills can be folded into the ledger exactly. -/
structure Exact (l : Ledger) (fills : List Fill) : Prop where
  avg_nonneg : 0 ≤ l.avgEntryPx.toInt
  px_nonneg : ∀ fill ∈ fills, 0 ≤ fill.px.toInt
  fits : FillsFit l.toBook fills

section Run

variable {l : Ledger} {fill : Fill} {fills : List Fill}

theorem Exact.toBook_book (h : Exact l (fill :: fills)) :
    (l.book fill).toBook = l.toBook.trade fill.trade :=
  Positions.toBook_book h.avg_nonneg (h.px_nonneg fill List.mem_cons_self)
    (h.fits [] fill fills rfl)

/-- After the first fill the rest can still be folded in exactly. -/
theorem Exact.tail (h : Exact l (fill :: fills)) : Exact (l.book fill) fills := by
  have hbook := h.toBook_book
  refine ⟨?_, fun f hf => h.px_nonneg f (List.mem_cons_of_mem _ hf), ?_⟩
  · have havg : (l.book fill).avgEntryPx.toInt = (l.toBook.trade fill.trade).avg :=
      congrArg CostBook.avg hbook
    rw [havg]
    exact CostBook.avg_trade_nonneg h.avg_nonneg (h.px_nonneg fill List.mem_cons_self)
  · intro pre f post hsplit
    rw [hbook]
    exact h.fits (fill :: pre) f post (by rw [hsplit]; rfl)

/-- The ledger after the fills is the exact book after the trades. -/
theorem toBook_foldl_book (h : Exact l fills) :
    (fills.foldl Ledger.book l).toBook = (fills.map Fill.trade).foldl CostBook.trade l.toBook := by
  induction fills generalizing l with
  | nil => rfl
  | cons fill fills ih =>
    rw [List.foldl_cons, ih h.tail, h.toBook_book, List.map_cons, List.foldl_cons]

theorem scaling_of_scales (hs : l.toBook.Scales fill.trade) :
    l.scaling fill = [⟨fill.side, l.toBook.cost fill.trade % l.toBook.size fill.trade,
      (l.book fill).quantity.toInt⟩] := by
  have hne : fill.quantity ≠ 0 := mt (amount_eq_zero_iff fill).mpr (right_ne_zero_of_mul hs.ne')
  rw [Ledger.scaling, if_pos ⟨hne, (sameDirection_iff l hne).mpr hs⟩, cost_toBook, size_toBook]

theorem scaling_of_not_scales (hs : ¬ l.toBook.Scales fill.trade) : l.scaling fill = [] := by
  rw [Ledger.scaling, if_neg]
  rintro ⟨hne, hsame⟩
  exact hs ((sameDirection_iff l hne).mp hsame)

/-- A scaling fill leaves a remainder below the size of the leg. -/
theorem remainder_bounds (h : Exact l fills) :
    ∀ s ∈ scalings l fills, 0 ≤ s.remainder ∧ s.remainder < |s.quantityAfter| := by
  induction fills generalizing l with
  | nil => simp [scalings]
  | cons fill fills ih =>
    intro s hmem
    rw [scalings, List.mem_append] at hmem
    rcases hmem with hmem | hmem
    · by_cases hs : l.toBook.Scales fill.trade
      · rw [scaling_of_scales hs, List.mem_singleton] at hmem
        subst hmem
        have hpos := CostBook.size_pos hs
        have hafter : |(l.book fill).quantity.toInt| = l.toBook.size fill.trade := by
          rw [← CostBook.abs_quantity_trade_of_scales hs, ← h.toBook_book]
          rfl
        dsimp only
        rw [hafter]
        exact ⟨Int.emod_nonneg _ hpos.ne', Int.emod_lt_of_pos _ hpos⟩
      · rw [scaling_of_not_scales hs] at hmem
        cases hmem
    · exact ih h.tail s hmem

/-- The remainder of one fill, with the sign of the leg, is its rounding in the book. -/
theorem rounding_eq (l : Ledger) (fill : Fill) :
    remainders .buy (l.scaling fill) - remainders .sell (l.scaling fill)
      = l.toBook.rounding fill.trade := by
  unfold CostBook.rounding
  by_cases hs : l.toBook.Scales fill.trade
  · rw [scaling_of_scales hs, if_pos hs]
    rw [CostBook.scales_iff] at hs
    obtain ⟨side, quantity, px⟩ := fill
    cases side with
    | buy =>
      have hamount : 0 ≤ (Fill.trade ⟨.buy, quantity, px⟩).amount := Int.natCast_nonneg _
      have hlong : 0 < l.toBook.quantity := by omega
      rw [Int.sign_eq_one_of_pos hlong]
      simp [remainders]
    | sell =>
      have hamount : (Fill.trade ⟨.sell, quantity, px⟩).amount ≤ 0 :=
        Int.neg_nonpos_of_nonneg (Int.natCast_nonneg _)
      have hshort : l.toBook.quantity < 0 := by omega
      rw [Int.sign_eq_neg_one_of_neg hshort]
      simp [remainders]
  · rw [scaling_of_not_scales hs, if_neg hs]
    rfl

theorem remainders_append (side : Side) (ss ss' : List Scaling) :
    remainders side (ss ++ ss') = remainders side ss + remainders side ss' := by
  simp [remainders]

theorem roundings_eq (h : Exact l fills) :
    remainders .buy (scalings l fills) - remainders .sell (scalings l fills)
      = (l.toBook.roundings (fills.map Fill.trade)).sum := by
  induction fills generalizing l with
  | nil => rfl
  | cons fill fills ih =>
    have hrest := ih h.tail
    have hfirst := rounding_eq l fill
    rw [h.toBook_book] at hrest
    rw [List.map_cons, CostBook.roundings, List.sum_cons, ← hrest, ← hfirst, scalings,
      remainders_append, remainders_append]
    ring

theorem within_currentLeg (h : Exact l fills) {leg : List ℤ} (hleg : l.toBook.Within leg) :
    (fills.foldl Ledger.book l).toBook.Within (currentLeg l leg fills) := by
  induction fills generalizing l leg with
  | nil => exact hleg
  | cons fill fills ih =>
    rw [List.foldl_cons, currentLeg]
    apply ih h.tail
    rw [h.toBook_book]
    exact hleg.trade fill.trade

end Run

/-! ## The conservation law -/

theorem sum_amount (fills : List Fill) :
    ((fills.map Fill.trade).map Trade.amount).sum = (bought fills : ℤ) - sold fills := by
  induction fills with
  | nil => rfl
  | cons fill fills ih =>
    rw [bought_sub_sold_cons, List.map_cons, List.map_cons, List.sum_cons, ih]
    rfl

theorem sum_cash (fills : List Fill) :
    ((fills.map Fill.trade).map Trade.cash).sum = sellProceeds fills - buyCosts fills := by
  induction fills with
  | nil => rfl
  | cons fill fills ih =>
    rw [List.map_cons, List.map_cons, List.sum_cons, ih]
    obtain ⟨side, quantity, px⟩ := fill
    cases side <;> simp [sellProceeds, buyCosts, Fill.trade, Trade.cash, signedFill] <;> ring

/-- Remainders are bounded by the sizes of the legs they were left by. -/
theorem abs_remainders_le {ss : List Scaling}
    (h : ∀ s ∈ ss, 0 ≤ s.remainder ∧ s.remainder < |s.quantityAfter|) :
    |remainders .buy ss - remainders .sell ss| ≤ (ss.map fun s => |s.quantityAfter|).sum := by
  induction ss with
  | nil => simp [remainders]
  | cons s ss ih =>
    have hrest := ih fun s' hs' => h s' (List.mem_cons_of_mem _ hs')
    obtain ⟨hlo, hhi⟩ := h s List.mem_cons_self
    rw [abs_le] at hrest ⊢
    obtain ⟨side, remainder, quantityAfter⟩ := s
    cases side <;> simp [remainders] at hlo hhi hrest ⊢ <;> constructor <;> linarith

/-- **Conservation of cash.** Over every tape whose exact figures fit `i64`. -/
theorem cash_conservation (symbol : SymbolId) (tape : List TapeEvent)
    (hpx : ∀ fill ∈ tapeFills tape, 0 ≤ fill.px.toInt)
    (hfits : FillsFit .empty (tapeFills tape)) :
    let fills := tapeFills tape
    let p := tape.foldl Position.applyEvent (.flat symbol)
    let cash := sellProceeds fills - buyCosts fills
    let ss := scalings .empty fills
    let leg := currentLeg .empty [] fills
    p.quantity.toInt = bought fills - sold fills ∧
    p.realizedPnlPaise.toInt - (cash + p.quantity.toInt * p.avgEntryPx.toInt)
      = remainders .buy ss - remainders .sell ss ∧
    (∀ s ∈ ss, 0 ≤ s.remainder ∧ s.remainder < |s.quantityAfter|) ∧
    (p.quantity = 0 →
      |p.realizedPnlPaise.toInt - cash| ≤ (ss.map fun s => |s.quantityAfter|).sum) ∧
    (p.quantity = 0 → p.avgEntryPx = 0) ∧
    (p.quantity ≠ 0 → ∃ lo hi, IsLeast {x | x ∈ leg} lo ∧ IsGreatest {x | x ∈ leg} hi ∧
      lo ≤ p.avgEntryPx.toInt ∧ p.avgEntryPx.toInt ≤ hi) ∧
    ((∀ x ∈ leg, 0 < x) → (p.avgEntryPx = 0 ↔ p.quantity = 0)) := by
  intro fills p cash ss leg
  have hexact : Exact .empty fills := ⟨le_rfl, hpx, hfits⟩
  -- over unbounded integers the tape is a run of trades on a cost book
  have hbook : p.ledger.toBook = (fills.map Fill.trade).foldl CostBook.trade .empty := by
    rw [ledger_foldl_applyEvent, Position.ledger_flat]
    exact toBook_foldl_book hexact
  have hquantity : p.quantity.toInt = bought fills - sold fills := by
    have h := congrArg CostBook.quantity hbook
    rw [CostBook.quantity_foldl_trade, sum_amount] at h
    exact h.trans (zero_add _)
  have hcarry : p.realizedPnlPaise.toInt - (cash + p.quantity.toInt * p.avgEntryPx.toInt)
      = remainders .buy ss - remainders .sell ss := by
    have h := congrArg CostBook.carry hbook
    rw [CostBook.carry_foldl_trade, sum_cash, ← toBook_empty, ← roundings_eq hexact] at h
    have hcarry : p.ledger.toBook.carry
        = p.realizedPnlPaise.toInt - p.quantity.toInt * p.avgEntryPx.toInt := rfl
    have hzero : Ledger.empty.toBook.carry = 0 := rfl
    rw [hcarry, hzero] at h
    linarith
  have hbounds := remainder_bounds hexact
  have hwithin : p.ledger.toBook.Within leg := by
    rw [ledger_foldl_applyEvent, Position.ledger_flat]
    exact within_currentLeg hexact ⟨fun _ => rfl, fun hopen => absurd rfl hopen⟩
  have hflat : p.quantity = 0 → p.avgEntryPx = 0 := by
    intro hq
    exact toInt_eq_zero_iff.mp (hwithin.flat (toInt_eq_zero_iff.mpr hq))
  have hopen : p.quantity ≠ 0 → p.ledger.toBook.quantity ≠ 0 := mt toInt_eq_zero_iff.mp
  refine ⟨hquantity, hcarry, hbounds, ?_, hflat, fun hq => hwithin.between (hopen hq), ?_⟩
  · intro hq
    -- a flat position carries nothing, so what is left of the cash is the remainders
    have hdrift : p.realizedPnlPaise.toInt - cash
        = remainders .buy ss - remainders .sell ss := by
      rw [← hcarry, toInt_eq_zero_iff.mpr hq]
      ring
    rw [hdrift]
    exact abs_remainders_le hbounds
  · intro hpositive
    refine ⟨?_, hflat⟩
    intro havg
    by_contra hq
    obtain ⟨lo, -, hlo, -, hle, -⟩ := hwithin.between (hopen hq)
    have hzero : p.ledger.toBook.avg = 0 := toInt_eq_zero_iff.mpr havg
    have hpos := hpositive lo hlo.1
    omega

/-- A tape of two entries, a mark and a sale of both: the average is cut from 101.5 to 101 paise,
and the one paisa is realised. -/
theorem cash_conservation_two_entries :
    let tape : List TapeEvent :=
      [.fill ⟨.buy, 1, 101⟩, .mark 100, .fill ⟨.buy, 1, 102⟩, .fill ⟨.sell, 2, 110⟩]
    let p := tape.foldl Position.applyEvent (.flat ⟨1⟩)
    p.realizedPnlPaise.toInt
      - (sellProceeds (tapeFills tape) - buyCosts (tapeFills tape)
        + p.quantity.toInt * p.avgEntryPx.toInt)
      = remainders .buy (scalings .empty (tapeFills tape))
        - remainders .sell (scalings .empty (tapeFills tape)) ∧
    p.realizedPnlPaise.toInt = 18 := by
  intro tape p
  have hpx : ∀ fill ∈ tapeFills tape, 0 ≤ fill.px.toInt := by decide
  have hfits : FillsFit .empty (tapeFills tape) :=
    fillsFit_cons (by decide +kernel) <| fillsFit_cons (by decide +kernel) <|
      fillsFit_cons (by decide +kernel) fillsFit_nil
  exact ⟨(cash_conservation ⟨1⟩ tape hpx hfits).2.1, by decide +kernel⟩

/-- A leg entered at price zero is open with an average of zero. -/
theorem open_leg_at_zero : ¬ ∀ (symbol : SymbolId) (tape : List TapeEvent),
    (∀ fill ∈ tapeFills tape, 0 ≤ fill.px.toInt) → FillsFit .empty (tapeFills tape) →
    ((tape.foldl Position.applyEvent (.flat symbol)).avgEntryPx = 0 ↔
      (tape.foldl Position.applyEvent (.flat symbol)).quantity = 0) := by
  intro h
  have hfits : FillsFit .empty (tapeFills [.fill ⟨.buy, 10, 0⟩]) :=
    fillsFit_cons (by decide +kernel) fillsFit_nil
  have hiff := h ⟨1⟩ [.fill ⟨.buy, 10, 0⟩] (by decide) hfits
  exact absurd (hiff.mp rfl) (by decide +kernel)

end Hedge.Positions
