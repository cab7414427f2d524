import Mathlib.Algebra.BigOperators.Group.List.Basic
import Mathlib.Algebra.Order.Group.Abs
import Mathlib.Data.Int.Order.Basic
import Mathlib.Order.Bounds.Basic
import Mathlib.Tactic.Linarith
import Mathlib.Tactic.LinearCombination
import Mathlib.Tactic.Ring

/-!
# Average-cost accounting

A book holds a signed quantity of one asset, the average price at which the open leg was entered and
the profit realised so far, all in exact integers. A trade in the direction of the leg averages its
price in, a trade against it realises profit, and a trade that is larger than the leg turns it
around. The average is rounded down, and that is the only place where value is gained or lost:
`carry_foldl_trade` accounts for it to the last unit. `average_resume_iff` says when a rounded
average that is resumed in batches still is the average of the whole.
-/

namespace Hedge.Common

/-- A trade: positive amounts are bought, negative ones are sold. -/
structure Trade where
  amount : ℤ
  price : ℤ
deriving DecidableEq, Repr

/-- The cash a trade brings in. -/
def Trade.cash (t : Trade) : ℤ := -(t.amount * t.price)

/-- An average-cost book. -/
structure CostBook where
  quantity : ℤ
  avg : ℤ
  realized : ℤ
deriving DecidableEq, Repr

namespace CostBook

/-- The book nothing was traded in. -/
def empty : CostBook := ⟨0, 0, 0⟩

/-- The trade is in the direction of the open leg. -/
def Scales (b : CostBook) (t : Trade) : Prop := 0 < b.quantity * t.amount

instance (b : CostBook) (t : Trade) : Decidable (b.Scales t) :=
  inferInstanceAs (Decidable (0 < b.quantity * t.amount))

/-- What the leg and the trade cost together. -/
def cost (b : CostBook) (t : Trade) : ℤ := |b.quantity| * b.avg + |t.amount| * t.price

/-- The size of the leg and the trade together. -/
def size (b : CostBook) (t : Trade) : ℤ := |b.quantity| + |t.amount|

/-- What a trade against the leg realises. -/
def profit (b : CostBook) (t : Trade) : ℤ :=
  if b.Scales t then 0 else b.quantity.sign * (t.price - b.avg) * min |b.quantity| |t.amount|

/-- Enter a trade. -/
def trade (b : CostBook) (t : Trade) : CostBook where
  quantity := b.quantity + t.amount
  avg :=
    if t.amount = 0 then b.avg
    else if b.quantity = 0 then t.price
    else if b.Scales t then b.cost t / b.size t
    else if |t.amount| < |b.quantity| then b.avg
    else if |t.amount| = |b.quantity| then 0
    else t.price
  realized := b.realized + b.profit t

/-- What is left of a book's profit when the open leg is sold at cost. -/
def carry (b : CostBook) : ℤ := b.realized - b.quantity * b.avg

/-- The value a trade loses to the rounding of a long leg; a short leg gains it. -/
def rounding (b : CostBook) (t : Trade) : ℤ :=
  if b.Scales t then b.quantity.sign * (b.cost t % b.size t) else 0

section Trade

variable (b : CostBook) (t : Trade)

@[simp] theorem quantity_trade : (b.trade t).quantity = b.quantity + t.amount := rfl

theorem scales_iff : b.Scales t ↔ 0 < b.quantity ∧ 0 < t.amount ∨ b.quantity < 0 ∧ t.amount < 0 :=
  mul_pos_iff

variable {b t}

theorem size_pos (h : b.Scales t) : 0 < b.size t := by
  have hq : b.quantity ≠ 0 := left_ne_zero_of_mul h.ne'
  have habs := abs_pos.mpr hq
  have habs' := abs_nonneg t.amount
  unfold size
  omega

/-- A trade in the direction of the leg grows it to the size of both. -/
theorem abs_quantity_trade_of_scales (h : b.Scales t) : |(b.trade t).quantity| = b.size t := by
  unfold trade size
  rcases (scales_iff b t).mp h with ⟨hq, ha⟩ | ⟨hq, ha⟩
  · rw [abs_of_pos hq, abs_of_pos ha, abs_of_pos (add_pos hq ha)]
  · rw [abs_of_neg hq, abs_of_neg ha, abs_of_neg (add_neg hq ha)]
    ring

/-- Averaging in moves the rounded-off part of the cost into the carry. -/
theorem carry_trade_of_scales (h : b.Scales t) :
    (b.trade t).carry = b.carry + t.cash + b.rounding t := by
  have ha : t.amount ≠ 0 := right_ne_zero_of_mul h.ne'
  have hq : b.quantity ≠ 0 := left_ne_zero_of_mul h.ne'
  have hdiv := Int.mul_ediv_add_emod (b.cost t) (b.size t)
  simp only [carry, trade, profit, rounding, Trade.cash, if_neg ha, if_neg hq, if_pos h]
  generalize b.cost t / b.size t = avg at hdiv ⊢
  generalize b.cost t % b.size t = rem at hdiv ⊢
  unfold cost size at hdiv
  rcases (scales_iff b t).mp h with ⟨hlong, hbuy⟩ | ⟨hshort, hsell⟩
  · rw [abs_of_pos hlong, abs_of_pos hbuy] at hdiv
    rw [Int.sign_eq_one_of_pos hlong]
    linear_combination -hdiv
  · rw [abs_of_neg hshort, abs_of_neg hsell] at hdiv
    rw [Int.sign_eq_neg_one_of_neg hshort]
    linear_combination hdiv

/-- A trade against the leg moves nothing into the carry. -/
theorem carry_trade_of_not_scales (h : ¬ b.Scales t) :
    (b.trade t).carry = b.carry + t.cash + b.rounding t := by
  simp only [carry, trade, profit, rounding, Trade.cash, if_neg h]
  by_cases ha : t.amount = 0
  · simp [ha]
  by_cases hq : b.quantity = 0
  · simp [ha, hq]
    ring
  rw [if_neg ha, if_neg hq]
  -- the signed profit is the price difference over the closed part, whatever the leg
  have hclosed : b.quantity.sign * |b.quantity| = b.quantity := Int.sign_mul_abs b.quantity
  have hopposed : b.quantity.sign * |t.amount| = -t.amount := by
    rw [scales_iff] at h
    rcases lt_or_gt_of_ne hq with hshort | hlong
    · rw [Int.sign_eq_neg_one_of_neg hshort, abs_of_pos (by omega)]
      ring
    · rw [Int.sign_eq_one_of_pos hlong, abs_of_neg (by omega)]
      ring
  rcases lt_trichotomy |t.amount| |b.quantity| with hlt | heq | hgt
  · rw [if_pos hlt, min_eq_right hlt.le]
    linear_combination (t.price - b.avg) * hopposed
  · have hflat : b.quantity + t.amount = 0 := by
      rw [heq, hclosed] at hopposed
      omega
    rw [if_neg heq.not_lt, if_pos heq, heq, min_self]
    linear_combination (t.price - b.avg) * hclosed + t.price * hflat
  · rw [if_neg hgt.not_gt, if_neg hgt.ne', min_eq_left hgt.le]
    linear_combination (t.price - b.avg) * hclosed

/-- **Conservation.** The carry moves by the cash of the trade and by its rounding. -/
theorem carry_trade (b : CostBook) (t : Trade) :
    (b.trade t).carry = b.carry + t.cash + b.rounding t := by
  by_cases h : b.Scales t
  · exact carry_trade_of_scales h
  · exact carry_trade_of_not_scales h

end Trade

/-! ## Sequences of trades -/

theorem quantity_foldl_trade (ts : List Trade) (b : CostBook) :
    (ts.foldl trade b).quantity = b.quantity + (ts.map Trade.amount).sum := by
  induction ts generalizing b with
  | nil => simp
  | cons t ts ih =>
    rw [List.foldl_cons, ih, List.map_cons, List.sum_cons, ← add_assoc]
    rfl

/-- The rounding of each trade of a sequence. -/
def roundings : CostBook → List Trade → List ℤ
  | _, [] => []
  | b, t :: ts => b.rounding t :: roundings (b.trade t) ts

/-- Over any sequence of trades the carry moves by the cash and by the roundings. -/
theorem carry_foldl_trade (ts : List Trade) (b : CostBook) :
    (ts.foldl trade b).carry = b.carry + (ts.map Trade.cash).sum + (b.roundings ts).sum := by
  induction ts generalizing b with
  | nil => simp [roundings]
  | cons t ts ih =>
    rw [List.foldl_cons, ih, carry_trade, roundings, List.map_cons, List.sum_cons, List.sum_cons]
    ring

/-! ## The current leg -/

/-- The entry prices of the open leg after a trade, when they were `leg` before. -/
def leg (b : CostBook) (leg : List ℤ) (t : Trade) : List ℤ :=
  if t.amount = 0 then leg
  else if b.quantity = 0 then [t.price]
  else if b.Scales t then t.price :: leg
  else if |t.amount| < |b.quantity| then leg
  else if |t.amount| = |b.quantity| then []
  else [t.price]

/-- The average of a flat book is zero, that of an open leg lies between its entry prices. -/
structure Within (b : CostBook) (leg : List ℤ) : Prop where
  flat : b.quantity = 0 → b.avg = 0
  between : b.quantity ≠ 0 → ∃ lo hi, IsLeast {x | x ∈ leg} lo ∧ IsGreatest {x | x ∈ leg} hi ∧
    lo ≤ b.avg ∧ b.avg ≤ hi

theorem isLeast_singleton_list (x : ℤ) : IsLeast {y | y ∈ [x]} x := by
  simp [IsLeast, lowerBounds]

theorem isGreatest_singleton_list (x : ℤ) : IsGreatest {y | y ∈ [x]} x := by
  simp [IsGreatest, upperBounds]

section Leg

variable {b : CostBook} {t : Trade} {prices : List ℤ}

/-- The rounded average lies between the prices it averages. -/
theorem le_average {lo : ℤ} (h : b.Scales t) (havg : lo ≤ b.avg) (hprice : lo ≤ t.price) :
    lo ≤ b.cost t / b.size t := by
  rw [Int.le_ediv_iff_mul_le (size_pos h)]
  have hleg := mul_le_mul_of_nonneg_left havg (abs_nonneg b.quantity)
  have htrade := mul_le_mul_of_nonneg_left hprice (abs_nonneg t.amount)
  unfold cost size
  linarith

theorem average_le {hi : ℤ} (h : b.Scales t) (havg : b.avg ≤ hi) (hprice : t.price ≤ hi) :
    b.cost t / b.size t ≤ hi := by
  refine Int.ediv_le_of_le_mul (size_pos h) ?_
  have hleg := mul_le_mul_of_nonneg_left havg (abs_nonneg b.quantity)
  have htrade := mul_le_mul_of_nonneg_left hprice (abs_nonneg t.amount)
  unfold cost size
  linarith

/-- A leg opened by one trade. -/
theorem Within.opened {price : ℤ} (hq : b.quantity ≠ 0) (havg : b.avg = price) :
    b.Within [price] :=
  ⟨fun hflat => absurd hflat hq, fun _ => ⟨price, price, isLeast_singleton_list price,
    isGreatest_singleton_list price, havg.ge, havg.le⟩⟩

/-- A trade of another size than the leg leaves one open. -/
theorem quantity_trade_ne_zero (h : |t.amount| ≠ |b.quantity|) : (b.trade t).quantity ≠ 0 := by
  intro hflat
  have hopposite : t.amount = -b.quantity := by
    rw [quantity_trade] at hflat
    omega
  exact h (by rw [hopposite, abs_neg])

/-- A trade against the leg that is just as large closes it. -/
theorem quantity_trade_eq_zero (hs : ¬ b.Scales t) (h : |t.amount| = |b.quantity|) :
    (b.trade t).quantity = 0 := by
  rw [scales_iff] at hs
  rw [quantity_trade]
  rcases abs_eq_abs.mp h with hsame | hopposite <;> omega

/-- Averaging in widens the leg by the price of the trade. -/
theorem Within.scaled (h : b.Within prices) (hs : b.Scales t) :
    (b.trade t).Within (t.price :: prices) := by
  have ha : t.amount ≠ 0 := right_ne_zero_of_mul hs.ne'
  have hq : b.quantity ≠ 0 := left_ne_zero_of_mul hs.ne'
  have havg : (b.trade t).avg = b.cost t / b.size t := by
    simp only [CostBook.trade, if_neg ha, if_neg hq, if_pos hs]
  obtain ⟨lo, hi, hlo, hhi, hle, hge⟩ := h.between hq
  refine ⟨?_, ?_⟩
  · intro hflat
    have hsize := abs_quantity_trade_of_scales hs
    rw [hflat, abs_zero] at hsize
    exact absurd hsize (size_pos hs).ne
  · intro _
    have hset : {x | x ∈ t.price :: prices} = insert t.price {x | x ∈ prices} := by
      ext x
      simp
    rw [hset, havg]
    refine ⟨_, _, hlo.insert t.price, hhi.insert t.price, ?_, ?_⟩
    · exact le_average hs ((min_le_right _ _).trans hle) (min_le_left _ _)
    · exact average_le hs (hge.trans (le_max_right _ _)) (le_max_left _ _)

/-- Every trade keeps the average within the leg. -/
theorem Within.trade (h : b.Within prices) (t : Trade) :
    (b.trade t).Within (b.leg prices t) := by
  unfold CostBook.leg
  by_cases ha : t.amount = 0
  · rw [if_pos ha]
    have hsame : b.trade t = ⟨b.quantity, b.avg, (b.trade t).realized⟩ := by
      simp [CostBook.trade, ha]
    rw [hsame]
    exact ⟨h.flat, h.between⟩
  rw [if_neg ha]
  by_cases hq : b.quantity = 0
  · rw [if_pos hq]
    refine Within.opened (quantity_trade_ne_zero ?_) ?_
    · rw [hq, abs_zero]
      exact abs_ne_zero.mpr ha
    · simp only [CostBook.trade, if_neg ha, if_pos hq]
  rw [if_neg hq]
  by_cases hs : b.Scales t
  · rw [if_pos hs]
    exact h.scaled hs
  rw [if_neg hs]
  rcases lt_trichotomy |t.amount| |b.quantity| with hlt | heq | hgt
  · have havg : (b.trade t).avg = b.avg := by
      simp only [CostBook.trade, if_neg ha, if_neg hq, if_neg hs, if_pos hlt]
    rw [if_pos hlt]
    refine ⟨fun hflat => absurd hflat (quantity_trade_ne_zero hlt.ne), ?_⟩
    intro _
    rw [havg]
    exact h.between hq
  · have havg : (b.trade t).avg = 0 := by
      simp only [CostBook.trade, if_neg ha, if_neg hq, if_neg hs, if_neg heq.not_lt, if_pos heq]
    exact ⟨fun _ => havg, fun hopen => absurd (quantity_trade_eq_zero hs heq) hopen⟩
  · rw [if_neg hgt.not_gt, if_neg hgt.ne']
    refine Within.opened (quantity_trade_ne_zero hgt.ne') ?_
    simp only [CostBook.trade, if_neg ha, if_neg hq, if_neg hs, if_neg hgt.not_gt, if_neg hgt.ne']

/-- Prices that are not negative have an average that is not. -/
theorem avg_trade_nonneg (havg : 0 ≤ b.avg) (hprice : 0 ≤ t.price) : 0 ≤ (b.trade t).avg := by
  unfold CostBook.trade
  dsimp only
  split_ifs with ha hq hs
  · exact havg
  · exact hprice
  · exact le_average hs havg hprice
  · exact havg
  · exact le_rfl
  · exact hprice

end Leg

end CostBook

/-! ## Averages kept across batches -/

/-- Rebuilding a total from its rounded-down average loses the remainder. The average of the whole
is still right exactly when its own remainder covers the loss. -/
theorem average_resume_iff {total size part : ℕ} (more : ℕ) (hpos : 0 < size + part) :
    (total / size * size + more) / (size + part) = (total + more) / (size + part) ↔
      total % size ≤ (total + more) % (size + part) := by
  have hkept : total / size * size + total % size = total := Nat.div_add_mod' total size
  have hwhole := Nat.div_add_mod' (total + more) (size + part)
  have hlt := Nat.mod_lt (total + more) hpos
  rw [Nat.div_eq_iff hpos]
  generalize (total + more) / (size + part) = avg at hwhole ⊢
  generalize avg * (size + part) = exact at hwhole ⊢
  omega

end Hedge.Common
