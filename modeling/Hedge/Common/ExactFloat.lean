import Mathlib.Data.Rat.Floor
import Mathlib.Tactic.Positivity

/-!
# Floating point without rounding

`ExactFloat` has the special values of an IEEE float and, in place of the finite ones, every
rational. Comparisons, special cases and conversions are those of `f32` and `f64`; sums, products
and quotients of finite values are exact. A program that only compares, clamps and scales by factors
in `[0, 1]` is modelled up to the rounding of those products.
-/

namespace Hedge.Common

/-- An `f32` or `f64` value whose finite arithmetic is exact. -/
inductive ExactFloat where
  | nan
  | negInf
  | posInf
  | fin (q : ℚ)
deriving DecidableEq, Repr

namespace ExactFloat

/-- `a > b`; false as soon as one side is NaN. -/
def gt : ExactFloat → ExactFloat → Bool
  | nan, _ => false
  | _, nan => false
  | negInf, _ => false
  | posInf, posInf => false
  | posInf, _ => true
  | fin _, negInf => true
  | fin _, posInf => false
  | fin a, fin b => decide (b < a)

/-- `a < b`. -/
def lt (a b : ExactFloat) : Bool := gt b a

/-- `x.is_nan()`. -/
def isNan : ExactFloat → Bool
  | nan => true
  | _ => false

/-- `x.is_finite()`. -/
def isFinite : ExactFloat → Bool
  | fin _ => true
  | _ => false

/-- `x as f32`: a value beyond the range of `f32` becomes infinite. -/
def toF32 : ExactFloat → ExactFloat
  | fin q =>
    if (2 ^ 25 - 1) * 2 ^ 103 ≤ q then posInf
    else if q ≤ -((2 ^ 25 - 1) * 2 ^ 103) then negInf
    else fin q
  | x => x

/-- `n as f64`. -/
def ofInt (n : ℤ) : ExactFloat := fin n

/-- The sign of an infinity after a product with a finite factor. -/
private def scaleInf (q : ℚ) (pos neg : ExactFloat) : ExactFloat :=
  if q = 0 then nan else if 0 < q then pos else neg

/-- `a * b`. -/
def mul : ExactFloat → ExactFloat → ExactFloat
  | nan, _ => nan
  | _, nan => nan
  | fin a, fin b => fin (a * b)
  | fin a, posInf => scaleInf a posInf negInf
  | fin a, negInf => scaleInf a negInf posInf
  | posInf, fin b => scaleInf b posInf negInf
  | negInf, fin b => scaleInf b negInf posInf
  | posInf, posInf => posInf
  | posInf, negInf => negInf
  | negInf, posInf => negInf
  | negInf, negInf => posInf

/-- `a.min(b)`: a NaN argument is ignored. -/
def min (a b : ExactFloat) : ExactFloat :=
  if a.isNan then b else if b.isNan then a else if gt a b then b else a

/-- `a.max(b)`: a NaN argument is ignored. -/
def max (a b : ExactFloat) : ExactFloat :=
  if a.isNan then b else if b.isNan then a else if lt a b then b else a

/-- The rational rounded toward zero. -/
def truncRat (q : ℚ) : ℤ := if 0 ≤ q then ⌊q⌋ else ⌈q⌉

/-- `x as iN` into the range `[lo, hi]`: rounds toward zero, saturates, and sends NaN to zero. -/
def toIntSat (lo hi : ℤ) : ExactFloat → ℤ
  | nan => 0
  | negInf => lo
  | posInf => hi
  | fin q => Max.max lo (Min.min (truncRat q) hi)

@[simp] theorem gt_fin (a b : ℚ) : gt (fin a) (fin b) = decide (b < a) := rfl

@[simp] theorem mul_fin (a b : ℚ) : mul (fin a) (fin b) = fin (a * b) := rfl

@[simp] theorem isFinite_fin (a : ℚ) : isFinite (fin a) = true := rfl

theorem min_fin (a b : ℚ) : min (fin a) (fin b) = fin (Min.min a b) := by
  simp only [min, isNan, Bool.false_eq_true, if_false, gt_fin, decide_eq_true_eq]
  split
  · rename_i h
    rw [min_eq_right h.le]
  · rename_i h
    rw [min_eq_left (not_lt.mp h)]

/-- Truncation of a nonnegative rational is its floor. -/
theorem truncRat_of_nonneg {q : ℚ} (h : 0 ≤ q) : truncRat q = ⌊q⌋ := if_pos h

end ExactFloat

end Hedge.Common
