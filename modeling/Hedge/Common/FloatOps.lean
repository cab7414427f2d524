import Hedge.Common.ExactFloat
import Hedge.Common.Json

/-!
# Sums, magnitudes and roundings of exact floats

The operations of `f32` and `f64` beyond those of `ExactFloat`, with their special cases, and floats
in JSON. Finite results are exact.
-/

namespace Hedge.Common

namespace ExactFloat

/-- `a + b`. -/
def add : ExactFloat → ExactFloat → ExactFloat
  | nan, _ => nan
  | _, nan => nan
  | posInf, negInf => nan
  | negInf, posInf => nan
  | posInf, _ => posInf
  | _, posInf => posInf
  | negInf, _ => negInf
  | _, negInf => negInf
  | fin a, fin b => fin (a + b)

/-- `x.abs()`. -/
def abs : ExactFloat → ExactFloat
  | nan => nan
  | negInf => posInf
  | posInf => posInf
  | fin a => fin |a|

/-- `-x`. -/
def neg : ExactFloat → ExactFloat
  | nan => nan
  | negInf => posInf
  | posInf => negInf
  | fin a => fin (-a)

/-- `a <= b`; false as soon as one side is NaN. -/
def le (a b : ExactFloat) : Bool := lt a b || (a = b && !a.isNan)

/-- `x.clamp(lo, hi)`; NaN stays NaN. -/
def clampTo (x : ExactFloat) (lo hi : ℚ) : ExactFloat :=
  if lt x (fin lo) then fin lo else if gt x (fin hi) then fin hi else x

/-- `f32::EPSILON`. -/
def f32Epsilon : ExactFloat := fin (1 / 2 ^ 23)

/-- `q.round()`: halves go away from zero. -/
def roundRat (q : ℚ) : ℤ := if 0 ≤ q then ⌊q + 1 / 2⌋ else ⌈q - 1 / 2⌉

@[simp] theorem add_fin (a b : ℚ) : add (fin a) (fin b) = fin (a + b) := rfl

@[simp] theorem abs_fin (a : ℚ) : abs (fin a) = fin |a| := rfl

@[simp] theorem lt_fin (a b : ℚ) : lt (fin a) (fin b) = decide (a < b) := rfl

theorem le_fin (a b : ℚ) : le (fin a) (fin b) = decide (a ≤ b) := by
  rw [Bool.eq_iff_iff]
  simp [le, isNan, le_iff_lt_or_eq]

/-- Without a NaN one of two values is at most the other. -/
theorem not_lt_eq (a b : ExactFloat) : (!lt a b) = (le b a || a.isNan || b.isNan) := by
  cases a with
  | fin a =>
    cases b with
    | fin b =>
      rw [lt_fin, le_fin, ← decide_not]
      simp [isNan]
    | _ => simp [lt, le, gt, isNan]
  | _ => cases b <;> simp [lt, le, gt, isNan]

/-- A NaN is not compared. -/
theorem isNan_of_le {a b : ExactFloat} (h : le a b = true) : a.isNan = false ∧ b.isNan = false := by
  cases a with
  | nan => cases b <;> simp [le, lt, gt, isNan] at h
  | _ => cases b <;> simp_all [le, lt, gt, isNan]

@[simp] theorem isNan_add_fin (a : ExactFloat) (b : ℚ) : (add a (fin b)).isNan = a.isNan := by
  cases a <;> rfl

/-- A conversion keeps the sign. -/
theorem toF32_le_zero (q : ℚ) : (fin q).toF32.le (fin 0) = decide (q ≤ 0) := by
  have hmax : (0 : ℚ) < (2 ^ 25 - 1) * 2 ^ 103 := by positivity
  rw [toF32]
  split_ifs with hinf hneg
  · simp [le, lt, gt, not_le.mpr (hmax.trans_le hinf)]
  · simp [le, lt, gt, hneg.trans (neg_nonpos.mpr hmax.le)]
  · exact le_fin q 0

theorem zero_le_toF32 (q : ℚ) : (fin 0).le (fin q).toF32 = decide (0 ≤ q) := by
  have hmax : (0 : ℚ) < (2 ^ 25 - 1) * 2 ^ 103 := by positivity
  rw [toF32]
  split_ifs with hinf hneg
  · simp [le, lt, gt, hmax.le.trans hinf]
  · simp [le, lt, gt, not_le.mpr (hneg.trans_lt (neg_neg_of_pos hmax))]
  · exact le_fin 0 q

theorem roundRat_intCast (n : ℤ) : roundRat n = n := by
  rw [roundRat]
  split_ifs
  · rw [Int.floor_eq_iff]
    constructor <;> norm_num
  · rw [Int.ceil_eq_iff]
    constructor <;> norm_num

/-- Rounding keeps a value between two integers. -/
theorem roundRat_mem {q : ℚ} {lo hi : ℤ} (hlo : (lo : ℚ) ≤ q) (hhi : q ≤ hi) :
    lo ≤ roundRat q ∧ roundRat q ≤ hi := by
  rw [roundRat]
  split_ifs
  · refine ⟨Int.le_floor.mpr (by linarith), Int.lt_add_one_iff.mp (Int.floor_lt.mpr ?_)⟩
    push_cast
    linarith
  · refine ⟨Int.sub_one_lt_iff.mp (Int.lt_ceil.mpr ?_), Int.ceil_le.mpr (by linarith)⟩
    push_cast
    linarith

/-- A finite value of the range of `f32`. -/
def IsF32 (x : ExactFloat) : Prop := x.isFinite = true ∧ x.toF32 = x

instance (x : ExactFloat) : Decidable x.IsF32 := inferInstanceAs (Decidable (_ ∧ _))

end ExactFloat

namespace Json

/-- `json!(x)` for an `f32`: a number that is not finite is null. -/
def ofF32 : ExactFloat → Json
  | .fin q => .num (.float q)
  | _ => .null

/-- An `f32` of any number. -/
def asF32 (v : Json) : Option ExactFloat := v.asF64.map fun q => (ExactFloat.fin q).toF32

theorem asF32_ofF32 {x : ExactFloat} (h : x.IsF32) : (ofF32 x).asF32 = some x := by
  obtain ⟨hfinite, hrange⟩ := h
  cases x with
  | fin q => exact congrArg some hrange
  | _ => cases hfinite

end Json

end Hedge.Common
