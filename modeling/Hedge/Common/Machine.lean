import Mathlib.Algebra.Order.BigOperators.Group.List
import Mathlib.Order.Lattice
import Mathlib.Tactic.Linarith
import Mathlib.Data.Int.Order.Basic

/-!
# Saturating machine arithmetic

The `saturating_add`, `saturating_sub` and `saturating_mul` families on the fixed-width integers of
the standard library, with one lemma each that says what they do on the represented integer. The
value lemmas are simp lemmas, so a goal about saturating sums becomes one about `max` and `min` of
integers, which `omega` decides. `foldl_eq_add_sum` is for a saturating sum over a list that stays
in range.
-/

namespace Int64

/-- The `i64` nearest to `z`. -/
def clamp (z : ℤ) : Int64 :=
  Int64.ofInt (max (-2 ^ 63) (min z (2 ^ 63 - 1)))

@[simp] theorem toInt_clamp (z : ℤ) : (clamp z).toInt = max (-2 ^ 63) (min z (2 ^ 63 - 1)) := by
  rw [clamp, Int64.toInt_ofInt_of_le] <;> omega

@[simp] theorem clamp_toInt (a : Int64) : clamp a.toInt = a := by
  have hlow := a.le_toInt
  have hhigh := a.toInt_lt
  apply Int64.toInt_inj.mp
  rw [toInt_clamp]
  omega

/-- `i64::saturating_add`. -/
def saturatingAdd (a b : Int64) : Int64 := clamp (a.toInt + b.toInt)

/-- `i64::saturating_sub`. -/
def saturatingSub (a b : Int64) : Int64 := clamp (a.toInt - b.toInt)

/-- `i64::saturating_mul`. -/
def saturatingMul (a b : Int64) : Int64 := clamp (a.toInt * b.toInt)

@[simp] theorem toInt_saturatingAdd (a b : Int64) :
    (a.saturatingAdd b).toInt = max (-2 ^ 63) (min (a.toInt + b.toInt) (2 ^ 63 - 1)) :=
  toInt_clamp _

@[simp] theorem toInt_saturatingMul (a b : Int64) :
    (a.saturatingMul b).toInt = max (-2 ^ 63) (min (a.toInt * b.toInt) (2 ^ 63 - 1)) :=
  toInt_clamp _

theorem toInt_max (a b : Int64) : (max a b).toInt = max a.toInt b.toInt := by
  change (if a ≤ b then b else a).toInt = _
  rw [apply_ite Int64.toInt, max_def]
  simp only [Int64.le_iff_toInt_le]

/-- The distance of two numbers that are not negative fits. -/
theorem toInt_abs_sub {a b : Int64} (ha : 0 ≤ a.toInt) (hb : 0 ≤ b.toInt) :
    (a - b).abs.toInt = |a.toInt - b.toInt| := by
  have ha' := a.toInt_lt
  have hb' := b.toInt_lt
  have hsub : (a - b).toInt = a.toInt - b.toInt := by
    rw [toInt_sub]
    apply Int.bmod_eq_of_le <;> omega
  have hne : (a - b).toBitVec ≠ BitVec.intMin 64 := by
    intro h
    have hmin : (a - b).toInt = (BitVec.intMin 64).toInt := congrArg BitVec.toInt h
    rw [hsub, BitVec.toInt_intMin] at hmin
    omega
  have habs : (a - b).abs.toInt = (a - b).toInt.natAbs := BitVec.toInt_abs_eq_natAbs_of_ne_intMin hne
  rw [habs, hsub, Int.natCast_natAbs]

/-- `i64::from(x)` for a `u32`. -/
def fromU32 (x : UInt32) : Int64 := Int64.ofInt x.toNat

@[simp] theorem toInt_fromU32 (x : UInt32) : (fromU32 x).toInt = x.toNat := by
  have hx := x.toNat_lt
  rw [fromU32, Int64.toInt_ofInt_of_le] <;> omega

/-- A `u32` number of rupees in paise never overflows `i64`. -/
@[simp] theorem toInt_fromU32_mul_hundred (x : UInt32) :
    (fromU32 x * 100).toInt = x.toNat * 100 := by
  have hx := x.toNat_lt
  have h100 : (100 : Int64).toInt = 100 := rfl
  rw [Int64.toInt_mul, toInt_fromU32, h100]
  apply Int.bmod_eq_of_le <;> omega

@[simp] theorem toInt_neg_fromU32_mul_hundred (x : UInt32) :
    (-(fromU32 x * 100)).toInt = -(x.toNat * 100) := by
  have hx := x.toNat_lt
  rw [Int64.toInt_neg, toInt_fromU32_mul_hundred]
  apply Int.bmod_eq_of_le <;> omega

end Int64

namespace UInt64

/-- `u64::saturating_add`. -/
def saturatingAdd (a b : UInt64) : UInt64 := UInt64.ofNat (min (a.toNat + b.toNat) (2 ^ 64 - 1))

/-- `u64::saturating_sub`. -/
def saturatingSub (a b : UInt64) : UInt64 := UInt64.ofNat (a.toNat - b.toNat)

@[simp] theorem toNat_saturatingAdd (a b : UInt64) :
    (a.saturatingAdd b).toNat = min (a.toNat + b.toNat) (2 ^ 64 - 1) := by
  rw [saturatingAdd, UInt64.toNat_ofNat', Nat.mod_eq_of_lt]
  omega

theorem toNat_saturatingSub (a b : UInt64) : (a.saturatingSub b).toNat = a.toNat - b.toNat := by
  have hlt := a.toNat_lt
  rw [saturatingSub, UInt64.toNat_ofNat', Nat.mod_eq_of_lt (by omega)]

/-- Nothing is cut off when less is taken away than there is. -/
theorem toNat_saturatingSub_add {a b : UInt64} (h : b ≤ a) :
    (a.saturatingSub b).toNat + b.toNat = a.toNat := by
  rw [toNat_saturatingSub]
  exact Nat.sub_add_cancel (UInt64.le_iff_toNat_le.mp h)

/-- `x as i64` keeps the value of a `u64` below the sign bit. -/
theorem toInt_toInt64_of_lt {x : UInt64} (h : x.toNat < 2 ^ 63) :
    x.toInt64.toInt = x.toNat := by
  have hbv : x.toInt64.toInt = x.toBitVec.toInt := rfl
  have hnat : x.toBitVec.toNat = x.toNat := rfl
  rw [hbv, BitVec.toInt_eq_toNat_of_lt (by omega), hnat]

/-- `u64::from(x)` for a `u32`. -/
def fromU32 (x : UInt32) : UInt64 := x.toUInt64

@[simp] theorem toNat_fromU32 (x : UInt32) : (fromU32 x).toNat = x.toNat :=
  UInt32.toNat_toUInt64 x

end UInt64

namespace UInt32

/-- `u32::saturating_add`. -/
def saturatingAdd (a b : UInt32) : UInt32 := UInt32.ofNat (min (a.toNat + b.toNat) (2 ^ 32 - 1))

@[simp] theorem toNat_saturatingAdd (a b : UInt32) :
    (a.saturatingAdd b).toNat = min (a.toNat + b.toNat) (2 ^ 32 - 1) := by
  rw [saturatingAdd, UInt32.toNat_ofNat', Nat.mod_eq_of_lt]
  omega

end UInt32

namespace Hedge.Common

/-- A fold that adds as long as it stays within `bound` returns the sum of nonnegative terms that
fit. -/
theorem foldl_eq_add_sum {α : Type*} {g : ℤ → α → ℤ} {y : α → ℤ} {as : List α} (bound : ℤ)
    (hy : ∀ a ∈ as, 0 ≤ y a)
    (hg : ∀ n, ∀ a ∈ as, 0 ≤ n → n + y a ≤ bound → g n a = n + y a) {n : ℤ} (hn : 0 ≤ n)
    (hle : n + (as.map y).sum ≤ bound) : as.foldl g n = n + (as.map y).sum := by
  induction as generalizing n with
  | nil => simp
  | cons a as ih =>
    obtain ⟨hya, hyas⟩ := List.forall_mem_cons.mp hy
    have hrest : 0 ≤ (as.map y).sum := List.sum_nonneg (by simpa using hyas)
    rw [List.map_cons, List.sum_cons] at hle ⊢
    rw [List.foldl_cons, hg n a List.mem_cons_self hn (by omega),
      ih hyas (fun n b hb => hg n b (List.mem_cons_of_mem _ hb)) (by omega) (by omega)]
    omega

end Hedge.Common
