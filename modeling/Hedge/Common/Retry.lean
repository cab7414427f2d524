import Mathlib.Data.List.Basic

/-!
# Bounded retry

Attempts are numbered, and `settles k` says that the result of attempt `k` is final. `lastAttempt`
is the attempt at which a loop that stops at the first settled attempt, and after a bounded number
of them in any case, comes to rest.
-/

namespace Hedge.Common

/-- The last attempt of a loop that starts at attempt `k` and may make `r` more after it. -/
def lastAttempt (settles : ℕ → Bool) : (r k : ℕ) → ℕ
  | 0, k => k
  | r + 1, k => if settles k then k else lastAttempt settles r (k + 1)

section

variable {settles : ℕ → Bool}

theorem le_lastAttempt (r k : ℕ) : k ≤ lastAttempt settles r k := by
  induction r generalizing k with
  | zero => exact Nat.le_refl k
  | succ r ih =>
    rw [lastAttempt]
    split
    · exact Nat.le_refl k
    · exact Nat.le_of_succ_le (ih (k + 1))

theorem lastAttempt_le (r k : ℕ) : lastAttempt settles r k ≤ k + r := by
  induction r generalizing k with
  | zero => exact Nat.le_refl k
  | succ r ih =>
    rw [lastAttempt]
    split
    · omega
    · have := ih (k + 1)
      omega

/-- No attempt before the last one settles. -/
theorem not_settles_of_lt_lastAttempt {r k j : ℕ} (hk : k ≤ j) (hj : j < lastAttempt settles r k) :
    settles j = false := by
  induction r generalizing k with
  | zero => exact absurd hj (Nat.not_lt.mpr hk)
  | succ r ih =>
    rw [lastAttempt] at hj
    split at hj
    · omega
    · rename_i hset
      rcases Nat.eq_or_lt_of_le hk with rfl | hlt
      · exact Bool.eq_false_iff.mpr hset
      · exact ih hlt hj

/-- The last attempt settles exactly when some attempt within the budget does. -/
theorem settles_lastAttempt_iff {r k : ℕ} :
    settles (lastAttempt settles r k) = true ↔ ∃ j, k ≤ j ∧ j ≤ k + r ∧ settles j = true := by
  constructor
  · intro h
    exact ⟨_, le_lastAttempt r k, lastAttempt_le r k, h⟩
  · rintro ⟨j, hkj, hj, hset⟩
    induction r generalizing k with
    | zero =>
      obtain rfl : j = k := by omega
      exact hset
    | succ r ih =>
      rw [lastAttempt]
      split
      · assumption
      · rename_i hnot
        rcases Nat.eq_or_lt_of_le hkj with rfl | hlt
        · exact absurd hset hnot
        · exact ih hlt (by omega)

/-- An attempt is reached exactly when it is within the budget and none before it settles. -/
theorem le_lastAttempt_iff {r k j : ℕ} (hk : k ≤ j) :
    j ≤ lastAttempt settles r k ↔ j ≤ k + r ∧ ∀ i, k ≤ i → i < j → settles i = false := by
  constructor
  · intro h
    exact ⟨Nat.le_trans h (lastAttempt_le r k), fun i hi hij =>
      not_settles_of_lt_lastAttempt hi (Nat.lt_of_lt_of_le hij h)⟩
  · rintro ⟨hle, hbefore⟩
    induction r generalizing k with
    | zero => exact hle
    | succ r ih =>
      rw [lastAttempt]
      rcases Nat.eq_or_lt_of_le hk with rfl | hlt
      · split
        · exact Nat.le_refl k
        · exact Nat.le_of_succ_le (le_lastAttempt r (k + 1))
      · rw [hbefore k (Nat.le_refl k) hlt]
        exact ih hlt (by omega) fun i hi hij => hbefore i (Nat.le_of_succ_le hi) hij

end

/-- At most one of the attempts `a, …, a + n - 1` satisfies `p`. -/
theorem countP_range'_le_one_iff (p : ℕ → Bool) (a n : ℕ) :
    (List.range' a n).countP p ≤ 1 ↔
      ∀ i j, a ≤ i → i < j → j < a + n → ¬ (p i = true ∧ p j = true) := by
  induction n with
  | zero => simp; omega
  | succ n ih =>
    rw [List.range'_concat, List.countP_append, List.countP_singleton, Nat.one_mul]
    by_cases hp : p (a + n) = true
    · -- the new attempt counts, so none before it may
      rw [if_pos hp]
      constructor
      · intro hcount i j hi hij hj ⟨hpi, hpj⟩
        have hzero : (List.range' a n).countP p = 0 := by omega
        exact List.countP_eq_zero.mp hzero i (List.mem_range'_1.mpr ⟨hi, by omega⟩) hpi
      · intro h
        have hzero : (List.range' a n).countP p = 0 := by
          refine List.countP_eq_zero.mpr fun i hi hpi => ?_
          obtain ⟨h1, h2⟩ := List.mem_range'_1.mp hi
          exact h i (a + n) h1 h2 (by omega) ⟨hpi, hp⟩
        omega
    · rw [if_neg hp, Nat.add_zero, ih]
      constructor
      · intro h i j hi hij hj hboth
        rcases Nat.eq_or_lt_of_le (Nat.lt_succ_iff.mp hj) with rfl | hlt
        · exact hp hboth.2
        · exact h i j hi hij hlt hboth
      · intro h i j hi hij hj
        exact h i j hi hij (Nat.lt_succ_of_lt hj)

/-- At most one of the attempts `1, …, n` satisfies `p`. -/
theorem countP_attempts_le_one_iff (p : ℕ → Bool) (n : ℕ) :
    (List.range' 1 n).countP p ≤ 1 ↔
      ∀ i j, 1 ≤ i → i < j → j ≤ n → ¬ (p i = true ∧ p j = true) := by
  rw [countP_range'_le_one_iff]
  constructor
  · intro h i j hi hij hj
    exact h i j hi hij (by omega)
  · intro h i j hi hij hj
    exact h i j hi hij (by omega)

end Hedge.Common
