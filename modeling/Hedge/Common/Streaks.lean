import Mathlib.Algebra.BigOperators.Group.List.Basic
import Mathlib.Data.List.DropRight
import Mathlib.Data.List.Induction
import Mathlib.Data.Nat.Size
import Mathlib.Tactic.Ring

/-!
# Streaks

A sequence of hits and misses splits into its streaks of hits. `streaks` are the lengths of all of
them, the empty ones between two misses included, and `trailing` is the length of the one that is
still running. A quantity that is a sum over the streaks changes with the next element by the
running streak only, which is `sum_streaks_hit` and `sum_streaks_miss`.

A reporter that speaks up at the first hit of a streak and then each time its length has doubled has
spoken `Nat.size n` times after `n` hits, the last time at `lastDoubling n`.
-/

namespace Hedge.Common

variable {α : Type*}

/-- The length of the streak that is running at the end. -/
def trailing (p : α → Bool) (xs : List α) : ℕ := (xs.rtakeWhile p).length

/-- The lengths of the streaks, one for each miss and one for the end. -/
def streaks (p : α → Bool) (xs : List α) : List ℕ :=
  (xs.splitOnP fun x => !p x).map List.length

@[simp] theorem trailing_nil (p : α → Bool) : trailing p [] = 0 := rfl

theorem trailing_concat (p : α → Bool) (xs : List α) (x : α) :
    trailing p (xs ++ [x]) = if p x then trailing p xs + 1 else 0 := by
  rw [trailing, List.rtakeWhile_concat]
  split_ifs
  · rw [List.length_append, List.length_singleton, trailing]
  · rfl

/-! ## Sums over the streaks -/

/-- A miss ends the running streak, and an empty one begins. -/
theorem streaks_miss {p : α → Bool} (xs : List α) {x : α} (h : p x = false) :
    streaks p (xs ++ [x]) = streaks p xs ++ [0] := by
  have hsep : (!p x) = true := by rw [h]; rfl
  rw [streaks, List.splitOnP_append_cons xs [] hsep, List.splitOnP_nil, List.map_append]
  rfl

theorem splitOnP_concat_of_neg {p : α → Bool} (xs : List α) {x : α} (h : p x = false) :
    ∃ init last, xs.splitOnP p = init ++ [last] ∧
      (xs ++ [x]).splitOnP p = init ++ [last ++ [x]] := by
  induction xs with
  | nil =>
    refine ⟨[], [], rfl, ?_⟩
    rw [List.nil_append, List.splitOnP_eq_singleton (by simpa using h)]
    rfl
  | cons y ys ih =>
    obtain ⟨init, last, hys, hsnoc⟩ := ih
    rw [List.cons_append, List.splitOnP_cons_eq_if_modifyHead, List.splitOnP_cons_eq_if_modifyHead,
      hys, hsnoc]
    by_cases hy : p y = true
    · rw [if_pos hy, if_pos hy]
      exact ⟨[] :: init, last, rfl, rfl⟩
    · rw [if_neg hy, if_neg hy]
      cases init with
      | nil => exact ⟨[], y :: last, rfl, rfl⟩
      | cons first init => exact ⟨(y :: first) :: init, last, rfl, rfl⟩

/-- The last streak is the running one. -/
theorem streaks_eq_concat (p : α → Bool) (xs : List α) :
    ∃ init, streaks p xs = init ++ [trailing p xs] ∧
      ∀ x, p x = true → streaks p (xs ++ [x]) = init ++ [trailing p xs + 1] := by
  induction xs using List.reverseRecOn with
  | nil =>
    refine ⟨[], rfl, fun x hx => ?_⟩
    rw [List.nil_append, streaks, List.splitOnP_eq_singleton (by simpa using hx)]
    rfl
  | append_singleton xs y ih =>
    obtain ⟨init, hxs, hhit⟩ := ih
    have hnext : ∀ x, p x = true → ∃ first last,
        streaks p (xs ++ [y]) = first ++ [last] ∧
          streaks p (xs ++ [y] ++ [x]) = first ++ [last + 1] := by
      intro x hx
      obtain ⟨first, last, hsplit, hsnoc⟩ :=
        splitOnP_concat_of_neg (p := fun x => !p x) (xs ++ [y]) (x := x) (by rw [hx]; rfl)
      refine ⟨first.map List.length, last.length, ?_, ?_⟩
      · rw [streaks, hsplit, List.map_append]
        rfl
      · rw [streaks, hsnoc, List.map_append, List.map_singleton, List.length_append]
        rfl
    -- Either way the streaks of `xs ++ [y]` end with the running one.
    obtain ⟨before, hend⟩ : ∃ before,
        streaks p (xs ++ [y]) = before ++ [trailing p (xs ++ [y])] := by
      rw [trailing_concat]
      by_cases hy : p y = true
      · exact ⟨init, by rw [if_pos hy, hhit y hy]⟩
      · exact ⟨streaks p xs, by rw [if_neg hy, streaks_miss xs (by simpa using hy)]⟩
    refine ⟨before, hend, fun x hx => ?_⟩
    obtain ⟨first, last, hsplit, hsnoc⟩ := hnext x hx
    obtain ⟨rfl, hlast⟩ := List.append_inj' (hend.symm.trans hsplit) rfl
    rw [hsnoc, List.singleton_inj.mp hlast]

/-- A hit lengthens the running streak. -/
theorem sum_streaks_hit {p : α → Bool} (f : ℕ → ℕ) (xs : List α) {x : α} (h : p x = true) :
    ((streaks p (xs ++ [x])).map f).sum + f (trailing p xs)
      = ((streaks p xs).map f).sum + f (trailing p xs + 1) := by
  obtain ⟨init, hxs, hhit⟩ := streaks_eq_concat p xs
  rw [hhit x h, hxs]
  simp only [List.map_append, List.map_singleton, List.sum_append, List.sum_singleton]
  ring

theorem sum_streaks_miss {p : α → Bool} (f : ℕ → ℕ) (xs : List α) {x : α} (h : p x = false) :
    ((streaks p (xs ++ [x])).map f).sum = ((streaks p xs).map f).sum + f 0 := by
  rw [streaks_miss xs h, List.map_append, List.sum_append, List.map_singleton, List.sum_singleton]

/-! ## Doublings -/

/-- The largest power of two up to `n`, which is not zero. -/
def lastDoubling (n : ℕ) : ℕ := 2 ^ (n.size - 1)

/-- The size of a number goes up at the powers of two. -/
theorem size_succ (n : ℕ) :
    (n + 1).size = n.size + if (n + 1).isPowerOfTwo then 1 else 0 := by
  have hle : n.size ≤ (n + 1).size := Nat.size_le_size (Nat.le_succ n)
  have hlt : n < 2 ^ n.size := Nat.lt_size_self n
  split_ifs with hpow
  · obtain ⟨k, hk⟩ := hpow
    have hsize : n.size = k := by
      apply le_antisymm
      · exact Nat.size_le.mpr (by omega)
      · by_contra hk'
        have hmono : 2 ^ (n.size + 1) ≤ 2 ^ k := Nat.pow_le_pow_right Nat.two_pos (by omega)
        rw [pow_succ] at hmono
        have hpos := Nat.two_pow_pos n.size
        omega
    rw [hk, Nat.size_pow, hsize]
  · refine le_antisymm (Nat.size_le.mpr ?_) hle
    -- `n + 1` is at most `2 ^ n.size`, and not equal to it.
    exact lt_of_le_of_ne hlt fun h => hpow ⟨n.size, h⟩

theorem lastDoubling_of_isPowerOfTwo {n : ℕ} (h : n.isPowerOfTwo) : lastDoubling n = n := by
  obtain ⟨k, rfl⟩ := h
  rw [lastDoubling, Nat.size_pow, Nat.add_sub_cancel]

theorem lastDoubling_succ {n : ℕ} (h : ¬(n + 1).isPowerOfTwo) :
    lastDoubling (n + 1) = lastDoubling n := by
  rw [lastDoubling, size_succ, if_neg h, Nat.add_zero, lastDoubling]

section Saturating

variable {cap : ℕ}

/-- A length that stops at `cap` goes up in size where it is a power of two. -/
theorem size_min_succ (hcap : ¬cap.isPowerOfTwo) (n : ℕ) :
    (min (n + 1) cap).size = (min n cap).size + if (min (n + 1) cap).isPowerOfTwo then 1 else 0 := by
  rcases Nat.lt_or_ge n cap with hlt | hge
  · rw [min_eq_left (Nat.succ_le_of_lt hlt), min_eq_left hlt.le]
    exact size_succ n
  · rw [min_eq_right (hge.trans (Nat.le_succ n)), min_eq_right hge, if_neg hcap, Nat.add_zero]

theorem lastDoubling_min_succ {n : ℕ} (h : ¬(min (n + 1) cap).isPowerOfTwo) :
    lastDoubling (min (n + 1) cap) = lastDoubling (min n cap) := by
  rcases Nat.lt_or_ge n cap with hlt | hge
  · rw [min_eq_left (Nat.succ_le_of_lt hlt)] at h ⊢
    rw [min_eq_left hlt.le, lastDoubling_succ h]
  · rw [min_eq_right (hge.trans (Nat.le_succ n)), min_eq_right hge]

end Saturating

/-- What was reported last is past a power of two as soon as the length is. -/
theorem two_pow_le_lastDoubling {k n : ℕ} (hn : n ≠ 0) :
    2 ^ k ≤ lastDoubling n ↔ 2 ^ k ≤ n := by
  have hpos : 0 < n.size := Nat.size_pos.mpr (Nat.pos_of_ne_zero hn)
  rw [lastDoubling, Nat.pow_le_pow_iff_right Nat.one_lt_two, ← Nat.lt_size]
  omega

end Hedge.Common
