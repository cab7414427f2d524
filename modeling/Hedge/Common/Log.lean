import Mathlib.Data.List.Induction
import Mathlib.Data.List.Rotate
import Mathlib.Data.List.Sort

/-!
# Bounded logs in a ring of slots

A buffer of fixed capacity that overwrites its oldest slot keeps the last entries of a log. The
slots are the entries in log order up to a rotation by the position of the oldest one:
`rotate_set_succ` is the overwrite and `lastN_concat` what it does to the entries kept. The last entry
of a key is found from the end of the log (`find?_reverse_concat`). A reading of the sorted entries
does not see the rotation (`insertionSort_eq_of_perm`).

A log that can be cleared is the entries since the last clear; `LogCall.simulation` is the rule that
a representation follows it over every run.
-/

namespace Hedge.Common

variable {α : Type*}

/-- The last `n` entries of a log. -/
def lastN (n : ℕ) (log : List α) : List α := log.drop (log.length - n)

@[simp] theorem lastN_nil (n : ℕ) : lastN n ([] : List α) = [] := List.drop_nil

@[simp] theorem length_lastN (n : ℕ) (log : List α) : (lastN n log).length = min n log.length := by
  rw [lastN, List.length_drop]
  omega

theorem lastN_of_length_le {n : ℕ} {log : List α} (h : log.length ≤ n) : lastN n log = log := by
  rw [lastN, Nat.sub_eq_zero_of_le h, List.drop_zero]

/-- A full window loses its oldest entry to the newest. -/
theorem lastN_concat {n : ℕ} {log : List α} (hn : 0 < n) (h : n ≤ log.length) (x : α) :
    lastN n (log ++ [x]) = (lastN n log).tail ++ [x] := by
  have hlen : (log ++ [x]).length - n = log.length - n + 1 := by
    rw [List.length_append, List.length_singleton]
    omega
  rw [lastN, hlen, List.drop_append_of_le_length (by omega), lastN, List.tail_drop]

/-- The last entry of a key in a longer log. -/
theorem find?_reverse_concat {κ : Type*} [DecidableEq κ] (key : α → κ) (log : List α) (x : α)
    (k : κ) :
    ((log ++ [x]).reverse.find? fun y => key y = k) =
      if k = key x then some x else log.reverse.find? fun y => key y = k := by
  rw [List.reverse_concat, List.find?_cons]
  by_cases hkey : k = key x
  · simp [hkey]
  · simp [hkey, Ne.symm hkey]

/-- Overwriting the oldest slot makes the next one the oldest. -/
theorem rotate_set_succ {buf : List α} {i : ℕ} (h : i < buf.length) (x : α) :
    (buf.set i x).rotate (i + 1) = (buf.rotate i).tail ++ [x] := by
  have htake : (buf.set i x).take (i + 1) = buf.take i ++ [x] := by
    rw [List.take_set, List.take_succ_eq_append_getElem h,
      List.set_append_right _ _ (List.length_take_le i buf), List.length_take_of_le h.le, Nat.sub_self]
    rfl
  have hdrop : (buf.set i x).drop (i + 1) = buf.drop (i + 1) :=
    List.drop_set_of_lt (Nat.lt_succ_self i)
  rw [List.rotate_eq_drop_append_take (by rwa [List.length_set]), htake, hdrop,
    List.rotate_eq_drop_append_take h.le, ← List.append_assoc]
  congr 1
  rw [List.tail_append_of_ne_nil (by simpa using h), List.tail_drop]

theorem lastN_min_length (n : ℕ) (log : List α) : lastN (min log.length n) log = lastN n log := by
  rw [lastN, lastN]
  congr 1
  omega

/-- Sorting depends on the entries and not on their order. -/
theorem insertionSort_eq_of_perm {r : α → α → Prop} [DecidableRel r] [Std.Total r] [IsTrans α r]
    [Std.Antisymm r] {xs ys : List α} (h : xs.Perm ys) :
    xs.insertionSort r = ys.insertionSort r := by
  have hperm : (xs.insertionSort r).Perm (ys.insertionSort r) := calc
    (xs.insertionSort r).Perm xs := List.perm_insertionSort r xs
    xs.Perm ys := h
    ys.Perm (ys.insertionSort r) := (List.perm_insertionSort r ys).symm
  exact hperm.eq_of_pairwise' (List.pairwise_insertionSort r xs) (List.pairwise_insertionSort r ys)

/-! ## Clearing -/

/-- A call on a log. -/
inductive LogCall (α : Type*) where
  | append (entry : α)
  | clear
deriving DecidableEq, Repr

namespace LogCall

/-- What a call makes of the entries. -/
def apply (log : List α) : LogCall α → List α
  | append entry => log ++ [entry]
  | clear => []

/-- The entries appended since the last clear, oldest first. -/
def since (calls : List (LogCall α)) : List α := calls.foldl apply []

/-- A representation that starts empty and follows each call on the log follows every run. -/
theorem simulation {σ : Type*} {step : σ → LogCall α → σ} (R : σ → List α → Prop)
    (happend : ∀ s log entry, R s log → R (step s (append entry)) (log ++ [entry]))
    (hclear : ∀ s log, R s log → R (step s clear) []) {s : σ} (hs : R s [])
    (calls : List (LogCall α)) : R (calls.foldl step s) (since calls) := by
  induction calls using List.reverseRecOn with
  | nil => exact hs
  | append_singleton calls call ih =>
    rw [since, List.foldl_concat, List.foldl_concat]
    cases call with
    | append entry => exact happend _ _ entry ih
    | clear => exact hclear _ _ ih

end LogCall

end Hedge.Common
