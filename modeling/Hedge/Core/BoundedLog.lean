import Hedge.Common.Log
import Hedge.Core.RingWindow

/-!
# `RingWindow` as a bounded log

Reference: `hedge-core/src/window.rs`.

A window is for keeping the last `N` values pushed since it was cleared. `ring_refines_log` says that
every reader of the source returns what that log has, over any calls, and that every index it
computes is a slot.
-/

namespace Hedge.Core

open Hedge.Common

namespace RingWindow

variable {α : Type*} {N : ℕ}

/-- One call: an entry is pushed, or the window is cleared. -/
def apply (w : RingWindow α N) : LogCall α → RingWindow α N
  | .append value => w.push value
  | .clear => w.clear

/-- A new window after the calls. -/
def afterCalls (dflt : α) (hN : 0 < N) (calls : List (LogCall α)) : RingWindow α N :=
  calls.foldl apply (new dflt hN)

/-- Every slot that the operations address exists: the one overwritten and read as the oldest, the
next one to fill, the latest, the end of the slice of a filling window; and no subtraction on the
way goes below zero. -/
structure InRange (w : RingWindow α N) : Prop where
  oldest : w.head < N
  next : (w.head + w.len) % N < N
  latest : 1 ≤ w.head + w.len + N ∧ (w.head + w.len + N - 1) % N < N
  slice : w.isFull = false → w.head + w.len ≤ N
  recent : ∀ k, min k w.len ≤ w.len

theorem inRange (w : RingWindow α N) : w.InRange where
  oldest := w.head_lt
  next := Nat.mod_lt _ (Nat.zero_lt_of_lt w.head_lt)
  latest := ⟨by have := w.head_lt; omega, Nat.mod_lt _ (Nat.zero_lt_of_lt w.head_lt)⟩
  slice := by
    intro hfilling
    have hlt : w.len < N := Nat.lt_of_le_of_ne w.len_le (by simpa [isFull] using hfilling)
    rw [w.head_eq_zero hlt]
    omega
  recent k := Nat.min_le_right k w.len

/-! ## The readers -/

theorem iter_eq_nil {w : RingWindow α N} (h : w.len = 0) : w.iter = [] := by
  rw [← List.length_eq_zero_iff, length_iter, h]

/-- The slot before the next write is the end of what the window shows. -/
theorem latest_eq (w : RingWindow α N) : w.latest = w.iter.getLast? := by
  have hhead := w.head_lt
  have hlen := w.len_le
  have hsize : w.buf.toList.length = N := by simp
  unfold latest
  split_ifs with hzero
  · rw [iter_eq_nil hzero, List.getLast?_nil]
  rw [← Vector.getElem?_toList]
  by_cases hfull : w.len = N
  · -- in a full window the latest is before the head, or at the end when the head is at the start
    rw [iter_of_full hfull, hfull]
    by_cases hfirst : w.head = 0
    · have hidx : (w.head + N + N - 1) % N = N - 1 := by
        rw [hfirst, show 0 + N + N - 1 = N - 1 + N by omega, Nat.add_mod_right,
          Nat.mod_eq_of_lt (by omega)]
      rw [hidx, hfirst, List.drop_zero, List.take_zero, List.append_nil, List.getLast?_eq_getElem?,
        hsize]
    · have hidx : (w.head + N + N - 1) % N = w.head - 1 := by
        rw [show w.head + N + N - 1 = w.head - 1 + N + N by omega, Nat.add_mod_right,
          Nat.add_mod_right, Nat.mod_eq_of_lt (by omega)]
      have hne : w.buf.toList.take w.head ≠ [] := by
        rw [← List.length_pos_iff, List.length_take, hsize]
        omega
      rw [hidx, List.getLast?_append_of_ne_nil _ hne, List.getLast?_eq_getElem?, List.length_take,
        hsize, Nat.min_eq_left hhead.le, List.getElem?_take_of_lt (by omega)]
  · have hlt : w.len < N := Nat.lt_of_le_of_ne hlen hfull
    have hidx : (w.head + w.len + N - 1) % N = w.len - 1 := by
      rw [w.head_eq_zero hlt, show 0 + w.len + N - 1 = w.len - 1 + N by omega, Nat.add_mod_right,
        Nat.mod_eq_of_lt (by omega)]
    rw [hidx, iter_of_filling hlt, List.getLast?_eq_getElem?, List.length_take, hsize,
      Nat.min_eq_left hlen, List.getElem?_take_of_lt (by omega)]

theorem oldest_eq (w : RingWindow α N) : w.oldest = w.iter.head? := by
  have hhead := w.head_lt
  have hsize : w.buf.toList.length = N := by simp
  unfold oldest
  split_ifs with hzero
  · rw [iter_eq_nil hzero, List.head?_nil]
  rw [← Vector.getElem?_toList, List.head?_eq_getElem?]
  by_cases hfull : w.len = N
  · rw [iter_of_full hfull, List.getElem?_append_left (by rw [List.length_drop, hsize]; omega),
      List.getElem?_drop, Nat.add_zero]
  · have hlt : w.len < N := Nat.lt_of_le_of_ne w.len_le hfull
    rw [iter_of_filling hlt, w.head_eq_zero hlt, List.getElem?_take_of_lt (by omega)]

theorem iterRecent_eq (w : RingWindow α N) (k : ℕ) :
    w.iterRecent k = lastN (min k w.len) w.iter := by
  rw [iterRecent, lastN, length_iter]

/-! ## Runs -/

theorem iter_clear (w : RingWindow α N) : w.clear.iter = [] := iter_eq_nil rfl

/-- The window shows the last entries of the log. -/
theorem iter_afterCalls (dflt : α) (hN : 0 < N) (calls : List (LogCall α)) :
    (afterCalls dflt hN calls).iter = lastN N (LogCall.since calls) := by
  have hnew : (new dflt hN : RingWindow α N).iter = lastN N [] := by rw [iter_new, lastN_nil]
  refine LogCall.simulation (fun (w : RingWindow α N) log => w.iter = lastN N log) ?_ ?_ hnew calls
  · intro w log value h
    exact iter_push_of_eq h value
  · intro w log _
    exact (iter_clear w).trans (lastN_nil N).symm

/-- For every capacity and every sequence of pushes and clears the window is the log of the last
`N` values pushed since the last clear, as each of its readers shows it, and no index is out of
range. -/
theorem ring_refines_log (dflt : α) (hN : 0 < N) (calls : List (LogCall α)) :
    let w : RingWindow α N := afterCalls dflt hN calls
    let kept := lastN N (LogCall.since calls)
    w.iter = kept ∧ w.len = min (LogCall.since calls).length N ∧
      w.latest = kept.getLast? ∧ w.oldest = kept.head? ∧
      (∀ k, w.iterRecent k = lastN (min k w.len) kept) ∧ w.InRange := by
  intro w kept
  have hiter : w.iter = kept := iter_afterCalls dflt hN calls
  refine ⟨hiter, ?_, ?_, ?_, fun k => ?_, w.inRange⟩
  · rw [← length_iter, hiter, length_lastN, Nat.min_comm]
  · rw [latest_eq, hiter]
  · rw [oldest_eq, hiter]
  · rw [iterRecent_eq, hiter]

/-- Three values pushed into a window of two after a clear. -/
theorem ring_refines_log_two :
    let calls : List (LogCall ℕ) := [.append 5, .clear, .append 7, .append 8, .append 9]
    let w : RingWindow ℕ 2 := afterCalls 0 Nat.two_pos calls
    let kept := lastN 2 (LogCall.since calls)
    w.iter = kept ∧ w.len = min 3 2 ∧ w.latest = kept.getLast? ∧ w.oldest = kept.head? ∧
      (∀ k, w.iterRecent k = lastN (min k w.len) kept) ∧ w.InRange :=
  ring_refines_log 0 Nat.two_pos [.append 5, .clear, .append 7, .append 8, .append 9]

end RingWindow

end Hedge.Core
