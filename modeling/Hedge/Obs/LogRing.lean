import Mathlib.Data.List.Basic
import Mathlib.Data.List.Range
import Mathlib.Logic.Function.Basic

/-!
# `BoundedRingLogBuffer`

Reference: `hedge-obs/src/degraded.rs`.

A buffer of `N` slots with the index of the oldest entry and the number of entries. The slots in use
are filled; `contents` reads them from the oldest to the newest, and every operation is described by
what it does to this list.
-/

namespace Hedge.Obs

/-- `BoundedRingLogBuffer<N, T>`. -/
structure BoundedRingLogBuffer (N : ℕ) (T : Type*) where
  buf : ℕ → Option T
  head : ℕ
  len : ℕ
  head_lt : head < N
  len_le : len ≤ N
  filled : ∀ i < len, (buf ((head + i) % N)).isSome

namespace BoundedRingLogBuffer

variable {N : ℕ} {T : Type*}

/-- Indices wrap at most once. -/
theorem wrap {head i : ℕ} (hhead : head < N) (hi : i ≤ N) :
    (head + i) % N = if head + i < N then head + i else head + i - N := by
  split
  · rename_i h
    exact Nat.mod_eq_of_lt h
  · rename_i h
    rw [Nat.mod_eq_sub_mod (Nat.le_of_not_lt h), Nat.mod_eq_of_lt (by omega)]

/-- Distinct places of the buffer are distinct slots. -/
theorem wrap_ne {head i j : ℕ} (hhead : head < N) (hi : i < N) (hj : j < N) (hij : i ≠ j) :
    (head + i) % N ≠ (head + j) % N := by
  rw [wrap hhead hi.le, wrap hhead hj.le]
  split <;> split <;> omega

/-- The slot after the oldest one, `i` places on. -/
theorem wrap_succ {head i : ℕ} : ((head + 1) % N + i) % N = (head + (i + 1)) % N := by
  rw [Nat.mod_add_mod, Nat.add_assoc, Nat.add_comm 1 i]

/-- `new`. -/
def new (hN : 0 < N) : BoundedRingLogBuffer N T where
  buf _ := none
  head := 0
  len := 0
  head_lt := hN
  len_le := Nat.zero_le N
  filled _ h := absurd h (Nat.not_lt_zero _)

/-- `push`, with the entry it displaces. -/
def push (r : BoundedRingLogBuffer N T) (value : T) : Option T × BoundedRingLogBuffer N T :=
  if hfull : r.len = N then
    (r.buf r.head,
      { buf := Function.update r.buf r.head (some value)
        head := (r.head + 1) % N
        len := r.len
        head_lt := Nat.mod_lt _ (Nat.zero_lt_of_lt r.head_lt)
        len_le := r.len_le
        filled := by
          intro i hi
          rw [wrap_succ]
          by_cases heq : (r.head + (i + 1)) % N = r.head
          · rw [heq, Function.update_self]
            rfl
          · rw [Function.update_of_ne heq]
            rcases Nat.lt_or_ge (i + 1) r.len with hlt | hge
            · exact r.filled (i + 1) hlt
            · refine absurd ?_ heq
              have hN : i + 1 = N := by omega
              rw [hN, Nat.add_mod_right, Nat.mod_eq_of_lt r.head_lt] })
  else
    (none,
      { buf := Function.update r.buf ((r.head + r.len) % N) (some value)
        head := r.head
        len := r.len + 1
        head_lt := r.head_lt
        len_le := Nat.lt_of_le_of_ne r.len_le hfull
        filled := by
          intro i hi
          have hlt : r.len < N := Nat.lt_of_le_of_ne r.len_le hfull
          rcases Nat.lt_succ_iff_lt_or_eq.mp hi with hi | rfl
          · rw [Function.update_of_ne (wrap_ne r.head_lt (by omega) hlt (by omega))]
            exact r.filled i hi
          · rw [Function.update_self]
            rfl })

/-- The entries from the oldest to the newest. -/
def contents (r : BoundedRingLogBuffer N T) : List T :=
  (List.range r.len).filterMap fun i => r.buf ((r.head + i) % N)

/-- `drain`, with the entries it returns. -/
def drain (r : BoundedRingLogBuffer N T) : List T × BoundedRingLogBuffer N T :=
  (r.contents,
    { buf := fun idx =>
        if idx ∈ (List.range r.len).map (fun i => (r.head + i) % N) then none else r.buf idx
      head := 0
      len := 0
      head_lt := Nat.zero_lt_of_lt r.head_lt
      len_le := Nat.zero_le N
      filled := fun _ h => absurd h (Nat.not_lt_zero _) })

@[simp] theorem contents_new (hN : 0 < N) : (new hN : BoundedRingLogBuffer N T).contents = [] := rfl

@[simp] theorem contents_drain (r : BoundedRingLogBuffer N T) : r.drain.2.contents = [] := rfl

@[simp] theorem fst_drain (r : BoundedRingLogBuffer N T) : r.drain.1 = r.contents := rfl

/-- Reading filled places gives an entry for each. -/
theorem length_filterMap_of_isSome {f : ℕ → Option T} {n : ℕ} (h : ∀ i < n, (f i).isSome) :
    ((List.range n).filterMap f).length = n := by
  induction n with
  | zero => rfl
  | succ n ih =>
    obtain ⟨v, hv⟩ := Option.isSome_iff_exists.mp (h n (Nat.lt_succ_self n))
    rw [List.range_succ, List.filterMap_append, List.length_append,
      ih fun i hi => h i (Nat.lt_succ_of_lt hi), List.filterMap_cons_some hv, List.filterMap_nil,
      List.length_singleton]

@[simp] theorem length_contents (r : BoundedRingLogBuffer N T) : r.contents.length = r.len :=
  length_filterMap_of_isSome r.filled

/-- `push` puts the entry last and displaces the first one of a full buffer, nothing else. -/
theorem push_spec (r : BoundedRingLogBuffer N T) (value : T) :
    (r.push value).1.toList ++ (r.push value).2.contents = r.contents ++ [value] ∧
      ((r.push value).1.isSome ↔ r.contents.length = N) := by
  rw [length_contents, push]
  split
  · rename_i hfull
    have hhead : r.head % N = r.head := Nat.mod_eq_of_lt r.head_lt
    have hpos : 0 < r.len := by
      have := r.head_lt
      omega
    obtain ⟨n, hn⟩ : ∃ n, r.len = n + 1 := ⟨r.len - 1, by omega⟩
    have hsome := r.filled 0 hpos
    rw [Nat.add_zero, hhead] at hsome
    obtain ⟨oldest, holdest⟩ := Option.isSome_iff_exists.mp hsome
    refine ⟨?_, iff_of_true hsome hfull⟩
    -- the slot of the oldest entry becomes the last place, and every other entry moves up by one
    have hlast : ((r.head + 1) % N + n) % N = r.head := by
      rw [wrap_succ, ← hn, hfull, Nat.add_mod_right, hhead]
    have hkept : ∀ i ∈ List.range n,
        Function.update r.buf r.head (some value) (((r.head + 1) % N + i) % N) =
          r.buf ((r.head + (i + 1)) % N) := by
      intro i hi
      have hi := List.mem_range.mp hi
      have hne : (r.head + (i + 1)) % N ≠ r.head := by
        have hne := wrap_ne r.head_lt (i := i + 1) (j := 0) (by omega) (by omega) (by omega)
        rwa [Nat.add_zero r.head, hhead] at hne
      rw [wrap_succ, Function.update_of_ne hne]
    have hnew : (List.range r.len).filterMap (fun i =>
        Function.update r.buf r.head (some value) (((r.head + 1) % N + i) % N)) =
        (List.range n).filterMap (fun i => r.buf ((r.head + (i + 1)) % N)) ++ [value] := by
      rw [hn, List.range_succ, List.filterMap_append, List.filterMap_congr hkept,
        List.filterMap_cons_some (by rw [hlast, Function.update_self]), List.filterMap_nil]
    have hold : r.contents =
        oldest :: (List.range n).filterMap fun i => r.buf ((r.head + (i + 1)) % N) := by
      rw [contents, hn, List.range_succ_eq_map, List.filterMap_cons_some (by
        rw [Nat.add_zero, hhead, holdest]), List.filterMap_map]
      rfl
    rw [holdest, hold, contents, hnew]
    rfl
  · rename_i hfull
    have hlt : r.len < N := Nat.lt_of_le_of_ne r.len_le hfull
    refine ⟨?_, iff_of_false Bool.false_ne_true hfull⟩
    have hkept : ∀ i ∈ List.range r.len,
        Function.update r.buf ((r.head + r.len) % N) (some value) ((r.head + i) % N) =
          r.buf ((r.head + i) % N) := by
      intro i hi
      have hi := List.mem_range.mp hi
      exact Function.update_of_ne (wrap_ne r.head_lt (by omega) hlt (by omega)) ..
    simp only [contents]
    rw [List.range_succ, List.filterMap_append, List.filterMap_congr hkept]
    simp

end BoundedRingLogBuffer

end Hedge.Obs
