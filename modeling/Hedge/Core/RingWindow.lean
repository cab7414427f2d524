import Mathlib.Data.List.Basic
import Mathlib.Data.List.DropRight

/-!
# `RingWindow`

Reference: `hedge-core/src/window.rs`.

The window keeps `N` slots inline. It fills from index zero; once full, `head` is the oldest slot
and the next to be overwritten. The structure carries the three facts that make every slice of the
source in range: `head` is an index, `len` never exceeds the capacity, and `head` has not moved
while the window is still filling.
-/

namespace Hedge.Core

/-- Inline rolling window of `N` elements, overwriting the oldest when full. -/
structure RingWindow (α : Type*) (N : ℕ) where
  buf : Vector α N
  head : ℕ
  len : ℕ
  head_lt : head < N
  len_le : len ≤ N
  head_eq_zero : len < N → head = 0

namespace RingWindow

variable {α : Type*} {N : ℕ}

/-- An empty window; the backing slots hold the default value. -/
def new (dflt : α) (hN : 0 < N) : RingWindow α N where
  buf := Vector.replicate N dflt
  head := 0
  len := 0
  head_lt := hN
  len_le := Nat.zero_le N
  head_eq_zero _ := rfl

/-- `is_full`. -/
def isFull (w : RingWindow α N) : Bool := w.len == N

/-- Push a value, overwriting the oldest element of a full window. -/
def push (w : RingWindow α N) (value : α) : RingWindow α N :=
  if hfull : w.len = N then
    { w with
      buf := w.buf.set w.head value w.head_lt
      head := (w.head + 1) % N
      head_lt := Nat.mod_lt _ (Nat.zero_lt_of_lt w.head_lt)
      head_eq_zero := fun h => absurd hfull (Nat.ne_of_lt h) }
  else
    have hlt : w.len < N := Nat.lt_of_le_of_ne w.len_le hfull
    { w with
      buf := w.buf.set ((w.head + w.len) % N) value (Nat.mod_lt _ (Nat.zero_lt_of_lt w.head_lt))
      len := w.len + 1
      len_le := hlt
      head_eq_zero := fun _ => w.head_eq_zero hlt }

/-- Mark every slot invalid; the storage is not touched. -/
def clear (w : RingWindow α N) : RingWindow α N :=
  { w with
    head := 0
    len := 0
    head_lt := Nat.zero_lt_of_lt w.head_lt
    len_le := Nat.zero_le N
    head_eq_zero := fun _ => rfl }

/-- Every valid element, oldest first: `[head .. N)` then `[0 .. head)` of a full window, and
`[head .. head + len)` of one that is still filling. -/
def iter (w : RingWindow α N) : List α :=
  if w.isFull then w.buf.toList.drop w.head ++ w.buf.toList.take w.head
  else (w.buf.toList.drop w.head).take w.len

/-- `latest`: the slot just before the next write. -/
def latest (w : RingWindow α N) : Option α :=
  if w.len = 0 then none else w.buf[(w.head + w.len + N - 1) % N]?

/-- `oldest`. -/
def oldest (w : RingWindow α N) : Option α :=
  if w.len = 0 then none else w.buf[w.head]?

/-- The `k` most recent elements, oldest first. -/
def iterRecent (w : RingWindow α N) (k : ℕ) : List α := w.iter.drop (w.len - min k w.len)

@[simp] theorem iter_new (dflt : α) (hN : 0 < N) : (new dflt hN : RingWindow α N).iter = [] := by
  have hne : (0 == N) = false := by simp; omega
  simp [iter, isFull, new, hne]

@[simp] theorem length_iter (w : RingWindow α N) : w.iter.length = w.len := by
  have hhead := w.head_lt
  have hlen := w.len_le
  rw [iter]
  split_ifs with hfull
  · simp only [isFull, beq_iff_eq] at hfull
    simp
    omega
  · have hlt : w.len < N := Nat.lt_of_le_of_ne hlen (by simpa [isFull] using hfull)
    simp [w.head_eq_zero hlt]
    omega

/-- The elements of a window that is still filling are the first slots. -/
theorem iter_of_filling {w : RingWindow α N} (h : w.len < N) :
    w.iter = w.buf.toList.take w.len := by
  have hne : w.isFull = false := by simp [isFull]; omega
  rw [iter, hne, w.head_eq_zero h]
  rfl

theorem iter_of_full {w : RingWindow α N} (h : w.len = N) :
    w.iter = w.buf.toList.drop w.head ++ w.buf.toList.take w.head := by
  have heq : w.isFull = true := by simp [isFull, h]
  rw [iter, heq]
  rfl

/-- A list whose slot `i` is overwritten, up to that slot. -/
private theorem take_succ_set {l : List α} {i : ℕ} (h : i < l.length) (v : α) :
    (l.set i v).take (i + 1) = l.take i ++ [v] := by
  rw [List.set_eq_take_append_cons_drop, if_pos h, List.take_append, List.length_take,
    Nat.min_eq_left (Nat.le_of_lt h), List.take_of_length_le (by rw [List.length_take]; omega)]
  simp

/-- After a push the window holds the last `N` of its elements and the new one. -/
theorem iter_push (w : RingWindow α N) (v : α) :
    (w.push v).iter = (w.iter ++ [v]).drop (w.len + 1 - N) := by
  have hhead := w.head_lt
  have hlength : w.buf.toList.length = N := by simp
  by_cases hfull : w.len = N
  · have hpush : (w.push v).len = N := by simp [push, hfull]
    have hbuf : (w.push v).buf.toList = w.buf.toList.set w.head v := by
      simp [push, hfull, Vector.toList_set]
    have hhead' : (w.push v).head = (w.head + 1) % N := by simp [push, hfull]
    rw [iter_of_full hpush, iter_of_full hfull, hbuf, hhead', hfull, Nat.add_sub_cancel_left,
      List.append_assoc, List.drop_append_of_le_length (by simp; omega), List.drop_drop]
    by_cases hlast : w.head + 1 = N
    · -- The last slot is written: the window starts over at the first one.
      have htake := take_succ_set (l := w.buf.toList) (i := w.head) (by omega) v
      rw [List.take_of_length_le (by simp; omega)] at htake
      rw [hlast, Nat.mod_self, List.drop_zero, List.take_zero, List.append_nil, htake,
        List.drop_eq_nil_of_le (by omega), List.nil_append]
    · rw [Nat.mod_eq_of_lt (by omega), take_succ_set (by omega), List.drop_set_of_lt (by omega)]
  · have hlt : w.len < N := Nat.lt_of_le_of_ne w.len_le hfull
    have hzero := w.head_eq_zero hlt
    have hbuf : (w.push v).buf.toList = w.buf.toList.set w.len v := by
      simp [push, hfull, hzero, Nat.mod_eq_of_lt hlt, Vector.toList_set]
    have hlen' : (w.push v).len = w.len + 1 := by simp [push, hfull]
    have hhead' : (w.push v).head = 0 := by simp [push, hfull, hzero]
    have htake := take_succ_set (l := w.buf.toList) (i := w.len) (by omega) v
    rw [iter_of_filling hlt, Nat.sub_eq_zero_of_le (by omega), List.drop_zero, ← htake]
    by_cases hlast : w.len + 1 = N
    · rw [iter_of_full (hlen'.trans hlast), hbuf, hhead', List.drop_zero, List.take_zero,
        List.append_nil, List.take_of_length_le (by simp; omega)]
    · rw [iter_of_filling (by omega), hbuf, hlen']

/-- A window that shows the last `N` elements of a list shows those of the longer list after a
push. -/
theorem map_iter_push {β : Type*} {f : α → β} {w : RingWindow α N} {l : List β}
    (h : w.iter.map f = l.rtake N) (v : α) : (w.push v).iter.map f = (l ++ [f v]).rtake N := by
  rw [List.rtake] at h ⊢
  have hlen : w.len = min l.length N := by
    rw [← w.length_iter, ← List.length_map f, h, List.length_drop]
    omega
  rw [iter_push, List.map_drop, List.map_append, List.map_singleton, h, hlen,
    ← List.drop_append_of_le_length (Nat.sub_le _ _), List.drop_drop, List.length_append,
    List.length_singleton]
  congr 1
  omega

/-- A window that holds the last `N` elements of a list holds those of the longer list after a
push. -/
theorem iter_push_of_eq {w : RingWindow α N} {l : List α} (h : w.iter = l.drop (l.length - N))
    (v : α) : (w.push v).iter = (l ++ [v]).drop ((l ++ [v]).length - N) := by
  have hmap : w.iter.map id = l.rtake N := by rwa [List.map_id]
  have hpush := map_iter_push hmap v
  rwa [List.map_id, id_eq] at hpush

end RingWindow

end Hedge.Core
