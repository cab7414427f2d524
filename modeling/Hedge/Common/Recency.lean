import Hedge.Common.FifoMap
import Hedge.Common.Log

/-!
# A set of the keys used last

`useKey n keys k` uses `k` in a set of at most `n` keys, which stand in the order of their last use: a
key that is there moves to the end, a new one is put there and the longest unused one gives way. After
any uses the set is the last `n` of the distinct keys, so a key is found exactly when fewer than `n`
other keys were used since.
-/

namespace Hedge.Common

theorem lastN_append_of_le_length {α : Type*} {n : ℕ} (xs : List α) {ys : List α}
    (h : n ≤ ys.length) : lastN n (xs ++ ys) = lastN n ys := by
  have hlen : (xs ++ ys).length - n = xs.length + (ys.length - n) := by
    rw [List.length_append]
    omega
  rw [lastN, hlen, List.drop_length_add_append, lastN]

/-- Cutting off the front of a log before adding to it makes no difference to its last entries. -/
theorem lastN_lastN_append {α : Type*} (n : ℕ) (xs ys : List α) :
    lastN n (lastN n xs ++ ys) = lastN n (xs ++ ys) := by
  rcases Nat.le_total xs.length n with h | h
  · rw [lastN_of_length_le h]
  · have hsplit : xs = xs.take (xs.length - n) ++ lastN n xs := (List.take_append_drop _ _).symm
    have hle : n ≤ (lastN n xs ++ ys).length := by
      rw [List.length_append, length_lastN]
      omega
    rw [← lastN_append_of_le_length (xs.take (xs.length - n)) hle, ← List.append_assoc, ← hsplit]

variable {κ : Type*}

/-- The last use of a key in a log, with the distinct keys used since. -/
theorem exists_lastUse {log : List κ} {k : κ} (h : k ∈ log) :
    ∃ before after, log = before ++ k :: after ∧ k ∉ after := by
  obtain ⟨as, bs, hsplit, hnot⟩ := List.eq_append_cons_of_mem (List.mem_reverse.mpr h)
  refine ⟨bs.reverse, as.reverse, ?_, by simpa using hnot⟩
  rw [← List.reverse_reverse log, hsplit]
  simp

variable [DecidableEq κ]

/-- Use a key: whether it was there, and the set after it. -/
def useKey (n : ℕ) (keys : List κ) (k : κ) : Bool × List κ :=
  if k ∈ keys then (true, keys.filter (· ≠ k) ++ [k])
  else (false, lastN n (keys ++ [k]))

/-- Moving a key to the end of a list without duplicates keeps the length. -/
theorem length_filter_ne_concat {keys : List κ} {k : κ} (hnodup : keys.Nodup) (hk : k ∈ keys) :
    (keys.filter (· ≠ k) ++ [k]).length = keys.length := by
  have herase : keys.filter (· ≠ k) = keys.erase k := by
    rw [hnodup.erase_eq_filter]
    exact List.filter_congr fun a _ => by by_cases h : a = k <;> simp [h]
  have hpos := List.length_pos_of_mem hk
  rw [herase, List.length_append, List.length_erase_of_mem hk, List.length_singleton]
  omega

theorem filter_ne_of_notMem {keys : List κ} {k : κ} (h : k ∉ keys) :
    keys.filter (· ≠ k) = keys := by
  refine List.filter_eq_self.mpr fun a ha => decide_eq_true fun heq => ?_
  exact h (heq ▸ ha)

/-- A use is one more entry of the log whose last distinct keys the set is. -/
theorem useKey_lastN (n : ℕ) (log : List κ) (k : κ) :
    (useKey n (lastN n log.dedup) k).2 = lastN n (log ++ [k]).dedup := by
  have hnodup := List.nodup_dedup log
  rw [FifoMap.dedup_concat, useKey]
  generalize hD : log.dedup = D at hnodup ⊢
  have hsplit : D = D.take (D.length - n) ++ lastN n D := (List.take_append_drop _ _).symm
  have hlen := length_lastN n D
  generalize hA : D.take (D.length - n) = A at hsplit
  have hdisjoint := List.disjoint_of_nodup_append (hsplit ▸ hnodup)
  by_cases hk : k ∈ lastN n D
  · rw [if_pos hk]
    have hkA : k ∉ A := fun h => hdisjoint h hk
    have hB : ((lastN n D).filter (· ≠ k) ++ [k]).length = (lastN n D).length :=
      length_filter_ne_concat (hnodup.sublist (List.drop_sublist _ _)) hk
    have hmove : D.filter (· ≠ k) ++ [k] = A ++ ((lastN n D).filter (· ≠ k) ++ [k]) := by
      nth_rewrite 1 [hsplit]
      rw [List.filter_append, filter_ne_of_notMem hkA, List.append_assoc]
    have hwhole : lastN n ((lastN n D).filter (· ≠ k) ++ [k]) = (lastN n D).filter (· ≠ k) ++ [k] :=
      lastN_of_length_le (by omega)
    rw [hmove]
    rcases Nat.le_total n D.length with hle | hle
    · rw [lastN_append_of_le_length A (by omega), hwhole]
    · have hnil : A = [] := by
        rw [← hA, Nat.sub_eq_zero_of_le hle, List.take_zero]
      rw [hnil, List.nil_append, hwhole]
  · rw [if_neg hk, lastN_lastN_append]
    by_cases hkD : k ∈ D
    · -- the key has been pushed out, so the set is full without it
      have hkA : k ∈ A := by
        rw [hsplit] at hkD
        exact (List.mem_append.mp hkD).resolve_right hk
      have hpos : 0 < A.length := List.length_pos_of_mem hkA
      have hcut : D.filter (· ≠ k) = A.filter (· ≠ k) ++ lastN n D := by
        nth_rewrite 1 [hsplit]
        rw [List.filter_append, filter_ne_of_notMem hk]
      have hfull : n ≤ (lastN n D ++ [k]).length := by
        rw [← hA, List.length_take] at hpos
        rw [List.length_append]
        omega
      have hleft : D ++ [k] = A ++ (lastN n D ++ [k]) := by
        rw [← List.append_assoc, ← hsplit]
      rw [hcut, List.append_assoc, hleft, lastN_append_of_le_length _ hfull,
        lastN_append_of_le_length _ hfull]
    · rw [filter_ne_of_notMem hkD]

/-- A key is in the set exactly when fewer than `n` distinct keys were used after its last use. -/
theorem mem_lastN_dedup_iff {n : ℕ} {log : List κ} {k : κ} :
    k ∈ lastN n log.dedup ↔
      ∃ before after, log = before ++ k :: after ∧ k ∉ after ∧ after.dedup.length < n := by
  have hshape : ∀ before after, log = before ++ k :: after → k ∉ after →
      ∃ front, log.dedup = front ++ k :: after.dedup := by
    rintro before after rfl hafter
    obtain ⟨front, hfront⟩ := List.suffix_union_right before (k :: after).dedup
    rw [List.dedup_append, ← hfront, List.dedup_cons_of_notMem hafter]
    exact ⟨front, rfl⟩
  constructor
  · intro h
    obtain ⟨before, after, hsplit, hafter⟩ :=
      exists_lastUse (List.mem_dedup.mp (List.mem_of_mem_drop h))
    refine ⟨before, after, hsplit, hafter, Nat.lt_of_not_le fun hle => ?_⟩
    obtain ⟨front, hfront⟩ := hshape before after hsplit hafter
    rw [hfront, List.append_cons, lastN_append_of_le_length _ hle] at h
    exact hafter (List.mem_dedup.mp (List.mem_of_mem_drop h))
  · rintro ⟨before, after, hsplit, hafter, hlt⟩
    obtain ⟨front, hfront⟩ := hshape before after hsplit hafter
    have hcut : (front ++ k :: after.dedup).length - n ≤ front.length := by
      rw [List.length_append, List.length_cons]
      omega
    rw [hfront, lastN, List.drop_append_of_le_length hcut]
    exact List.mem_append_right _ List.mem_cons_self

/-- The uses of a log that find their key in the set, the set having seen `seen` before. -/
def repeats (n : ℕ) : List κ → List κ → List κ
  | _, [] => []
  | seen, k :: log => (if k ∈ lastN n seen.dedup then [k] else []) ++ repeats n (seen ++ [k]) log

end Hedge.Common
