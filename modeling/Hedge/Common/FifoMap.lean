import Mathlib.Data.List.AList
import Mathlib.Data.List.Dedup

/-!
# Maps with the queue of their keys

A map together with the queue of its keys, oldest first, from which the oldest entries are evicted
when the map grows over a capacity. A write to a key that is there leaves its place in the queue.

`Ordered inserted m` ties the queue to the insertions made so far: it holds the keys of the map,
each in the place of its last insertion.
-/

namespace Hedge.Common

variable {κ ν : Type*} [DecidableEq κ]

/-- A map and the queue of its keys. -/
structure FifoMap (κ ν : Type*) where
  map : AList fun _ : κ => ν
  order : List κ

namespace FifoMap

/-- The empty map. -/
def empty : FifoMap κ ν := ⟨∅, []⟩

/-- Write an entry; a new key goes to the end of the queue. -/
def put (m : FifoMap κ ν) (k : κ) (v : ν) : FifoMap κ ν where
  map := m.map.insert k v
  order := if k ∈ m.map then m.order else m.order ++ [k]

/-- Write an entry and move its key to the end of the queue. -/
def requeue (m : FifoMap κ ν) (k : κ) (v : ν) : FifoMap κ ν where
  map := m.map.insert k v
  order := (if k ∈ m.map then m.order.erase k else m.order) ++ [k]

/-- Take out a key. -/
def remove (m : FifoMap κ ν) (k : κ) : FifoMap κ ν := ⟨m.map.erase k, m.order.erase k⟩

/-- Take out some keys, one after the other. -/
def removeAll (m : FifoMap κ ν) (ks : List κ) : FifoMap κ ν := ks.foldl remove m

/-- Take keys from the front of the queue while the map holds more than the capacity. -/
def evictFrom (capacity : ℕ) (map : AList fun _ : κ => ν) : List κ → FifoMap κ ν
  | [] => ⟨map, []⟩
  | oldest :: order =>
    if capacity < map.keys.length then evictFrom capacity (map.erase oldest) order
    else ⟨map, oldest :: order⟩

/-- Evict the oldest entries over the capacity. -/
def evict (m : FifoMap κ ν) (capacity : ℕ) : FifoMap κ ν := evictFrom capacity m.map m.order

/-- Take keys from the front of the queue while it is longer than the capacity. -/
def shrinkFrom (capacity : ℕ) (map : AList fun _ : κ => ν) : List κ → FifoMap κ ν
  | [] => ⟨map, []⟩
  | oldest :: order =>
    if capacity < (oldest :: order).length then shrinkFrom capacity (map.erase oldest) order
    else ⟨map, oldest :: order⟩

/-- Cut the queue down to the capacity. -/
def shrink (m : FifoMap κ ν) (capacity : ℕ) : FifoMap κ ν := shrinkFrom capacity m.map m.order

/-! ## Entries -/

section Lookup

variable {m : FifoMap κ ν}

@[simp] theorem lookup_put_self (k : κ) (v : ν) : (m.put k v).map.lookup k = some v :=
  AList.lookup_insert _

theorem lookup_put_ne {k k' : κ} (h : k' ≠ k) (v : ν) :
    (m.put k v).map.lookup k' = m.map.lookup k' :=
  AList.lookup_insert_ne h

@[simp] theorem lookup_requeue_self (k : κ) (v : ν) : (m.requeue k v).map.lookup k = some v :=
  AList.lookup_insert _

theorem lookup_requeue_ne {k k' : κ} (h : k' ≠ k) (v : ν) :
    (m.requeue k v).map.lookup k' = m.map.lookup k' :=
  AList.lookup_insert_ne h

@[simp] theorem lookup_remove_self (k : κ) : (m.remove k).map.lookup k = none :=
  AList.lookup_erase _ _

theorem lookup_remove_ne {k k' : κ} (h : k' ≠ k) :
    (m.remove k).map.lookup k' = m.map.lookup k' :=
  AList.lookup_erase_ne h

theorem lookup_removeAll (ks : List κ) (k : κ) :
    (m.removeAll ks).map.lookup k = if k ∈ ks then none else m.map.lookup k := by
  induction ks generalizing m with
  | nil => rfl
  | cons k' ks ih =>
    change ((m.remove k').removeAll ks).map.lookup k = _
    rw [ih]
    by_cases hk : k = k'
    · subst hk
      simp
    · by_cases hks : k ∈ ks
      · simp [hks]
      · simp [hk, hks, lookup_remove_ne hk]

/-- Below the capacity nothing is evicted. -/
theorem evict_of_le {capacity : ℕ} (h : m.map.keys.length ≤ capacity) : m.evict capacity = m := by
  obtain ⟨map, order⟩ := m
  cases order with
  | nil => rfl
  | cons oldest order => exact if_neg (Nat.not_lt.mpr h)

/-- An entry that is there after an eviction was there before. -/
theorem lookup_of_lookup_evict {capacity : ℕ} {k : κ} {v : ν}
    (h : (m.evict capacity).map.lookup k = some v) : m.map.lookup k = some v := by
  obtain ⟨map, order⟩ := m
  change (evictFrom capacity map order).map.lookup k = some v at h
  induction order generalizing map with
  | nil => exact h
  | cons oldest order ih =>
    rw [evictFrom] at h
    split_ifs at h with hfull
    · have herased := ih _ h
      by_cases hk : k = oldest
      · subst hk
        rw [AList.lookup_erase] at herased
        cases herased
      · rwa [AList.lookup_erase_ne hk] at herased
    · exact h

/-- Of the entries, those of one key. -/
theorem filter_entries (k : κ) :
    m.map.entries.filter (fun entry => entry.1 = k)
      = ((m.map.lookup k).map (Sigma.mk k)).toList := by
  have hlist : ∀ l : List (Sigma fun _ : κ => ν), l.NodupKeys →
      l.filter (fun entry => entry.1 = k) = ((l.dlookup k).map (Sigma.mk k)).toList := by
    intro l hnodup
    induction l with
    | nil => rfl
    | cons entry l ih =>
      obtain ⟨hfresh, hnodup⟩ := List.nodupKeys_cons.mp hnodup
      have htail := ih hnodup
      by_cases hk : entry.1 = k
      · subst hk
        rw [List.dlookup_eq_none.mpr hfresh] at htail
        rw [List.filter_cons_of_pos (by simp), htail, List.dlookup_cons_eq]
        rfl
      · rw [List.filter_cons_of_neg (by simpa using hk), htail,
          List.dlookup_cons_ne _ _ (Ne.symm hk)]
  exact hlist _ m.map.nodupKeys

end Lookup

/-! ## Order of insertion -/

/-- The queue holds the keys of the map, in the order of their last insertions. -/
structure Ordered (inserted : List κ) (m : FifoMap κ ν) : Prop where
  order_eq : m.order = inserted.dedup.filter (· ∈ m.map)
  inserted_of_mem : ∀ k ∈ m.map, k ∈ inserted

section Ordered

variable {inserted : List κ} {m : FifoMap κ ν}

theorem ordered_empty : Ordered ([] : List κ) (empty : FifoMap κ ν) :=
  ⟨rfl, fun k hk => absurd hk (AList.notMem_empty k)⟩

theorem Ordered.nodup (h : Ordered inserted m) : m.order.Nodup := by
  rw [h.order_eq]
  exact (List.nodup_dedup inserted).filter _

theorem Ordered.mem_order_iff (h : Ordered inserted m) {k : κ} : k ∈ m.order ↔ k ∈ m.map := by
  rw [h.order_eq, List.mem_filter, List.mem_dedup, decide_eq_true_eq]
  exact ⟨And.right, fun hk => ⟨h.inserted_of_mem k hk, hk⟩⟩

/-- A last element stays where it is when duplicates go. -/
theorem dedup_concat (l : List κ) (k : κ) :
    (l ++ [k]).dedup = l.dedup.filter (· ≠ k) ++ [k] := by
  induction l with
  | nil => rfl
  | cons a l ih =>
    rw [List.cons_append, List.dedup_cons, List.dedup_cons, ih]
    by_cases hak : a = k
    · subst hak
      by_cases hal : a ∈ l <;> simp [hal]
    · by_cases hal : a ∈ l <;> simp [hal, hak]

theorem Ordered.put_of_mem (h : Ordered inserted m) {k : κ} (hk : k ∈ m.map) (v : ν) :
    Ordered inserted (m.put k v) := by
  have hsame : ∀ k', k' ∈ (m.put k v).map ↔ k' ∈ m.map := by
    intro k'
    refine (AList.mem_insert m.map).trans ⟨?_, .inr⟩
    rintro (rfl | hk')
    · exact hk
    · exact hk'
  refine ⟨?_, fun k' hk' => h.inserted_of_mem k' ((hsame k').mp hk')⟩
  simp only [hsame]
  exact (if_pos hk).trans h.order_eq

theorem Ordered.put_of_notMem (h : Ordered inserted m) {k : κ} (hk : k ∉ m.map) (v : ν) :
    Ordered (inserted ++ [k]) (m.put k v) := by
  have hmem : ∀ k', k' ∈ (m.put k v).map ↔ k' = k ∨ k' ∈ m.map := fun _ => AList.mem_insert m.map
  constructor
  · have hold : (inserted.dedup.filter (· ≠ k)).filter (· ∈ (m.put k v).map)
        = inserted.dedup.filter (· ∈ m.map) := by
      rw [List.filter_filter]
      refine List.filter_congr fun k' _ => ?_
      rw [Bool.eq_iff_iff]
      simp only [hmem, Bool.and_eq_true, decide_eq_true_eq]
      constructor
      · rintro ⟨hk' | hk', hne⟩
        · exact absurd hk' hne
        · exact hk'
      · intro hk'
        exact ⟨.inr hk', fun heq => hk (heq ▸ hk')⟩
    have hnew : [k].filter (· ∈ (m.put k v).map) = [k] := by
      rw [List.filter_singleton, decide_eq_true ((hmem k).mpr (.inl rfl))]
      rfl
    rw [dedup_concat, List.filter_append, hold, hnew, ← h.order_eq]
    exact if_neg hk
  · intro k' hk'
    rcases (hmem k').mp hk' with rfl | hk'
    · exact List.mem_append_right _ (List.mem_singleton_self _)
    · exact List.mem_append_left _ (h.inserted_of_mem k' hk')

theorem Ordered.remove (h : Ordered inserted m) (k : κ) : Ordered inserted (m.remove k) := by
  have hmem : ∀ k', k' ∈ (m.remove k).map ↔ k' ≠ k ∧ k' ∈ m.map := fun _ => AList.mem_erase
  refine ⟨?_, fun k' hk' => h.inserted_of_mem k' ((hmem k').mp hk').2⟩
  change m.order.erase k = _
  rw [h.nodup.erase_eq_filter, h.order_eq, List.filter_filter]
  refine List.filter_congr fun k' _ => ?_
  rw [Bool.eq_iff_iff]
  simp [hmem]

theorem Ordered.removeAll (h : Ordered inserted m) (ks : List κ) :
    Ordered inserted (m.removeAll ks) := by
  induction ks generalizing m with
  | nil => exact h
  | cons k ks ih => exact ih (h.remove k)

theorem Ordered.evict (h : Ordered inserted m) (capacity : ℕ) :
    Ordered inserted (m.evict capacity) := by
  obtain ⟨map, order⟩ := m
  change Ordered inserted (evictFrom capacity map order)
  induction order generalizing map with
  | nil => exact h
  | cons oldest order ih =>
    rw [evictFrom]
    split_ifs with hfull
    · refine ih _ ?_
      have hpopped := h.remove oldest
      rwa [FifoMap.remove, List.erase_cons_head] at hpopped
    · exact h

end Ordered

/-! ## Cutting the queue -/

section Shrink

variable {m : FifoMap κ ν}

theorem order_shrink (capacity : ℕ) :
    (m.shrink capacity).order = m.order.drop (m.order.length - capacity) := by
  obtain ⟨map, order⟩ := m
  change (shrinkFrom capacity map order).order = order.drop (order.length - capacity)
  induction order generalizing map with
  | nil => simp [shrinkFrom]
  | cons oldest order ih =>
    rw [shrinkFrom]
    split_ifs with hlong
    · have hle : capacity ≤ order.length := Nat.lt_succ_iff.mp hlong
      rw [ih, List.length_cons, Nat.succ_sub hle, List.drop_succ_cons]
    · rw [Nat.sub_eq_zero_of_le (Nat.not_lt.mp hlong), List.drop_zero]

/-- A queue within the capacity is left alone. -/
theorem shrink_of_le {capacity : ℕ} (h : m.order.length ≤ capacity) : m.shrink capacity = m := by
  obtain ⟨map, order⟩ := m
  cases order with
  | nil => rfl
  | cons oldest order => exact if_neg (Nat.not_lt.mpr h)

/-- What is cut off the queue is gone, the rest stays. -/
theorem lookup_shrink (capacity : ℕ) (k : κ) :
    (m.shrink capacity).map.lookup k =
      if k ∈ m.order.take (m.order.length - capacity) then none else m.map.lookup k := by
  obtain ⟨map, order⟩ := m
  change (shrinkFrom capacity map order).map.lookup k =
    if k ∈ order.take (order.length - capacity) then none else map.lookup k
  induction order generalizing map with
  | nil => simp [shrinkFrom]
  | cons oldest order ih =>
    rw [shrinkFrom]
    by_cases hlong : capacity < (oldest :: order).length
    · have hle : capacity ≤ order.length := Nat.lt_succ_iff.mp hlong
      rw [if_pos hlong, ih, List.length_cons, Nat.succ_sub hle, List.take_succ_cons]
      by_cases hk : k = oldest
      · subst hk
        simp
      · simp [hk, AList.lookup_erase_ne hk]
    · rw [if_neg hlong, Nat.sub_eq_zero_of_le (Nat.not_lt.mp hlong)]
      simp

theorem mem_of_mem_shrink {capacity : ℕ} {k : κ} (h : k ∈ (m.shrink capacity).map) : k ∈ m.map := by
  rw [← AList.lookup_isSome, lookup_shrink] at h
  split_ifs at h
  · cases h
  · exact AList.lookup_isSome.mp h

/-- The queue holds each key of the map once. -/
structure Queued (m : FifoMap κ ν) : Prop where
  nodup : m.order.Nodup
  mem_iff : ∀ k, k ∈ m.order ↔ k ∈ m.map

omit [DecidableEq κ] in
theorem queued_empty : Queued (empty : FifoMap κ ν) :=
  ⟨List.nodup_nil, fun k => iff_of_false List.not_mem_nil (AList.notMem_empty k)⟩

theorem Queued.put (h : Queued m) (k : κ) (v : ν) : Queued (m.put k v) := by
  have hmem : ∀ k', k' ∈ (m.put k v).map ↔ k' = k ∨ k' ∈ m.map := fun _ => AList.mem_insert m.map
  by_cases hk : k ∈ m.map
  · have horder : (m.put k v).order = m.order := if_pos hk
    refine ⟨horder ▸ h.nodup, fun k' => ?_⟩
    rw [horder, hmem, h.mem_iff]
    refine ⟨.inr, ?_⟩
    rintro (rfl | hk')
    · exact hk
    · exact hk'
  · have horder : (m.put k v).order = m.order ++ [k] := if_neg hk
    refine ⟨?_, fun k' => ?_⟩
    · rw [horder, ← List.concat_eq_append]
      exact h.nodup.concat fun hmem => hk ((h.mem_iff k).mp hmem)
    · rw [horder, hmem, List.mem_append, List.mem_singleton, h.mem_iff, or_comm]

theorem Queued.remove (h : Queued m) (k : κ) : Queued (m.remove k) := by
  have hmem : ∀ k', k' ∈ (m.remove k).map ↔ k' ≠ k ∧ k' ∈ m.map := fun _ => AList.mem_erase
  refine ⟨h.nodup.erase k, fun k' => ?_⟩
  rw [hmem, ← h.mem_iff]
  exact h.nodup.mem_erase_iff

theorem Queued.requeue (h : Queued m) (k : κ) (v : ν) : Queued (m.requeue k v) := by
  have hmem : ∀ k', k' ∈ (m.requeue k v).map ↔ k' = k ∨ k' ∈ m.map :=
    fun _ => AList.mem_insert m.map
  have horder : (m.requeue k v).order = m.order.erase k ++ [k] := by
    rw [FifoMap.requeue]
    split_ifs with hk
    · rfl
    · rw [List.erase_of_not_mem fun hmem => hk ((h.mem_iff k).mp hmem)]
  refine ⟨?_, fun k' => ?_⟩
  · rw [horder, ← List.concat_eq_append]
    exact (h.nodup.erase k).concat h.nodup.not_mem_erase
  · rw [horder, hmem, List.mem_append, List.mem_singleton, h.nodup.mem_erase_iff, h.mem_iff]
    by_cases hk : k' = k <;> simp [hk]

theorem Queued.shrink (h : Queued m) (capacity : ℕ) : Queued (m.shrink capacity) := by
  have hsplit := List.take_append_drop (m.order.length - capacity) m.order
  have hnodup := h.nodup
  rw [← hsplit, List.nodup_append] at hnodup
  obtain ⟨-, hrest, hdisjoint⟩ := hnodup
  refine ⟨?_, fun k => ?_⟩
  · rw [order_shrink]
    exact hrest
  · rw [order_shrink, ← AList.lookup_isSome, lookup_shrink]
    by_cases hcut : k ∈ m.order.take (m.order.length - capacity)
    · rw [if_pos hcut]
      simpa using fun hk => hdisjoint k hcut k hk rfl
    · rw [if_neg hcut, AList.lookup_isSome, ← h.mem_iff]
      refine ⟨List.mem_of_mem_drop, fun hk => ?_⟩
      rw [← hsplit] at hk
      exact (List.mem_append.mp hk).resolve_left hcut

end Shrink

end FifoMap

end Hedge.Common
