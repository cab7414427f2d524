import Mathlib.Data.List.Destutter
import Mathlib.Order.Bounds.Basic
import Mathlib.Order.Defs.LinearOrder

/-!
# Selection by sorting

What is left of a list after it was sorted by a key and cut: the first `k` elements have the least
keys, and the first element is a least one. The sort is the stable one of the standard library, and
`key` may take one value at many elements.
-/

namespace Hedge.Common

variable {α κ : Type*} [LinearOrder κ]

/-- The comparison of two elements by key. -/
def byKey (key : α → κ) (a b : α) : Bool := key a ≤ key b

theorem pairwise_mergeSort_byKey (key : α → κ) (xs : List α) :
    (xs.mergeSort (byKey key)).Pairwise fun a b => key a ≤ key b := by
  have htrans : ∀ a b c, byKey key a b → byKey key b c → byKey key a c := by
    intro a b c hab hbc
    simp only [byKey, decide_eq_true_eq] at hab hbc ⊢
    exact hab.trans hbc
  have htotal : ∀ a b, byKey key a b || byKey key b a := by
    intro a b
    simpa [byKey] using le_total (key a) (key b)
  exact (List.pairwise_mergeSort htrans htotal xs).imp fun h => of_decide_eq_true h

/-- The first `k` elements by key, and the others: none of these has a smaller key. -/
theorem take_mergeSort_byKey (key : α → κ) (k : ℕ) (xs : List α) :
    ((xs.mergeSort (byKey key)).take k ++ (xs.mergeSort (byKey key)).drop k).Perm xs ∧
      ∀ kept ∈ (xs.mergeSort (byKey key)).take k, ∀ left ∈ (xs.mergeSort (byKey key)).drop k,
        key kept ≤ key left := by
  refine ⟨?_, fun kept hkept left hleft => ?_⟩
  · rw [List.take_append_drop]
    exact List.mergeSort_perm _ _
  · have hsorted := pairwise_mergeSort_byKey key xs
    rw [← List.take_append_drop k (xs.mergeSort (byKey key)), List.pairwise_append] at hsorted
    exact hsorted.2.2 kept hkept left hleft

/-! ## The least element -/

theorem head?_destutter' (R : α → α → Prop) [DecidableRel R] (a : α) (xs : List α) :
    (xs.destutter' R a).head? = some a := by
  induction xs with
  | nil => rfl
  | cons b xs ih =>
    rw [List.destutter'_cons]
    split_ifs
    · rfl
    · exact ih

/-- Removing repetitions does not change the head. -/
theorem head?_destutter (R : α → α → Prop) [DecidableRel R] (xs : List α) :
    (xs.destutter R).head? = xs.head? := by
  cases xs with
  | nil => rfl
  | cons a xs => exact head?_destutter' R a xs

/-- The head of a sorted list is an element with a least key. -/
theorem isLeast_of_head?_mergeSort {key : α → κ} {xs : List α} {x : α}
    (h : (xs.mergeSort (byKey key)).head? = some x) : x ∈ xs ∧ ∀ y ∈ xs, key x ≤ key y := by
  have hsorted := pairwise_mergeSort_byKey key xs
  have hmem : ∀ y, y ∈ xs.mergeSort (byKey key) ↔ y ∈ xs := fun y => List.mem_mergeSort
  cases hsort : xs.mergeSort (byKey key) with
  | nil =>
    rw [hsort] at h
    cases h
  | cons first rest =>
    rw [hsort] at h hsorted hmem
    cases h
    refine ⟨(hmem x).mp List.mem_cons_self, fun y hy => ?_⟩
    rcases List.mem_cons.mp ((hmem y).mpr hy) with rfl | hrest
    · exact le_refl _
    · exact (List.pairwise_cons.mp hsorted).1 y hrest

theorem head?_mergeSort_byKey_eq_none_iff {key : α → κ} {xs : List α} :
    (xs.mergeSort (byKey key)).head? = none ↔ xs = [] := by
  rw [List.head?_eq_none_iff, ← List.length_eq_zero_iff, List.length_mergeSort,
    List.length_eq_zero_iff]

/-- Where no two elements have the same key, it is the element with the least key. -/
theorem head?_mergeSort_byKey_eq_some_iff {key : α → κ} {xs : List α}
    (hkey : ∀ x ∈ xs, ∀ y ∈ xs, key x = key y → x = y) {x : α} :
    (xs.mergeSort (byKey key)).head? = some x ↔ x ∈ xs ∧ ∀ y ∈ xs, key x ≤ key y := by
  refine ⟨isLeast_of_head?_mergeSort, fun ⟨hmem, hle⟩ => ?_⟩
  cases hhead : (xs.mergeSort (byKey key)).head? with
  | none => exact absurd hmem (head?_mergeSort_byKey_eq_none_iff.mp hhead ▸ List.not_mem_nil)
  | some first =>
    obtain ⟨hfirst, hleast⟩ := isLeast_of_head?_mergeSort hhead
    rw [hkey first hfirst x hmem (le_antisymm (hleast x hmem) (hle first hfirst))]

/-- The head of a sorted list is its least element. -/
theorem head?_mergeSort_eq_some_iff {xs : List κ} {x : κ} :
    (xs.mergeSort (byKey id)).head? = some x ↔ IsLeast {y | y ∈ xs} x :=
  head?_mergeSort_byKey_eq_some_iff fun _ _ _ _ h => h

end Hedge.Common
