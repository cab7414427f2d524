import Mathlib.Data.List.Induction
import Mathlib.Order.RelClasses

/-!
# Records of a sequence

A record is an element beyond everything before it. The last record of a nonempty sequence stands
for good: nothing after it is beyond it. `r u v` reads "`v` is beyond `u`", so that highs are the
records for `<` and lows those for `>`.
-/

namespace Hedge.Common

variable {α : Type*} {r : α → α → Prop} {l : List α} {i : ℕ} {v x : α}

/-- The last record of `l` is `v`, at index `i`. -/
structure LastRecord (r : α → α → Prop) (l : List α) (i : ℕ) (v : α) : Prop where
  getElem : l[i]? = some v
  beyond : ∀ u ∈ l.take i, r u v
  standing : ∀ u ∈ l.drop (i + 1), ¬ r v u

namespace LastRecord

theorem lt_length (h : LastRecord r l i v) : i < l.length :=
  (List.getElem?_eq_some_iff.mp h.getElem).1

theorem mem (h : LastRecord r l i v) : v ∈ l := List.mem_of_getElem? h.getElem

/-- An element beyond all of the list is its new record. -/
theorem of_beyond (h : ∀ u ∈ l, r u x) : LastRecord r (l ++ [x]) l.length x where
  getElem := by simp
  beyond := by simpa using h
  standing := by simp

/-- An element that is not beyond the last record leaves it standing. -/
theorem append_of_not (h : LastRecord r l i v) (hx : ¬ r v x) : LastRecord r (l ++ [x]) i v where
  getElem := by rw [List.getElem?_append_left h.lt_length, h.getElem]
  beyond := by
    rw [List.take_append_of_le_length (Nat.le_of_lt h.lt_length)]
    exact h.beyond
  standing := by
    intro u hu
    rw [List.drop_append_of_le_length h.lt_length, List.mem_append, List.mem_singleton] at hu
    obtain hu | rfl := hu
    · exact h.standing u hu
    · exact hx

/-- The last record of a longer list is the old one or the new element. -/
theorem append_cases (h : LastRecord r (l ++ [x]) i v) :
    (LastRecord r l i v ∧ ¬ r v x) ∨ (i = l.length ∧ v = x ∧ ∀ u ∈ l, r u x) := by
  have hlt : i < l.length + 1 := by simpa using h.lt_length
  obtain hlt | rfl := Nat.lt_succ_iff_lt_or_eq.mp hlt
  · have hget := h.getElem
    rw [List.getElem?_append_left hlt] at hget
    have hbeyond := h.beyond
    rw [List.take_append_of_le_length (Nat.le_of_lt hlt)] at hbeyond
    have hstanding := h.standing
    rw [List.drop_append_of_le_length hlt] at hstanding
    refine .inl ⟨⟨hget, hbeyond, fun u hu => ?_⟩, ?_⟩
    · exact hstanding u (List.mem_append_left _ hu)
    · exact hstanding x (List.mem_append_right _ List.mem_cons_self)
  · have hv : x = v := by simpa using h.getElem
    subst hv
    exact .inr ⟨rfl, rfl, by simpa using h.beyond⟩

/-- A map from one order to another takes the last record along. -/
theorem map {β : Type*} {r' : β → β → Prop} {f : α → β} (hf : ∀ u v, r' (f u) (f v) ↔ r u v)
    (h : LastRecord r l i v) : LastRecord r' (l.map f) i (f v) where
  getElem := by rw [List.getElem?_map, h.getElem, Option.map_some]
  beyond := by
    intro u hu
    rw [← List.map_take] at hu
    obtain ⟨w, hw, rfl⟩ := List.mem_map.mp hu
    exact (hf w v).mpr (h.beyond w hw)
  standing := by
    intro u hu
    rw [← List.map_drop] at hu
    obtain ⟨w, hw, rfl⟩ := List.mem_map.mp hu
    exact fun hbeyond => h.standing w hw ((hf v w).mp hbeyond)

variable [IsStrictTotalOrder α r]

/-- What is beyond the last record is beyond every element. -/
theorem beyond_all (h : LastRecord r l i v) (hx : r v x) : ∀ u ∈ l, r u x := by
  intro u hu
  obtain ⟨hlt, hget⟩ := List.getElem?_eq_some_iff.mp h.getElem
  rw [← List.take_append_drop i l, List.drop_eq_getElem_cons hlt] at hu
  rw [hget, List.mem_append, List.mem_cons] at hu
  obtain hu | rfl | hu := hu
  · exact trans_of r (h.beyond u hu) hx
  · exact hx
  · obtain hlt | rfl | hgt := trichotomous_of r u v
    · exact trans_of r hlt hx
    · exact hx
    · exact absurd hgt (h.standing u hu)

end LastRecord

/-- A sequence that has started has a last record. -/
theorem exists_lastRecord [IsStrictTotalOrder α r] (hl : l ≠ []) :
    ∃ i v, LastRecord r l i v := by
  induction l using List.reverseRecOn with
  | nil => exact absurd rfl hl
  | append_singleton l x ih =>
    obtain rfl | hne := eq_or_ne l []
    · exact ⟨_, _, .of_beyond (by simp)⟩
    · obtain ⟨i, v, h⟩ := ih hne
      by_cases hx : r v x
      · exact ⟨_, _, .of_beyond (h.beyond_all hx)⟩
      · exact ⟨i, v, h.append_of_not hx⟩

end Hedge.Common
