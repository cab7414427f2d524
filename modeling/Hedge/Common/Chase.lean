import Mathlib.Data.List.Chain
import Mathlib.Data.List.Nodup
import Mathlib.Data.List.Perm.Subperm

/-!
# Following a partial function without going round in circles

`visits next fuel seen x` are the places met from `x` on, where `next` says where to go from a place
and a place that was seen before ends the walk. No place is met twice, each is the `next` of the one
before it, and fuel for every place there is to meet is enough.
-/

namespace Hedge.Common

variable {α : Type*}

/-- The list up to and with its first element that does not satisfy `p`. -/
def throughFirst (p : α → Bool) : List α → List α
  | [] => []
  | a :: l => if p a then a :: throughFirst p l else [a]

section

variable {p : α → Bool} {l : List α}

theorem throughFirst_append_cons {pre : List α} {a : α} {post : List α}
    (hpre : ∀ b ∈ pre, p b = true) (ha : p a = false) :
    throughFirst p (pre ++ a :: post) = pre ++ [a] := by
  induction pre with
  | nil => rw [List.nil_append, throughFirst, ha]; rfl
  | cons b pre ih =>
    rw [List.cons_append, throughFirst, if_pos (hpre b List.mem_cons_self),
      ih fun d hd => hpre d (List.mem_cons_of_mem b hd), List.cons_append]

/-- The cut list is an initial part of the list. -/
theorem throughFirst_prefix : throughFirst p l <+: l := by
  induction l with
  | nil => exact List.prefix_rfl
  | cons a l ih =>
    rw [throughFirst]
    split
    · exact (List.prefix_cons_inj a).mpr ih
    · exact ⟨l, rfl⟩

theorem nodup_concat {x : α} (hl : l.Nodup) (hx : x ∉ l) : (l ++ [x]).Nodup := by
  rw [← List.concat_eq_append]
  exact List.Nodup.concat hx hl

end

variable [DecidableEq α]

/-- The places met from `x` on, in order. -/
def visits (next : α → Option α) : ℕ → List α → α → List α
  | 0, _, _ => []
  | fuel + 1, seen, x =>
    if x ∈ seen then [] else x :: (next x).elim [] (visits next fuel (seen ++ [x]))

section

variable {next : α → Option α} {fuel : ℕ} {seen : List α} {x : α}

theorem visits_of_mem (h : x ∈ seen) : visits next fuel seen x = [] := by
  cases fuel with
  | zero => rfl
  | succ fuel => rw [visits, if_pos h]

theorem visits_succ (h : x ∉ seen) :
    visits next (fuel + 1) seen x = x :: (next x).elim [] (visits next fuel (seen ++ [x])) := by
  rw [visits, if_neg h]

theorem head?_visits (h : x ∉ seen) : (visits next (fuel + 1) seen x).head? = some x := by
  rw [visits_succ h, List.head?_cons]

/-- No place is met twice, and none that was seen before. -/
theorem nodup_append_visits (hseen : seen.Nodup) : (seen ++ visits next fuel seen x).Nodup := by
  induction fuel generalizing seen x with
  | zero => rwa [visits, List.append_nil]
  | succ fuel ih =>
    by_cases hx : x ∈ seen
    · rwa [visits_of_mem hx, List.append_nil]
    have hseen' := nodup_concat hseen hx
    rw [visits_succ hx, List.append_cons seen x]
    cases next x with
    | none => rwa [Option.elim_none, List.append_nil]
    | some y => exact ih hseen'

theorem nodup_visits : (visits next fuel [] x).Nodup := by
  have h : ([] ++ visits next fuel [] x).Nodup := nodup_append_visits List.nodup_nil
  rwa [List.nil_append] at h

/-- Each place is the `next` of the one before it. -/
theorem isChain_visits : (visits next fuel seen x).IsChain fun a b => next a = some b := by
  induction fuel generalizing seen x with
  | zero => exact List.isChain_nil
  | succ fuel ih =>
    by_cases hx : x ∈ seen
    · rw [visits_of_mem hx]
      exact List.isChain_nil
    rw [visits_succ hx]
    cases hnext : next x with
    | none => exact List.isChain_singleton x
    | some y =>
      refine List.isChain_cons.mpr ⟨fun z hz => ?_, ih⟩
      rw [Option.elim_some] at hz
      by_cases hy : y ∈ seen ++ [x]
      · rw [visits_of_mem hy] at hz
        cases hz
      · cases fuel with
        | zero => cases hz
        | succ fuel =>
          rw [head?_visits hy] at hz
          cases hz
          exact hnext

/-- What holds of the first place and is handed on by `next` holds of every place met. -/
theorem forall_mem_visits {P : α → Prop} (hx : P x) (hnext : ∀ a b, P a → next a = some b → P b) :
    ∀ a ∈ visits next fuel seen x, P a := by
  induction fuel generalizing seen x with
  | zero => exact fun a ha => absurd ha List.not_mem_nil
  | succ fuel ih =>
    intro a ha
    by_cases hmem : x ∈ seen
    · rw [visits_of_mem hmem] at ha
      cases ha
    rw [visits_succ hmem] at ha
    rcases List.mem_cons.mp ha with rfl | ha
    · exact hx
    · cases hy : next x with
      | none =>
        rw [hy] at ha
        cases ha
      | some y =>
        rw [hy] at ha
        exact ih (hnext x y hx hy) a ha

/-- With fuel for every place there is, the walk goes on as long as it leads to a new place. -/
theorem mem_of_next_mem_visits {places : List α} (hseen : seen.Nodup)
    (hsub : ∀ a ∈ seen, a ∈ places) (hx : x ∈ places)
    (hnext : ∀ a b, a ∈ places → next a = some b → b ∈ places)
    (hfuel : places.length < fuel + seen.length) {a b : α} (ha : a ∈ visits next fuel seen x)
    (hab : next a = some b) : b ∈ seen ++ visits next fuel seen x := by
  induction fuel generalizing seen x with
  | zero => cases ha
  | succ fuel ih =>
    have hmem : x ∉ seen := by
      intro h
      rw [visits_of_mem h] at ha
      cases ha
    rw [visits_succ hmem, List.append_cons seen x]
    rw [visits_succ hmem] at ha
    have hseen' := nodup_concat hseen hmem
    have hsub' : ∀ c ∈ seen ++ [x], c ∈ places := by
      intro c hc
      rcases List.mem_append.mp hc with hc | hc
      · exact hsub c hc
      · exact List.mem_singleton.mp hc ▸ hx
    have hlen : (seen ++ [x]).length = seen.length + 1 := by simp
    rcases List.mem_cons.mp ha with rfl | ha
    · rw [hab, Option.elim_some]
      by_cases hb : b ∈ seen ++ [a]
      · exact List.mem_append_left _ hb
      · have hle := (hseen'.subperm hsub').length_le
        obtain ⟨f, rfl⟩ : ∃ f, fuel = f + 1 := ⟨fuel - 1, by omega⟩
        rw [visits_succ hb]
        exact List.mem_append_right _ List.mem_cons_self
    · cases hy : next x with
      | none =>
        rw [hy] at ha
        cases ha
      | some y =>
        rw [hy] at ha
        exact ih hseen' hsub' (hnext x y hx hy) (by omega) ha

end

end Hedge.Common
