import Mathlib.Data.List.Basic
import Mathlib.Data.List.Induction
import Mathlib.Logic.Function.Iterate
import Mathlib.Tactic.Choose

/-!
# Runs of a deterministic machine

A machine is a function `step : σ → α → β × σ` from a state and an action to an output and the next
state. `runState` and `runOutputs` fold it over a list of actions. The two induction rules are
`runState_invariant`, for what every state of a run satisfies, and `runOutputs_forall`, for what
every output satisfies; both take a side condition on the actions of the run, and
`runState_invariant_all` is the first without one.

`runEnabled` is the run of a machine `step : σ → α → Option σ` in which an action may be disabled;
`Endless` says that such a machine need not stop.

Statements about the `i`-th action of a run are written by splitting the action list:
`acts = pre ++ a :: post`, with `runState step s pre` as the state in which `a` is taken.
-/

namespace Hedge.Common

variable {σ α β : Type*}

/-- The state after the actions `as`. -/
def runState (step : σ → α → β × σ) (s : σ) (as : List α) : σ :=
  as.foldl (fun s a => (step s a).2) s

/-- The outputs of the actions `as`, in order. -/
def runOutputs (step : σ → α → β × σ) : σ → List α → List β
  | _, [] => []
  | s, a :: as => (step s a).1 :: runOutputs step (step s a).2 as

/-! ## Positions in a list of actions -/

theorem forall_split_nil {P : List α → α → List α → Prop} :
    ∀ pre a post, [] = pre ++ a :: post → P pre a post := by
  intro pre a post h
  cases pre <;> cases h

/-- Every position of `a :: as` is its head or a position of `as`. -/
theorem forall_split_cons {P : List α → α → List α → Prop} {a : α} {as : List α}
    (hhead : P [] a as)
    (htail : ∀ pre b post, as = pre ++ b :: post → P (a :: pre) b post) :
    ∀ pre b post, a :: as = pre ++ b :: post → P pre b post := by
  intro pre b post h
  cases pre with
  | nil =>
    cases h
    exact hhead
  | cons c pre =>
    cases h
    exact htail pre b post rfl

/-- A statement about the positions of `a :: as` is one about its head and those of `as`. -/
theorem forall_split_cons_iff {P : List α → α → List α → Prop} {a : α} {as : List α} :
    (∀ pre b post, a :: as = pre ++ b :: post → P pre b post) ↔
      P [] a as ∧ ∀ pre b post, as = pre ++ b :: post → P (a :: pre) b post := by
  constructor
  · intro h
    refine ⟨h [] a as rfl, fun pre b post hsplit => h (a :: pre) b post ?_⟩
    rw [hsplit, List.cons_append]
  · rintro ⟨hhead, htail⟩
    exact forall_split_cons hhead htail

/-- The prefixes of `a :: as` are the empty one and those that start with `a`. -/
theorem forall_prefix_cons_iff {P : List α → Prop} {a : α} {as : List α} :
    (∀ pre post, a :: as = pre ++ post → P pre) ↔
      P [] ∧ ∀ pre post, as = pre ++ post → P (a :: pre) := by
  constructor
  · intro h
    refine ⟨h [] (a :: as) rfl, fun pre post hsplit => h (a :: pre) post ?_⟩
    rw [hsplit, List.cons_append]
  · rintro ⟨hnil, hcons⟩ pre post hsplit
    cases pre with
    | nil => exact hnil
    | cons b pre =>
      obtain ⟨rfl, htail⟩ := List.cons_eq_cons.mp hsplit
      exact hcons pre post htail

/-- Every position of `as ++ [b]` is its last or a position of `as`. -/
theorem forall_split_concat_iff {P : List α → α → Prop} {as : List α} {b : α} :
    (∀ pre a post, as ++ [b] = pre ++ a :: post → P pre a) ↔
      (∀ pre a post, as = pre ++ a :: post → P pre a) ∧ P as b := by
  constructor
  · intro h
    refine ⟨fun pre a post hsplit => h pre a (post ++ [b]) ?_, h as b [] rfl⟩
    rw [hsplit, List.append_assoc, List.cons_append]
  · rintro ⟨h, hlast⟩ pre a post hsplit
    rcases List.eq_nil_or_concat post with rfl | ⟨post, c, rfl⟩
    · obtain ⟨rfl, hb⟩ := List.append_inj' hsplit rfl
      cases hb
      exact hlast
    · rw [List.concat_eq_append, ← List.cons_append, ← List.append_assoc] at hsplit
      exact h pre a post (List.append_inj' hsplit rfl).1

/-- The positions of `as ++ [b]` are those of `as`, with one more action behind them, and the end. -/
theorem forall_split_snoc_iff {P : List α → α → List α → Prop} {as : List α} {b : α} :
    (∀ pre a post, as ++ [b] = pre ++ a :: post → P pre a post) ↔
      (∀ pre a post, as = pre ++ a :: post → P pre a (post ++ [b])) ∧ P as b [] := by
  constructor
  · intro h
    refine ⟨fun pre a post hsplit => h pre a (post ++ [b]) ?_, h as b [] rfl⟩
    rw [hsplit, List.append_assoc, List.cons_append]
  · rintro ⟨h, hlast⟩ pre a post hsplit
    rcases List.eq_nil_or_concat post with rfl | ⟨post, c, rfl⟩
    · obtain ⟨rfl, hb⟩ := List.append_inj' hsplit rfl
      cases hb
      exact hlast
    · rw [List.concat_eq_append, ← List.cons_append, ← List.append_assoc] at hsplit
      obtain ⟨hinit, hb⟩ := List.append_inj' hsplit rfl
      cases hb
      rw [List.concat_eq_append]
      exact h pre a post hinit

/-! ## Induction over a run -/

section Rules

variable {step : σ → α → β × σ}

@[simp] theorem runState_nil (s : σ) : runState step s [] = s := rfl

@[simp] theorem runState_cons (s : σ) (a : α) (as : List α) :
    runState step s (a :: as) = runState step (step s a).2 as := rfl

@[simp] theorem runState_append (s : σ) (as bs : List α) :
    runState step s (as ++ bs) = runState step (runState step s as) bs :=
  List.foldl_append

@[simp] theorem runOutputs_nil (s : σ) : runOutputs step s [] = [] := rfl

@[simp] theorem runOutputs_cons (s : σ) (a : α) (as : List α) :
    runOutputs step s (a :: as) = (step s a).1 :: runOutputs step (step s a).2 as := rfl

theorem runOutputs_append (s : σ) (as bs : List α) :
    runOutputs step s (as ++ bs) = runOutputs step s as ++ runOutputs step (runState step s as) bs := by
  induction as generalizing s with
  | nil => rfl
  | cons a as ih =>
    rw [List.cons_append, runOutputs_cons, ih, runOutputs_cons, List.cons_append, runState_cons]

theorem runOutputs_concat (s : σ) (as : List α) (a : α) :
    runOutputs step s (as ++ [a]) = runOutputs step s as ++ [(step (runState step s as) a).1] :=
  runOutputs_append s as [a]

/-- An invariant that each action of the run preserves where it is taken holds at its end. -/
theorem runState_invariant_along (step : σ → α → β × σ) (I : σ → Prop) {s : σ} {as : List α}
    (hs : I s)
    (hstep : ∀ pre a post, as = pre ++ a :: post →
      I (runState step s pre) → I (step (runState step s pre) a).2) :
    I (runState step s as) := by
  induction as using List.reverseRecOn with
  | nil => exact hs
  | append_singleton as a ih =>
    rw [runState_append]
    refine hstep as a [] rfl (ih fun pre b post h => ?_)
    exact hstep pre b (post ++ [a]) (by simp [h])

/-- An invariant that the actions of a run preserve, each under the condition it meets where it is
taken, holds at every position of the run. -/
theorem runState_invariant_split (step : σ → α → β × σ) (I : σ → Prop) {C : σ → α → Prop}
    (hstep : ∀ s a, I s → C s a → I (step s a).2) {s : σ} {as : List α} (hs : I s)
    (hC : ∀ pre a post, as = pre ++ a :: post → C (runState step s pre) a) :
    ∀ pre post, as = pre ++ post → I (runState step s pre) := by
  intro pre post hsplit
  refine runState_invariant_along step I hs fun pre' a post' hsplit' hI => ?_
  refine hstep _ a hI (hC pre' a (post' ++ post) ?_)
  rw [hsplit, hsplit', List.append_assoc, List.cons_append]

/-- An invariant that every admissible action preserves holds after every admissible run. -/
theorem runState_invariant (step : σ → α → β × σ) (I : σ → Prop) {A : α → Prop}
    (hstep : ∀ s a, A a → I s → I (step s a).2) {s : σ} {as : List α}
    (hs : I s) (hok : ∀ a ∈ as, A a) : I (runState step s as) :=
  runState_invariant_along step I hs fun pre a post h hI =>
    hstep _ a (hok a (by simp [h])) hI

/-- An invariant that every action preserves holds after every run. -/
theorem runState_invariant_all (step : σ → α → β × σ) (I : σ → Prop)
    (hstep : ∀ s a, I s → I (step s a).2) {s : σ} (hs : I s) (as : List α) :
    I (runState step s as) :=
  runState_invariant_along step I hs fun _ a _ _ hI => hstep _ a hI

/-- If in the states `J` of a run an action keeps `I` exactly when `C` holds of it, then `I` holds
all along the run exactly when `C` holds of each of its actions. -/
theorem runState_forall_iff (step : σ → α → β × σ) (J I : σ → Prop) (C : σ → α → Prop)
    (hJ : ∀ s a, J s → J (step s a).2)
    (hstep : ∀ s a, J s → I s → (I (step s a).2 ↔ C s a)) {s : σ} {as : List α}
    (hsJ : J s) (hsI : I s) :
    (∀ pre post, as = pre ++ post → I (runState step s pre)) ↔
      ∀ pre a post, as = pre ++ a :: post → C (runState step s pre) a := by
  induction as generalizing s with
  | nil =>
    refine ⟨fun _ => forall_split_nil, ?_⟩
    intro _ pre post h
    rw [(List.append_eq_nil_iff.mp h.symm).1]
    exact hsI
  | cons a as ih =>
    constructor
    · intro h
      have hI : I (step s a).2 := h [a] as rfl
      refine forall_split_cons ((hstep s a hsJ hsI).mp hI) ?_
      exact (ih (hJ s a hsJ) hI).mp fun pre post hsplit => h (a :: pre) post (by rw [hsplit]; rfl)
    · intro h pre post hsplit
      have hI : I (step s a).2 := (hstep s a hsJ hsI).mpr (h [] a as rfl)
      cases pre with
      | nil => exact hsI
      | cons b pre =>
        obtain ⟨rfl, htail⟩ := List.cons_eq_cons.mp hsplit
        refine (ih (hJ s a hsJ) hI).mpr ?_ pre post htail
        intro pre' b post' hsplit'
        exact h (a :: pre') b post' (by rw [hsplit']; rfl)

/-- If from the states `R` an action leads to an observation `O` only when `C` holds of it, and then
back to `R`, then `O` is observed all along a run exactly when `C` holds of each of its actions. -/
theorem runState_observed_iff (step : σ → α → β × σ) (R O : σ → Prop) (C : σ → α → Prop)
    (hobs : ∀ s, R s → O s) (hneeds : ∀ s a, R s → O (step s a).2 → C s a)
    (hkeeps : ∀ s a, R s → C s a → R (step s a).2) {s : σ} {as : List α} (hs : R s) :
    (∀ pre post, as = pre ++ post → O (runState step s pre)) ↔
      ∀ pre a post, as = pre ++ a :: post → C (runState step s pre) a := by
  constructor
  · intro h
    induction as generalizing s with
    | nil => exact forall_split_nil
    | cons a as ih =>
      have hC : C s a := hneeds s a hs (h [a] as rfl)
      refine forall_split_cons hC (ih (hkeeps s a hs hC) fun pre post hsplit => ?_)
      exact h (a :: pre) post (by rw [hsplit]; rfl)
  · intro h pre post hsplit
    exact hobs _ (runState_invariant_split step R hkeeps hs h pre post hsplit)

/-- What every admissible action outputs in an invariant state holds of the outputs of a run. -/
theorem runOutputs_forall (step : σ → α → β × σ) (I : σ → Prop) {A : α → Prop} {Q : β → Prop}
    (hstep : ∀ s a, A a → I s → I (step s a).2)
    (hout : ∀ s a, A a → I s → Q (step s a).1) {s : σ} {as : List α}
    (hs : I s) (hok : ∀ a ∈ as, A a) : ∀ b ∈ runOutputs step s as, Q b := by
  induction as generalizing s with
  | nil => simp
  | cons a as ih =>
    intro b hb
    have hoka := hok a (by simp)
    rcases List.mem_cons.mp hb with rfl | hb
    · exact hout s a hoka hs
    · exact ih (hstep s a hoka hs) (fun c hc => hok c (by simp [hc])) b hb

/-- If an output leads to states `S`, from which it is not made again before the output `stop`, then
a stretch of a run without `stop` makes it at most once. -/
theorem count_runOutputs_le_one [BEq β] [LawfulBEq β] (step : σ → α → β × σ) (I S : σ → Prop)
    {b stop : β}
    (hI : ∀ s a, I s → (step s a).1 ≠ stop → I (step s a).2)
    (hmade : ∀ s a, I s → (step s a).1 = b → S (step s a).2)
    (hspent : ∀ s a, S s → (step s a).1 ≠ stop → (step s a).1 ≠ b ∧ S (step s a).2) {s : σ}
    {as : List α} (hs : I s) (hstop : stop ∉ runOutputs step s as) :
    (runOutputs step s as).count b ≤ 1 := by
  have hnone : ∀ (as : List α) (s : σ), S s → stop ∉ runOutputs step s as →
      (runOutputs step s as).count b = 0 := by
    intro as
    induction as with
    | nil => exact fun _ _ _ => rfl
    | cons a as ih =>
      intro s hs hstop
      obtain ⟨hhead, htail⟩ := List.ne_and_not_mem_of_not_mem_cons hstop
      obtain ⟨hne, hnext⟩ := hspent s a hs (Ne.symm hhead)
      rw [runOutputs_cons, List.count_cons_of_ne hne, ih _ hnext htail]
  induction as generalizing s with
  | nil => exact Nat.zero_le 1
  | cons a as ih =>
    obtain ⟨hhead, htail⟩ := List.ne_and_not_mem_of_not_mem_cons hstop
    rw [runOutputs_cons]
    by_cases hb : (step s a).1 = b
    · have hzero := hnone as _ (hmade s a hs hb) htail
      rw [hb, List.count_cons_self]
      omega
    · rw [List.count_cons_of_ne hb]
      exact ih (hI s a hs (Ne.symm hhead)) htail

/-- Two machines whose steps agree on related states make related runs with the same outputs. -/
theorem run_simulation {τ : Type*} {step' : τ → α → β × τ} (R : σ → τ → Prop)
    (hstep : ∀ s t a, R s t → (step s a).1 = (step' t a).1 ∧ R (step s a).2 (step' t a).2)
    {s : σ} {t : τ} (hst : R s t) (as : List α) :
    runOutputs step s as = runOutputs step' t as ∧
      R (runState step s as) (runState step' t as) := by
  induction as generalizing s t with
  | nil => exact ⟨rfl, hst⟩
  | cons a as ih =>
    obtain ⟨hout, hnext⟩ := hstep s t a hst
    obtain ⟨houts, hend⟩ := ih hnext
    exact ⟨congrArg₂ List.cons hout houts, hend⟩

/-- An output of a run is the output of one of its actions. -/
theorem exists_split_of_mem_runOutputs {s : σ} {as : List α} {b : β}
    (h : b ∈ runOutputs step s as) :
    ∃ pre a post, as = pre ++ a :: post ∧ (step (runState step s pre) a).1 = b := by
  induction as generalizing s with
  | nil => cases h
  | cons a as ih =>
    rcases List.mem_cons.mp h with rfl | h
    · exact ⟨[], a, as, rfl, rfl⟩
    · obtain ⟨pre, c, post, rfl, hout⟩ := ih h
      exact ⟨a :: pre, c, post, rfl, hout⟩

end Rules

/-! ## Observations along a run -/

/-- What `f` observes at each action of a run, in the state in which the action is taken. -/
def runCollect {γ : Type*} (step : σ → α → β × σ) (f : σ → α → List γ) : σ → List α → List γ
  | _, [] => []
  | s, a :: as => f s a ++ runCollect step f (step s a).2 as

section Collect

variable {γ : Type*} {step : σ → α → β × σ} {f g : σ → α → List γ}

@[simp] theorem runCollect_nil (s : σ) : runCollect step f s [] = [] := rfl

@[simp] theorem runCollect_cons (s : σ) (a : α) (as : List α) :
    runCollect step f s (a :: as) = f s a ++ runCollect step f (step s a).2 as := rfl

theorem runCollect_append (s : σ) (as bs : List α) :
    runCollect step f s (as ++ bs) = runCollect step f s as
      ++ runCollect step f (runState step s as) bs := by
  induction as generalizing s with
  | nil => rfl
  | cons a as ih => rw [List.cons_append, runCollect_cons, runCollect_cons, ih, runState_cons,
      List.append_assoc]

/-- The last action of a run adds what it observes at its end. -/
theorem runCollect_concat (s : σ) (as : List α) (a : α) :
    runCollect step f s (as ++ [a]) = runCollect step f s as ++ f (runState step s as) a := by
  rw [runCollect_append, runCollect_cons, runCollect_nil, List.append_nil]

/-- Two observations that agree in every state of an admissible run collect the same. -/
theorem runCollect_congr (I : σ → Prop) {A : α → Prop}
    (hstep : ∀ s a, A a → I s → I (step s a).2)
    (hfg : ∀ s a, A a → I s → f s a = g s a) {s : σ} {as : List α}
    (hs : I s) (hok : ∀ a ∈ as, A a) : runCollect step f s as = runCollect step g s as := by
  induction as generalizing s with
  | nil => rfl
  | cons a as ih =>
    have hoka := hok a (by simp)
    rw [runCollect_cons, runCollect_cons, hfg s a hoka hs,
      ih (hstep s a hoka hs) fun b hb => hok b (by simp [hb])]

/-- What holds of everything observed along a run holds of what is observed at each action. -/
theorem forall_mem_runCollect_iff {P : γ → Prop} {s : σ} {as : List α} :
    (∀ c ∈ runCollect step f s as, P c) ↔
      ∀ pre a post, as = pre ++ a :: post → ∀ c ∈ f (runState step s pre) a, P c := by
  induction as generalizing s with
  | nil => exact iff_of_true (by simp) forall_split_nil
  | cons a as ih =>
    rw [runCollect_cons, List.forall_mem_append, ih]
    constructor
    · rintro ⟨hhead, htail⟩
      exact forall_split_cons hhead htail
    · intro h
      refine ⟨h [] a as rfl, ?_⟩
      intro pre b post hsplit
      exact h (a :: pre) b post (by rw [hsplit]; rfl)

/-- A decidable condition that evaluates to true at each action of a run holds at each of them. -/
theorem forall_split_of_all {C : σ → α → Prop} [∀ s a, Decidable (C s a)] {s : σ} {as : List α}
    (h : (runCollect step (fun s a => [decide (C s a)]) s as).all id = true) :
    ∀ pre a post, as = pre ++ a :: post → C (runState step s pre) a := by
  intro pre a post hsplit
  have hall := forall_mem_runCollect_iff.mp (List.all_eq_true.mp h) pre a post hsplit
  exact of_decide_eq_true (hall _ (List.mem_singleton_self _))

/-- If an observation is either complete or empty at each action, then over a run it is complete
exactly if it is complete at each action. -/
theorem runCollect_perm_iff (I : σ → Prop) (hI : ∀ s a, I s → I (step s a).2)
    (hfg : ∀ s a, I s → f s a = g s a ∨ f s a = []) {s : σ} (hs : I s) (as : List α) :
    (runCollect step f s as).Perm (runCollect step g s as) ↔
      ∀ pre a post, as = pre ++ a :: post →
        f (runState step s pre) a = g (runState step s pre) a := by
  have hle : ∀ s a, I s → (f s a).length ≤ (g s a).length := by
    intro s a hs
    rcases hfg s a hs with h | h
    · exact Nat.le_of_eq (congrArg List.length h)
    · rw [h]
      exact Nat.zero_le _
  have hrun : ∀ (as : List α) (s : σ), I s →
      (runCollect step f s as).length ≤ (runCollect step g s as).length := by
    intro as
    induction as with
    | nil => exact fun _ _ => Nat.le_refl _
    | cons a as ih =>
      intro s hs
      rw [runCollect_cons, runCollect_cons, List.length_append, List.length_append]
      exact Nat.add_le_add (hle s a hs) (ih _ (hI s a hs))
  induction as generalizing s with
  | nil => exact iff_of_true .rfl forall_split_nil
  | cons a as ih =>
    rw [runCollect_cons, runCollect_cons]
    constructor
    · intro h
      have hlength := h.length_eq
      rw [List.length_append, List.length_append] at hlength
      have hrest := hrun as _ (hI s a hs)
      have hhead : f s a = g s a := by
        rcases hfg s a hs with heq | hnil
        · exact heq
        · rw [hnil, List.length_nil] at hlength
          have hnone : (g s a).length = 0 := by omega
          rw [hnil, List.length_eq_zero_iff.mp hnone]
      rw [hhead, List.perm_append_left_iff] at h
      exact forall_split_cons hhead ((ih (hI s a hs)).mp h)
    · intro h
      have hhead : f s a = g s a := h [] a as rfl
      rw [hhead, List.perm_append_left_iff]
      refine (ih (hI s a hs)).mpr ?_
      intro pre b post hsplit
      exact h (a :: pre) b post (by rw [hsplit]; rfl)

@[simp] theorem runCollect_const_nil (s : σ) (as : List α) :
    runCollect step (fun _ _ => ([] : List γ)) s as = [] := by
  induction as generalizing s with
  | nil => rfl
  | cons a as ih => simp [ih]

end Collect

/-! ## Machines with disabled actions -/

/-- The state after the actions `as`, when each of them is enabled where it is taken. -/
def runEnabled (step : σ → α → Option σ) (s : σ) (as : List α) : Option σ := as.foldlM step s

/-- From `s` there are enabled actions without end. -/
def Endless (step : σ → α → Option σ) (s : σ) : Prop :=
  ∃ run : ℕ → σ, run 0 = s ∧ ∀ n, ∃ a, step (run n) a = some (run (n + 1))

section Enabled

variable {step : σ → α → Option σ}

/-- A run with one more action. -/
theorem runEnabled_concat {s s' : σ} {as : List α} {a : α}
    (h : runEnabled step s (as ++ [a]) = some s') :
    ∃ t, runEnabled step s as = some t ∧ step t a = some s' := by
  rw [runEnabled, List.foldlM_append] at h
  obtain ⟨t, ht, hlast⟩ := Option.bind_eq_some_iff.mp h
  obtain ⟨u, hu, hnil⟩ := Option.bind_eq_some_iff.mp hlast
  cases hnil
  exact ⟨t, ht, hu⟩

/-- What every enabled action preserves holds at the end of a run. -/
theorem runEnabled_invariant (I : σ → Prop) (hstep : ∀ s a s', I s → step s a = some s' → I s')
    {s s' : σ} {as : List α} (hs : I s) (hrun : runEnabled step s as = some s') : I s' := by
  induction as generalizing s with
  | nil =>
    cases hrun
    exact hs
  | cons a as ih =>
    obtain ⟨next, hnext, hrest⟩ := Option.bind_eq_some_iff.mp hrun
    exact ih (hstep s a next hs hnext) hrest

/-- A machine goes on from a state of which some enabled action leads to another one. -/
theorem endless_of_invariant (I : σ → Prop) (hstep : ∀ s, I s → ∃ a s', step s a = some s' ∧ I s')
    {s : σ} (hs : I s) : Endless step s := by
  choose! act next hnext hI using hstep
  have hrun : ∀ n, I (next^[n] s) := by
    intro n
    induction n with
    | zero => exact hs
    | succ n ih =>
      rw [Function.iterate_succ_apply']
      exact hI _ ih
  refine ⟨fun n => next^[n] s, rfl, fun n => ⟨act _ (hrun n), ?_⟩⟩
  change step (next^[n] s) _ = some (next^[n + 1] s)
  rw [Function.iterate_succ_apply']
  exact hnext _ (hrun n)

/-- A machine stops when every enabled action lowers a measure. -/
theorem not_endless_of_measure (I : σ → Prop) (μ : σ → ℕ)
    (hstep : ∀ s a s', I s → step s a = some s' → I s' ∧ μ s' < μ s) {s : σ} (hs : I s) :
    ¬ Endless step s := by
  rintro ⟨run, rfl, hrun⟩
  have hdescends : ∀ n, I (run n) ∧ μ (run n) + n ≤ μ (run 0) := by
    intro n
    induction n with
    | zero => exact ⟨hs, Nat.le_refl _⟩
    | succ n ih =>
      obtain ⟨a, ha⟩ := hrun n
      obtain ⟨hI, hlt⟩ := hstep _ a _ ih.1 ha
      exact ⟨hI, by omega⟩
  have hbound := (hdescends (μ (run 0) + 1)).2
  omega

end Enabled

end Hedge.Common
