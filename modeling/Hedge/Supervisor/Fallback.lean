import Hedge.Supervisor.Policy
import Mathlib.Logic.Function.Iterate

/-!
# Fallback chains of Ollama models

Reference: `build_ollama_fallback_table` and `RecoveryPolicy::from_config` in
`hedge-supervisor/src/policy.rs`, `OllamaConfig` in `hedge-config`.

The table is keyed by the name of a model and its four entries are inserted one after the other, so
two roles that share a name share one entry: the last one. `chainsEnd_iff` says which sharing closes
a chain to a cycle.
-/

namespace Hedge.Supervisor

open Hedge

/-! ## Chains of a function -/

section Chains

variable {α : Type*} {next : α → α} {a : α}

/-- From `a` the function reaches a fixed point. -/
def Settles (next : α → α) (a : α) : Prop := ∃ n, next (next^[n] a) = next^[n] a

theorem settles_of_eq (h : next a = a) : Settles next a := ⟨0, h⟩

theorem settles_of_next (h : Settles next (next a)) : Settles next a := by
  obtain ⟨n, hn⟩ := h
  exact ⟨n + 1, hn⟩

/-- A chain does not settle where no element is a fixed point and none leads out. -/
theorem not_settles_of_closed {S : α → Prop} (hclosed : ∀ x, S x → S (next x))
    (hmoves : ∀ x, S x → next x ≠ x) (ha : S a) : ¬ Settles next a := by
  rintro ⟨n, hn⟩
  have hS : ∀ n, S (next^[n] a) := by
    intro n
    induction n with
    | zero => exact ha
    | succ n ih =>
      rw [Function.iterate_succ_apply']
      exact hclosed _ ih
  exact hmoves _ (hS n) hn

end Chains

/-! ## Configuration -/

/-- `OllamaRole`. -/
inductive OllamaRole where
  | primary
  | fast
  | deep
  | lightweight
deriving DecidableEq, Repr

/-- `OllamaModelConfig`. -/
structure OllamaModelConfig where
  name : String
  role : OllamaRole
  quant : String
deriving DecidableEq, Repr

/-- `OllamaConfig`: the models in priority order. -/
structure OllamaConfig where
  models : List OllamaModelConfig
deriving DecidableEq, Repr

/-- What the schema of the loader asks of the registry; the cross-field checks ask nothing more. -/
def OllamaConfig.Accepted (cfg : OllamaConfig) : Prop :=
  cfg.models ≠ [] ∧ ∀ m ∈ cfg.models, m.name ≠ "" ∧ m.quant ≠ ""

instance (cfg : OllamaConfig) : Decidable cfg.Accepted := inferInstanceAs (Decidable (_ ∧ _))

/-- `pick`: the first model of a role. -/
def OllamaConfig.pick (cfg : OllamaConfig) (role : OllamaRole) : Option String :=
  (cfg.models.find? fun m => m.role = role).map (·.name)

/-- `if let (Some(a), Some(b)) = (a, b)`, then `a` falls back to `b`. -/
def link (a b : Option String) (table : Map String String) : Map String String :=
  match a, b with
  | some a, some b => table.insert a b
  | _, _ => table

/-- `build_ollama_fallback_table`. -/
def buildOllamaFallbackTable (cfg : OllamaConfig) : Map String String :=
  let primary := cfg.pick .primary
  let fast := cfg.pick .fast
  let lightweight := cfg.pick .lightweight
  let deep := cfg.pick .deep
  let table := link primary fast ∅
  let table := link fast lightweight table
  let table := link lightweight lightweight table
  link deep primary table

/-- `default_mitigation_table`. -/
def defaultMitigationTable : Map String String :=
  let table : Map String String := ∅
  let table := table.insert "news_provider" "throttle_news_fetch"
  let table := table.insert "regulator" "skip_optional_compliance_calls"
  let table := table.insert "clock" "use_local_monotonic"
  table.insert "ollama" "warn"

namespace PolicyConfig

/-- `RecoveryPolicy::from_config`, with the default backoff. -/
def fromConfig (primary backup : BrokerId) (ollama : OllamaConfig) : PolicyConfig where
  backoff := ⟨.fromNanos 100000000, .fromNanos 30000000000⟩
  primaryBroker := primary
  backupBroker := backup
  mitigations := defaultMitigationTable
  ollamaFallbacks := buildOllamaFallbackTable ollama

/-- The model that the action on an unresponsive model falls back to. -/
def fallbackOf (policy : PolicyConfig) (model : String) : String :=
  match (policy.decide ∅ ⟨.ollamaUnresponsive model, 0⟩).1.kind with
  | .ollamaFallback _ fallback => fallback
  | _ => model

/-- Every chain of fallbacks ends at a model that falls back to itself. -/
def ChainsEnd (policy : PolicyConfig) : Prop := ∀ model, Settles policy.fallbackOf model

end PolicyConfig

/-! ## The table -/

/-- What a model falls back to, by the four picks. -/
def follow (primary fast lightweight deep : Option String) (model : String) : String :=
  (if deep = some model ∧ primary.isSome then primary
  else if lightweight = some model then lightweight
  else if fast = some model ∧ lightweight.isSome then lightweight
  else if primary = some model ∧ fast.isSome then fast
  else none).getD model

theorem lookup_link (a b : Option String) (table : Map String String) (model : String) :
    (link a b table).lookup model = if a = some model ∧ b.isSome then b else table.lookup model := by
  cases a with
  | none => simp [link]
  | some a =>
    cases b with
    | none => simp [link]
    | some b =>
      by_cases h : a = model
      · subst h
        simp [link]
      · simp [link, h, AList.lookup_insert_ne (Ne.symm h)]

theorem fallbackOf_fromConfig (primary backup : BrokerId) (cfg : OllamaConfig) :
    (PolicyConfig.fromConfig primary backup cfg).fallbackOf
      = follow (cfg.pick .primary) (cfg.pick .fast) (cfg.pick .lightweight) (cfg.pick .deep) := by
  funext model
  have hempty : (∅ : Map String String).lookup model = none := rfl
  have hself : ∀ o : Option String, (o = some model ∧ o.isSome) ↔ o = some model := by
    rintro (_ | name) <;> simp
  change ((buildOllamaFallbackTable cfg).lookup model).getD model = _
  rw [buildOllamaFallbackTable, lookup_link, lookup_link, lookup_link, lookup_link, hempty, follow]
  simp only [hself]

/-! ## Cycles -/

/-- The deep model falls back to a primary one of another name, from which the fast one leads back:
the lightweight model has the name of the deep one, or the fast one has it and the lightweight
model does not have that of the primary. -/
def ClosesCycle (primary fast lightweight deep : Option String) : Prop :=
  ∃ p f d, primary = some p ∧ fast = some f ∧ deep = some d ∧ d ≠ p ∧
    (lightweight = some d ∨ f = d ∧ lightweight ≠ some p)

section Cycles

variable {primary fast lightweight deep : Option String}

/-- The four cases of a fallback, each where those before it do not apply. -/
theorem follow_cases (primary fast lightweight deep : Option String) (model : String) :
    (∃ p, deep = some model ∧ primary = some p ∧
      follow primary fast lightweight deep model = p) ∨
    (deep = some model → primary = none) ∧
      (lightweight = some model ∧ follow primary fast lightweight deep model = model ∨
        (∃ l, fast = some model ∧ lightweight = some l ∧
          follow primary fast lightweight deep model = l) ∨
        (∃ f, primary = some model ∧ lightweight ≠ some model ∧ fast = some f ∧
          (fast = some model → lightweight = none) ∧
          follow primary fast lightweight deep model = f) ∨
        follow primary fast lightweight deep model = model ∧
          (fast = some model → lightweight = none) ∧ (primary = some model → fast = none)) := by
  unfold follow
  cases primary <;> cases fast <;> cases lightweight <;> cases deep <;> grind

/-- A model that moves goes to the name of one of three roles. -/
theorem follow_eq_or (primary fast lightweight deep : Option String) (model : String) :
    follow primary fast lightweight deep model = model ∨
      primary = some (follow primary fast lightweight deep model) ∨
      lightweight = some (follow primary fast lightweight deep model) ∨
      fast = some (follow primary fast lightweight deep model) := by
  have hcases := follow_cases primary fast lightweight deep model
  grind

/-- It is enough that chains from these three names end. -/
theorem follow_settles_of_roles
    (hprimary : ∀ p, primary = some p → Settles (follow primary fast lightweight deep) p)
    (hlightweight : ∀ l, lightweight = some l → Settles (follow primary fast lightweight deep) l)
    (hfast : ∀ f, fast = some f → Settles (follow primary fast lightweight deep) f)
    (model : String) : Settles (follow primary fast lightweight deep) model := by
  rcases follow_eq_or primary fast lightweight deep model with hself | hp | hl | hf
  · exact settles_of_eq hself
  · exact settles_of_next (hprimary _ hp)
  · exact settles_of_next (hlightweight _ hl)
  · exact settles_of_next (hfast _ hf)

/-- Where the deep model is not redirected, the lightweight one is a fixed point, and the others
lead to it or end before. -/
theorem follow_settles_of_straight (h : ∀ p d, primary = some p → deep = some d → d = p)
    (model : String) : Settles (follow primary fast lightweight deep) model := by
  have hlightweight : ∀ l, lightweight = some l →
      Settles (follow primary fast lightweight deep) l := by
    intro l hl
    have hcases := follow_cases primary fast lightweight deep l
    exact settles_of_eq (by grind)
  have hfast : ∀ f, fast = some f → Settles (follow primary fast lightweight deep) f := by
    intro f hf
    have hcases := follow_cases primary fast lightweight deep f
    have hnext : follow primary fast lightweight deep f = f ∨
        lightweight = some (follow primary fast lightweight deep f) := by grind
    exact hnext.elim settles_of_eq fun hl => settles_of_next (hlightweight _ hl)
  refine follow_settles_of_roles (fun p hp => ?_) hlightweight hfast model
  have hcases := follow_cases primary fast lightweight deep p
  have hnext : follow primary fast lightweight deep p = p ∨
      lightweight = some (follow primary fast lightweight deep p) ∨
      fast = some (follow primary fast lightweight deep p) := by grind
  rcases hnext with hself | hl | hf
  · exact settles_of_eq hself
  · exact settles_of_next (hlightweight _ hl)
  · exact settles_of_next (hfast _ hf)

/-- Where it is redirected, the chain of the primary has to end without the deep model. -/
theorem follow_settles_of_redirected {p d : String} (hp : primary = some p) (hd : deep = some d)
    (hne : d ≠ p) (h : ¬ ClosesCycle primary fast lightweight deep) (model : String) :
    Settles (follow primary fast lightweight deep) model := by
  have hopen : ∀ f, fast = some f → lightweight ≠ some d ∧ (f = d → lightweight = some p) := by
    intro f hf
    refine ⟨fun hl => h ⟨p, f, d, hp, hf, hd, hne, .inl hl⟩, fun hfd => ?_⟩
    by_contra hl
    exact h ⟨p, f, d, hp, hf, hd, hne, .inr ⟨hfd, hl⟩⟩
  -- A fast model that is not the deep one ends at the lightweight one or at itself.
  have hlast : ∀ l, lightweight = some l → l ≠ d →
      Settles (follow primary fast lightweight deep) l := by
    intro l hl hld
    have hcases := follow_cases primary fast lightweight deep l
    exact settles_of_eq (by grind)
  -- The primary model goes to itself, to the lightweight one or through the fast one.
  have hprimary : Settles (follow primary fast lightweight deep) p := by
    have hcases := follow_cases primary fast lightweight deep p
    have hnext : follow primary fast lightweight deep p = p ∨
        (∃ f, fast = some f ∧ (lightweight = some (follow primary fast lightweight deep p) ∨
          follow primary fast lightweight deep p = f ∧ lightweight ≠ some p)) := by grind
    rcases hnext with hself | ⟨f, hf, hl | ⟨hnext, hnot⟩⟩
    · exact settles_of_eq hself
    · have hopen := hopen f hf
      exact settles_of_next (hlast _ hl (by grind))
    · have hopen := hopen f hf
      have hcases := follow_cases primary fast lightweight deep f
      have hthen : follow primary fast lightweight deep f = f ∨
          lightweight = some (follow primary fast lightweight deep f) := by grind
      refine settles_of_next ?_
      rw [hnext]
      rcases hthen with hself | hl
      · exact settles_of_eq hself
      · exact settles_of_next (hlast _ hl (by grind))
  have hlightweight : ∀ l, lightweight = some l →
      Settles (follow primary fast lightweight deep) l := by
    intro l hl
    by_cases hld : l = d
    · have hcases := follow_cases primary fast lightweight deep l
      have hnext : follow primary fast lightweight deep l = p := by grind
      exact settles_of_next (hnext ▸ hprimary)
    · exact hlast l hl hld
  refine follow_settles_of_roles (fun q hq => ?_) hlightweight (fun f hf => ?_) model
  · obtain rfl : p = q := Option.some.inj (hp.symm.trans hq)
    exact hprimary
  · have hcases := follow_cases primary fast lightweight deep f
    have hnext : follow primary fast lightweight deep f = f ∨
        follow primary fast lightweight deep f = p ∨
        lightweight = some (follow primary fast lightweight deep f) := by grind
    rcases hnext with hself | hnext | hl
    · exact settles_of_eq hself
    · exact settles_of_next (hnext ▸ hprimary)
    · exact settles_of_next (hlightweight _ hl)

/-- On the names of such a sharing no model is a fixed point and none leads to another name. -/
theorem not_settles_of_closesCycle (h : ClosesCycle primary fast lightweight deep) :
    ∃ model, ¬ Settles (follow primary fast lightweight deep) model := by
  obtain ⟨p, f, d, hp, hf, hd, hne, hback⟩ := h
  refine ⟨d, not_settles_of_closed (S := fun m => m = p ∨ m = f ∨ m = d) ?_ ?_ (.inr (.inr rfl))⟩
  · intro m hm
    have hcases := follow_cases primary fast lightweight deep m
    grind
  · intro m hm
    have hcases := follow_cases primary fast lightweight deep m
    grind

/-- Chains end exactly if no cycle closes. -/
theorem follow_settles_iff :
    (∀ model, Settles (follow primary fast lightweight deep) model) ↔
      ¬ ClosesCycle primary fast lightweight deep := by
  constructor
  · intro h hcycle
    obtain ⟨model, hmodel⟩ := not_settles_of_closesCycle hcycle
    exact hmodel (h model)
  · intro h
    by_cases hredirected : ∃ p d, primary = some p ∧ deep = some d ∧ d ≠ p
    · obtain ⟨p, d, hp, hd, hne⟩ := hredirected
      exact follow_settles_of_redirected hp hd hne h
    · push Not at hredirected
      exact follow_settles_of_straight hredirected

end Cycles

/-- The chains of a policy end exactly if the names of the four roles close no cycle. -/
theorem chainsEnd_iff (primary backup : BrokerId) (cfg : OllamaConfig) :
    (PolicyConfig.fromConfig primary backup cfg).ChainsEnd ↔
      ¬ ClosesCycle (cfg.pick .primary) (cfg.pick .fast) (cfg.pick .lightweight)
        (cfg.pick .deep) := by
  rw [PolicyConfig.ChainsEnd, fallbackOf_fromConfig]
  exact follow_settles_iff

/-- Two roles share a model and there is no lightweight one. -/
def sharedModels : OllamaConfig :=
  ⟨[⟨"qwen2.5:14b", .primary, "q4_k_m"⟩, ⟨"deepseek-r1:14b", .fast, "q4_k_m"⟩,
    ⟨"deepseek-r1:14b", .deep, "q4_k_m"⟩]⟩

/-- The loader accepts it, and its two models fall back to each other. -/
theorem not_chainsEnd_sharedModels :
    ¬ ∀ (primary backup : BrokerId) (cfg : OllamaConfig), cfg.Accepted →
      (PolicyConfig.fromConfig primary backup cfg).ChainsEnd := by
  intro h
  have hends := h .zerodha .dhan sharedModels (by decide)
  rw [PolicyConfig.ChainsEnd, fallbackOf_fromConfig] at hends
  refine follow_settles_iff.mp hends ?_
  exact ⟨"qwen2.5:14b", "deepseek-r1:14b", "deepseek-r1:14b", rfl, rfl, rfl, by decide,
    .inr ⟨rfl, by decide⟩⟩

end Hedge.Supervisor
