import Hedge.Common.Run
import Mathlib.Algebra.Order.Ring.Rat
import Mathlib.Data.List.Dedup
import Mathlib.Logic.Function.Basic
import Mathlib.Tactic.NormNum

/-!
# The AI governance engine

Reference: `hedge_warm_ai/governance/{engine,ladder,config,state,warm_cache}.py`.

The engine takes the worst level of four metrics and acts when the level of a component changes: it
writes the weight of the component to the warm cache, and its shadow flag on the way into and out of
the critical level. A failed write is logged and dropped, and a level that stays is not written
again. `missed` marks the components whose last change of level lost a write; the others are in step
(`InStep`) with the cache.
-/

namespace Hedge.Ai

open Hedge.Common

/-! ## Model -/

/-- `GovernedComponent`. -/
inductive GovernedComponent where
  | news
  | regime
  | priority
  | prevDay
  | psychology
  | ranking
  | journal
deriving DecidableEq, Repr

/-- The wire name of a component. -/
def GovernedComponent.value : GovernedComponent → String
  | news => "news"
  | regime => "regime"
  | priority => "priority"
  | prevDay => "prev_day"
  | psychology => "psychology"
  | ranking => "ranking"
  | journal => "journal"

/-- `MetricKind`. -/
inductive MetricKind where
  | drift
  | confidenceStability
  | hallucinationIndicators
  | predictionQuality
deriving DecidableEq, Repr

/-- The kinds in the order of the enumeration. -/
def MetricKind.all : List MetricKind :=
  [drift, confidenceStability, hallucinationIndicators, predictionQuality]

/-- `wire_metric_for`. -/
def wireMetricFor : MetricKind → String
  | .drift => "drift"
  | .predictionQuality => "accuracy"
  | _ => "error_rate"

/-- `GovernanceLevel`. -/
inductive GovernanceLevel where
  | none
  | degraded
  | critical
deriving DecidableEq, Repr

/-- `_level_severity`. -/
def levelSeverity : GovernanceLevel → ℕ
  | .critical => 2
  | .degraded => 1
  | .none => 0

/-- `action_for`. -/
def actionFor (level previous : GovernanceLevel) : Option String :=
  match level with
  | .degraded => some "reduce_influence"
  | .critical => some "shadow_mode"
  | .none => if previous = .none then Option.none else some "rollback"

/-- `GovernanceMetricThresholds`, with what its constructor checks. -/
structure GovernanceMetricThresholds where
  degradation : ℚ
  critical : ℚ
  nonneg : 0 ≤ degradation
  lt : degradation < critical
  le_one : critical ≤ 1

/-- The level of one metric. -/
def GovernanceMetricThresholds.classify (pair : GovernanceMetricThresholds) (value : ℚ) :
    GovernanceLevel :=
  if pair.critical ≤ value then .critical
  else if pair.degradation ≤ value then .degraded
  else .none

/-- `GovernanceConfig`: what the evaluation reads, with what the constructor checks of it. -/
structure GovernanceConfig where
  components : List GovernedComponent
  thresholds : MetricKind → GovernanceMetricThresholds
  weights : GovernanceLevel → ℚ
  components_ne_nil : components ≠ []
  weights_none : weights .none = 1

/-- The keys of `_states`: each configured component once, where it first comes. -/
def GovernanceConfig.governed (config : GovernanceConfig) : List GovernedComponent :=
  config.components.reverse.dedup.reverse

/-- `(component_level, dominant_kind)`: the highest level of a metric and the first metric on it. -/
def GovernanceConfig.dominant (config : GovernanceConfig) (metrics : MetricKind → ℚ) :
    GovernanceLevel × MetricKind :=
  MetricKind.all.foldl
    (fun best kind =>
      let level := (config.thresholds kind).classify (metrics kind)
      if levelSeverity best.1 < levelSeverity level then (level, kind) else best)
    (.none, .drift)

/-- `LadderTransition`. -/
structure LadderTransition where
  previous : GovernanceLevel
  current : GovernanceLevel
  value : ℚ
  threshold : ℚ
  action : Option String

/-- `AiGovAction`. -/
structure AiGovAction where
  component : String
  action : String
  metric : String
  value : ℚ
  threshold : ℚ
  tsNs : ℕ

/-- `GovernanceWeightPayload`. -/
structure GovernanceWeightPayload where
  component : GovernedComponent
  weight : ℚ
  level : GovernanceLevel
  tsNs : ℕ

/-- `GovernanceSample`. -/
structure GovernanceSample where
  component : GovernedComponent
  metrics : MetricKind → ℚ
  dominantMetric : MetricKind
  severity : ℚ
  transition : Option LadderTransition
  emitted : Option AiGovAction

/-- Which of the cache writes of an evaluation would succeed. -/
structure CacheWrites where
  weight : Bool
  shadow : Bool
deriving DecidableEq

/-- The recomputed metrics of one component, and how the cache answers. -/
structure Evaluation where
  metrics : MetricKind → ℚ
  tsNs : ℕ
  writes : CacheWrites

/-- The ladders of the engine, and the warm cache: weights, and shadow flags with their times. -/
structure GovernanceState where
  level : GovernedComponent → GovernanceLevel
  weight : GovernedComponent → Option GovernanceWeightPayload
  shadow : GovernedComponent → Option ℕ

/-- A fresh engine and an empty cache. -/
def GovernanceState.init : GovernanceState := ⟨fun _ => .none, fun _ => none, fun _ => none⟩

namespace GovernanceState

/-- `_safe_set_weight`. -/
def safeSetWeight (s : GovernanceState) (ok : Bool) (payload : GovernanceWeightPayload) :
    GovernanceState :=
  if ok then { s with weight := Function.update s.weight payload.component (some payload) } else s

/-- `_safe_set_shadow`. -/
def safeSetShadow (s : GovernanceState) (ok : Bool) (component : GovernedComponent) (tsNs : ℕ) :
    GovernanceState :=
  if ok then { s with shadow := Function.update s.shadow component (some tsNs) } else s

/-- `_safe_clear_shadow`. -/
def safeClearShadow (s : GovernanceState) (ok : Bool) (component : GovernedComponent) :
    GovernanceState :=
  if ok then { s with shadow := Function.update s.shadow component none } else s

/-- The shadow part of a transition: set on the way in, cleared on the way out. -/
def toggleShadow (s : GovernanceState) (ok : Bool) (component : GovernedComponent)
    (level : GovernanceLevel) (tsNs : ℕ) : GovernanceState :=
  match level with
  | .critical => s.safeSetShadow ok component tsNs
  | .none => s.safeClearShadow ok component
  | .degraded => s

/-- `_evaluate_and_emit`. What is emitted goes to a publisher whose failures are dropped. -/
def evaluateAndEmit (config : GovernanceConfig) (s : GovernanceState)
    (component : GovernedComponent) (e : Evaluation) : GovernanceSample × GovernanceState :=
  let (level, kind) := config.dominant e.metrics
  let severity := e.metrics kind
  let previous := s.level component
  if level = previous then (⟨component, e.metrics, kind, severity, none, none⟩, s)
  else
    let pair := config.thresholds kind
    let threshold := if level = .critical then pair.critical else pair.degradation
    let action := actionFor level previous
    let s := { s with level := Function.update s.level component level }
    let s := s.safeSetWeight e.writes.weight ⟨component, config.weights level, level, e.tsNs⟩
    let s := s.toggleShadow e.writes.shadow component level e.tsNs
    (⟨component, e.metrics, kind, severity, some ⟨previous, level, severity, threshold, action⟩,
      action.map fun a => ⟨component.value, a, wireMetricFor kind, severity, threshold, e.tsNs⟩⟩, s)

end GovernanceState

/-- A call: an output of one component, or an outcome that some components predicted. -/
inductive GovernanceCall where
  | observe (component : GovernedComponent) (e : Evaluation)
  | observeOutcome (hits : GovernedComponent → Option Evaluation)

/-- The evaluations of a call. An outcome goes through the configured components in order, and
`observe` rejects a component that is not configured. -/
def GovernanceCall.evaluations (config : GovernanceConfig) :
    GovernanceCall → List (GovernedComponent × Evaluation)
  | .observe component e => if component ∈ config.governed then [(component, e)] else []
  | .observeOutcome hits =>
    config.governed.filterMap fun component => (hits component).map (component, ·)

/-! ## Runs -/

/-- The writes that a level needs: its weight, and the shadow flag unless it leaves that alone. -/
def CacheWrites.Cover (writes : CacheWrites) (level : GovernanceLevel) : Prop :=
  writes.weight = true ∧ (level = .degraded ∨ writes.shadow = true)

instance (writes : CacheWrites) (level : GovernanceLevel) : Decidable (writes.Cover level) :=
  inferInstanceAs (Decidable (_ ∧ _))

/-- Every write that the level of the metrics needs would succeed. -/
def Evaluation.Covered (config : GovernanceConfig) (e : Evaluation) : Prop :=
  e.writes.Cover (config.dominant e.metrics).1

instance (config : GovernanceConfig) (e : Evaluation) : Decidable (e.Covered config) :=
  inferInstanceAs (Decidable (CacheWrites.Cover _ _))

/-- The engine and its cache, with the components whose last change of level lost a write. -/
structure GovernanceRun where
  engine : GovernanceState
  missed : GovernedComponent → Bool

/-- One evaluation of a run. -/
def GovernanceRun.evaluate (config : GovernanceConfig) (r : GovernanceRun)
    (ce : GovernedComponent × Evaluation) : GovernanceSample × GovernanceRun :=
  let out := r.engine.evaluateAndEmit config ce.1 ce.2
  let missed :=
    if (config.dominant ce.2.metrics).1 = r.engine.level ce.1 then r.missed
    else Function.update r.missed ce.1 (!decide (ce.2.Covered config))
  (out.1, ⟨out.2, missed⟩)

/-- One call of a run, with the samples it returns. -/
def governanceStep (config : GovernanceConfig) (r : GovernanceRun) (call : GovernanceCall) :
    List GovernanceSample × GovernanceRun :=
  (runOutputs (GovernanceRun.evaluate config) r (call.evaluations config),
    runState (GovernanceRun.evaluate config) r (call.evaluations config))

/-- The state after the calls. -/
def governanceRun (config : GovernanceConfig) (calls : List GovernanceCall) : GovernanceRun :=
  runState (governanceStep config) ⟨.init, fun _ => false⟩ calls

/-- The weight that the cache holds for a component; one that was never written counts in full. -/
def GovernanceState.weightOf (s : GovernanceState) (component : GovernedComponent) : ℚ :=
  ((s.weight component).map GovernanceWeightPayload.weight).getD 1

/-- The cache says of the component what its level says. -/
structure InStep (config : GovernanceConfig) (s : GovernanceState) (component : GovernedComponent) :
    Prop where
  weight : s.weightOf component = config.weights (s.level component)
  shadowed : s.level component = .critical → s.shadow component ≠ none
  cleared : s.level component = .none → s.shadow component = none

/-! ## One evaluation -/

section Step

variable {config : GovernanceConfig} {s : GovernanceState} {component other : GovernedComponent}
  {e : Evaluation}

/-- The part of the state that belongs to one component. -/
def GovernanceState.entry (s : GovernanceState) (component : GovernedComponent) :
    GovernanceLevel × Option GovernanceWeightPayload × Option ℕ :=
  (s.level component, s.weight component, s.shadow component)

theorem InStep.congr {s' : GovernanceState} (h : InStep config s component)
    (hentry : s'.entry component = s.entry component) : InStep config s' component := by
  obtain ⟨hlevel, hrest⟩ := Prod.mk.injEq .. ▸ hentry
  obtain ⟨hweight, hshadow⟩ := Prod.mk.injEq .. ▸ hrest
  refine ⟨?_, ?_, ?_⟩
  · rw [GovernanceState.weightOf, hweight, hlevel]
    exact h.weight
  · rw [hlevel, hshadow]
    exact h.shadowed
  · rw [hlevel, hshadow]
    exact h.cleared

/-- A level that stays leaves everything as it is. -/
theorem evaluateAndEmit_of_eq (h : (config.dominant e.metrics).1 = s.level component) :
    (s.evaluateAndEmit config component e).2 = s := by
  rw [GovernanceState.evaluateAndEmit]
  exact congrArg Prod.snd (if_pos h)

/-- A change of level: the ladder first, then the weight, then the shadow flag. -/
theorem evaluateAndEmit_of_ne (h : (config.dominant e.metrics).1 ≠ s.level component) :
    (s.evaluateAndEmit config component e).2 =
      (({ s with level := Function.update s.level component (config.dominant e.metrics).1 } :
        GovernanceState).safeSetWeight e.writes.weight
          ⟨component, config.weights (config.dominant e.metrics).1,
            (config.dominant e.metrics).1, e.tsNs⟩).toggleShadow
        e.writes.shadow component (config.dominant e.metrics).1 e.tsNs := by
  rw [GovernanceState.evaluateAndEmit]
  exact congrArg Prod.snd (if_neg h)

/-- The other components keep their entries. -/
theorem entry_evaluateAndEmit_of_ne (hne : other ≠ component) :
    (s.evaluateAndEmit config component e).2.entry other = s.entry other := by
  by_cases h : (config.dominant e.metrics).1 = s.level component
  · rw [evaluateAndEmit_of_eq h]
  · rw [evaluateAndEmit_of_ne h]
    cases (config.dominant e.metrics).1 <;> cases e.writes.weight <;> cases e.writes.shadow <;>
      simp [GovernanceState.entry, GovernanceState.toggleShadow, GovernanceState.safeSetWeight,
        GovernanceState.safeSetShadow, GovernanceState.safeClearShadow, hne]

/-- The ladder moves to the level of the metrics, whatever is written. -/
theorem level_evaluateAndEmit :
    (s.evaluateAndEmit config component e).2.level component = (config.dominant e.metrics).1 := by
  by_cases h : (config.dominant e.metrics).1 = s.level component
  · rw [evaluateAndEmit_of_eq h, h]
  · rw [evaluateAndEmit_of_ne h]
    cases (config.dominant e.metrics).1 <;> cases e.writes.weight <;> cases e.writes.shadow <;>
      simp [GovernanceState.toggleShadow, GovernanceState.safeSetWeight,
        GovernanceState.safeSetShadow, GovernanceState.safeClearShadow]

/-- A change of level whose writes succeed leaves the component in step. -/
theorem inStep_of_changed (h : (config.dominant e.metrics).1 ≠ s.level component)
    (hcovered : e.Covered config) :
    InStep config (s.evaluateAndEmit config component e).2 component := by
  obtain ⟨hweight, hshadow⟩ := hcovered
  have hlevel : (s.evaluateAndEmit config component e).2.level component =
      (config.dominant e.metrics).1 := level_evaluateAndEmit
  rw [evaluateAndEmit_of_ne h, hweight] at hlevel ⊢
  refine ⟨?_, ?_, ?_⟩
  · rw [hlevel]
    cases (config.dominant e.metrics).1 <;> cases e.writes.shadow <;>
      simp [GovernanceState.weightOf, GovernanceState.toggleShadow, GovernanceState.safeSetWeight,
        GovernanceState.safeSetShadow, GovernanceState.safeClearShadow]
  · rw [hlevel]
    intro hcritical
    rw [hcritical] at hshadow ⊢
    rw [hshadow.resolve_left (by decide)]
    simp [GovernanceState.toggleShadow, GovernanceState.safeSetShadow]
  · rw [hlevel]
    intro hnone
    rw [hnone] at hshadow ⊢
    rw [hshadow.resolve_left (by decide)]
    simp [GovernanceState.toggleShadow, GovernanceState.safeClearShadow]

end Step

/-! ## Runs -/

section Runs

variable {config : GovernanceConfig} {r : GovernanceRun}

/-- Every component that missed nothing is in step. -/
def GovernanceRun.Settled (config : GovernanceConfig) (r : GovernanceRun) : Prop :=
  ∀ component, r.missed component = false → InStep config r.engine component

theorem settled_init (config : GovernanceConfig) :
    GovernanceRun.Settled config ⟨.init, fun _ => false⟩ := by
  intro component _
  exact ⟨config.weights_none.symm, nofun, fun _ => rfl⟩

theorem GovernanceRun.Settled.evaluate (h : r.Settled config)
    (ce : GovernedComponent × Evaluation) : (r.evaluate config ce).2.Settled config := by
  intro component hmissed
  rw [GovernanceRun.evaluate] at hmissed ⊢
  by_cases hlevel : (config.dominant ce.2.metrics).1 = r.engine.level ce.1
  · simp only [if_pos hlevel] at hmissed
    simp only [evaluateAndEmit_of_eq hlevel]
    exact h component hmissed
  · simp only [if_neg hlevel] at hmissed
    by_cases hc : component = ce.1
    · subst hc
      rw [Function.update_self, Bool.not_eq_false', decide_eq_true_eq] at hmissed
      exact inStep_of_changed hlevel hmissed
    · rw [Function.update_of_ne hc] at hmissed
      exact (h component hmissed).congr (entry_evaluateAndEmit_of_ne hc)

theorem settled_governanceRun (config : GovernanceConfig) (calls : List GovernanceCall) :
    (governanceRun config calls).Settled config := by
  refine runState_invariant_all (governanceStep config) (GovernanceRun.Settled config) ?_
    (settled_init config) calls
  intro r call hr
  exact runState_invariant_all (GovernanceRun.evaluate config) (GovernanceRun.Settled config)
    (fun _ ce h => h.evaluate ce) hr _

/-- Evaluations of other components leave a component as it is. -/
theorem runState_evaluate_of_notMem (config : GovernanceConfig) {component : GovernedComponent}
    {evs : List (GovernedComponent × Evaluation)} (h : ∀ ce ∈ evs, ce.1 ≠ component)
    (r : GovernanceRun) :
    (runState (GovernanceRun.evaluate config) r evs).engine.level component =
        r.engine.level component ∧
      (runState (GovernanceRun.evaluate config) r evs).missed component = r.missed component := by
  refine runState_invariant (GovernanceRun.evaluate config) (fun r' : GovernanceRun =>
    r'.engine.level component = r.engine.level component ∧
      r'.missed component = r.missed component) ?_ ⟨rfl, rfl⟩ h
  rintro r' ce hne ⟨hlevel, hmissed⟩
  rw [← hlevel, ← hmissed]
  refine ⟨congrArg Prod.fst (entry_evaluateAndEmit_of_ne hne.symm), ?_⟩
  show (if _ then _ else _ : GovernedComponent → Bool) component = _
  split_ifs
  · rfl
  · exact Function.update_of_ne hne.symm _ _

/-- A call evaluates each component once. -/
theorem nodup_evaluations (config : GovernanceConfig) (call : GovernanceCall) :
    ((call.evaluations config).map Prod.fst).Nodup := by
  cases call with
  | observe component e =>
    rw [GovernanceCall.evaluations]
    split_ifs
    · simp
    · exact List.nodup_nil
  | observeOutcome hits =>
    have hgoverned : config.governed.Nodup := List.nodup_reverse.mpr (List.nodup_dedup _)
    refine (hgoverned.sublist ?_)
    rw [GovernanceCall.evaluations]
    induction config.governed with
    | nil => exact .slnil
    | cons component components ih =>
      rw [List.filterMap_cons]
      cases hits component with
      | none => exact ih.cons _
      | some e => exact ih.cons_cons _

/-- What an evaluation of a call makes of its component stays to the end of the call. -/
theorem missed_governanceStep {call : GovernanceCall} {component : GovernedComponent}
    {e : Evaluation} (hmem : (component, e) ∈ call.evaluations config)
    (hcovered : e.Covered config)
    (hkept : (config.dominant e.metrics).1 = r.engine.level component →
      r.missed component = false) :
    (governanceStep config r call).2.missed component = false := by
  obtain ⟨before, after, hsplit⟩ := List.append_of_mem hmem
  have hnodup := nodup_evaluations config call
  rw [hsplit, List.map_append, List.map_cons, List.nodup_middle] at hnodup
  have hother : ∀ ce ∈ before ++ after, ce.1 ≠ component := by
    intro ce hce heq
    refine (List.nodup_cons.mp hnodup).1 ?_
    rw [← List.map_append]
    exact List.mem_map.mpr ⟨ce, hce, heq⟩
  obtain ⟨hlevel, hmissed⟩ := runState_evaluate_of_notMem config
    (fun ce hce => hother ce (List.mem_append_left _ hce)) r
  show (runState (GovernanceRun.evaluate config) r (call.evaluations config)).missed component = _
  rw [hsplit, runState_append, runState_cons, (runState_evaluate_of_notMem config
    (fun ce hce => hother ce (List.mem_append_right _ hce)) _).2]
  show (if _ then _ else _ : GovernedComponent → Bool) component = false
  rw [hlevel]
  split_ifs with hsame
  · rw [hmissed]
    exact hkept hsame
  · rw [Function.update_self, decide_eq_true hcovered]
    rfl

end Runs

/-- **A call whose writes succeed leaves its component in step with the cache**, if it changes the
level or the last change of level lost no write. -/
theorem in_step_after_call (config : GovernanceConfig) (calls : List GovernanceCall)
    (call : GovernanceCall) (component : GovernedComponent) (e : Evaluation)
    (hmem : (component, e) ∈ call.evaluations config) (hcovered : e.Covered config)
    (hkept : (config.dominant e.metrics).1 = (governanceRun config calls).engine.level component →
      (governanceRun config calls).missed component = false) :
    InStep config (governanceRun config (calls ++ [call])).engine component := by
  refine settled_governanceRun config (calls ++ [call]) component ?_
  rw [governanceRun, runState_append]
  exact missed_governanceStep hmem hcovered hkept

/-- The default thresholds. -/
def defaultThresholds : GovernanceMetricThresholds :=
  ⟨1 / 5, 7 / 20, by norm_num, by norm_num, by norm_num⟩

/-- The default configuration, for the news engine only. -/
def newsOnly : GovernanceConfig where
  components := [.news]
  thresholds _ := defaultThresholds
  weights
    | .none => 1
    | .degraded => 1 / 2
    | .critical => 0
  components_ne_nil := by simp
  weights_none := rfl

/-- An output of the news engine after which every metric is as bad as can be. -/
def badNews (tsNs : ℕ) (writes : CacheWrites) : GovernanceCall :=
  .observe .news ⟨fun _ => 1, tsNs, writes⟩

theorem in_step_after_bad_news :
    InStep newsOnly (governanceRun newsOnly
      ([badNews 1 ⟨true, true⟩] ++ [badNews 2 ⟨true, true⟩])).engine .news :=
  in_step_after_call newsOnly [badNews 1 ⟨true, true⟩] (badNews 2 ⟨true, true⟩) .news
    ⟨fun _ => 1, 2, ⟨true, true⟩⟩ (List.mem_singleton_self _) (by decide +kernel)
    (fun _ => by decide +kernel)

/-- After writes that were lost the cache stays behind, although it works again. -/
theorem critical_component_not_shadowed :
    ¬ ∀ (config : GovernanceConfig) (calls : List GovernanceCall) (call : GovernanceCall)
      (component : GovernedComponent) (e : Evaluation),
      (component, e) ∈ call.evaluations config → e.Covered config →
      InStep config (governanceRun config (calls ++ [call])).engine component := by
  intro h
  have hstep := h newsOnly [badNews 1 ⟨false, false⟩] (badNews 2 ⟨true, true⟩) .news
    ⟨fun _ => 1, 2, ⟨true, true⟩⟩ (List.mem_singleton_self _) (by decide +kernel)
  exact hstep.shadowed (by decide +kernel) (by decide +kernel)

end Hedge.Ai
