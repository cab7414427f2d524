import Hedge.Ai.Governance
import Hedge.Common.ExactFloat
import Hedge.Common.FifoMap
import Mathlib.Data.Finset.Card

/-!
# Outputs that wait for their outcome

Reference: `observe`, `observe_outcome`, `observe_position_update` and `_cache_correlation` in
`hedge_warm_ai/governance/engine.py`.

A component's outputs wait in a bounded cache for the close of their trade. A position update is
scored like a close, and takes the output out of the cache; the close that follows finds nothing.
-/

namespace Hedge.Ai

open Hedge.Common
open Hedge.Common.ExactFloat (fin)

/-! ## Model -/

/-- `ComponentOutput`: what is kept of it for an outcome. -/
structure ComponentOutput where
  component : GovernedComponent
  confidence : Option ExactFloat
  correlationId : String
deriving DecidableEq

/-- `TradeOutcome`. -/
structure TradeOutcome where
  correlationId : String
  pnlInr : ExactFloat
deriving DecidableEq

/-- `GovernanceConfig` with the window of the predictions. -/
structure PredictionConfig extends GovernanceConfig where
  predictionWindow : ℕ
  predictionWindow_pos : 0 < predictionWindow

/-- How many outputs of a component may wait. -/
def PredictionConfig.capacity (config : PredictionConfig) : ℕ := max (config.predictionWindow * 4) 16

/-- `_ComponentState`: the correlation cache and the prediction window. -/
structure CorrelationState where
  correlation : FifoMap String ComponentOutput
  predictionWindow : List ℚ

/-- `_score`: zero for a match, one for a miss. -/
def score (confidence pnlInr : ExactFloat) : ℚ :=
  if confidence.gt (fin (1 / 2)) = pnlInr.gt (fin 0) then 0 else 1

/-- `_score_outcome`. -/
def scoreOutcome (output : ComponentOutput) (outcome : TradeOutcome) : ℚ :=
  score (output.confidence.getD (fin (1 / 2))) outcome.pnlInr

/-- `RollingWindow.append`. -/
def rollingAppend (capacity : ℕ) (values : List ℚ) (value : ℚ) : List ℚ :=
  (values ++ [value]).drop ((values ++ [value]).length - capacity)

namespace CorrelationState

/-- A fresh component. -/
def init : CorrelationState := ⟨.empty, []⟩

/-- `_cache_correlation`, for an output with a correlation id. -/
def cacheCorrelation (config : PredictionConfig) (s : CorrelationState) (output : ComponentOutput) :
    CorrelationState :=
  if output.correlationId = "" then s
  else
    { s with
      correlation := (s.correlation.requeue output.correlationId output).shrink config.capacity }

/-- One component in `observe_outcome`: the indicator it appends, if it has an output cached. -/
def observeOutcome (config : PredictionConfig) (s : CorrelationState) (outcome : TradeOutcome) :
    Option ℚ × CorrelationState :=
  match s.correlation.map.lookup outcome.correlationId with
  | none => (none, s)
  | some cached =>
    let inaccuracy := scoreOutcome cached outcome
    (some inaccuracy,
      ⟨s.correlation.remove outcome.correlationId,
        rollingAppend config.predictionWindow s.predictionWindow inaccuracy⟩)

end CorrelationState

/-- The components of the engine. -/
abbrev CorrelationEngine := GovernedComponent → CorrelationState

/-- A call on the engine. -/
inductive CorrelationCall where
  | observe (output : ComponentOutput)
  | observeOutcome (outcome : TradeOutcome)
  | observePositionUpdate (correlationId : String) (unrealizedPnlInr : ExactFloat)
deriving DecidableEq

namespace CorrelationEngine

/-- `observe`, which rejects a component that is not configured. -/
def observe (config : PredictionConfig) (engine : CorrelationEngine) (output : ComponentOutput) :
    CorrelationEngine :=
  if output.component ∈ config.governed then
    Function.update engine output.component
      ((engine output.component).cacheCorrelation config output)
  else engine

/-- `observe_outcome`, with the indicators that are appended. -/
def observeOutcome (config : PredictionConfig) (engine : CorrelationEngine)
    (outcome : TradeOutcome) : List (GovernedComponent × ℚ) × CorrelationEngine :=
  (config.governed.filterMap fun c =>
      ((engine c).observeOutcome config outcome).1.map (c, ·),
    fun c => if c ∈ config.governed then ((engine c).observeOutcome config outcome).2 else engine c)

/-- `observe_position_update`: the unrealised profit stands for the outcome. -/
def observePositionUpdate (config : PredictionConfig) (engine : CorrelationEngine)
    (correlationId : String) (unrealizedPnlInr : ExactFloat) :
    List (GovernedComponent × ℚ) × CorrelationEngine :=
  engine.observeOutcome config ⟨correlationId, unrealizedPnlInr⟩

/-- One call: the indicators it appends, and the next engine. -/
def step (config : PredictionConfig) (engine : CorrelationEngine) :
    CorrelationCall → List (GovernedComponent × ℚ) × CorrelationEngine
  | .observe output => ([], engine.observe config output)
  | .observeOutcome outcome => engine.observeOutcome config outcome
  | .observePositionUpdate correlationId unrealizedPnlInr =>
    engine.observePositionUpdate config correlationId unrealizedPnlInr

/-- The engine after some calls. -/
def after (config : PredictionConfig) (calls : List CorrelationCall) : CorrelationEngine :=
  runState (step config) (fun _ => .init) calls

end CorrelationEngine

/-! ## What has to hold -/

/-- The indicators of one component. -/
def indicatorsOf (c : GovernedComponent) (samples : List (GovernedComponent × ℚ)) : List ℚ :=
  (samples.filter (·.1 = c)).map (·.2)

/-- The ids that a component has an output for, and no close since. -/
def pending (c : GovernedComponent) (calls : List CorrelationCall) : Finset String :=
  calls.foldl (fun ids call => match call with
    | .observe output =>
      if output.component = c ∧ output.correlationId ≠ "" then insert output.correlationId ids
      else ids
    | .observeOutcome outcome => ids.erase outcome.correlationId
    | .observePositionUpdate _ _ => ids) ∅

/-- At no time are more ids pending than the cache has room for. -/
def PendingBounded (config : PredictionConfig) (c : GovernedComponent)
    (calls : List CorrelationCall) : Prop :=
  ∀ pre, pre <+: calls → (pending c pre).card ≤ config.capacity

/-- The output is the last of its component under its id, and no close has come since. -/
structure Awaited (config : PredictionConfig) (output : ComponentOutput)
    (since : List CorrelationCall) : Prop where
  governed : output.component ∈ config.governed
  named : output.correlationId ≠ ""
  last : ∀ output', .observe output' ∈ since → output'.component = output.component →
    output'.correlationId ≠ output.correlationId
  unclosed : ∀ outcome, .observeOutcome outcome ∈ since →
    outcome.correlationId ≠ output.correlationId

/-- The close after some calls appends exactly one indicator for a component, by its output. -/
def ScoredByClose (config : PredictionConfig) (calls : List CorrelationCall)
    (output : ComponentOutput) (pnlInr : ExactFloat) : Prop :=
  indicatorsOf output.component ((CorrelationEngine.after config calls).step config
      (.observeOutcome ⟨output.correlationId, pnlInr⟩)).1
    = [scoreOutcome output ⟨output.correlationId, pnlInr⟩]

/-! ## One component -/

section Component

variable {config : PredictionConfig} {s : CorrelationState}

theorem queued_cacheCorrelation (h : s.correlation.Queued) (output : ComponentOutput) :
    (s.cacheCorrelation config output).correlation.Queued := by
  rw [CorrelationState.cacheCorrelation]
  split_ifs
  · exact h
  · exact (h.requeue _ _).shrink _

theorem queued_observeOutcome (h : s.correlation.Queued) (outcome : TradeOutcome) :
    (s.observeOutcome config outcome).2.correlation.Queued := by
  rw [CorrelationState.observeOutcome]
  split
  · exact h
  · exact h.remove _

/-- Only a named output is new in the cache. -/
theorem mem_cacheCorrelation {output : ComponentOutput} {id : String}
    (h : id ∈ (s.cacheCorrelation config output).correlation.map) :
    (id = output.correlationId ∧ output.correlationId ≠ "") ∨ id ∈ s.correlation.map := by
  rw [CorrelationState.cacheCorrelation] at h
  split_ifs at h with hnamed
  · exact .inr h
  · have hid := (AList.mem_insert s.correlation.map).mp (FifoMap.mem_of_mem_shrink h)
    exact hid.imp_left fun heq => ⟨heq, hnamed⟩

/-- An outcome takes the output of its id out of the cache. -/
theorem lookup_observeOutcome (outcome : TradeOutcome) (id : String) :
    (s.observeOutcome config outcome).2.correlation.map.lookup id
      = if id = outcome.correlationId then none else s.correlation.map.lookup id := by
  rw [CorrelationState.observeOutcome]
  split_ifs with hid
  · subst hid
    split
    next hnone => exact hnone
    next => exact FifoMap.lookup_remove_self _
  · split
    next => rfl
    next => exact FifoMap.lookup_remove_ne hid

/-- The window takes the indicator that is appended. -/
theorem predictionWindow_observeOutcome (outcome : TradeOutcome) :
    (s.observeOutcome config outcome).2.predictionWindow
      = (s.observeOutcome config outcome).1.toList.foldl (rollingAppend config.predictionWindow)
        s.predictionWindow := by
  rw [CorrelationState.observeOutcome]
  split <;> rfl

end Component

/-! ## The components of a call -/

theorem indicatorsOf_filterMap (f : GovernedComponent → Option ℚ) {cs : List GovernedComponent}
    (hnodup : cs.Nodup) {c : GovernedComponent} :
    indicatorsOf c (cs.filterMap fun c' => (f c').map (c', ·))
      = if c ∈ cs then (f c).toList else [] := by
  induction cs with
  | nil => rfl
  | cons c' cs ih =>
    obtain ⟨hfresh, hnodup⟩ := List.nodup_cons.mp hnodup
    have hcons : indicatorsOf c ((c' :: cs).filterMap fun c' => (f c').map (c', ·))
        = (if c' = c then (f c').toList else [])
          ++ indicatorsOf c (cs.filterMap fun c' => (f c').map (c', ·)) := by
      rw [List.filterMap_cons, indicatorsOf]
      cases hf : f c' with
      | none => simp [indicatorsOf]
      | some x => by_cases hc : c' = c <;> simp [hc, indicatorsOf]
    rw [hcons, ih hnodup]
    by_cases hc : c' = c
    · subst hc
      simp [hfresh]
    · simp [hc, Ne.symm hc]

section Engine

open CorrelationEngine

variable {config : PredictionConfig} {engine : CorrelationEngine} {c : GovernedComponent}

theorem nodup_governed (config : GovernanceConfig) : config.governed.Nodup :=
  List.nodup_reverse.mpr (List.nodup_dedup _)

theorem indicatorsOf_observeOutcome (hc : c ∈ config.governed) (outcome : TradeOutcome) :
    indicatorsOf c (engine.observeOutcome config outcome).1
      = ((engine c).observeOutcome config outcome).1.toList := by
  rw [CorrelationEngine.observeOutcome, indicatorsOf_filterMap _ (nodup_governed _), if_pos hc]

theorem observeOutcome_apply (hc : c ∈ config.governed) (outcome : TradeOutcome) :
    (engine.observeOutcome config outcome).2 c = ((engine c).observeOutcome config outcome).2 :=
  if_pos hc

theorem observe_apply (hc : c ∈ config.governed) (output : ComponentOutput) :
    engine.observe config output c
      = if output.component = c then (engine c).cacheCorrelation config output else engine c := by
  rw [CorrelationEngine.observe]
  by_cases hcomponent : output.component = c
  · subst hcomponent
    rw [if_pos hc, if_pos rfl, Function.update_self]
  · rw [if_neg hcomponent]
    split_ifs
    · exact Function.update_of_ne (Ne.symm hcomponent) _ _
    · rfl

theorem after_concat (config : PredictionConfig) (calls : List CorrelationCall)
    (call : CorrelationCall) :
    after config (calls ++ [call]) = (step config (after config calls) call).2 := by
  rw [after, runState_append]
  rfl

theorem pending_concat (c : GovernedComponent) (calls : List CorrelationCall)
    (call : CorrelationCall) :
    pending c (calls ++ [call]) = match call with
      | .observe output =>
        if output.component = c ∧ output.correlationId ≠ "" then
          insert output.correlationId (pending c calls)
        else pending c calls
      | .observeOutcome outcome => (pending c calls).erase outcome.correlationId
      | .observePositionUpdate _ _ => pending c calls := by
  rw [pending, List.foldl_append]
  rfl

/-! ## Runs -/

/-- Map and order hold the same ids, each once, after every run. -/
theorem queued_after (config : PredictionConfig) (calls : List CorrelationCall)
    (c : GovernedComponent) : (after config calls c).correlation.Queued := by
  refine runState_invariant_all (step config)
    (fun engine : CorrelationEngine => ∀ c, (engine c).correlation.Queued) (fun engine call h => ?_)
    (fun _ => FifoMap.queued_empty) calls c
  have houtcome : ∀ outcome c, ((engine.observeOutcome config outcome).2 c).correlation.Queued := by
    intro outcome c
    rw [CorrelationEngine.observeOutcome]
    dsimp only
    split_ifs
    · exact queued_observeOutcome (h c) outcome
    · exact h c
  cases call with
  | observe output =>
    intro c
    change (engine.observe config output c).correlation.Queued
    rw [CorrelationEngine.observe]
    split_ifs
    · by_cases hc : c = output.component
      · subst hc
        rw [Function.update_self]
        exact queued_cacheCorrelation (h _) output
      · rw [Function.update_of_ne hc]
        exact h c
    · exact h c
  | observeOutcome outcome => exact houtcome outcome
  | observePositionUpdate correlationId unrealizedPnlInr => exact houtcome _

/-- Only pending outputs are cached. -/
theorem mem_pending_of_cached (hc : c ∈ config.governed) (calls : List CorrelationCall) :
    ∀ id ∈ (after config calls c).correlation.map, id ∈ pending c calls := by
  induction calls using List.reverseRecOn with
  | nil => exact fun id hid => absurd hid (AList.notMem_empty id)
  | append_singleton calls call ih =>
    intro id hid
    rw [after_concat] at hid
    rw [pending_concat]
    have houtcome : ∀ outcome,
        id ∈ (((after config calls).observeOutcome config outcome).2 c).correlation.map →
          id ≠ outcome.correlationId ∧ id ∈ pending c calls := by
      intro outcome hid
      rw [observeOutcome_apply hc, ← AList.lookup_isSome, lookup_observeOutcome] at hid
      split_ifs at hid with hne
      · cases hid
      · exact ⟨hne, ih id (AList.lookup_isSome.mp hid)⟩
    cases call with
    | observe output =>
      change id ∈ ((after config calls).observe config output c).correlation.map at hid
      rw [observe_apply hc] at hid
      dsimp only
      split_ifs at hid ⊢ with hboth hcomponent hcomponent
      · rcases mem_cacheCorrelation hid with ⟨rfl, -⟩ | hold
        · exact Finset.mem_insert_self _ _
        · exact Finset.mem_insert_of_mem (ih id hold)
      · exact absurd hboth.1 hcomponent
      · rcases mem_cacheCorrelation hid with ⟨-, hnamed⟩ | hold
        · exact absurd ⟨hcomponent, hnamed⟩ hboth
        · exact ih id hold
      · exact ih id hid
    | observeOutcome outcome =>
      obtain ⟨hne, hmem⟩ := houtcome outcome hid
      exact Finset.mem_erase.mpr ⟨hne, hmem⟩
    | observePositionUpdate correlationId unrealizedPnlInr => exact (houtcome _ hid).2

/-- As long as the pending ids have room, an output is cached without an eviction. -/
theorem cacheCorrelation_of_bounded (hc : c ∈ config.governed) {calls : List CorrelationCall}
    {output : ComponentOutput} (hcomponent : output.component = c)
    (hnamed : output.correlationId ≠ "")
    (hroom : (pending c (calls ++ [.observe output])).card ≤ config.capacity) :
    ((after config calls c).cacheCorrelation config output).correlation
      = (after config calls c).correlation.requeue output.correlationId output := by
  have hqueued := (queued_after config calls c).requeue output.correlationId output
  have hsub : ((after config calls c).correlation.requeue output.correlationId output).order.toFinset
      ⊆ pending c (calls ++ [.observe output]) := by
    intro id hid
    have hmem := (hqueued.mem_iff id).mp (List.mem_toFinset.mp hid)
    rw [pending_concat]
    dsimp only
    rw [if_pos ⟨hcomponent, hnamed⟩]
    rcases (AList.mem_insert _).mp hmem with rfl | hold
    · exact Finset.mem_insert_self _ _
    · exact Finset.mem_insert_of_mem (mem_pending_of_cached hc calls id hold)
  have hlength := Finset.card_le_card hsub
  rw [List.toFinset_card_of_nodup hqueued.nodup] at hlength
  rw [CorrelationState.cacheCorrelation, if_neg hnamed]
  exact FifoMap.shrink_of_le (hlength.trans hroom)

/-- A call about other ids leaves an entry in the cache. -/
theorem lookup_step_of_other (hc : c ∈ config.governed) {calls : List CorrelationCall}
    {call : CorrelationCall} {id : String}
    (hroom : (pending c (calls ++ [call])).card ≤ config.capacity)
    (hobserve : ∀ output, call = .observe output → output.component = c → output.correlationId ≠ id)
    (hclose : ∀ outcome, call = .observeOutcome outcome → outcome.correlationId ≠ id)
    (hupdate : ∀ pnlInr, call ≠ .observePositionUpdate id pnlInr) :
    (after config (calls ++ [call]) c).correlation.map.lookup id
      = (after config calls c).correlation.map.lookup id := by
  have houtcome : ∀ outcome, outcome.correlationId ≠ id →
      (((after config calls).observeOutcome config outcome).2 c).correlation.map.lookup id
        = (after config calls c).correlation.map.lookup id := by
    intro outcome hne
    rw [observeOutcome_apply hc, lookup_observeOutcome, if_neg (Ne.symm hne)]
  rw [after_concat]
  cases call with
  | observe output =>
    change (((after config calls).observe config output c).correlation.map.lookup id) = _
    rw [observe_apply hc]
    split_ifs with hcomponent
    · by_cases hnamed : output.correlationId = ""
      · rw [CorrelationState.cacheCorrelation, if_pos hnamed]
      · rw [cacheCorrelation_of_bounded hc hcomponent hnamed hroom]
        exact FifoMap.lookup_requeue_ne (Ne.symm (hobserve output rfl hcomponent)) _
    · rfl
  | observeOutcome outcome => exact houtcome outcome (hclose outcome rfl)
  | observePositionUpdate correlationId unrealizedPnlInr =>
    refine houtcome ⟨correlationId, unrealizedPnlInr⟩ ?_
    rintro rfl
    exact hupdate unrealizedPnlInr rfl

/-- What becomes of an output in the cache: it is there until a position update comes. -/
theorem lookup_since {pre since : List CorrelationCall} {output : ComponentOutput}
    (hawaited : Awaited config output since)
    (hbounded : PendingBounded config output.component (pre ++ .observe output :: since)) :
    ((after config (pre ++ .observe output :: since) output.component).correlation.map.lookup
        output.correlationId = some output ∧
      ∀ pnlInr, .observePositionUpdate output.correlationId pnlInr ∉ since) ∨
    ((after config (pre ++ .observe output :: since) output.component).correlation.map.lookup
        output.correlationId = none ∧
      ∃ pnlInr, .observePositionUpdate output.correlationId pnlInr ∈ since) := by
  obtain ⟨hc, hnamed, hlast, hunclosed⟩ := hawaited
  induction since using List.reverseRecOn with
  | nil =>
    refine .inl ⟨?_, fun _ => List.not_mem_nil⟩
    rw [after_concat]
    change (((after config pre).observe config output output.component).correlation.map.lookup _) = _
    rw [observe_apply hc, if_pos rfl, cacheCorrelation_of_bounded hc rfl hnamed
      (hbounded _ (List.prefix_refl _)), FifoMap.lookup_requeue_self]
  | append_singleton since call ih =>
    have hsplit : pre ++ .observe output :: (since ++ [call])
        = (pre ++ .observe output :: since) ++ [call] := by
      rw [List.append_assoc, List.cons_append]
    rw [hsplit] at hbounded ⊢
    have h := ih (fun p hp => hbounded p (hp.trans (List.prefix_append _ _)))
      (fun output' hmem => hlast output' (List.mem_append_left _ hmem))
      fun outcome hmem => hunclosed outcome (List.mem_append_left _ hmem)
    by_cases hupdate : ∃ pnlInr, call = .observePositionUpdate output.correlationId pnlInr
    · obtain ⟨pnlInr, rfl⟩ := hupdate
      refine .inr ⟨?_, pnlInr, by simp⟩
      rw [after_concat]
      change ((((after config _).observeOutcome config ⟨output.correlationId, pnlInr⟩).2
        output.component).correlation.map.lookup output.correlationId) = none
      rw [observeOutcome_apply hc, lookup_observeOutcome, if_pos rfl]
    · have hnone : ∀ pnlInr, call ≠ .observePositionUpdate output.correlationId pnlInr :=
        fun pnlInr hcall => hupdate ⟨pnlInr, hcall⟩
      rw [lookup_step_of_other hc (hbounded _ (List.prefix_refl _))
        (fun output' hcall => hlast output' (by simp [hcall]))
        (fun outcome hcall => hunclosed outcome (by simp [hcall])) hnone]
      refine h.imp (And.imp_right fun hold pnlInr hmem => ?_)
        (And.imp_right fun ⟨pnlInr, hmem⟩ => ⟨pnlInr, List.mem_append_left _ hmem⟩)
      rcases List.mem_append.mp hmem with hmem | hmem
      · exact hold pnlInr hmem
      · exact hnone pnlInr (List.mem_singleton.mp hmem).symm

/-- The indicator that a close appends is the one of the output that is cached. -/
theorem scoredByClose_iff {calls : List CorrelationCall} {output : ComponentOutput}
    (hc : output.component ∈ config.governed) (pnlInr : ExactFloat) :
    ScoredByClose config calls output pnlInr ↔
      ((after config calls output.component).correlation.map.lookup output.correlationId).map
        (scoreOutcome · ⟨output.correlationId, pnlInr⟩)
          = some (scoreOutcome output ⟨output.correlationId, pnlInr⟩) := by
  have hstep : (step config (after config calls)
      (.observeOutcome ⟨output.correlationId, pnlInr⟩)).1
        = ((after config calls).observeOutcome config ⟨output.correlationId, pnlInr⟩).1 := rfl
  rw [ScoredByClose, hstep, indicatorsOf_observeOutcome hc, CorrelationState.observeOutcome]
  split
  next hlook => simp [hlook]
  next cached hlook => simp [hlook]

/-- In every run map and order hold the same ids, each once, and the window takes what is appended;
a close is scored exactly if no position update has come since the last output of its id. -/
theorem closes_scored_iff (config : PredictionConfig) (calls : List CorrelationCall) :
    (∀ c, (after config calls c).correlation.Queued) ∧
    (∀ c ∈ config.governed, ∀ outcome,
      ((step config (after config calls) (.observeOutcome outcome)).2 c).predictionWindow
        = (indicatorsOf c (step config (after config calls) (.observeOutcome outcome)).1).foldl
          (rollingAppend config.predictionWindow) (after config calls c).predictionWindow) ∧
    ∀ pre output since pnlInr, calls = pre ++ .observe output :: since →
      PendingBounded config output.component calls → Awaited config output since →
        (ScoredByClose config calls output pnlInr ↔
          ∀ pnlInr', .observePositionUpdate output.correlationId pnlInr' ∉ since) := by
  refine ⟨queued_after config calls, ?_, ?_⟩
  · intro c hc outcome
    have hstep : step config (after config calls) (.observeOutcome outcome)
        = (after config calls).observeOutcome config outcome := rfl
    rw [hstep, observeOutcome_apply hc, indicatorsOf_observeOutcome hc]
    exact predictionWindow_observeOutcome outcome
  · rintro pre output since pnlInr rfl hbounded hawaited
    rw [scoredByClose_iff hawaited.governed]
    rcases lookup_since hawaited hbounded with ⟨hlook, hnone⟩ | ⟨hlook, pnlInr', hmem⟩
    · rw [hlook]
      exact iff_of_true rfl hnone
    · rw [hlook]
      exact iff_of_false nofun fun hnone => hnone pnlInr' hmem

/-- The default configuration, for the news engine only. -/
def newsPredictions : PredictionConfig where
  toGovernanceConfig := newsOnly
  predictionWindow := 32
  predictionWindow_pos := by decide

/-- A confident output on a trade. -/
def confidentNews : ComponentOutput := ⟨.news, some (fin (9 / 10)), "trade"⟩

theorem governed_newsPredictions : confidentNews.component ∈ newsPredictions.governed := by
  decide

/-- While the position is open at a profit it is marked once. -/
def markedOnce : List CorrelationCall :=
  [.observe confidentNews, .observePositionUpdate "trade" (fin 5)]

theorem awaited_confidentNews {since : List CorrelationCall}
    (hsince : ∀ call ∈ since, ∃ pnlInr, call = .observePositionUpdate "trade" pnlInr) :
    Awaited newsPredictions confidentNews since where
  governed := governed_newsPredictions
  named := by decide
  last output' hmem := by
    obtain ⟨_, hcall⟩ := hsince _ hmem
    cases hcall
  unclosed outcome hmem := by
    obtain ⟨_, hcall⟩ := hsince _ hmem
    cases hcall

/-- One pending id fits into the cache of the default configuration. -/
theorem pendingBounded_news {calls : List CorrelationCall}
    (hcalls : ∀ call ∈ calls, call = .observe confidentNews ∨
      ∃ pnlInr, call = .observePositionUpdate "trade" pnlInr) :
    PendingBounded newsPredictions .news calls := by
  intro pre hpre
  have hsub : pending .news pre ⊆ {"trade"} := by
    have hpreCalls := fun call (hmem : call ∈ pre) => hcalls call (hpre.subset hmem)
    clear hcalls hpre
    induction pre using List.reverseRecOn with
    | nil => exact Finset.empty_subset _
    | append_singleton pre call ih =>
      have hold := ih fun call hmem => hpreCalls call (List.mem_append_left _ hmem)
      rw [pending_concat]
      rcases hpreCalls call (by simp) with rfl | ⟨_, rfl⟩
      · exact Finset.insert_subset_iff.mpr ⟨Finset.mem_singleton_self _, hold⟩
      · exact hold
  calc (pending .news pre).card ≤ ({"trade"} : Finset String).card := Finset.card_le_card hsub
    _ ≤ newsPredictions.capacity := by decide

theorem closes_scored_iff_markedOnce :
    ScoredByClose newsPredictions [.observe confidentNews] confidentNews (fin (-3)) ∧
    ¬ ScoredByClose newsPredictions markedOnce confidentNews (fin (-3)) :=
  ⟨((closes_scored_iff newsPredictions [.observe confidentNews]).2.2 [] confidentNews [] (fin (-3))
      rfl (pendingBounded_news (by simp)) (awaited_confidentNews (by simp))).mpr (by simp),
    fun h => ((closes_scored_iff newsPredictions markedOnce).2.2 [] confidentNews
      [.observePositionUpdate "trade" (fin 5)] (fin (-3)) rfl
      (pendingBounded_news (by simp [markedOnce])) (awaited_confidentNews (by simp))).mp h (fin 5)
        (List.mem_singleton_self _)⟩

/-- The close at a loss leaves no mark: the update has scored the profit of the open position. -/
theorem marked_close_not_scored :
    ¬ ∀ (config : PredictionConfig) (pre since : List CorrelationCall) (output : ComponentOutput)
      (pnlInr : ExactFloat),
      PendingBounded config output.component (pre ++ .observe output :: since) →
        Awaited config output since →
          ScoredByClose config (pre ++ .observe output :: since) output pnlInr := by
  intro h
  have hscored := h newsPredictions [] [.observePositionUpdate "trade" (fin 5)] confidentNews
    (fin (-3)) (pendingBounded_news (by simp)) (awaited_confidentNews (by simp))
  rw [scoredByClose_iff governed_newsPredictions] at hscored
  have hlook : (after newsPredictions
      ([] ++ [.observe confidentNews, .observePositionUpdate "trade" (fin 5)])
        confidentNews.component).correlation.map.lookup confidentNews.correlationId = none := by
    decide
  rw [hlook] at hscored
  cases hscored

end Engine

end Hedge.Ai
