import Hedge.Common.Run
import Mathlib.Order.Lattice.Nat

/-!
# Interventions of the psychology engine

Reference: `hedge_warm_ai/psychology/{ladder,engine,publisher}.py`.

The ladder moves to the rung of each score, and the engine publishes an intervention when the rung
changes. The publisher drops what the bus does not take, and a rung that stays is not published
again. `lost` is set when the intervention of the last move was dropped; otherwise the last
intervention delivered is the one of the ladder (`Announced`).
-/

namespace Hedge.Ai.Psychology

open Hedge.Common

/-! ## Model -/

/-- `InterventionAction`. -/
inductive InterventionAction where
  | none
  | warning
  | cooldown
  | sizeReduction
  | killSwitch
deriving DecidableEq, Repr

/-- `PUBLISHABLE_ACTIONS`. -/
def publishableActions : List InterventionAction :=
  [.warning, .cooldown, .sizeReduction, .killSwitch]

/-- The thresholds of `ThresholdLadder`, with what its constructor checks. -/
structure ThresholdLadder (α : Type*) [LinearOrder α] where
  warning : α
  cooldown : α
  suppression : α
  critical : α
  critical_lt : critical < suppression
  suppression_lt : suppression < cooldown
  cooldown_lt : cooldown < warning

/-- `LadderTransition`. -/
structure LadderTransition (α : Type*) where
  previous : InterventionAction
  current : InterventionAction
  score : α

/-- `PsychStability`: the score and its time. -/
structure PsychStability (α : Type*) where
  score : α
  tsNs : ℕ

/-- `PsychIntervention`. -/
structure PsychIntervention (α : Type*) where
  action : InterventionAction
  triggerScore : α
  tsNs : ℕ

/-- The ladder's action, and what the bus delivered. -/
structure PsychState (α : Type*) where
  currentAction : InterventionAction
  stability : List (PsychStability α)
  interventions : List (PsychIntervention α)

/-- A fresh engine. -/
def PsychState.init (α : Type*) : PsychState α := ⟨.none, [], []⟩

variable {α : Type*} [LinearOrder α]

/-- `action_for`. -/
def ThresholdLadder.actionFor (ladder : ThresholdLadder α) (score : α) : InterventionAction :=
  if ladder.warning ≤ score then .none
  else if ladder.cooldown ≤ score then .warning
  else if ladder.suppression ≤ score then .cooldown
  else if ladder.critical ≤ score then .sizeReduction
  else .killSwitch

/-- `transition`: nothing when the rung stays. -/
def ThresholdLadder.transition (ladder : ThresholdLadder α) (s : PsychState α) (score : α) :
    Option (LadderTransition α) × PsychState α :=
  let newAction := ladder.actionFor score
  if newAction = s.currentAction then (none, s)
  else (some ⟨s.currentAction, newAction, score⟩, { s with currentAction := newAction })

/-- `publish_stability`: a failure is dropped. -/
def PsychState.publishStability (s : PsychState α) (ok : Bool) (event : PsychStability α) :
    PsychState α :=
  if ok then { s with stability := s.stability ++ [event] } else s

/-- `publish_intervention`: a failure is dropped. -/
def PsychState.publishIntervention (s : PsychState α) (ok : Bool) (event : PsychIntervention α) :
    PsychState α :=
  if ok then { s with interventions := s.interventions ++ [event] } else s

/-- The edge-triggered part of `observe` and `recompute`. -/
def ThresholdLadder.intervene (ladder : ThresholdLadder α) (s : PsychState α) (score : α)
    (tsNs : ℕ) (ok : Bool) : Option (PsychIntervention α) × PsychState α :=
  match ladder.transition s score with
  | (none, s) => (none, s)
  | (some t, s) =>
    if t.current ∈ publishableActions then
      let event := ⟨t.current, score, tsNs⟩
      (some event, s.publishIntervention ok event)
    else (none, s)

/-- A call, with the score it computes and how the bus answers its publications. -/
inductive PsychCall (α : Type*) where
  | observe (score : α) (tsNs : ℕ) (stabilityOk interventionOk : Bool)
  | recompute (score : α) (tsNs : ℕ) (interventionOk : Bool)

namespace PsychCall

/-- The score of the call. -/
def score : PsychCall α → α
  | observe score _ _ _ => score
  | recompute score _ _ => score

/-- Whether an intervention of the call would be delivered. -/
def interventionOk : PsychCall α → Bool
  | observe _ _ _ ok => ok
  | recompute _ _ ok => ok

/-- The bus takes whatever the call publishes. -/
def BusWorks : PsychCall α → Prop
  | observe _ _ stabilityOk interventionOk => stabilityOk = true ∧ interventionOk = true
  | recompute _ _ interventionOk => interventionOk = true

end PsychCall

omit [LinearOrder α] in
theorem PsychCall.BusWorks.interventionOk {call : PsychCall α} (h : call.BusWorks) :
    call.interventionOk = true := by
  cases call with
  | observe => exact h.2
  | recompute => exact h

/-- `observe` and `recompute`. The output is the intervention they hand to the publisher. -/
def psychStep (ladder : ThresholdLadder α) (s : PsychState α) :
    PsychCall α → Option (PsychIntervention α) × PsychState α
  | .observe score tsNs stabilityOk interventionOk =>
    ladder.intervene (s.publishStability stabilityOk ⟨score, tsNs⟩) score tsNs interventionOk
  | .recompute score tsNs interventionOk => ladder.intervene s score tsNs interventionOk

/-! ## Runs -/

/-- The engine and the bus, and whether the intervention of the last move was dropped. -/
structure PsychRun (α : Type*) where
  engine : PsychState α
  lost : Bool

/-- One call of a run. -/
def runStep (ladder : ThresholdLadder α) (r : PsychRun α) (call : PsychCall α) :
    Option (PsychIntervention α) × PsychRun α :=
  let out := psychStep ladder r.engine call
  let lost :=
    if ladder.actionFor call.score = r.engine.currentAction then r.lost
    else ladder.actionFor call.score ∈ publishableActions && !call.interventionOk
  (out.1, ⟨out.2, lost⟩)

/-- The state after the calls. -/
def psychRun (ladder : ThresholdLadder α) (calls : List (PsychCall α)) : PsychRun α :=
  runState (runStep ladder) ⟨.init α, false⟩ calls

/-- An action of the ladder is the one of the last intervention that was delivered. -/
def Announced (s : PsychState α) : Prop :=
  s.currentAction ≠ .none → s.interventions.getLast?.map PsychIntervention.action
    = some s.currentAction

theorem mem_publishableActions_iff (action : InterventionAction) :
    action ∈ publishableActions ↔ action ≠ .none := by
  cases action <;> decide

section Step

variable {ladder : ThresholdLadder α} {s : PsychState α} {score : α} {tsNs : ℕ} {ok : Bool}

/-- A rung that stays changes nothing. -/
theorem intervene_of_eq (h : ladder.actionFor score = s.currentAction) :
    (ladder.intervene s score tsNs ok).2 = s := by
  rw [ThresholdLadder.intervene, ThresholdLadder.transition, if_pos h]

/-- A move of the ladder, and what the bus delivers of it. -/
theorem intervene_of_ne (tsNs : ℕ) (ok : Bool) (h : ladder.actionFor score ≠ s.currentAction) :
    (ladder.intervene s score tsNs ok).2.currentAction = ladder.actionFor score ∧
      (ladder.intervene s score tsNs ok).2.interventions =
        if ladder.actionFor score ∈ publishableActions ∧ ok = true then
          s.interventions ++ [⟨ladder.actionFor score, score, tsNs⟩]
        else s.interventions := by
  rw [ThresholdLadder.intervene, ThresholdLadder.transition, if_neg h]
  by_cases hpub : ladder.actionFor score ∈ publishableActions
  · simp only [hpub, true_and]
    cases ok
    · exact ⟨rfl, rfl⟩
    · exact ⟨rfl, rfl⟩
  · simp [hpub]

/-- A move is announced if it is to no rung, or if the bus takes it. -/
theorem announced_of_moved (h : ladder.actionFor score ≠ s.currentAction)
    (hok : ladder.actionFor score ∈ publishableActions → ok = true) :
    Announced (ladder.intervene s score tsNs ok).2 := by
  obtain ⟨haction, hdelivered⟩ := intervene_of_ne tsNs ok h
  intro hne
  rw [haction] at hne ⊢
  have hpub := (mem_publishableActions_iff _).mpr hne
  rw [hdelivered, if_pos ⟨hpub, hok hpub⟩, List.getLast?_append, List.getLast?_singleton]
  rfl

end Step

section Runs

variable {ladder : ThresholdLadder α} {r : PsychRun α}

/-- The edge-triggered part of a call, and the engine it starts from. -/
theorem psychStep_eq (ladder : ThresholdLadder α) (s : PsychState α) (call : PsychCall α) :
    ∃ s' tsNs, s'.currentAction = s.currentAction ∧ s'.interventions = s.interventions ∧
      (psychStep ladder s call).2 =
        (ladder.intervene s' call.score tsNs call.interventionOk).2 := by
  cases call with
  | observe score tsNs stabilityOk interventionOk =>
    refine ⟨_, tsNs, ?_, ?_, rfl⟩
    · cases stabilityOk <;> rfl
    · cases stabilityOk <;> rfl
  | recompute score tsNs interventionOk => exact ⟨s, tsNs, rfl, rfl, rfl⟩

/-- Unless the last intervention was dropped, the ladder's action is announced. -/
def PsychRun.Settled (r : PsychRun α) : Prop := r.lost = false → Announced r.engine

theorem PsychRun.Settled.runStep (h : r.Settled) (call : PsychCall α) :
    (runStep ladder r call).2.Settled := by
  intro hlost
  obtain ⟨s, tsNs, haction, hdelivered, heq⟩ := psychStep_eq ladder r.engine call
  show Announced (psychStep ladder r.engine call).2
  rw [heq]
  simp only [Psychology.runStep] at hlost
  rw [← haction] at hlost
  split_ifs at hlost with hsame
  · rw [intervene_of_eq hsame, Announced, haction, hdelivered]
    exact h hlost
  · refine announced_of_moved hsame fun hpub => ?_
    simpa [hpub] using hlost

theorem settled_psychRun (ladder : ThresholdLadder α) (calls : List (PsychCall α)) :
    (psychRun ladder calls).Settled :=
  runState_invariant_all (runStep ladder) PsychRun.Settled (fun _ call h => h.runStep call)
    (fun _ hne => absurd rfl hne) calls

end Runs

/-- **A call during which the bus works leaves the ladder's action announced**, if it moves the
ladder or the last move was not dropped. -/
theorem announced_after_call (ladder : ThresholdLadder α) (calls : List (PsychCall α))
    (call : PsychCall α) (hbus : call.BusWorks)
    (hkept : ladder.actionFor call.score = (psychRun ladder calls).engine.currentAction →
      (psychRun ladder calls).lost = false) :
    Announced (psychRun ladder (calls ++ [call])).engine := by
  refine settled_psychRun ladder (calls ++ [call]) ?_
  rw [psychRun, runState_append, ← psychRun, runState_cons, runState_nil]
  show (if _ then _ else _ : Bool) = false
  split_ifs with hsame
  · exact hkept hsame
  · rw [hbus.interventionOk, Bool.not_true, Bool.and_false]

/-- Thresholds in percent. -/
def percentLadder : ThresholdLadder ℕ :=
  ⟨70, 50, 30, 15, by decide, by decide, by decide⟩

/-- A fall to 40 is announced, the bus does not take the intervention of one to 20, and the score
falls to 5 when it is back. -/
theorem announced_after_second_fall :
    Announced (psychRun percentLadder
      ([.observe 40 1 true true, .observe 20 2 true false] ++ [.observe 5 3 true true])).engine :=
  announced_after_call percentLadder [.observe 40 1 true true, .observe 20 2 true false]
    (.observe 5 3 true true) ⟨rfl, rfl⟩ (by decide)

/-- A kill switch that the bus did not take is not announced when the bus is back. -/
theorem kill_switch_lost :
    ¬ ∀ (ladder : ThresholdLadder ℕ) (calls : List (PsychCall ℕ)) (call : PsychCall ℕ),
      call.BusWorks → Announced (psychRun ladder (calls ++ [call])).engine := by
  intro h
  have hannounced := h percentLadder [.observe 5 1 false false] (.observe 5 2 true true)
    ⟨rfl, rfl⟩
  exact absurd (hannounced (by decide)) (by decide)

end Hedge.Ai.Psychology
