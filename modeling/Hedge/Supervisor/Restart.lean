import Hedge.Supervisor.Pipeline

/-!
# Restarts of the supervisor

Reference: `handle_one`, `persist_state_for` and `rehydrate_from_state` in
`hedge-supervisor/src/supervisor.rs`.

The reconnect counters are kept in the policy and in the saved state. Whatever the process handles,
the two count the same, and so does the policy a new process would bring up from the file; a restart
changes nothing a later action depends on.
-/

namespace Hedge.Supervisor

open Hedge Hedge.Common

open PolicyConfig (attemptCount)

/-- A supervisor process and its state file. -/
structure World where
  process : Process
  file : Option Json

/-- What happens to the supervisor: a failure to handle, at a time of its clock, or a restart. -/
inductive Incident where
  | failure (event : FailureEvent) (nowNs : UInt64)
  | restart

namespace Incident

/-- The incident is a failure. -/
def isFailure : Incident → Bool
  | failure _ _ => true
  | restart => false

end Incident

namespace World

/-- A supervisor that comes up on a state file. -/
def start (file : Option Json) : World := ⟨bringUp file, file⟩

/-- One incident: the actions it leads to and the world after it, with every save succeeding. -/
def step (policy : PolicyConfig) (world : World) : Incident → List RecoveryAction × World
  | .failure event nowNs =>
    let (action, process) := handleOne policy world.process event nowNs
    ([action], ⟨process, some process.state.toJson⟩)
  | .restart => ([], start world.file)

/-- The actions of a run, in order. -/
def actions (policy : PolicyConfig) (world : World) (incidents : List Incident) :
    List RecoveryAction :=
  (runOutputs (step policy) world incidents).flatten

end World

/-! ## Both counts agree -/

/-- A process whose policy counts what its state counts. -/
structure Process.Agrees (process : Process) : Prop where
  counts : ∀ source,
    attemptCount process.attempts source = attemptCount process.state.wsAttempts source
  version : process.state.version = stateVersion

theorem agrees_bringUp (file : Option Json) : (bringUp file).Agrees := by
  have hloaded : ∀ s : SupervisorState, s.version = stateVersion →
      Process.Agrees ⟨replayAttempts s.wsAttempts.entries ∅, s⟩ := by
    intro s hversion
    refine ⟨fun source => ?_, hversion⟩
    exact attemptCount_replayAttempts _ s.wsAttempts.nodupKeys ∅ (fun _ _ => rfl) source
  unfold bringUp
  cases file with
  | none => exact hloaded .default rfl
  | some v =>
    cases hjson : SupervisorState.fromJson v with
    | none =>
      simp only [loadOrDefault, hjson]
      exact ⟨fun _ => rfl, rfl⟩
    | some s =>
      by_cases hversion : s.version = stateVersion
      · simp only [loadOrDefault, hjson, hversion, ne_eq, not_true, if_false]
        exact hloaded s hversion
      · simp only [loadOrDefault, hjson, ne_eq, hversion, not_false_eq_true, if_true]
        exact ⟨fun _ => rfl, rfl⟩

/-- A process comes up from what it saved with the counts it had. -/
theorem attemptCount_bringUp_toJson {s : SupervisorState} (hversion : s.version = stateVersion)
    (source : String) :
    attemptCount (bringUp (some s.toJson)).attempts source = attemptCount s.wsAttempts source := by
  have hload : loadOrDefault (some s.toJson) = .ok s := by
    simp only [loadOrDefault, SupervisorState.fromJson_toJson, hversion, ne_eq, not_true, if_false]
  have hbringUp : bringUp (some s.toJson) = ⟨replayAttempts s.wsAttempts.entries ∅, s⟩ := by
    rw [bringUp, hload]
  have hagrees := (agrees_bringUp (some s.toJson)).counts source
  rw [hbringUp] at hagrees ⊢
  exact hagrees

/-- The update of a state counts a reconnect as the policy does. -/
theorem wsAttempts_updateFor (policy : PolicyConfig) (attempts : Attempts) (event : FailureEvent)
    (s : SupervisorState) :
    (s.updateFor event (policy.decide attempts event).1).wsAttempts
      = PolicyConfig.count s.wsAttempts event.kind := by
  unfold SupervisorState.updateFor PolicyConfig.decide
  cases event.kind with
  | wsDisconnected source => rfl
  | brokerErrorRateBreach broker =>
    dsimp only [PolicyConfig.actionFor]
    split_ifs <;> rfl
  | redisUnavailable => rfl
  | externalApiLatencySpike source => rfl
  | ollamaUnresponsive model => rfl

theorem version_updateFor (event : FailureEvent) (action : RecoveryAction) (s : SupervisorState) :
    (s.updateFor event action).version = s.version := by
  unfold SupervisorState.updateFor
  split <;> rfl

theorem Process.Agrees.handleOne {process : Process} (h : process.Agrees) (policy : PolicyConfig)
    (event : FailureEvent) (nowNs : UInt64) : (handleOne policy process event nowNs).2.Agrees := by
  refine ⟨fun source => ?_, ?_⟩
  · change attemptCount (PolicyConfig.count process.attempts event.kind) source
      = attemptCount (process.state.updateFor event
          (policy.decide process.attempts event).1).wsAttempts source
    rw [wsAttempts_updateFor, PolicyConfig.attemptCount_count, PolicyConfig.attemptCount_count,
      h.counts]
  · exact (version_updateFor event _ process.state).trans h.version

/-- The process agrees with its state, and with the process its file would bring up. -/
structure World.Linked (world : World) : Prop where
  agrees : world.process.Agrees
  saved : ∀ source,
    attemptCount (bringUp world.file).attempts source = attemptCount world.process.attempts source

theorem linked_start (file : Option Json) : (World.start file).Linked :=
  ⟨agrees_bringUp file, fun _ => rfl⟩

theorem World.Linked.step {world : World} (h : world.Linked) (policy : PolicyConfig)
    (incident : Incident) : (world.step policy incident).2.Linked := by
  cases incident with
  | restart => exact linked_start world.file
  | failure event nowNs =>
    have hagrees := h.agrees.handleOne policy event nowNs
    refine ⟨hagrees, fun source => ?_⟩
    exact (attemptCount_bringUp_toJson hagrees.version source).trans (hagrees.counts source).symm

/-! ## Runs with and without restarts -/

/-- Two worlds whose policies count the same take the same actions, however often the first one
restarts. -/
theorem actions_filter_of_counts_eq (policy : PolicyConfig) (incidents : List Incident)
    {world world' : World} (hlinked : world.Linked)
    (hcounts : ∀ source, attemptCount world.process.attempts source
      = attemptCount world'.process.attempts source) :
    world.actions policy incidents
      = world'.actions policy (incidents.filter Incident.isFailure) := by
  induction incidents generalizing world world' with
  | nil => rfl
  | cons incident incidents ih =>
    have hnext := hlinked.step policy incident
    cases incident with
    | restart =>
      have hsame := fun source => (hlinked.saved source).trans (hcounts source)
      exact ih hnext hsame
    | failure event nowNs =>
      have haction := policy.decide_congr hcounts event
      have hcounted : ∀ source,
          attemptCount (world.step policy (.failure event nowNs)).2.process.attempts source
            = attemptCount (world'.step policy (.failure event nowNs)).2.process.attempts
                source := by
        intro source
        change attemptCount (PolicyConfig.count _ event.kind) source
          = attemptCount (PolicyConfig.count _ event.kind) source
        rw [PolicyConfig.attemptCount_count, PolicyConfig.attemptCount_count, hcounts]
      exact congrArg₂ (· :: ·) haction (ih hnext hcounted)

/-- A supervisor that restarts takes the actions of one that never does. -/
theorem restart_transparent (policy : PolicyConfig) (file : Option Json)
    (incidents : List Incident) :
    (World.start file).actions policy incidents
      = (World.start file).actions policy (incidents.filter Incident.isFailure) :=
  actions_filter_of_counts_eq policy incidents (linked_start file) fun _ => rfl

end Hedge.Supervisor
