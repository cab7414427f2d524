import Hedge.Common.Run
import Hedge.Supervisor.State

/-!
# The supervisor pipeline

Reference: `hedge-supervisor/src/supervisor.rs`, `hedge-supervisor/src/actuator.rs`.

A failure is decided, persisted and actuated. The process holds the counters of the policy and the
state in memory; the state file is outside it and survives a restart. Clock readings are arguments.
-/

namespace Hedge.Supervisor

open Hedge Hedge.Common

/-! ## Actuator -/

/-- A message on the bus: the tokens of its subject and its payload. -/
structure Message where
  subject : List String
  payload : Json

/-- `build_ops_action_payload` on the wire; the attempt is left out when there is none. -/
def opsActionPayload (action : RecoveryAction) : Json :=
  let attempt := match action.kind with
    | .reconnect _ _ attempt => [("attempt", Json.ofU32 attempt)]
    | _ => []
  .obj ([("target", .str action.kind.target), ("action", .str action.kind.action),
    ("reason", .str action.kind.reason)] ++ attempt ++ [("ts_ns", .ofU64 action.detectedTsNs)])

/-- The side effect of an action, stamped with the clock of the actuator. -/
def sideEffect (kind : RecoveryActionKind) (tsNs : UInt64) : List Message :=
  match kind with
  | .redisReconnect => [⟨["cache", "redis", "degraded"], .obj [("state", .str "degraded"),
      ("reason", .str "supervisor: cache reconnect requested"), ("ts_ns", .ofU64 tsNs)]⟩]
  | .brokerFailover failing backup => [⟨["exec", "broker", "failover"],
      .obj [("from", brokerIdToJson failing), ("to", brokerIdToJson backup),
        ("origin", .str "supervisor"), ("ts_ns", .ofU64 tsNs)]⟩]
  | .ollamaFallback failing fallback => [⟨["ai", "ollama", "degraded"],
      .obj [("model", .str failing), ("fallback_model", .str fallback),
        ("reason", .str "unresponsive"), ("ts_ns", .ofU64 tsNs)]⟩]
  | .reconnect _ _ _ | .applyMitigation _ _ => []

/-- `actuate`: the messages published for an action, the side effect first. -/
def actuate (action : RecoveryAction) (tsNs : UInt64) : List Message :=
  sideEffect action.kind tsNs ++ [⟨["ops", "action", action.kind.target], opsActionPayload action⟩]

/-! ## State file -/

/-- Why the state file is not taken over, or not written. -/
inductive StateError where
  | io
  | json
  | versionMismatch (found : UInt32)
deriving DecidableEq, Repr

/-- `load_or_default`; `none` is a file that does not exist. -/
def loadOrDefault : Option Json → Except StateError SupervisorState
  | none => .ok .default
  | some file => match SupervisorState.fromJson file with
    | none => .error .json
    | some s => if s.version ≠ stateVersion then .error (.versionMismatch s.version) else .ok s

/-! ## Process -/

/-- What a supervisor process holds in memory. -/
structure Process where
  attempts : Attempts
  state : SupervisorState

/-- Replay the reconnects of a source into the policy, one stub after the other. -/
def replaySource (source : String) : ℕ → Attempts → Attempts
  | 0, attempts => attempts
  | n + 1, attempts =>
    replaySource source n (PolicyConfig.count attempts (.wsDisconnected source))

/-- The policy counters after the replay of the saved ones. -/
def replayAttempts (entries : List (Sigma fun _ : String => UInt32)) (attempts : Attempts) :
    Attempts :=
  entries.foldl (fun attempts entry => replaySource entry.1 entry.2.toNat attempts) attempts

/-- `rehydrate_from_state` on a fresh policy, as `bring_up_and_run` calls it: a state that cannot be
loaded is a fresh start. -/
def bringUp (file : Option Json) : Process :=
  match loadOrDefault file with
  | .ok s => ⟨replayAttempts s.wsAttempts.entries ∅, s⟩
  | .error _ => ⟨∅, .default⟩

/-- `handle_one` up to the actuation: the action, the process after it and what it saves. -/
def handleOne (policy : PolicyConfig) (process : Process) (event : FailureEvent) (nowNs : UInt64) :
    RecoveryAction × Process :=
  let (action, attempts) := policy.decide process.attempts event
  (action, ⟨attempts, (process.state.updateFor event action).touch nowNs⟩)

/-! ## Counters -/

open PolicyConfig (attemptCount)

theorem attemptCount_replaySource (source source' : String) (n : ℕ) (attempts : Attempts) :
    (attemptCount (replaySource source n attempts) source').toNat =
      if source = source' then min ((attemptCount attempts source').toNat + n) (2 ^ 32 - 1)
      else (attemptCount attempts source').toNat := by
  induction n generalizing attempts with
  | zero =>
    have hbound := (attemptCount attempts source').toNat_lt
    rw [replaySource]
    split_ifs <;> omega
  | succ n ih =>
    rw [replaySource, ih, PolicyConfig.attemptCount_count]
    by_cases h : source = source'
    · subst h
      rw [if_pos rfl, if_pos rfl, if_pos rfl, UInt32.toNat_saturatingAdd]
      have hone : (1 : UInt32).toNat = 1 := rfl
      omega
    · rw [if_neg h, if_neg h, if_neg (by simpa using h)]

/-- The replay brings a fresh policy to the saved counters. -/
theorem attemptCount_replayAttempts (entries : List (Sigma fun _ : String => UInt32))
    (hnodup : entries.NodupKeys) (attempts : Attempts)
    (hfresh : ∀ source ∈ entries.keys, attemptCount attempts source = 0) (source : String) :
    attemptCount (replayAttempts entries attempts) source
      = ((entries.dlookup source).getD (attemptCount attempts source)) := by
  induction entries generalizing attempts with
  | nil => rfl
  | cons entry entries ih =>
    obtain ⟨hunseen, hnodup⟩ := List.nodupKeys_cons.mp hnodup
    have hhead : ∀ s, attemptCount (replaySource entry.1 entry.2.toNat attempts) s
        = if entry.1 = s then entry.2 else attemptCount attempts s := by
      intro s
      apply UInt32.toNat_inj.mp
      rw [attemptCount_replaySource]
      by_cases hs : entry.1 = s
      · have hzero := hfresh s (by simp [List.keys, hs])
        have hbound := entry.2.toNat_lt
        rw [if_pos hs, if_pos hs, hzero, UInt32.toNat_zero]
        omega
      · rw [if_neg hs, if_neg hs]
    have htail : ∀ s ∈ entries.keys,
        attemptCount (replaySource entry.1 entry.2.toNat attempts) s = 0 := by
      intro s hs
      have hne : entry.1 ≠ s := fun heq => hunseen (heq ▸ hs)
      rw [hhead, if_neg hne]
      exact hfresh s (List.mem_cons_of_mem _ hs)
    have hih := ih hnodup (replaySource entry.1 entry.2.toNat attempts) htail
    rw [hhead] at hih
    refine hih.trans ?_
    by_cases hs : source = entry.1
    · subst hs
      rw [List.dlookup_cons_eq, if_pos rfl, List.dlookup_eq_none.mpr hunseen]
      rfl
    · rw [List.dlookup_cons_ne _ _ hs, if_neg (Ne.symm hs)]

end Hedge.Supervisor
