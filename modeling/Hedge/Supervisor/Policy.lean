import Hedge.Common.Machine
import Hedge.Core.Types

/-!
# The recovery policy of the supervisor

Reference: `hedge-supervisor/src/event.rs`, `hedge-supervisor/src/policy.rs`.

The policy is a table from failures to recovery actions. Only the reconnect counters change when it
is consulted: `decide` returns the action with the policy that has counted the attempt.
-/

namespace Hedge.Supervisor

open Hedge

/-! ## Failures and actions -/

/-- Coarse classification of a failure. -/
inductive FailureKind where
  | wsDisconnected (source : String)
  | brokerErrorRateBreach (broker : BrokerId)
  | redisUnavailable
  | externalApiLatencySpike (source : String)
  | ollamaUnresponsive (model : String)
deriving DecidableEq, Repr

/-- One observed failure. -/
structure FailureEvent where
  kind : FailureKind
  tsNs : UInt64
deriving DecidableEq, Repr

/-- A `std::time::Duration`, as its length in nanoseconds. -/
structure Duration where
  nanos : ℕ
  fits : nanos < 2 ^ 64 * 1000000000
deriving DecidableEq, Repr

@[ext] theorem Duration.ext {a b : Duration} (h : a.nanos = b.nanos) : a = b := by
  cases a
  cases b
  cases h
  rfl

/-- `Duration::from_nanos`. -/
def Duration.fromNanos (nanos : UInt64) : Duration :=
  ⟨nanos.toNat, by have := nanos.toNat_lt; omega⟩

/-- Coarse classification of a recovery action. -/
inductive RecoveryActionKind where
  | reconnect (source : String) (backoff : Duration) (attempt : UInt32)
  | brokerFailover (failing backup : BrokerId)
  | redisReconnect
  | applyMitigation (source mitigation : String)
  | ollamaFallback (failing fallback : String)
deriving DecidableEq, Repr

namespace RecoveryActionKind

/-- The `target` segment of the `ops.action.<target>` subject. -/
def target : RecoveryActionKind → String
  | reconnect _ _ _ => "market_data"
  | brokerFailover _ _ => "execution_engine"
  | redisReconnect => "warmcache"
  | applyMitigation _ _ => "warm_ai"
  | ollamaFallback _ _ => "warm_ai"

/-- The `action` value of the payload. -/
def action : RecoveryActionKind → String
  | reconnect _ _ _ => "reconnect"
  | brokerFailover _ _ => "failover"
  | redisReconnect => "reconnect"
  | applyMitigation _ _ => "warn"
  | ollamaFallback _ _ => "warn"

/-- The reason given in the payload. -/
def reason : RecoveryActionKind → String
  | reconnect source backoff attempt =>
    "ws disconnect source=" ++ source ++ " attempt=" ++ toString attempt.toNat
      ++ " backoff_ms=" ++ toString (backoff.nanos / 1000000)
  | brokerFailover failing backup =>
    "broker error/latency breach: failing over from " ++ failing.debug ++ " to " ++ backup.debug
  | redisReconnect => "redis unavailable; reconnecting and emitting degraded state"
  | applyMitigation source mitigation =>
    "external api latency spike on " ++ source ++ "; applying mitigation `" ++ mitigation ++ "`"
  | ollamaFallback failing fallback =>
    "ollama model `" ++ failing ++ "` unresponsive; falling back to `" ++ fallback ++ "`"

end RecoveryActionKind

/-- An action with the time its failure was detected. -/
structure RecoveryAction where
  kind : RecoveryActionKind
  detectedTsNs : UInt64
deriving DecidableEq, Repr

/-! ## Backoff -/

/-- Exponential-backoff parameters. -/
structure BackoffParams where
  base : Duration
  maxDelay : Duration
deriving DecidableEq, Repr

/-- `delay_for`, in saturating `u128` arithmetic. -/
def BackoffParams.delayFor (params : BackoffParams) (attempt : UInt32) : Duration :=
  let factor := if attempt.toNat < 128 then 2 ^ attempt.toNat else 2 ^ 128 - 1
  let computed := min (params.base.nanos * factor) (2 ^ 128 - 1)
  let clamped := min computed params.maxDelay.nanos
  .fromNanos (.ofNat (min clamped (2 ^ 64 - 1)))

/-- The delay is the formula of the table, exactly, for every attempt. -/
theorem BackoffParams.nanos_delayFor {params : BackoffParams}
    (hmax : params.maxDelay.nanos ≤ 2 ^ 64 - 1) (attempt : UInt32) :
    (params.delayFor attempt).nanos
      = min params.maxDelay.nanos (params.base.nanos * 2 ^ attempt.toNat) := by
  have hsaturate : min (min (params.base.nanos
      * if attempt.toNat < 128 then 2 ^ attempt.toNat else 2 ^ 128 - 1) (2 ^ 128 - 1))
        params.maxDelay.nanos
      = min params.maxDelay.nanos (params.base.nanos * 2 ^ attempt.toNat) := by
    split_ifs with hsmall
    · omega
    · -- Both products are zero, or past every delay that fits.
      rcases Nat.eq_zero_or_pos params.base.nanos with hzero | hpos
      · rw [hzero, Nat.zero_mul, Nat.zero_mul]
        omega
      · have hpow : 2 ^ 128 ≤ 2 ^ attempt.toNat := Nat.pow_le_pow_right (by omega) (by omega)
        have hexact : 2 ^ attempt.toNat ≤ params.base.nanos * 2 ^ attempt.toNat :=
          Nat.le_mul_of_pos_left _ hpos
        have hcapped : 2 ^ 128 - 1 ≤ params.base.nanos * (2 ^ 128 - 1) :=
          Nat.le_mul_of_pos_left _ hpos
        omega
  rw [delayFor, hsaturate]
  change (UInt64.ofNat _).toNat = _
  rw [UInt64.toNat_ofNat', Nat.mod_eq_of_lt (by omega)]
  omega

/-! ## Policy -/

/-- What a policy is built from. -/
structure PolicyConfig where
  backoff : BackoffParams
  primaryBroker : BrokerId
  backupBroker : BrokerId
  mitigations : Map String String
  ollamaFallbacks : Map String String

/-- The reconnect attempts counted so far, by source. -/
abbrev Attempts := Map String UInt32

/-- `DEFAULT_MITIGATION`. -/
def defaultMitigation : String := "warn"

namespace PolicyConfig

/-- The attempts of a source; none before its first failure. -/
def attemptCount (attempts : Attempts) (source : String) : UInt32 :=
  (attempts.lookup source).getD 0

/-- `reset_backoff`. -/
def resetBackoff (attempts : Attempts) (source : String) : Attempts := attempts.erase source

/-- The action of the table for a failure, with the attempt of a reconnect. -/
def actionFor (policy : PolicyConfig) (attempt : UInt32) : FailureKind → RecoveryActionKind
  | .wsDisconnected source => .reconnect source (policy.backoff.delayFor attempt) attempt
  | .brokerErrorRateBreach broker =>
    if broker = policy.primaryBroker then
      .brokerFailover policy.primaryBroker policy.backupBroker
    else if broker = policy.backupBroker then
      .brokerFailover policy.backupBroker policy.primaryBroker
    else .brokerFailover broker policy.backupBroker
  | .redisUnavailable => .redisReconnect
  | .externalApiLatencySpike source =>
    .applyMitigation source ((policy.mitigations.lookup source).getD defaultMitigation)
  | .ollamaUnresponsive model =>
    .ollamaFallback model ((policy.ollamaFallbacks.lookup model).getD model)

/-- Count the attempt a failure stands for. -/
def count (attempts : Attempts) : FailureKind → Attempts
  | .wsDisconnected source =>
    attempts.insert source ((attemptCount attempts source).saturatingAdd 1)
  | _ => attempts

/-- The attempt a failure is. -/
def attemptOf (attempts : Attempts) : FailureKind → UInt32
  | .wsDisconnected source => attemptCount attempts source
  | _ => 0

/-- `decide`: every failure has an action. -/
def decide (policy : PolicyConfig) (attempts : Attempts) (event : FailureEvent) :
    RecoveryAction × Attempts :=
  (⟨policy.actionFor (attemptOf attempts event.kind) event.kind, event.tsNs⟩,
    count attempts event.kind)

/-! ## What `decide` depends on -/

theorem attemptCount_count (attempts : Attempts) (kind : FailureKind) (source : String) :
    attemptCount (count attempts kind) source =
      if kind = .wsDisconnected source then (attemptCount attempts source).saturatingAdd 1
      else attemptCount attempts source := by
  cases kind with
  | wsDisconnected source' =>
    by_cases h : source = source'
    · subst h
      simp [attemptCount, count, AList.lookup_insert]
    · rw [if_neg (by simpa using fun h' : source' = source => h h'.symm)]
      simp [attemptCount, count, AList.lookup_insert_ne h]
  | brokerErrorRateBreach broker => simp [count]
  | redisUnavailable => simp [count]
  | externalApiLatencySpike source => simp [count]
  | ollamaUnresponsive model => simp [count]

/-- The action depends on the counters through the count of the source. -/
theorem decide_congr (policy : PolicyConfig) {attempts attempts' : Attempts}
    (h : ∀ source, attemptCount attempts source = attemptCount attempts' source)
    (event : FailureEvent) :
    (policy.decide attempts event).1 = (policy.decide attempts' event).1 := by
  have hattempt : attemptOf attempts event.kind = attemptOf attempts' event.kind := by
    cases event.kind with
    | wsDisconnected source => exact h source
    | brokerErrorRateBreach broker => rfl
    | redisUnavailable => rfl
    | externalApiLatencySpike source => rfl
    | ollamaUnresponsive model => rfl
  simp only [decide, hattempt]

end PolicyConfig

end Hedge.Supervisor
