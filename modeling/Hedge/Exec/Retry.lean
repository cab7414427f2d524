import Hedge.Common.Machine
import Hedge.Common.Retry
import Hedge.Exec.Error

/-!
# Retry with backoff

Reference: `hedge-exec/src/retry.rs`.

`retryLoop` follows the loop of the source from one attempt on. `retryWithBackoff_spec` reads it
through the library of bounded retries: the loop rests at `lastAttempt`, and its result is that of
the operation there. The jitter source is a function from the attempt to the unit it draws.
-/

namespace Hedge.Exec

open Hedge.Common

/-- `RetryPolicy`. -/
structure RetryPolicy where
  maxAttempts : UInt32
  baseBackoffNs : UInt64
  maxBackoffNs : UInt64
  jitterBps : UInt32
deriving DecidableEq, Repr

/-- `RetryPolicy::default`. -/
def RetryPolicy.default : RetryPolicy := ⟨3, 50000000, 1000000000, 2500⟩

/-- `backoff_for_attempt`, in nanoseconds. -/
def RetryPolicy.backoffForAttempt (policy : RetryPolicy) (attempt : ℕ) (jitterUnit : ExactFloat) :
    UInt64 :=
  if attempt = 0 then 0
  else
    let exp := min (attempt - 1) 31
    let raw := min (policy.baseBackoffNs.toNat * 2 ^ exp) (2 ^ 64 - 1)
    let capped := min raw policy.maxBackoffNs.toNat
    let unit : ℚ := match jitterUnit with
      | .fin q => max (-1) (min q 1)
      | _ => 0
    let pct : ℚ := policy.jitterBps.toNat / 10000
    let withJitter : ℚ := capped + capped * pct * unit
    UInt64.ofNat (ExactFloat.truncRat (min (max withJitter 0) policy.maxBackoffNs.toNat)).toNat

/-- A finished retry loop: its result, the number of attempts made and the sleeps between them. -/
structure RetryRun (α : Type*) where
  result : Except ExecError α
  attempts : ℕ
  sleeps : List UInt64

section

variable {α : Type*} (policy : RetryPolicy) (jitter : ℕ → ExactFloat) (op : ℕ → Except ExecError α)

/-- The loop from `attempt` on, with `remaining` attempts allowed after it. -/
def retryLoop (max : ℕ) : (remaining attempt : ℕ) → RetryRun α
  | 0, attempt => match op attempt with
    | .ok value => ⟨.ok value, attempt, []⟩
    | .error err =>
      if !err.isRetryable then ⟨.error err, attempt, []⟩
      -- the last failed attempt is not followed by a sleep
      else ⟨.error (.retryExhausted (UInt32.ofNat max) err.display), attempt, []⟩
  | remaining + 1, attempt => match op attempt with
    | .ok value => ⟨.ok value, attempt, []⟩
    | .error err =>
      if !err.isRetryable then ⟨.error err, attempt, []⟩
      else
        let dur := policy.backoffForAttempt attempt (jitter attempt)
        let rest := retryLoop max remaining (attempt + 1)
        { rest with sleeps := dur :: rest.sleeps }

/-- `policy.max_attempts.max(1)`. -/
def RetryPolicy.budget (policy : RetryPolicy) : ℕ := max policy.maxAttempts.toNat 1

/-- `retry_with_backoff`. -/
def retryWithBackoff : RetryRun α :=
  retryLoop policy jitter op policy.budget (policy.budget - 1) 1

/-- The attempt ends the loop: success, or an error that is not retried. -/
def settles (k : ℕ) : Bool :=
  match op k with
  | .ok _ => true
  | .error err => !err.isRetryable

/-- What the loop returns when its last attempt returned `r`. -/
def surface (max : ℕ) : Except ExecError α → Except ExecError α
  | .ok value => .ok value
  | .error err =>
    if err.isRetryable then .error (.retryExhausted (UInt32.ofNat max) err.display) else .error err

variable {policy jitter op}

theorem retryLoop_spec (max remaining attempt : ℕ) :
    (retryLoop policy jitter op max remaining attempt).attempts
        = lastAttempt (settles op) remaining attempt ∧
      (retryLoop policy jitter op max remaining attempt).result
        = surface max (op (lastAttempt (settles op) remaining attempt)) := by
  induction remaining generalizing attempt with
  | zero =>
    cases hop : op attempt with
    | ok value => simp [retryLoop, lastAttempt, surface, hop]
    | error err =>
      by_cases hret : err.isRetryable = true <;> simp [retryLoop, lastAttempt, surface, hop, hret]
  | succ remaining ih =>
    cases hop : op attempt with
    | ok value => simp [retryLoop, lastAttempt, settles, surface, hop]
    | error err =>
      by_cases hret : err.isRetryable = true
      · simpa [retryLoop, lastAttempt, settles, hop, hret] using ih (attempt + 1)
      · simp [retryLoop, lastAttempt, settles, surface, hop, hret]

variable (policy jitter op)

/-- The attempt at which `retry_with_backoff` rests. -/
def finalAttempt : ℕ := lastAttempt (settles op) (policy.budget - 1) 1

theorem retryWithBackoff_attempts :
    (retryWithBackoff policy jitter op).attempts = finalAttempt policy op :=
  (retryLoop_spec _ _ _).1

theorem retryWithBackoff_result :
    (retryWithBackoff policy jitter op).result
      = surface policy.budget (op (finalAttempt policy op)) :=
  (retryLoop_spec _ _ _).2

theorem one_le_finalAttempt : 1 ≤ finalAttempt policy op := le_lastAttempt _ _

end

end Hedge.Exec
