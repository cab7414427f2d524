import Hedge.BrokerApi

/-!
# Errors of the Execution_Engine

Reference: `hedge-exec/src/error.rs`.
-/

namespace Hedge.Exec

open Hedge.BrokerApi

/-- `ExecError`. -/
inductive ExecError where
  | invalidApprovalToken (correlationIdHex : String)
  | duplicateToken (correlationIdHex : String)
  | invalidFsmTransition (source target : OrderLifecycleState)
  | broker (broker : BrokerId) (attempt : UInt32) (source : BrokerError)
  | bus (message : String)
  | config (message : String)
  | retryExhausted (attempts : UInt32) (lastError : String)
  | internal (message : String)
deriving DecidableEq, Repr

/-- `{:?}` of a lifecycle state. -/
def debugState : OrderLifecycleState → String
  | .new => "New"
  | .submitted => "Submitted"
  | .partiallyFilled => "PartiallyFilled"
  | .filled => "Filled"
  | .cancelled => "Cancelled"
  | .rejected => "Rejected"

namespace ExecError

/-- Only broker errors are ever retried. -/
def isRetryable : ExecError → Bool
  | broker _ _ source => source.isRetryable
  | _ => false

/-- Only broker errors count toward failover. -/
def countsTowardFailover : ExecError → Bool
  | broker _ _ source => source.countsTowardFailover
  | _ => false

/-- Trailing segment of the `obs.error.exec.<tag>` subject. -/
def tag : ExecError → String
  | invalidApprovalToken _ => "invalid_token"
  | duplicateToken _ => "duplicate_token"
  | invalidFsmTransition _ _ => "invalid_fsm_transition"
  | broker _ _ source => match source with
    | .notReady _ => "broker_not_ready"
    | .rejected _ => "broker_rejected"
    | .transient _ => "broker_transient"
    | .network _ => "broker_network"
    | .http _ _ => "broker_http"
    | .auth _ => "broker_auth"
    | .invalidApprovalToken => "broker_invalid_token"
    | .unknownOrderId _ => "broker_unknown_order"
    | .internal _ => "broker_internal"
  | bus _ => "bus"
  | config _ => "config"
  | retryExhausted _ _ => "retry_exhausted"
  | internal _ => "internal"

/-- The `Display` text. -/
def display : ExecError → String
  | invalidApprovalToken hex =>
    "approval token HMAC mismatch (intent.correlation_id_hex=" ++ hex ++ ")"
  | duplicateToken hex =>
    "approval token already consumed (intent.correlation_id_hex=" ++ hex ++ ")"
  | invalidFsmTransition source target =>
    "invalid FSM transition: " ++ debugState source ++ " → " ++ debugState target
  | broker b attempt source =>
    "broker " ++ b.debug ++ " (attempt " ++ toString attempt.toNat ++ "): " ++ source.display
  | bus m => "bus error: " ++ m
  | config m => "configuration error: " ++ m
  | retryExhausted attempts last =>
    "retry budget exhausted after " ++ toString attempts.toNat ++ " attempts; last error: " ++ last
  | internal m => "internal error: " ++ m

end ExecError

end Hedge.Exec
