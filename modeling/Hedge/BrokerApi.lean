import Hedge.Core.Types

/-!
# The broker adapter interface

Reference: `hedge-broker-api/src/lib.rs`.

An adapter is a process outside the model. What a `submit` request does at the broker is a
`SubmitReaction`: the reply the adapter returns, and whether the broker accepted an order. The two
are tied as the error taxonomy documents them: an acknowledged order is accepted, and an order
accepted without an acknowledgement surfaces as `Transient` or `Network`.
-/

namespace Hedge.BrokerApi

/-- Order type. -/
inductive OrderType where
  | market
  | limit
deriving DecidableEq, Repr

/-- `OrderType::from_u8`. -/
def OrderType.fromU8 (byte : UInt8) : Option OrderType :=
  if byte = 0 then some .market else if byte = 1 then some .limit else none

/-- `OrderType::as_u8`. -/
def OrderType.asU8 : OrderType → UInt8
  | .market => 0
  | .limit => 1

/-- Exchange selector. -/
inductive Exchange where
  | nse
  | bse
deriving DecidableEq, Repr

/-- `Exchange::from_i8`. -/
def Exchange.fromI8 (byte : Int8) : Option Exchange :=
  if byte = 0 then some .nse else if byte = 1 then some .bse else none

/-- `Exchange::as_i8`. -/
def Exchange.asI8 : Exchange → Int8
  | .nse => 0
  | .bse => 1

/-- A wire byte decodes to the order type that encodes to it. -/
theorem OrderType.fromU8_eq_some_iff {byte : UInt8} {t : OrderType} :
    OrderType.fromU8 byte = some t ↔ byte = t.asU8 := by
  cases t <;> simp only [fromU8, asU8] <;> split_ifs <;> simp_all

/-- A wire byte decodes to the exchange that encodes to it. -/
theorem Exchange.fromI8_eq_some_iff {byte : Int8} {e : Exchange} :
    Exchange.fromI8 byte = some e ↔ byte = e.asI8 := by
  cases e <;> simp only [fromI8, asI8] <;> split_ifs <;> simp_all

/-- Broker-agnostic order intent handed to `BrokerAdapter::submit`. -/
structure OrderIntent where
  correlationId : CorrelationId
  symbolRaw : UInt32
  side : Side
  quantity : UInt64
  orderType : OrderType
  limitPaise : Int64
  exchange : Exchange
deriving DecidableEq, Repr

/-- Partial modification of an order that is at the broker. -/
structure OrderModification where
  brokerOrderId : String
  newQuantity : Option UInt64
  newLimitPaise : Option Int64
deriving DecidableEq, Repr

/-- Adapter readiness. -/
inductive ReadyState where
  | ready
  | configError (reason : String)
  | disconnected (reason : String)
deriving DecidableEq, Repr

/-- `ReadyState::is_ready`. -/
def ReadyState.isReady : ReadyState → Bool
  | .ready => true
  | _ => false

/-- The `Display` text. -/
def ReadyState.display : ReadyState → String
  | .ready => "Ready"
  | .configError r => "ConfigError(" ++ r ++ ")"
  | .disconnected r => "Disconnected(" ++ r ++ ")"

/-- Response of a successful `BrokerAdapter::submit`. -/
structure SubmitAck where
  brokerOrderId : String
  brokerTsNs : Option UInt64
deriving DecidableEq, Repr

/-- Read-side projection of an order, returned by `BrokerAdapter::status`. -/
structure OrderStatus where
  brokerOrderId : String
  state : OrderLifecycleState
  filledQty : UInt64
  avgFillPaise : Int64
  brokerTsNs : Option UInt64
deriving DecidableEq, Repr

/-- Adapter error taxonomy. -/
inductive BrokerError where
  | notReady (reason : String)
  | rejected (reason : String)
  | transient (reason : String)
  | network (reason : String)
  | http (status : UInt16) (body : String)
  | auth (reason : String)
  | invalidApprovalToken
  | unknownOrderId (id : String)
  | internal (reason : String)
deriving DecidableEq, Repr

namespace BrokerError

/-- Whether the same request is retried after backoff. -/
def isRetryable : BrokerError → Bool
  | transient _ | network _ => true
  | _ => false

/-- Whether the error counts toward the failover error rate. -/
def countsTowardFailover : BrokerError → Bool
  | transient _ | network _ | http _ _ | rejected _ => true
  | _ => false

/-- The `Display` text. -/
def display : BrokerError → String
  | notReady r => "broker not ready: " ++ r
  | rejected r => "broker rejected: " ++ r
  | transient r => "broker transient error: " ++ r
  | network r => "network error: " ++ r
  | http status body => "http " ++ toString status.toNat ++ ": " ++ body
  | auth r => "auth failure: " ++ r
  | invalidApprovalToken => "invalid approval token"
  | unknownOrderId id => "unknown order id: " ++ id
  | internal r => "internal adapter error: " ++ r

end BrokerError

/-- What one `submit` request does at the broker. -/
structure SubmitReaction where
  reply : Except BrokerError SubmitAck
  accepted : Bool
  ack_accepted : ∀ ack, reply = .ok ack → accepted = true
  /-- A reply can only be lost as one of the retryable errors. -/
  lost_retryable : ∀ err, reply = .error err → accepted = true → err.isRetryable = true

/-- An acknowledged order. -/
def SubmitReaction.ack (a : SubmitAck) : SubmitReaction where
  reply := .ok a
  accepted := true
  ack_accepted _ _ := rfl
  lost_retryable _ h := by cases h

/-- A refused order. -/
def SubmitReaction.refuse (err : BrokerError) : SubmitReaction where
  reply := .error err
  accepted := false
  ack_accepted _ h := by cases h
  lost_retryable _ _ h := by cases h

/-- An accepted order whose reply is lost. -/
def SubmitReaction.lose (reason : String) : SubmitReaction where
  reply := .error (.network reason)
  accepted := true
  ack_accepted _ h := by cases h
  lost_retryable err h _ := by
    cases h
    rfl

end Hedge.BrokerApi
