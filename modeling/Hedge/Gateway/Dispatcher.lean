import Hedge.Core.Types
import Hedge.Gateway.Protocol

/-!
# Subscriptions, trader intents and the inbound half of a connection

Reference: `hedge-ui-gateway/src/subscriptions.rs`, `hedge-ui-gateway/src/intents.rs`,
`hedge-ui-gateway/src/dispatcher.rs`, `hedge-ui-gateway/src/gateway.rs`.

A connection's state is its subscription map. The NATS client and the text of a `serde` error are
outside the model: `GatewayEnv` holds the answer of a publish and the error text of a frame.
-/

namespace Hedge.Gateway

open Hedge Hedge.Common

/-! ## Subscriptions -/

/-- Per-connection subscription set: the joined channels with their topic filters. -/
abbrev Subscriptions := Map Channel (Finset String)

namespace Subscriptions

/-- `subscribe`: the filter of a channel is replaced. -/
def subscribe (subs : Subscriptions) (channel : Channel) (topics : List String) : Subscriptions :=
  subs.insert channel topics.toFinset

/-- `unsubscribe`. -/
def unsubscribe (subs : Subscriptions) (channel : Channel) : Subscriptions := subs.erase channel

/-- `is_subscribed`. -/
def isSubscribed (subs : Subscriptions) (channel : Channel) : Bool :=
  (subs.lookup channel).isSome

/-- `accepts`: without a filter every topic of a joined channel passes. -/
def accepts (subs : Subscriptions) (channel : Channel) (topic : String) : Bool :=
  match subs.lookup channel with
  | none => false
  | some topics => topics = ∅ || topic ∈ topics

theorem isSubscribed_subscribe_ne {c channel : Channel} (h : c ≠ channel) (subs : Subscriptions)
    (topics : List String) :
    (subs.subscribe channel topics).isSubscribed c = subs.isSubscribed c := by
  rw [isSubscribed, subscribe, AList.lookup_insert_ne h, isSubscribed]

theorem isSubscribed_unsubscribe_of_not {c : Channel} {subs : Subscriptions}
    (h : subs.isSubscribed c = false) (channel : Channel) :
    (subs.unsubscribe channel).isSubscribed c = false := by
  by_cases hc : c = channel
  · rw [isSubscribed, unsubscribe, hc, AList.lookup_erase, Option.isSome_none]
  · rwa [isSubscribed, unsubscribe, AList.lookup_erase_ne hc]

end Subscriptions

/-! ## Trader intents -/

/-- Errors that can occur while publishing a trader intent. -/
inductive IntentError where
  | invalidPayload (kind : IntentKind) (reason : String)
  | publishFailed (subject message : String)
deriving DecidableEq, Repr

/-- A message on the bus. -/
structure Published where
  subject : String
  payload : Json

/-- What the code outside the gateway answers. -/
structure GatewayEnv where
  /-- The error text of a failed NATS publish. -/
  publishError : String → Json → Option String
  /-- The text of the `serde` error on a frame that does not parse. -/
  serdeError : Json → String

/-- `validate_intent`. -/
def validateIntent (kind : IntentKind) (payload : Json) : Except IntentError Unit :=
  let invalid {α : Type} (reason : String) : Except IntentError α :=
    .error (.invalidPayload kind reason)
  let requireStr (field : String) : Except IntentError String :=
    match (payload.get field).bind Json.asStr with
    | some s => .ok s
    | none => invalid ("missing string field `" ++ field ++ "`")
  let requireBool (field : String) : Except IntentError Bool :=
    match (payload.get field).bind Json.asBool with
    | some b => .ok b
    | none => invalid ("missing boolean field `" ++ field ++ "`")
  match kind with
  | .killswitch => do
    let _ ← requireBool "active"
  | .strategyToggle => do
    let _ ← requireStr "strategy_id"
    let _ ← requireBool "enabled"
  | .priority => do
    let _ ← requireStr "symbol"
    let tier ← requireStr "tier"
    if ¬tier ∈ ["P1", "P2", "P3", "P4"] then invalid "`tier` must be one of P1/P2/P3/P4"
  | .order => do
    let _ ← requireStr "symbol"
    let side ← requireStr "side"
    if ¬side ∈ ["buy", "sell"] then invalid "`side` must be `buy` or `sell`"
    match (payload.get "quantity").bind Json.asI64 with
    | none => invalid "missing integer field `quantity`"
    | some qty => if qty ≤ 0 then invalid "`quantity` must be positive"
  | .tradingMode => do
    let _ ← requireBool "live"

/-- `publish_intent`: the message that reached the bus. -/
def publishIntent (env : GatewayEnv) (kind : IntentKind) (payload : Json) :
    Except IntentError Published := do
  validateIntent kind payload
  match env.publishError kind.natsSubject payload with
  | none => return ⟨kind.natsSubject, payload⟩
  | some message => .error (.publishFailed kind.natsSubject message)

/-! ## Dispatcher -/

/-- What the handling of one frame sends back to the client and puts on the bus. -/
structure Handled where
  replies : List ServerMsg
  published : List Published

/-- `handle_intent`: only a connection that joined `/control` may publish intents. -/
def handleIntent (env : GatewayEnv) (subs : Subscriptions) (requestId : Option String)
    (kind : IntentKind) (payload : Json) : Handled :=
  if subs.isSubscribed .control = false then
    ⟨[.error .intentOnNonControl
      "client must subscribe to /control before publishing intents" requestId], []⟩
  else
    match publishIntent env kind payload with
    | .ok message => ⟨[.ack requestId .control], [message]⟩
    | .error (.invalidPayload _ reason) => ⟨[.error .invalidIntent reason requestId], []⟩
    | .error (.publishFailed _ message) =>
      ⟨[.error .internal ("nats publish failed: " ++ message) requestId], []⟩

/-- `handle_client`. -/
def handleClient (env : GatewayEnv) (subs : Subscriptions) : ClientMsg → Handled × Subscriptions
  | .subscribe requestId channel topics =>
    (⟨[.ack requestId channel], []⟩, subs.subscribe channel topics)
  | .unsubscribe requestId channel =>
    (⟨[.ack requestId channel], []⟩, subs.unsubscribe channel)
  | .intent requestId kind payload => (handleIntent env subs requestId kind payload, subs)
  | .ping requestId => (⟨[.pong requestId], []⟩, subs)

/-- The text-frame branch of `run_session`. -/
def handleFrame (env : GatewayEnv) (subs : Subscriptions) (frame : Json) :
    Handled × Subscriptions :=
  match ClientMsg.parse frame with
  | some msg => handleClient env subs msg
  | none =>
    (⟨[.error .badFrame ("malformed client message: " ++ env.serdeError frame) none], []⟩, subs)

/-- A frame other than a subscription to `channel` does not join it. -/
theorem isSubscribed_handleFrame {env : GatewayEnv} {subs : Subscriptions} {frame : Json}
    {channel : Channel} (hsubs : subs.isSubscribed channel = false)
    (hframe : ∀ requestId topics,
      ClientMsg.parse frame ≠ some (.subscribe requestId channel topics)) :
    (handleFrame env subs frame).2.isSubscribed channel = false := by
  unfold handleFrame
  cases hparse : ClientMsg.parse frame with
  | none => exact hsubs
  | some msg =>
    cases msg with
    | subscribe requestId c topics =>
      have hne : channel ≠ c := by
        rintro rfl
        exact hframe requestId topics hparse
      exact (Subscriptions.isSubscribed_subscribe_ne hne subs topics).trans hsubs
    | unsubscribe requestId c => exact Subscriptions.isSubscribed_unsubscribe_of_not hsubs c
    | intent requestId kind payload => exact hsubs
    | ping requestId => exact hsubs

end Hedge.Gateway
