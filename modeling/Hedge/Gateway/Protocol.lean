import Hedge.Common.Json

/-!
# The gateway's client protocol

Reference: `hedge-ui-gateway/src/protocol.rs`.

A frame is a parsed JSON value. `ClientMsg.parse` is the `serde` reader of the tagged enum on object
frames, the only ones the cockpit sends: unknown fields are ignored, `request_id` and `topics` may
be missing.
-/

namespace Hedge.Gateway

open Hedge.Common

/-- One of the curated UI channels. -/
inductive Channel where
  | market
  | orderflow
  | signals
  | risk
  | exec
  | news
  | psych
  | alerts
  | replay
  | latency
  | control
deriving DecidableEq, Repr

/-- `Channel::as_str`. -/
def Channel.asStr : Channel → String
  | .market => "market"
  | .orderflow => "orderflow"
  | .signals => "signals"
  | .risk => "risk"
  | .exec => "exec"
  | .news => "news"
  | .psych => "psych"
  | .alerts => "alerts"
  | .replay => "replay"
  | .latency => "latency"
  | .control => "control"

/-- `Channel::parse`. -/
def Channel.parse (name : String) : Option Channel :=
  match name with
  | "market" => some .market
  | "orderflow" => some .orderflow
  | "signals" => some .signals
  | "risk" => some .risk
  | "exec" => some .exec
  | "news" => some .news
  | "psych" => some .psych
  | "alerts" => some .alerts
  | "replay" => some .replay
  | "latency" => some .latency
  | "control" => some .control
  | _ => none

/-- Trader-intent kind. -/
inductive IntentKind where
  | killswitch
  | strategyToggle
  | priority
  | order
  | tradingMode
deriving DecidableEq, Repr

/-- The snake-case token of an intent kind. -/
def IntentKind.parse (name : String) : Option IntentKind :=
  match name with
  | "killswitch" => some .killswitch
  | "strategy_toggle" => some .strategyToggle
  | "priority" => some .priority
  | "order" => some .order
  | "trading_mode" => some .tradingMode
  | _ => none

/-- `IntentKind::nats_subject`. -/
def IntentKind.natsSubject : IntentKind → String
  | .killswitch => "trader.intent.killswitch"
  | .strategyToggle => "trader.intent.strategy_toggle"
  | .priority => "trader.intent.priority"
  | .order => "trader.intent.order"
  | .tradingMode => "trader.intent.trading_mode"

/-- Client → server messages. -/
inductive ClientMsg where
  | subscribe (requestId : Option String) (channel : Channel) (topics : List String)
  | unsubscribe (requestId : Option String) (channel : Channel)
  | intent (requestId : Option String) (kind : IntentKind) (payload : Json)
  | ping (requestId : Option String)

/-- Stable error codes returned by the gateway. -/
inductive ErrorCode where
  | badFrame
  | unknownChannel
  | intentOnNonControl
  | invalidIntent
  | internal
deriving DecidableEq, Repr

/-- Server → client messages. -/
inductive ServerMsg where
  | event (channel : Channel) (subject : Option String) (tsNs : Option UInt64) (payload : Json)
  | ack (requestId : Option String) (channel : Channel)
  | error (code : ErrorCode) (message : String) (requestId : Option String)
  | mode (highVolatility : Bool)
  | pong (requestId : Option String)

/-! ## Reading frames -/

/-- `#[serde(default)] request_id: Option<String>`; the outer `none` is a type error. -/
def readRequestId (v : Json) : Option (Option String) :=
  match v.get "request_id" with
  | none | some .null => some none
  | some (.str s) => some (some s)
  | some _ => none

/-- A `Channel` field. -/
def readChannel (v : Json) : Option Channel :=
  (v.get "channel").bind fun c => c.asStr.bind Channel.parse

/-- `#[serde(default)] topics: Vec<String>`. -/
def readTopics (v : Json) : Option (List String) :=
  match v.get "topics" with
  | none => some []
  | some (.arr elems) => elems.mapM Json.asStr
  | some _ => none

/-- An `IntentKind` field. -/
def readKind (v : Json) : Option IntentKind :=
  (v.get "kind").bind fun k => k.asStr.bind IntentKind.parse

/-- The reader of a client frame. -/
def ClientMsg.parse (v : Json) : Option ClientMsg :=
  match (v.get "type").bind Json.asStr with
  | some "subscribe" => do
    return .subscribe (← readRequestId v) (← readChannel v) (← readTopics v)
  | some "unsubscribe" => do
    return .unsubscribe (← readRequestId v) (← readChannel v)
  | some "intent" => do
    return .intent (← readRequestId v) (← readKind v) (← v.get "payload")
  | some "ping" => do
    return .ping (← readRequestId v)
  | _ => none

end Hedge.Gateway
