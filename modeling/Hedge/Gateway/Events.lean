import Hedge.Common.ExactFloat
import Hedge.Common.Subject
import Hedge.Gateway.Dispatcher
import Hedge.Gateway.Signals
import Mathlib.Data.List.Sort

/-!
# The outbound half of a connection

Reference: `hedge-ui-gateway/src/channels.rs`, `hedge-ui-gateway/src/alerts.rs`,
`hedge-ui-gateway/src/volatility.rs`, `hedge-ui-gateway/src/dispatcher.rs`.

A connection makes frames of the events of the bus. The signal join, the alert buffer and the
volatility tracker are shared by all connections, and the handling of an event changes them.
-/

namespace Hedge.Gateway

open Hedge Hedge.Common

/-! ## Subjects -/

/-- `starts_with`. -/
def startsWith (subject start : String) : Bool := start.toList.isPrefixOf subject.toList

/-- `classify_subject`: the channels that show a subject. -/
def classifySubject (subject : String) : List Channel :=
  if subject = "md.breadth.sector" ∨ subject = "md.breadth.volatility" then [.market]
  else match tokensOf subject with
    | "md" :: _ => [.market]
    | "of" :: _ => [.orderflow]
    | "sig" :: _ => [.signals]
    | "ai" :: "rank" :: _ => [.signals]
    | "ai" :: "news" :: "impact" :: _ => [.news]
    | "ai" :: "psych" :: _ => [.psych]
    | "risk" :: _ => [.risk]
    | "pos" :: _ => [.risk]
    | "exec" :: _ => [.exec]
    | "obs" :: "latency" :: _ => [.latency]
    | "obs" :: "budget" :: "breach" :: _ => [.latency]
    | "ops" :: "action" :: "replay" :: _ => [.replay]
    | _ => []

/-- One event of the bus, as every connection receives it. -/
structure NatsEvent where
  subject : String
  topicSuffix : String
  payload : Json
  tsNs : ℕ

/-! ## Alerts -/

/-- Alert severity levels. -/
inductive Severity where
  | info
  | warning
  | error
  | critical
deriving DecidableEq, Repr

/-- `Severity::rank`. -/
def Severity.rank : Severity → ℕ
  | info => 0
  | warning => 1
  | error => 2
  | critical => 3

/-- The severity on the wire. -/
def Severity.asStr : Severity → String
  | info => "info"
  | warning => "warning"
  | error => "error"
  | critical => "critical"

/-- `severity_for_subject`; most subjects are no alert. -/
def severityForSubject (subject : String) : Option Severity :=
  if subject = "risk.killswitch.activated" then some .critical
  else if subject = "risk.target.reached" then some .info
  else if subject = "exec.broker.failover" ∨ subject = "ai.ollama.degraded" then some .warning
  else if startsWith subject "obs.budget.breach." then some .warning
  else if startsWith subject "obs.error." then some .error
  else if subject = "ai.gov.action" ∨ subject = "ai.psych.intervention" then some .warning
  else if startsWith subject "md.connection." then some .warning
  else none

/-- An alert of `/alerts`. -/
structure UiAlert where
  severity : Severity
  source : String
  tsNs : ℕ
  payload : Json

/-- The alert on the wire. -/
def UiAlert.toJson (alert : UiAlert) : Json :=
  .obj [("severity", .str alert.severity.asStr), ("source", .str alert.source),
    ("ts_ns", .ofU64 (.ofNat alert.tsNs)), ("payload", alert.payload)]

/-- The sort key is `(severity DESC, ts_ns DESC)`. -/
def UiAlert.before (a b : UiAlert) : Prop :=
  b.severity.rank < a.severity.rank ∨ b.severity.rank = a.severity.rank ∧ b.tsNs ≤ a.tsNs

instance : DecidableRel UiAlert.before := fun _ _ => inferInstanceAs (Decidable (_ ∨ _))

/-- The bounded alert buffer. -/
structure AlertBuffer where
  alerts : List UiAlert
  capacity : ℕ

namespace AlertBuffer

/-- `push`: the oldest alert goes when the buffer is full. -/
def push (buffer : AlertBuffer) (alert : UiAlert) : AlertBuffer :=
  let kept := if buffer.capacity ≤ buffer.alerts.length then buffer.alerts.tail else buffer.alerts
  { buffer with alerts := kept ++ [alert] }

/-- `ordered`, by a stable sort. -/
def ordered (buffer : AlertBuffer) : List UiAlert := buffer.alerts.insertionSort UiAlert.before

/-- The list on the wire: `null` when a time does not fit a JSON number. -/
def toJson (buffer : AlertBuffer) : Json :=
  if buffer.alerts.all fun alert => alert.tsNs < UInt64.size then
    .arr (buffer.ordered.map UiAlert.toJson)
  else .null

end AlertBuffer

/-! ## Volatility -/

/-- High-volatility mode tracker. -/
structure VolatilityTracker where
  threshold : ExactFloat
  inHighVol : Bool

namespace VolatilityTracker

/-- What a payload says about the mode: it is high strictly above the threshold. A payload without a
number says nothing. -/
def reading (tracker : VolatilityTracker) (payload : Json) : Option Bool :=
  ((payload.get "value").bind Json.asF64).map fun q =>
    let raw := ExactFloat.fin q
    let v := if raw.isNan then .fin 0 else raw.max (.fin 0)
    v.toF32.gt tracker.threshold

/-- `set`: the new mode, only on a flip. -/
def set (tracker : VolatilityTracker) (next : Bool) : Option Bool × VolatilityTracker :=
  (if tracker.inHighVol ≠ next then some next else none, { tracker with inHighVol := next })

/-- `observe`. -/
def observe (tracker : VolatilityTracker) (payload : Json) : Option Bool × VolatilityTracker :=
  match tracker.reading payload with
  | none => (none, tracker)
  | some next => tracker.set next

end VolatilityTracker

/-! ## Dispatcher -/

/-- The state all connections share. -/
structure DispatcherState where
  signals : SignalsJoiner
  alerts : AlertBuffer
  volatility : VolatilityTracker

/-- A frame that carries an event on a channel. -/
def eventFrame (channel : Channel) (ev : NatsEvent) (payload : Json) : ServerMsg :=
  .event channel (some ev.subject) (some (.ofNat ev.tsNs)) payload

/-- The frame of a flip, for connections on `/market`. -/
def modeFrames (subs : Subscriptions) : Option Bool → List ServerMsg
  | some mode => if subs.isSubscribed .market then [.mode mode] else []
  | none => []

/-- The volatility section of `handle_nats_event`. -/
def observeVolatility (subs : Subscriptions) (state : DispatcherState) (ev : NatsEvent) :
    List ServerMsg × DispatcherState :=
  if ev.subject = "md.breadth.volatility" then
    let (flipped, volatility) := state.volatility.observe ev.payload
    (modeFrames subs flipped, { state with volatility })
  else ([], state)

/-- `feed_signals_join`: which half of which id an event is. -/
def signalHalf (ev : NatsEvent) : Option (String × Half) :=
  if ev.subject = "sig.emitted" then
    some (((ev.payload.get "correlation_id").bind Json.asStr).getD "", .signal ev.payload)
  else if startsWith ev.subject "ai.rank." then some (ev.topicSuffix, .rank ev.payload)
  else none

/-- The routing of an event to one channel; `/signals` goes through the join. -/
def routeChannel (subs : Subscriptions) (state : DispatcherState) (ev : NatsEvent)
    (prunedAt insertedAt : ℕ) (channel : Channel) : List ServerMsg × DispatcherState :=
  if subs.isSubscribed channel = false then ([], state)
  else if channel = .signals then
    match signalHalf ev with
    | none => ([], state)
    | some (id, half) =>
      let (outcome, signals) := state.signals.feed id half (half.isShadowed state.signals.shadow)
        prunedAt insertedAt
      (outcome.forwarded.map (eventFrame .signals ev), { state with signals })
  else if subs.accepts channel ev.topicSuffix = false then ([], state)
  else ([eventFrame channel ev ev.payload], state)

/-- The routing section of `handle_nats_event`, channel after channel. -/
def routeEvent (subs : Subscriptions) (state : DispatcherState) (ev : NatsEvent)
    (prunedAt insertedAt : ℕ) : List ServerMsg × DispatcherState :=
  let step state channel := routeChannel subs state ev prunedAt insertedAt channel
  ((runOutputs step state (classifySubject ev.subject)).flatten,
    runState step state (classifySubject ev.subject))

/-- `handle_nats_event`. -/
def handleNatsEvent (subs : Subscriptions) (state : DispatcherState) (ev : NatsEvent)
    (prunedAt insertedAt : ℕ) : List ServerMsg × DispatcherState :=
  let (modes, state) := observeVolatility subs state ev
  let (events, state) := routeEvent subs state ev prunedAt insertedAt
  (modes ++ events, state)

/-- The section of `ingest_for_alerts` that adds to the buffer. -/
def pushAlert (state : DispatcherState) (ev : NatsEvent) : DispatcherState :=
  match severityForSubject ev.subject with
  | none => state
  | some severity =>
    { state with alerts := state.alerts.push ⟨severity, ev.subject, ev.tsNs, ev.payload⟩ }

/-- The section of `ingest_for_alerts` that reads the buffer. -/
def listAlerts (subs : Subscriptions) (state : DispatcherState) (ev : NatsEvent) : List ServerMsg :=
  if (severityForSubject ev.subject).isSome ∧ subs.isSubscribed .alerts then
    [.event .alerts (some "alerts") none state.alerts.toJson]
  else []

/-- `ingest_for_alerts`. -/
def ingestForAlerts (subs : Subscriptions) (state : DispatcherState) (ev : NatsEvent) :
    List ServerMsg × DispatcherState :=
  let state := pushAlert state ev
  (listAlerts subs state ev, state)

/-- `drain_signal_flushes`. -/
def drainSignalFlushes (subs : Subscriptions) (state : DispatcherState) (now : ℕ) :
    List ServerMsg × DispatcherState :=
  if subs.isSubscribed .signals = false then ([], state)
  else
    let (flushed, signals) := state.signals.flushExpired now
    (flushed.map (.event .signals (some "sig.emitted") none), { state with signals })

/-- The event branch of `run_session`: the frames to send. -/
def handleEvent (subs : Subscriptions) (state : DispatcherState) (ev : NatsEvent)
    (prunedAt insertedAt : ℕ) : List ServerMsg × DispatcherState :=
  let (replies, state) := handleNatsEvent subs state ev prunedAt insertedAt
  let (alerts, state) := ingestForAlerts subs state ev
  (replies ++ alerts, state)

end Hedge.Gateway
