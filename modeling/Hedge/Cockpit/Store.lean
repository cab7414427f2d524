import Hedge.Cockpit.Client
import Hedge.Cockpit.Reducers

/-!
# The store of the cockpit

Reference: `useCockpitStore` in `ui/src/store/cockpitStore.ts`, `ui/src/lib/feedStatus.ts`.

Every frame goes to the reducer of its channel and stamps the meta slice; when the reducer throws,
the socket catches it and the store keeps its state. Clock readings are part of the actions, two
where the source reads the clock twice. Market hours are those of the fixed offset of IST.
-/

namespace Hedge.Cockpit

open Hedge Hedge.Common Hedge.Gateway

/-! ## The status of the feed -/

inductive FeedStatus where
  | open
  | degraded
  | offline
  | tokenExpired
  | marketClosed
  | demoMode
deriving DecidableEq

def FeedStatus.text : FeedStatus → String
  | .open => "open"
  | degraded => "degraded"
  | offline => "offline"
  | tokenExpired => "token_expired"
  | marketClosed => "market_closed"
  | demoMode => "demo_mode"

structure FeedStatusInputs where
  gatewayState : GatewayState
  lastTickAt : Option ℤ
  upstox : Option Json
  nowMs : ℤ
  demoMode : Bool
  reconnectingForMs : ℤ

/-- `inHours`: from 09:15 to 15:30 in India, to the minute. -/
def inHours (nowMs : ℤ) : Bool :=
  let minutes := (nowMs / 60000 + 330) % 1440
  let timeNum := minutes / 60 * 100 + minutes % 60
  decide (915 ≤ timeNum ∧ timeNum ≤ 1530)

/-- `/401|unauthorized/i.test(text)`. -/
def mentionsUnauthorized (text : String) : Bool :=
  decide ("401".toList <:+: text.toList ∨ "unauthorized".toList <:+: text.toList.map Char.toLower)

/-- `upstox?.status === "down"`. -/
def isDown (upstox : Option Json) : Bool :=
  match upstox.bind (·.get "status") with
  | some (.str status) => status = "down"
  | _ => false

/-- `upstox.reason || ""` as a text. -/
def reasonText (platform : Platform) (upstox : Option Json) : String :=
  match (upstox.bind (·.get "reason")).filter truthy with
  | some reason => platform.key (some reason)
  | none => ""

/-- `timeSinceLastTick >= ms`; without a tick the time is infinite. -/
def sinceTickAtLeast (i : FeedStatusInputs) (ms : ℤ) : Bool :=
  match i.lastTickAt.filter fun t => t ≠ 0 with
  | some t => decide (ms ≤ i.nowMs - t)
  | none => true

/-- `deriveFeedStatus`. -/
def deriveFeedStatus (platform : Platform) (i : FeedStatusInputs) : FeedStatus :=
  if i.demoMode then .demoMode
  else if isDown i.upstox ∧ mentionsUnauthorized (reasonText platform i.upstox) then .tokenExpired
  else if i.gatewayState = .reconnecting ∧ 30000 ≤ i.reconnectingForMs then .offline
  else if isDown i.upstox ∨ (sinceTickAtLeast i 30000 ∧ inHours i.nowMs) then .offline
  else if ¬inHours i.nowMs then .marketClosed
  else if sinceTickAtLeast i 5000 then .degraded
  else .open

/-! ## State -/

structure GatewayMeta where
  state : GatewayState
  lastSeenByChannel : Map Channel ℚ
  synthChannels : Map Channel Bool
  lastTickAt : Option ℤ
  stateChangedAt : ℤ
  feedStatus : FeedStatus
  feedStatusDetail : String
  demoMode : Bool

structure CockpitState where
  gatewayMeta : GatewayMeta
  market : MarketSlice
  orderflow : OrderflowSlice
  signals : SignalsSlice
  risk : RiskSlice
  exec : ExecSlice
  news : NewsSlice
  psych : PsychSlice
  alerts : List Alert
  replay : ReplaySlice
  latency : LatencySlice
  warMode : WarModeStatus

/-- The store when it is created or reset. -/
def CockpitState.initial (nowMs : ℤ) : CockpitState where
  gatewayMeta :=
    { state := .closed
      lastSeenByChannel := ∅
      synthChannels := ∅
      lastTickAt := none
      stateChangedAt := nowMs
      feedStatus := .offline
      feedStatusDetail := ""
      demoMode := false }
  market := emptyMarket
  orderflow := ⟨∅⟩
  signals := emptySignals
  risk := emptyRisk
  exec := emptyExec
  news := ⟨[]⟩
  psych := emptyPsych
  alerts := []
  replay := emptyReplay
  latency := emptyLatency
  warMode := emptyWarMode

/-- The meta slice with a new status of the feed. -/
def GatewayMeta.withFeedStatus (m : GatewayMeta) (status : FeedStatus) : GatewayMeta :=
  { m with feedStatus := status, feedStatusDetail := status.text }

namespace CockpitState

/-- The inputs of the status for a meta slice and a market slice; `laterMs` is the clock where the
time of a reconnect is taken. -/
def feedStatusInputs (m : GatewayMeta) (market : MarketSlice) (nowMs laterMs : ℤ) :
    FeedStatusInputs where
  gatewayState := m.state
  lastTickAt := m.lastTickAt
  upstox := market.connections.lookup "upstox"
  nowMs := nowMs
  demoMode := m.demoMode
  reconnectingForMs := if m.state = .reconnecting then laterMs - m.stateChangedAt else 0

/-- The status of a meta slice and a market slice. -/
def feedStatusOf (platform : Platform) (m : GatewayMeta) (market : MarketSlice)
    (nowMs laterMs : ℤ) : FeedStatus :=
  deriveFeedStatus platform (feedStatusInputs m market nowMs laterMs)

/-- `_synth === true` in a payload or in its `data`. -/
def isSynth (payload : Json) : Bool :=
  let flagged := fun v : Json => isObject v && match v.get "_synth" with
    | some (.bool b) => b
    | _ => false
  flagged payload || ((payload.get "data").map flagged).getD false

/-- A tick of the market channel. -/
def isTick (envelope : ServerEnvelope) : Bool :=
  envelope.channel = .market && match envelope.payload.get "kind" with
    | some (.str kind) => kind = "tick"
    | _ => false

/-- The meta slice that a frame stamps. -/
def stamped (m : GatewayMeta) (envelope : ServerEnvelope) (nowMs : ℤ) : GatewayMeta :=
  { m with
    lastTickAt := if isTick envelope then some nowMs else m.lastTickAt
    lastSeenByChannel := m.lastSeenByChannel.insert envelope.channel
      (envelope.tsNs.getD ((nowMs * 1000000 : ℤ) : ℚ))
    synthChannels := m.synthChannels.insert envelope.channel (isSynth envelope.payload) }

/-- The slices after the reducer of a frame's channel. -/
def reduce (platform : Platform) (env : StoreEnv) (s : CockpitState) (envelope : ServerEnvelope) :
    Option CockpitState :=
  match envelope.channel with
  | .market => some { s with market := reduceMarket platform s.market envelope.payload }
  | .orderflow => (reduceOrderflow platform s.orderflow envelope.payload).map fun slice =>
      { s with orderflow := slice }
  | .signals =>
    some { s with signals := reduceSignalsChannel platform s.signals envelope s.warMode }
  | .risk => (reduceRisk platform s.risk envelope.payload).map fun slice => { s with risk := slice }
  | .exec => (reduceExec platform s.exec envelope.payload).map fun slice => { s with exec := slice }
  | .news => some { s with news := reduceNews s.news envelope.payload }
  | .psych => (reducePsych s.psych envelope.payload).map fun slice => { s with psych := slice }
  | .alerts => some { s with alerts := Cockpit.applyEnvelope env s.alerts envelope }
  | .replay => (reduceReplay s.replay envelope.payload).map fun slice => { s with replay := slice }
  | .latency => (reduceLatency platform s.latency envelope.payload).map fun slice =>
      { s with latency := slice }
  | .control => some s

/-- `applyEnvelope`; `none` when it throws. -/
def applyEnvelope (platform : Platform) (env : StoreEnv) (s : CockpitState)
    (envelope : ServerEnvelope) (nowMs : ℤ) : Option CockpitState :=
  (reduce platform env s envelope).map fun next =>
    let m := stamped s.gatewayMeta envelope nowMs
    { next with
      gatewayMeta := m.withFeedStatus (feedStatusOf platform m next.market nowMs nowMs) }

end CockpitState

/-! ## Actions -/

/-- An action of the store. -/
inductive StoreAction where
  | setGatewayState (state : GatewayState) (nowMs : ℤ)
  | applyEnvelope (env : StoreEnv) (envelope : ServerEnvelope) (nowMs : ℤ)
  | pushAlert (alert : Alert)
  | setStrategyEnabled (strategy : String) (enabled : Bool)
  | setSymbolPriority (symbol tier : String)
  | setWarMode (next : WarModeStatus)
  | setDemoMode (active : Bool) (nowMs laterMs : ℤ)
  | recomputeFeedStatus (nowMs laterMs : ℤ)
  | reset (nowMs : ℤ)

namespace CockpitState

/-- The store after an action. -/
def step (platform : Platform) (s : CockpitState) : StoreAction → Unit × CockpitState
  | .setGatewayState state nowMs =>
    let m := { s.gatewayMeta with state := state, stateChangedAt := nowMs }
    ((), { s with gatewayMeta := m.withFeedStatus (feedStatusOf platform m s.market nowMs nowMs) })
  | .applyEnvelope env envelope nowMs =>
    ((), (s.applyEnvelope platform env envelope nowMs).getD s)
  | .pushAlert alert => ((), { s with alerts := sortAlerts (alert :: s.alerts) })
  | .setStrategyEnabled strategy enabled =>
    ((), { s with signals := { s.signals with
      enabledByStrategy := s.signals.enabledByStrategy.insert strategy enabled } })
  | .setSymbolPriority symbol tier =>
    ((), { s with signals := { s.signals with
      priorities := s.signals.priorities.insert symbol (.str tier) } })
  | .setWarMode next => ((), { s with warMode := next })
  | .setDemoMode active nowMs laterMs =>
    let m := { s.gatewayMeta with demoMode := active }
    ((), { s with
      gatewayMeta := m.withFeedStatus (feedStatusOf platform m s.market nowMs laterMs) })
  | .recomputeFeedStatus nowMs laterMs =>
    let status := feedStatusOf platform s.gatewayMeta s.market nowMs laterMs
    if s.gatewayMeta.feedStatus = status then ((), s)
    else ((), { s with gatewayMeta := s.gatewayMeta.withFeedStatus status })
  | .reset nowMs => ((), initial nowMs)

/-- The store after some actions. -/
def after (platform : Platform) (startMs : ℤ) (actions : List StoreAction) : CockpitState :=
  runState (step platform) (initial startMs) actions

end CockpitState

end Hedge.Cockpit
