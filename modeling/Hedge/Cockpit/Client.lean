import Hedge.BrokerApi
import Hedge.Common.Json

/-!
# The cockpit's gateway client

Reference: `ui/src/types/control.ts`, `ui/src/types/envelope.ts`, `ui/src/lib/ws.ts`.

The client object and the browser objects it owns (its sockets and its pending timers) form one
state. A method or an event handler returns the next state and the messages it handed to a socket.
Timers carry no delay: a pending timer may fire at any time. Inbound frames change nothing here.
-/

namespace Hedge.Cockpit

open Hedge Hedge.Common Hedge.BrokerApi

/-! ## Trader intents -/

/-- The strategies the cockpit can toggle. -/
inductive StrategyName where
  | openingRangeBreakout
  | vwapPullback
  | momentumBreakout
  | liquiditySweepReversal
  | optionsOiExpansionBreakout
  | volatilityCompressionBreakout
deriving DecidableEq, Repr

/-- The string literal of a strategy. -/
def StrategyName.wire : StrategyName → String
  | .openingRangeBreakout => "OpeningRangeBreakout"
  | .vwapPullback => "VwapPullback"
  | .momentumBreakout => "MomentumBreakout"
  | .liquiditySweepReversal => "LiquiditySweepReversal"
  | .optionsOiExpansionBreakout => "OptionsOiExpansionBreakout"
  | .volatilityCompressionBreakout => "VolatilityCompressionBreakout"

/-- Symbol priority tiers. -/
inductive PriorityTier where
  | p1
  | p2
  | p3
  | p4
deriving DecidableEq, Repr

/-- The string literal of a tier. -/
def PriorityTier.wire : PriorityTier → String
  | .p1 => "P1"
  | .p2 => "P2"
  | .p3 => "P3"
  | .p4 => "P4"

/-- Replay speeds: `1 | 10 | "max"`. -/
inductive ReplaySpeed where
  | one
  | ten
  | max
deriving DecidableEq, Repr

/-- Replay commands. -/
inductive ReplayCommandIntent where
  | list
  | load (sessionId : String)
  | play (sessionId : Option String) (speed : ReplaySpeed)
  | pause
  | step
  | scrub (sequenceNo : JsonNumber)
deriving DecidableEq

/-- The JSON of a replay command. -/
def ReplayCommandIntent.toJson : ReplayCommandIntent → Json
  | .list => .obj [("op", .str "list")]
  | .load sessionId => .obj [("op", .str "load"), ("session_id", .str sessionId)]
  | .play sessionId speed => .obj <|
      [("op", .str "play")] ++ (sessionId.map fun s => ("session_id", Json.str s)).toList ++
      [("speed", match speed with
        | .one => .ofU64 1
        | .ten => .ofU64 10
        | .max => .str "max")]
  | .pause => .obj [("op", .str "pause")]
  | .step => .obj [("op", .str "step")]
  | .scrub sequenceNo => .obj [("op", .str "scrub"), ("sequence_no", .num sequenceNo)]

/-- Trader → server intents. A JavaScript number is given by its JSON form. -/
inductive TraderIntent where
  | killswitch (engaged : Bool) (reason : Option String)
  | strategyToggle (strategy : StrategyName) (enabled : Bool)
  | priority (symbol : String) (tier : PriorityTier)
  | order (symbol : String) (side : Side) (quantity : JsonNumber)
      (orderType : BrokerApi.OrderType) (limitPaise : Option JsonNumber) (exchange : Exchange)
  | replay (command : ReplayCommandIntent)
  | tradingMode (live : Bool)
deriving DecidableEq

namespace TraderIntent

/-- The `kind` of an intent. -/
def kind : TraderIntent → String
  | killswitch .. => "killswitch"
  | strategyToggle .. => "strategy_toggle"
  | priority .. => "priority"
  | order .. => "order"
  | replay .. => "replay"
  | tradingMode .. => "trading_mode"

/-- The fields of an intent other than its kind; an absent optional field is left out. -/
def fields : TraderIntent → List (String × Json)
  | killswitch engaged reason =>
    [("engaged", .bool engaged)] ++ (reason.map fun r => ("reason", Json.str r)).toList
  | strategyToggle strategy enabled =>
    [("strategy", .str strategy.wire), ("enabled", .bool enabled)]
  | priority symbol tier => [("symbol", .str symbol), ("to", .str tier.wire)]
  | order symbol side quantity orderType limitPaise exchange =>
    [("symbol", .str symbol),
      ("side", .str (match side with | .buy => "Buy" | .sell => "Sell")),
      ("quantity", .num quantity),
      ("order_type", .str (match orderType with | .market => "Market" | .limit => "Limit"))] ++
    (limitPaise.map fun n => ("limit_paise", Json.num n)).toList ++
    [("exchange", .str (match exchange with | .nse => "NSE" | .bse => "BSE"))]
  | replay command => [("command", command.toJson)]
  | tradingMode live => [("live", .bool live)]

end TraderIntent

/-! ## Client messages -/

/-- `ChannelId`. -/
inductive ChannelId where
  | market
  | orderflow
  | signals
  | risk
  | exec
  | news
  | psych
  | alerts
  | replay
  | latency
  | control
deriving DecidableEq, Repr

/-- The string literal of a channel. -/
def ChannelId.wire : ChannelId → String
  | .market => "market"
  | .orderflow => "orderflow"
  | .signals => "signals"
  | .risk => "risk"
  | .exec => "exec"
  | .news => "news"
  | .psych => "psych"
  | .alerts => "alerts"
  | .replay => "replay"
  | .latency => "latency"
  | .control => "control"

/-- `ClientMessage`, as the client builds it: without a request id. -/
inductive ClientMessage where
  | subscribe (channel : ChannelId) (topics : Option (List String))
  | unsubscribe (channel : ChannelId)
  | intent (intent : TraderIntent)

/-- `JSON.stringify`, with `intentToMessage` for an intent. -/
def ClientMessage.frame : ClientMessage → Json
  | subscribe channel topics => .obj <|
      [("type", .str "subscribe"), ("channel", .str channel.wire)] ++
      (topics.map fun ts => ("topics", Json.arr (ts.map .str))).toList
  | unsubscribe channel => .obj [("type", .str "unsubscribe"), ("channel", .str channel.wire)]
  | intent i =>
    .obj [("type", .str "intent"), ("kind", .str i.kind), ("payload", .obj i.fields)]

/-! ## Client state -/

/-- `WebSocket.readyState`. -/
inductive ReadyState where
  | connecting
  | open
  | closing
  | closed
deriving DecidableEq, Repr

/-- A socket the client created. -/
structure WebSocket where
  readyState : ReadyState
  /-- Whether the `onclose` handler is attached. -/
  onclose : Bool
deriving DecidableEq, Repr

/-- `WebSocket.close` after the handler was detached. -/
def WebSocket.detachAndClose (ws : WebSocket) : WebSocket :=
  ⟨if ws.readyState = .closed then .closed else .closing, false⟩

/-- `GatewayState`. -/
inductive GatewayState where
  | connecting
  | open
  | reconnecting
  | closed
deriving DecidableEq, Repr

/-- `GatewayClientOptions`; `urlValid` says whether `new WebSocket(url)` succeeds. -/
structure GatewayClientOptions where
  urlValid : Bool
  initialReconnectMs : ℕ
  maxReconnectMs : ℕ
  symbols : Option (List String)

/-- `GatewayClient`, with its sockets and its pending timers. -/
structure GatewayClient where
  opts : GatewayClientOptions
  handlers : Map ChannelId (Finset ℕ)
  /-- The subscribed channels, in insertion order. -/
  subscribed : List ChannelId
  symbols : Option (List String)
  socket : Option ℕ
  state : GatewayState
  reconnectMs : ℕ
  reconnectTimer : Option ℕ
  shouldRun : Bool
  sockets : List WebSocket
  timers : List ℕ
  nextTimer : ℕ

/-- A message handed to a socket. -/
structure Sent where
  socket : ℕ
  message : ClientMessage

namespace GatewayClient

/-- The constructor. -/
def new (opts : GatewayClientOptions) : GatewayClient where
  opts := opts
  handlers := ∅
  subscribed := []
  symbols := opts.symbols
  socket := none
  state := .closed
  reconnectMs := opts.initialReconnectMs
  reconnectTimer := none
  shouldRun := false
  sockets := []
  timers := []
  nextTimer := 0

/-! ## Sending -/

/-- The socket `send` writes to: the current one, when it is open. -/
def openSocketId (c : GatewayClient) : Option ℕ :=
  c.socket.filter fun id => (c.sockets[id]?.map (·.readyState)) = some .open

/-- `send`: whether the message was handed to a socket, and to which one. -/
def send (c : GatewayClient) (msg : ClientMessage) : Bool × List Sent :=
  match c.openSocketId with
  | none => (false, [])
  | some id => (true, [⟨id, msg⟩])

/-- The message of `sendSubscribe`: the symbol filter goes with the two per-symbol channels. -/
def subscribeMessage (c : GatewayClient) (channel : ChannelId) : ClientMessage :=
  .subscribe channel <|
    if channel = .market ∨ channel = .orderflow then c.symbols.filter (· ≠ []) else none

/-- `sendSubscribe`. -/
def sendSubscribe (c : GatewayClient) (channel : ChannelId) : List Sent :=
  (c.send (c.subscribeMessage channel)).2

/-- `sendIntent`. -/
def sendIntent (c : GatewayClient) (intent : TraderIntent) : Bool × List Sent :=
  c.send (.intent intent)

/-! ## Connection management -/

/-- `scheduleReconnect`. -/
def scheduleReconnect (c : GatewayClient) : GatewayClient :=
  { c with
    state := .reconnecting
    reconnectMs := min c.opts.maxReconnectMs (c.reconnectMs * 2)
    reconnectTimer := some c.nextTimer
    timers := c.timers ++ [c.nextTimer]
    nextTimer := c.nextTimer + 1 }

/-- `openSocket`. -/
def openSocket (c : GatewayClient) : GatewayClient :=
  let c := { c with state := if c.socket.isSome then .reconnecting else .connecting }
  if c.opts.urlValid then
    { c with sockets := c.sockets ++ [⟨.connecting, true⟩], socket := some c.sockets.length }
  else c.scheduleReconnect

/-- `connect`. -/
def connect (c : GatewayClient) : GatewayClient :=
  let c := { c with shouldRun := true }
  if c.socket.isSome then c else c.openSocket

/-- `disconnect`. -/
def disconnect (c : GatewayClient) : GatewayClient :=
  { c with
    shouldRun := false
    timers := match c.reconnectTimer with
      | some t => c.timers.erase t
      | none => c.timers
    reconnectTimer := none
    sockets := match c.socket with
      | some id => c.sockets.modify id WebSocket.detachAndClose
      | none => c.sockets
    socket := none
    state := .closed }

/-! ## Subscriptions -/

/-- `subscribe`. -/
def subscribe (c : GatewayClient) (channel : ChannelId) (handler : ℕ) :
    List Sent × GatewayClient :=
  let bucket := insert handler ((c.handlers.lookup channel).getD ∅)
  let c := { c with handlers := c.handlers.insert channel bucket }
  if channel ∈ c.subscribed then ([], c)
  else
    let c := { c with subscribed := c.subscribed ++ [channel] }
    (c.sendSubscribe channel, c)

/-- The function `subscribe` returns. -/
def unsubscribe (c : GatewayClient) (channel : ChannelId) (handler : ℕ) :
    List Sent × GatewayClient :=
  match c.handlers.lookup channel with
  | none => ([], c)
  | some live =>
    let live := live.erase handler
    if live = ∅ then
      let c := { c with
        handlers := c.handlers.erase channel
        subscribed := c.subscribed.erase channel }
      ((c.send (.unsubscribe channel)).2, c)
    else ([], { c with handlers := c.handlers.insert channel live })

/-- `setSymbols`. -/
def setSymbols (c : GatewayClient) (symbols : List String) : List Sent × GatewayClient :=
  let c := { c with symbols := some symbols }
  ((if ChannelId.market ∈ c.subscribed then c.sendSubscribe .market else []) ++
    (if ChannelId.orderflow ∈ c.subscribed then c.sendSubscribe .orderflow else []), c)

/-! ## Browser events -/

/-- A connecting socket opens: `onopen` replays every subscription. -/
def socketOpens (c : GatewayClient) (id : ℕ) : List Sent × GatewayClient :=
  if c.sockets[id]?.map (·.readyState) = some .connecting then
    let c := { c with
      sockets := c.sockets.modify id fun ws => { ws with readyState := .open }
      reconnectMs := c.opts.initialReconnectMs
      state := .open }
    (c.subscribed.flatMap c.sendSubscribe, c)
  else ([], c)

/-- A socket closes: `onclose`, when attached, schedules a reconnect. -/
def socketCloses (c : GatewayClient) (id : ℕ) : GatewayClient :=
  match c.sockets[id]? with
  | none => c
  | some ws =>
    if ws.readyState = .closed then c
    else
      let c := { c with sockets := c.sockets.modify id fun ws => { ws with readyState := .closed } }
      if ws.onclose then
        let c := { c with socket := none }
        if c.shouldRun then c.scheduleReconnect else { c with state := .closed }
      else c

/-- A pending reconnect timer fires. -/
def timerFires (c : GatewayClient) (t : ℕ) : GatewayClient :=
  if t ∈ c.timers then
    let c := { c with timers := c.timers.erase t, reconnectTimer := none }
    if c.shouldRun then c.openSocket else c
  else c

/-! ## What the methods leave alone -/

theorem message_of_mem_send {c : GatewayClient} {msg : ClientMessage} {m : Sent}
    (hm : m ∈ (c.send msg).2) : m.message = msg := by
  unfold send at hm
  cases h : c.openSocketId with
  | none =>
    rw [h] at hm
    cases hm
  | some id =>
    rw [h] at hm
    rw [List.mem_singleton.mp hm]

@[simp] theorem subscribed_openSocket (c : GatewayClient) :
    c.openSocket.subscribed = c.subscribed := by
  simp only [openSocket]
  split_ifs <;> rfl

@[simp] theorem subscribed_connect (c : GatewayClient) : c.connect.subscribed = c.subscribed := by
  simp only [connect]
  split_ifs
  · rfl
  · exact subscribed_openSocket _

@[simp] theorem subscribed_setSymbols (c : GatewayClient) (symbols : List String) :
    (c.setSymbols symbols).2.subscribed = c.subscribed := rfl

@[simp] theorem subscribed_socketOpens (c : GatewayClient) (id : ℕ) :
    (c.socketOpens id).2.subscribed = c.subscribed := by
  simp only [socketOpens]
  split_ifs <;> rfl

@[simp] theorem subscribed_socketCloses (c : GatewayClient) (id : ℕ) :
    (c.socketCloses id).subscribed = c.subscribed := by
  simp only [socketCloses]
  split
  · rfl
  · split_ifs <;> rfl

@[simp] theorem subscribed_timerFires (c : GatewayClient) (t : ℕ) :
    (c.timerFires t).subscribed = c.subscribed := by
  simp only [timerFires]
  split_ifs
  · exact subscribed_openSocket _
  · rfl
  · rfl

/-- Dropping a handler subscribes to nothing. -/
theorem mem_subscribed_of_unsubscribe {c : GatewayClient} {channel : ChannelId} {handler : ℕ}
    {ch : ChannelId} (h : ch ∈ (c.unsubscribe channel handler).2.subscribed) :
    ch ∈ c.subscribed := by
  simp only [unsubscribe] at h
  split at h
  · exact h
  · split_ifs at h
    · exact List.mem_of_mem_erase h
    · exact h

/-- Adding a handler subscribes to its channel at most. -/
theorem mem_subscribed_of_subscribe {c : GatewayClient} {channel : ChannelId} {handler : ℕ}
    {ch : ChannelId} (h : ch ∈ (c.subscribe channel handler).2.subscribed) :
    ch ∈ c.subscribed ∨ ch = channel := by
  simp only [subscribe] at h
  split_ifs at h
  · exact .inl h
  · simpa using h

end GatewayClient

end Hedge.Cockpit
