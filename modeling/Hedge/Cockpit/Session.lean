import Hedge.Cockpit.Client
import Hedge.Common.Run
import Hedge.Gateway.Dispatcher

/-!
# A cockpit session against the gateway

Reference: `ui/src/hooks/useUiGatewaySocket.ts`, with `ui/src/lib/ws.ts` at one end of a connection
and `hedge-ui-gateway/src/gateway.rs` at the other.

A session is the client the hook mounts, and one gateway connection for each socket the client
creates. Frames of a connection are delivered in order; a connection may fail at any time, and then
delivers nothing more. The hook never subscribes to `/control`, and the gateway takes intents only
from a connection that did: `NoControl` is the invariant that carries this over a whole run.
-/

namespace Hedge.Cockpit

open Hedge.Common Hedge.Gateway

/-! ## The hook -/

/-- `ALL_CHANNELS`. -/
def allChannels : List ChannelId :=
  [.market, .orderflow, .signals, .risk, .exec, .news, .psych, .alerts, .replay, .latency]

/-- The single handler the hook registers on every channel. -/
def dispatch : ℕ := 0

/-- `ALL_CHANNELS.map((ch) => client.subscribe(ch, dispatch))`. -/
def subscribeAll (c : GatewayClient) : List ChannelId → List Sent × GatewayClient
  | [] => ([], c)
  | channel :: channels =>
    let r := c.subscribe channel dispatch
    let rest := subscribeAll r.2 channels
    (r.1 ++ rest.1, rest.2)

/-- `for (const off of offs) off()`. -/
def unsubscribeAll (c : GatewayClient) : List ChannelId → List Sent × GatewayClient
  | [] => ([], c)
  | channel :: channels =>
    let r := c.unsubscribe channel dispatch
    let rest := unsubscribeAll r.2 channels
    (r.1 ++ rest.1, rest.2)

/-! ## Sessions -/

/-- The network path of a socket and the gateway connection at its end. -/
structure Connection where
  up : Bool
  inFlight : List Json
  subs : Subscriptions

/-- A fresh connection. -/
def Connection.fresh : Connection := ⟨true, [], ∅⟩

/-- A frame leaves the client. -/
def Connection.enqueue (conn : Connection) (frame : Json) : Connection :=
  { conn with inFlight := conn.inFlight ++ [frame] }

/-- The client of a mounted hook, with its connections, indexed as its sockets are. -/
structure Session where
  mounted : Bool
  client : GatewayClient
  connections : List Connection

/-- What can happen in a session. -/
inductive Action where
  | setSymbols (symbols : List String)
  | sendIntent (intent : TraderIntent)
  | unmount
  | socketOpens (id : ℕ)
  | socketCloses (id : ℕ)
  | timerFires (t : ℕ)
  | linkFails (id : ℕ)
  | deliver (id : ℕ)

/-- What an observer sees of an action. -/
inductive Outcome where
  | nothing
  /-- `sendIntent` returned. -/
  | sent (ok : Bool)
  /-- A frame reached the gateway and was handled. -/
  | handled (frame : Json) (result : Handled)

namespace Session

/-- The client moved on: its new sockets get connections, and its messages leave. -/
def advance (s : Session) (sent : List Sent) (client : GatewayClient) : Session :=
  let opened := List.replicate (client.sockets.length - s.connections.length) Connection.fresh
  { s with
    client := client
    connections := sent.foldl
      (fun conns m => conns.modify m.socket fun conn => conn.enqueue m.message.frame)
      (s.connections ++ opened) }

/-- The session in which the hook just mounted. -/
def mount (opts : GatewayClientOptions) : Session :=
  let r := subscribeAll (.new opts) allChannels
  ({ mounted := true, client := .new opts, connections := [] } : Session).advance r.1 r.2.connect

/-- The gateway handles the next frame of a connection. -/
def deliver (env : GatewayEnv) (s : Session) (id : ℕ) : Outcome × Session :=
  match s.connections[id]? with
  | some ⟨true, frame :: rest, subs⟩ =>
    let r := handleFrame env subs frame
    (.handled frame r.1, { s with connections := s.connections.set id ⟨true, rest, r.2⟩ })
  | _ => (.nothing, s)

/-- One action of a session. -/
def step (env : GatewayEnv) (s : Session) : Action → Outcome × Session
  | .setSymbols symbols =>
    if s.mounted then
      let r := s.client.setSymbols symbols
      (.nothing, s.advance r.1 r.2)
    else (.nothing, s)
  | .sendIntent intent =>
    if s.mounted then
      let r := s.client.sendIntent intent
      (.sent r.1, s.advance r.2 s.client)
    else (.sent false, s)
  | .unmount =>
    if s.mounted then
      let r := unsubscribeAll s.client allChannels
      (.nothing, { s.advance r.1 r.2.disconnect with mounted := false })
    else (.nothing, s)
  | .socketOpens id =>
    let r := s.client.socketOpens id
    (.nothing, s.advance r.1 r.2)
  | .socketCloses id => (.nothing, s.advance [] (s.client.socketCloses id))
  | .timerFires t => (.nothing, s.advance [] (s.client.timerFires t))
  | .linkFails id =>
    (.nothing, { s with connections := s.connections.modify id fun c => { c with up := false } })
  | .deliver id => s.deliver env id

end Session

/-! ## Frames the client sends -/

/-- The gateway's name of a channel. -/
def ChannelId.gateway : ChannelId → Channel
  | .market => .market
  | .orderflow => .orderflow
  | .signals => .signals
  | .risk => .risk
  | .exec => .exec
  | .news => .news
  | .psych => .psych
  | .alerts => .alerts
  | .replay => .replay
  | .latency => .latency
  | .control => .control

@[simp] theorem ChannelId.parse_wire (c : ChannelId) : Channel.parse c.wire = some c.gateway := by
  cases c <;> rfl

@[simp] theorem ChannelId.gateway_eq_control_iff (c : ChannelId) :
    c.gateway = .control ↔ c = .control := by
  cases c <;> decide

theorem mapM_asStr_str (topics : List String) :
    topics.mapM (Json.asStr ∘ Json.str) = some topics := by
  induction topics with
  | nil => rfl
  | cons topic topics ih => simp [List.mapM_cons, ih]

theorem parse_frame_subscribe (channel : ChannelId) (topics : Option (List String)) :
    ClientMsg.parse (ClientMessage.subscribe channel topics).frame
      = some (.subscribe none channel.gateway (topics.getD [])) := by
  cases topics <;>
    simp [ClientMsg.parse, ClientMessage.frame, readRequestId, readChannel, readTopics,
      mapM_asStr_str]

theorem parse_frame_unsubscribe (channel : ChannelId) :
    ClientMsg.parse (ClientMessage.unsubscribe channel).frame
      = some (.unsubscribe none channel.gateway) := by
  simp [ClientMsg.parse, ClientMessage.frame, readRequestId, readChannel]

theorem parse_frame_intent (i : TraderIntent) :
    ClientMsg.parse (ClientMessage.intent i).frame
      = (IntentKind.parse i.kind).map fun kind => .intent none kind (.obj i.fields) := by
  cases i <;>
    simp [ClientMsg.parse, ClientMessage.frame, readRequestId, readKind,
      TraderIntent.kind, IntentKind.parse]

/-- A frame that joins `/control`. -/
def JoinsControl (frame : Json) : Prop :=
  ∃ requestId topics, ClientMsg.parse frame = some (.subscribe requestId .control topics)

/-- A message that does not subscribe to `/control`. -/
def ClientMessage.Harmless (msg : ClientMessage) : Prop :=
  ∀ topics, msg ≠ .subscribe .control topics

theorem ClientMessage.Harmless.not_joinsControl {msg : ClientMessage} (h : msg.Harmless) :
    ¬JoinsControl msg.frame := by
  rintro ⟨requestId, topics, hparse⟩
  cases msg with
  | subscribe channel ts =>
    rw [parse_frame_subscribe] at hparse
    have hcontrol : channel.gateway = .control := by
      injection hparse with hmsg
      injection hmsg
    rw [ChannelId.gateway_eq_control_iff] at hcontrol
    subst hcontrol
    exact h ts rfl
  | unsubscribe channel =>
    rw [parse_frame_unsubscribe] at hparse
    cases hparse
  | intent i =>
    rw [parse_frame_intent] at hparse
    cases hkind : IntentKind.parse i.kind <;> simp [hkind] at hparse

/-! ## No subscription to `/control` -/

/-- A connection that has not joined `/control` and never will by what is in flight. -/
structure Connection.NoControl (conn : Connection) : Prop where
  inFlight : ∀ frame ∈ conn.inFlight, ¬JoinsControl frame
  subs : conn.subs.isSubscribed .control = false

/-- The session has not joined `/control` on any connection and has nothing left that would. -/
structure Session.NoControl (s : Session) : Prop where
  subscribed : ChannelId.control ∉ s.client.subscribed
  connections : ∀ conn ∈ s.connections, conn.NoControl

theorem Connection.noControl_fresh : Connection.fresh.NoControl where
  inFlight _ h := by cases h
  subs := rfl

theorem Connection.NoControl.enqueue {conn : Connection} (h : conn.NoControl)
    {msg : ClientMessage} (hmsg : msg.Harmless) : (conn.enqueue msg.frame).NoControl where
  inFlight frame hframe := by
    rcases List.mem_append.mp hframe with hold | hnew
    · exact h.inFlight frame hold
    · rw [List.mem_singleton.mp hnew]
      exact hmsg.not_joinsControl
  subs := h.subs

/-- Handling the next frame keeps a connection out of `/control`. -/
theorem Connection.NoControl.handleFrame {env : GatewayEnv} {frame : Json} {rest : List Json}
    {subs : Subscriptions} (h : (⟨true, frame :: rest, subs⟩ : Connection).NoControl) :
    (⟨true, rest, (Gateway.handleFrame env subs frame).2⟩ : Connection).NoControl where
  inFlight f hf := h.inFlight f (List.mem_cons_of_mem _ hf)
  subs := isSubscribed_handleFrame h.subs fun requestId topics hparse =>
    h.inFlight frame List.mem_cons_self ⟨requestId, topics, hparse⟩

theorem forall_mem_modify {α : Type*} {P : α → Prop} {f : α → α} (hf : ∀ x, P x → P (f x))
    {l : List α} (h : ∀ x ∈ l, P x) (i : ℕ) : ∀ x ∈ l.modify i f, P x := by
  intro x hx
  obtain ⟨j, hj, rfl⟩ := List.mem_iff_getElem.mp hx
  have hmem : ∀ k (hk : k < l.length), P l[k] := fun k hk => h _ (List.getElem_mem hk)
  rw [List.getElem_modify]
  have hlt : j < l.length := by simpa using hj
  split_ifs
  · exact hf _ (hmem j hlt)
  · exact hmem j hlt

/-- Harmless messages of a client that is not subscribed to `/control` keep the invariant. -/
theorem Session.NoControl.advance {s : Session} (h : s.NoControl) {sent : List Sent}
    {client : GatewayClient} (hsent : ∀ m ∈ sent, m.message.Harmless)
    (hclient : ChannelId.control ∉ client.subscribed) : (s.advance sent client).NoControl where
  subscribed := hclient
  connections := by
    have hopened : ∀ conn ∈ s.connections ++ List.replicate
        (client.sockets.length - s.connections.length) Connection.fresh, conn.NoControl := by
      intro conn hconn
      rcases List.mem_append.mp hconn with hold | hnew
      · exact h.connections conn hold
      · rw [List.eq_of_mem_replicate hnew]
        exact Connection.noControl_fresh
    -- Induction on the messages: each one lands on one connection.
    simp only [Session.advance]
    generalize s.connections ++ List.replicate _ Connection.fresh = conns at hopened ⊢
    induction sent generalizing conns with
    | nil => exact hopened
    | cons m sent ih =>
      refine ih (fun m hm => hsent m (List.mem_cons_of_mem _ hm)) _ ?_
      exact forall_mem_modify (fun conn hconn => hconn.enqueue (hsent m List.mem_cons_self))
        hopened m.socket

/-! ### Messages of a client that is not subscribed to `/control` -/

section Client

variable {c : GatewayClient}

theorem harmless_sendSubscribe {channel : ChannelId} (h : channel ≠ .control) :
    ∀ m ∈ c.sendSubscribe channel, m.message.Harmless := by
  intro m hm topics hsub
  rw [GatewayClient.message_of_mem_send hm] at hsub
  injection hsub with hchannel
  exact h hchannel

theorem harmless_setSymbols (symbols : List String) :
    ∀ m ∈ (c.setSymbols symbols).1, m.message.Harmless := by
  intro m hm
  rcases List.mem_append.mp hm with hmarket | horderflow
  · split_ifs at hmarket
    · exact harmless_sendSubscribe (by decide) m hmarket
    · cases hmarket
  · split_ifs at horderflow
    · exact harmless_sendSubscribe (by decide) m horderflow
    · cases horderflow

theorem harmless_socketOpens (h : ChannelId.control ∉ c.subscribed) (id : ℕ) :
    ∀ m ∈ (c.socketOpens id).1, m.message.Harmless := by
  intro m hm
  simp only [GatewayClient.socketOpens] at hm
  split_ifs at hm
  · obtain ⟨channel, hchannel, hsent⟩ := List.mem_flatMap.mp hm
    refine harmless_sendSubscribe ?_ m hsent
    rintro rfl
    exact h hchannel
  · cases hm

theorem harmless_unsubscribe (channel : ChannelId) (handler : ℕ) :
    ∀ m ∈ (c.unsubscribe channel handler).1, m.message.Harmless := by
  intro m hm topics hsub
  simp only [GatewayClient.unsubscribe] at hm
  split at hm
  · cases hm
  · split_ifs at hm
    · rw [GatewayClient.message_of_mem_send hm] at hsub
      cases hsub
    · cases hm

theorem harmless_subscribe {channel : ChannelId} (h : channel ≠ .control) (handler : ℕ) :
    ∀ m ∈ (c.subscribe channel handler).1, m.message.Harmless := by
  intro m hm
  simp only [GatewayClient.subscribe] at hm
  split_ifs at hm
  · cases hm
  · exact harmless_sendSubscribe h m hm

/-- The clean-up of the hook drops subscriptions. -/
theorem unsubscribeAll_spec (h : ChannelId.control ∉ c.subscribed) (channels : List ChannelId) :
    (∀ m ∈ (unsubscribeAll c channels).1, m.message.Harmless) ∧
      ChannelId.control ∉ (unsubscribeAll c channels).2.subscribed := by
  induction channels generalizing c with
  | nil => exact ⟨fun _ hm => (List.not_mem_nil hm).elim, h⟩
  | cons channel channels ih =>
    have hnext := @ih (c.unsubscribe channel dispatch).2
      fun hmem => h (GatewayClient.mem_subscribed_of_unsubscribe hmem)
    refine ⟨fun m hm => ?_, hnext.2⟩
    rcases List.mem_append.mp hm with hhead | htail
    · exact harmless_unsubscribe channel dispatch m hhead
    · exact hnext.1 m htail

/-- The effect of the hook subscribes to the listed channels only. -/
theorem subscribeAll_spec (h : ChannelId.control ∉ c.subscribed) {channels : List ChannelId}
    (hchannels : ChannelId.control ∉ channels) :
    (∀ m ∈ (subscribeAll c channels).1, m.message.Harmless) ∧
      ChannelId.control ∉ (subscribeAll c channels).2.subscribed := by
  induction channels generalizing c with
  | nil => exact ⟨fun _ hm => (List.not_mem_nil hm).elim, h⟩
  | cons channel channels ih =>
    have hchannel : channel ≠ .control := by
      rintro rfl
      exact hchannels List.mem_cons_self
    have hsubscribed : ChannelId.control ∉ (c.subscribe channel dispatch).2.subscribed := by
      intro hmem
      rcases GatewayClient.mem_subscribed_of_subscribe hmem with hold | hnew
      · exact h hold
      · exact hchannel hnew.symm
    have hnext := ih hsubscribed fun hmem => hchannels (List.mem_cons_of_mem _ hmem)
    refine ⟨fun m hm => ?_, hnext.2⟩
    rcases List.mem_append.mp hm with hhead | htail
    · exact harmless_subscribe hchannel dispatch m hhead
    · exact hnext.1 m htail

end Client

/-! ### Steps and runs -/

/-- `ALL_CHANNELS` does not name `/control`. -/
theorem Session.noControl_mount (opts : GatewayClientOptions) :
    (Session.mount opts).NoControl := by
  have hnew : ChannelId.control ∉ (GatewayClient.new opts).subscribed := by
    simp [GatewayClient.new]
  have hchannels : ChannelId.control ∉ allChannels := by decide
  obtain ⟨hsent, hsubscribed⟩ := subscribeAll_spec hnew hchannels
  have hempty : (⟨true, .new opts, []⟩ : Session).NoControl :=
    ⟨hnew, fun _ h => (List.not_mem_nil h).elim⟩
  refine hempty.advance hsent ?_
  rwa [GatewayClient.subscribed_connect]

/-- Delivering a frame keeps the invariant. -/
theorem Session.NoControl.deliver {s : Session} (h : s.NoControl) (env : GatewayEnv) (id : ℕ) :
    (s.deliver env id).2.NoControl := by
  unfold Session.deliver
  split
  · rename_i frame rest subs hconn
    refine ⟨h.subscribed, fun conn hmem => ?_⟩
    rcases List.mem_or_eq_of_mem_set hmem with hold | rfl
    · exact h.connections conn hold
    · exact (h.connections _ (List.mem_of_getElem? hconn)).handleFrame
  · exact h

/-- No action joins `/control`. -/
theorem Session.NoControl.step {s : Session} (h : s.NoControl) (env : GatewayEnv) (a : Action) :
    (s.step env a).2.NoControl := by
  cases a with
  | setSymbols symbols =>
    simp only [Session.step]
    split_ifs
    · exact h.advance (harmless_setSymbols symbols) (by simpa using h.subscribed)
    · exact h
  | sendIntent intent =>
    simp only [Session.step]
    split_ifs
    · refine h.advance (fun m hm topics hsub => ?_) h.subscribed
      rw [GatewayClient.message_of_mem_send hm] at hsub
      cases hsub
    · exact h
  | unmount =>
    simp only [Session.step]
    split_ifs
    · have hspec := unsubscribeAll_spec h.subscribed allChannels
      generalize unsubscribeAll s.client allChannels = r at hspec ⊢
      have hadvance : (s.advance r.1 r.2.disconnect).NoControl := h.advance hspec.1 hspec.2
      exact ⟨hadvance.subscribed, hadvance.connections⟩
    · exact h
  | socketOpens id =>
    exact h.advance (harmless_socketOpens h.subscribed id) (by simpa using h.subscribed)
  | socketCloses id =>
    exact h.advance (fun _ hm => (List.not_mem_nil hm).elim) (by simpa using h.subscribed)
  | timerFires t =>
    exact h.advance (fun _ hm => (List.not_mem_nil hm).elim) (by simpa using h.subscribed)
  | linkFails id =>
    exact ⟨h.subscribed, forall_mem_modify (fun _ hconn => ⟨hconn.inFlight, hconn.subs⟩)
      h.connections id⟩
  | deliver id => exact h.deliver env id

/-- No run of the hook's client joins `/control`. -/
theorem Session.noControl_run (env : GatewayEnv) (opts : GatewayClientOptions)
    (acts : List Action) : (runState (Session.step env) (.mount opts) acts).NoControl :=
  runState_invariant_along (Session.step env) Session.NoControl (Session.noControl_mount opts)
    fun _ a _ _ h => h.step env a

end Hedge.Cockpit
