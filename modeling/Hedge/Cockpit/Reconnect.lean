import Hedge.Cockpit.Sockets

/-!
# One connection in step with the subscriptions

Reference: `ui/src/lib/ws.ts` at one end, `hedge-ui-gateway/src/subscriptions.rs` at the other.

Any calls on a client, any events of its sockets and timers, and the gateway that handles the frames
of each connection. `Session.OneConnection` is what the client is for. It breaks when a reconnect
timer fires while there is a socket, and only then: `connect` opens a socket at once and leaves a
pending timer where it is.
-/

namespace Hedge.Cockpit

open Hedge.Common Hedge.Gateway

/-! ## Calls and events -/

/-- A call on the client, an event of the browser, or a frame that reaches the gateway. -/
inductive ClientEvent where
  | connect
  | disconnect
  | subscribe (channel : ChannelId) (handler : ℕ)
  | unsubscribe (channel : ChannelId) (handler : ℕ)
  | setSymbols (symbols : List String)
  | socketOpens (id : ℕ)
  | socketCloses (id : ℕ)
  | timerFires (t : ℕ)
  | deliver (id : ℕ)

namespace Session

/-- A new client. -/
def start (opts : GatewayClientOptions) : Session := ⟨true, .new opts, []⟩

/-- One call or event. -/
def clientStep (env : GatewayEnv) (s : Session) : ClientEvent → Outcome × Session
  | .connect => (.nothing, s.advance [] s.client.connect)
  | .disconnect => (.nothing, s.advance [] s.client.disconnect)
  | .subscribe channel handler =>
    let r := s.client.subscribe channel handler
    (.nothing, s.advance r.1 r.2)
  | .unsubscribe channel handler =>
    let r := s.client.unsubscribe channel handler
    (.nothing, s.advance r.1 r.2)
  | .setSymbols symbols =>
    let r := s.client.setSymbols symbols
    (.nothing, s.advance r.1 r.2)
  | .socketOpens id =>
    let r := s.client.socketOpens id
    (.nothing, s.advance r.1 r.2)
  | .socketCloses id => (.nothing, s.advance [] (s.client.socketCloses id))
  | .timerFires t => (.nothing, s.advance [] (s.client.timerFires t))
  | .deliver id => s.deliver env id

/-- The session after the calls and events. -/
def clientRun (env : GatewayEnv) (opts : GatewayClientOptions) (events : List ClientEvent) :
    Session :=
  runState (clientStep env) (start opts) events

end Session

/-! ## What the client is for -/

/-- At most one socket is connecting or open, none while the client is disconnected, and the gateway
holds what is wanted once it has handled all frames of the open socket. -/
structure Session.OneConnection (s : Session) : Prop where
  one : ∀ i j, s.client.Live i → s.client.Live j → i = j
  none : s.client.shouldRun = false → ∀ i, ¬s.client.Live i
  inStep : ∀ id conn, s.client.openSocketId = some id → s.connections[id]? = some conn →
    conn.inFlight = [] → ∀ channel, conn.subs.lookup channel.gateway = s.client.wanted channel

/-- A reconnect timer that fires finds no socket, if the client is to run. -/
def ClientEvent.Timely (s : Session) : ClientEvent → Prop
  | .timerFires t => t ∈ s.client.timers → s.client.shouldRun = true → s.client.socket = none
  | _ => True

/-! ## The connections -/

/-- The messages of a list that go to a socket. -/
def framesTo (sent : List Sent) (id : ℕ) : List Json :=
  (sent.filter fun m => m.socket = id).map fun m => m.message.frame

theorem framesTo_cons (m : Sent) (sent : List Sent) (id : ℕ) :
    framesTo (m :: sent) id =
      if m.socket = id then m.message.frame :: framesTo sent id else framesTo sent id := by
  rw [framesTo, framesTo, List.filter_cons]
  by_cases hm : m.socket = id
  · rw [if_pos (decide_eq_true hm), if_pos hm, List.map_cons]
  · rw [if_neg (by simpa using hm), if_neg hm]

theorem length_foldl_enqueue (sent : List Sent) (conns : List Connection) :
    (sent.foldl (fun conns m => conns.modify m.socket fun conn => conn.enqueue m.message.frame)
      conns).length = conns.length := by
  induction sent generalizing conns with
  | nil => rfl
  | cons m sent ih =>
    rw [List.foldl_cons, ih]
    exact List.length_modify _ _ _

/-- Frames leave the client. -/
def Connection.enqueueAll (frames : List Json) (conn : Connection) : Connection :=
  { conn with inFlight := conn.inFlight ++ frames }

@[simp] theorem Connection.enqueueAll_nil (conn : Connection) : conn.enqueueAll [] = conn := by
  rw [enqueueAll, List.append_nil]

theorem Connection.enqueueAll_enqueue (frame : Json) (frames : List Json) (conn : Connection) :
    (conn.enqueue frame).enqueueAll frames = conn.enqueueAll (frame :: frames) := by
  show (⟨conn.up, (conn.inFlight ++ [frame]) ++ frames, conn.subs⟩ : Connection) = _
  rw [List.append_assoc]
  rfl

/-- Each connection gets the frames of its socket. -/
theorem getElem?_foldl_enqueue (sent : List Sent) (conns : List Connection) (i : ℕ) :
    (sent.foldl (fun conns m => conns.modify m.socket fun conn => conn.enqueue m.message.frame)
      conns)[i]? = conns[i]?.map (Connection.enqueueAll (framesTo sent i)) := by
  induction sent generalizing conns with
  | nil =>
    cases hconn : conns[i]? with
    | none => exact hconn
    | some conn =>
      show conns[i]? = some (conn.enqueueAll [])
      rw [hconn, Connection.enqueueAll_nil]
  | cons m sent ih =>
    rw [List.foldl_cons, ih, List.getElem?_modify, framesTo_cons]
    cases conns[i]? with
    | none => rfl
    | some conn =>
      show some (Connection.enqueueAll _ (if m.socket = i then _ else conn)) = some _
      by_cases hm : m.socket = i
      · rw [if_pos hm, if_pos hm, Connection.enqueueAll_enqueue]
      · rw [if_neg hm, if_neg hm]

/-- The connections of the sockets: a connecting one has heard nothing, and what the open one has
heard and is about to hear leads to `target`. -/
structure Session.Linked (env : GatewayEnv) (target : ChannelId → Option (Finset String))
    (s : Session) : Prop where
  length : s.connections.length = s.client.sockets.length
  fresh : ∀ (id : ℕ) (ws : WebSocket), s.client.sockets[id]? = some ws →
    ws.readyState = .connecting → s.connections[id]? = some Connection.fresh
  settled : ∀ (id : ℕ) (conn : Connection), s.client.openSocketId = some id →
    s.connections[id]? = some conn → held (settle env conn.subs conn.inFlight) = target

section Sessions

variable {env : GatewayEnv} {s : Session} {client : GatewayClient}
  {before after : ChannelId → Option (Finset String)}

/-- Nothing goes to a socket that is not the open one. -/
theorem GatewayClient.Tells.framesTo_of_ne {c : GatewayClient} {sent : List Sent}
    (h : c.Tells sent before after) {id : ℕ} (hne : c.openSocketId ≠ some id) :
    framesTo sent id = [] := by
  rw [framesTo, List.map_eq_nil_iff, List.filter_eq_nil_iff]
  intro m hm hto
  rcases h with ⟨-, rfl⟩ | ⟨cur, hcur, hall, -⟩
  · cases hm
  · rw [← hall m hm, of_decide_eq_true hto] at hcur
    exact hne hcur

/-- Everything goes to the open socket. -/
theorem GatewayClient.Tells.framesTo_of_open {c : GatewayClient} {sent : List Sent}
    (h : c.Tells sent before after) {id : ℕ} (hopen : c.openSocketId = some id) :
    framesTo sent id = sent.map (fun m => m.message.frame) ∧ effect before sent = after := by
  rcases h with ⟨hnone, -⟩ | ⟨cur, hcur, hall, heffect⟩
  · rw [hopen] at hnone
    cases hnone
  · obtain rfl : id = cur := Option.some.inj (hopen.symm.trans hcur)
    refine ⟨?_, heffect⟩
    rw [framesTo, List.filter_eq_self.mpr fun m hm => decide_eq_true (hall m hm)]

/-- What the client says to its open socket leads the gateway on. -/
theorem Session.Linked.tells (h : s.Linked env before) {sent : List Sent}
    (hsockets : client.sockets = s.client.sockets) (hsocket : client.socket = s.client.socket)
    (htells : s.client.Tells sent before after) : (s.advance sent client).Linked env after := by
  have hopen : client.openSocketId = s.client.openSocketId := by
    rw [GatewayClient.openSocketId, hsockets, hsocket]
    rfl
  have hnew : client.sockets.length - s.connections.length = 0 := by
    rw [hsockets, h.length, Nat.sub_self]
  have hget : ∀ id, (s.advance sent client).connections[id]? =
      s.connections[id]?.map (Connection.enqueueAll (framesTo sent id)) := by
    intro id
    rw [Session.advance, hnew]
    dsimp only
    rw [getElem?_foldl_enqueue, List.replicate_zero, List.append_nil]
  refine ⟨?_, fun id ws hws hconnecting => ?_, fun id conn hid hconn => ?_⟩
  · rw [Session.advance, hnew]
    dsimp only
    rw [length_foldl_enqueue, List.replicate_zero, List.append_nil, hsockets, h.length]
  · replace hws : client.sockets[id]? = some ws := hws
    rw [hsockets] at hws
    have hne : s.client.openSocketId ≠ some id := by
      intro heq
      obtain ⟨-, ws', hws', hopened⟩ := GatewayClient.openSocketId_eq_some.mp heq
      obtain rfl := Option.some.inj (hws.symm.trans hws')
      rw [hconnecting] at hopened
      cases hopened
    rw [hget, h.fresh id ws hws hconnecting, htells.framesTo_of_ne hne, Option.map_some,
      Connection.enqueueAll_nil]
  · replace hid : client.openSocketId = some id := hid
    rw [hopen] at hid
    rw [hget] at hconn
    obtain ⟨old, hold, rfl⟩ := Option.map_eq_some_iff.mp hconn
    obtain ⟨hall, heffect⟩ := htells.framesTo_of_open hid
    show held (settle env old.subs (old.inFlight ++ framesTo sent id)) = after
    rw [hall, held_settle, h.settled id old hid hold]
    exact heffect

/-- Without a message the connections are the old ones and those of new sockets. -/
theorem Session.Linked.quietly (h : s.Linked env before) (hquiet : s.client.Quietly client) :
    (s.advance [] client).Linked env before := by
  have hconns : (s.advance [] client).connections = s.connections ++
      List.replicate (client.sockets.length - s.connections.length) Connection.fresh := rfl
  refine ⟨?_, fun id ws hws hstate => ?_, fun id conn hid hconn => ?_⟩
  · rw [hconns, List.length_append, List.length_replicate, h.length]
    exact Nat.add_sub_cancel' hquiet.length
  · replace hws : client.sockets[id]? = some ws := hws
    obtain ⟨hbound, -⟩ := List.getElem?_eq_some_iff.mp hws
    rw [hconns]
    by_cases hlt : id < s.client.sockets.length
    · obtain ⟨old, hold, hold'⟩ := hquiet.connecting id ws hws hstate hlt
      rw [List.getElem?_append_left (by rw [h.length]; exact hlt)]
      exact h.fresh id old hold hold'
    · rw [List.getElem?_append_right (by rw [h.length]; exact not_lt.mp hlt),
        List.getElem?_replicate, if_pos]
      rw [h.length]
      omega
  · have hopen := hquiet.isOpen id hid
    obtain ⟨-, ws, hws, -⟩ := GatewayClient.openSocketId_eq_some.mp hopen
    obtain ⟨hbound, -⟩ := List.getElem?_eq_some_iff.mp hws
    rw [hconns, List.getElem?_append_left (by rw [h.length]; exact hbound)] at hconn
    exact h.settled id conn hopen hconn

end Sessions

/-! ## Runs -/

/-- A session that keeps one connection in step. -/
structure Session.Tidy (env : GatewayEnv) (s : Session) : Prop where
  sockets : s.client.OneSocket
  booked : s.client.Booked
  linked : s.Linked env s.client.wanted

theorem Session.Tidy.oneConnection {env : GatewayEnv} {s : Session} (h : s.Tidy env) :
    s.OneConnection := by
  refine ⟨fun i j hi hj => ?_, fun hrun i hi => ?_, fun id conn hid hconn hempty channel => ?_⟩
  · have hsame := (h.sockets.current_of_live hi).symm.trans (h.sockets.current_of_live hj)
    exact Option.some.inj hsame
  · have hne : s.client.socket ≠ none := by
      rw [h.sockets.current_of_live hi]
      exact Option.some_ne_none i
    rw [(h.sockets.running hne).1] at hrun
    cases hrun
  · have hsettled := h.linked.settled id conn hid hconn
    rw [hempty] at hsettled
    exact congrFun hsettled channel

section Step

variable {env : GatewayEnv} {s : Session}

/-- A quiet change of the client with one socket before and after. -/
theorem Session.Tidy.quietly (h : s.Tidy env) {client : GatewayClient}
    (hquiet : s.client.Quietly client) (hsockets : client.OneSocket) :
    (s.advance [] client).Tidy env := by
  refine ⟨hsockets, hquiet.booked h.booked, ?_⟩
  show (s.advance [] client).Linked env client.wanted
  rw [hquiet.wanted]
  exact h.linked.quietly hquiet

/-- A change of the subscriptions that is told to the open socket. -/
theorem Session.Tidy.tells (h : s.Tidy env) {client : GatewayClient} {sent : List Sent}
    (hsockets : client.sockets = s.client.sockets) (hsocket : client.socket = s.client.socket)
    (hrun : client.shouldRun = s.client.shouldRun) (hopts : client.opts = s.client.opts)
    (hbooked : client.Booked) (htells : s.client.Tells sent s.client.wanted client.wanted) :
    (s.advance sent client).Tidy env :=
  ⟨h.sockets.congr hsockets hsocket (fun hne => hrun.trans (h.sockets.running hne).1) hopts,
    hbooked, h.linked.tells hsockets hsocket htells⟩

/-- The sockets are no matter of the subscriptions. -/
theorem GatewayClient.sockets_subscribe (c : GatewayClient) (channel : ChannelId) (handler : ℕ) :
    (c.subscribe channel handler).2.sockets = c.sockets ∧
      (c.subscribe channel handler).2.socket = c.socket ∧
      (c.subscribe channel handler).2.shouldRun = c.shouldRun ∧
      (c.subscribe channel handler).2.opts = c.opts := by
  rw [GatewayClient.subscribe]
  dsimp only
  split_ifs <;> exact ⟨rfl, rfl, rfl, rfl⟩

@[inherit_doc GatewayClient.sockets_subscribe]
theorem GatewayClient.sockets_unsubscribe (c : GatewayClient) (channel : ChannelId) (handler : ℕ) :
    (c.unsubscribe channel handler).2.sockets = c.sockets ∧
      (c.unsubscribe channel handler).2.socket = c.socket ∧
      (c.unsubscribe channel handler).2.shouldRun = c.shouldRun ∧
      (c.unsubscribe channel handler).2.opts = c.opts := by
  rw [GatewayClient.unsubscribe]
  split
  · exact ⟨rfl, rfl, rfl, rfl⟩
  · dsimp only
    split_ifs <;> exact ⟨rfl, rfl, rfl, rfl⟩

/-- The current socket opens: its connection is fresh, and hears of every subscription. -/
theorem Session.Tidy.socketOpens (h : s.Tidy env) (id : ℕ) :
    (s.advance (s.client.socketOpens id).1 (s.client.socketOpens id).2).Tidy env := by
  have hone := h.sockets.socketOpens id
  rw [GatewayClient.socketOpens] at hone ⊢
  by_cases hstate : s.client.sockets[id]?.map (·.readyState) = some .connecting
  · rw [if_pos hstate] at hone ⊢
    obtain ⟨ws, hws, hconnecting⟩ := Option.map_eq_some_iff.mp hstate
    have hcurrent := h.sockets.current_of_live ⟨ws, hws, .inl hconnecting⟩
    dsimp only at hone ⊢
    set client : GatewayClient := { s.client with
      sockets := s.client.sockets.modify id fun ws => { ws with readyState := .open }
      reconnectMs := s.client.opts.initialReconnectMs
      state := .open }
    have hbooked : client.Booked :=
      ⟨h.booked.bucket_ne_empty, h.booked.mem_subscribed, h.booked.nodup⟩
    have hopened : client.openSocketId = some id := by
      refine GatewayClient.openSocketId_eq_some.mpr
        ⟨hcurrent, { ws with readyState := .open }, ?_, rfl⟩
      show (s.client.sockets.modify id _)[id]? = _
      rw [List.getElem?_modify, hws]
      exact congrArg some (if_pos rfl)
    -- before the messages the gateway holds nothing
    have hlinked : Session.Linked env (fun _ => none) { s with client := client } := by
      refine ⟨?_, fun i ws' hws' hstate' => ?_, fun i conn hi hconn => ?_⟩
      · show s.connections.length = (s.client.sockets.modify id _).length
        rw [List.length_modify, h.linked.length]
      · replace hws' : (s.client.sockets.modify id _)[i]? = some ws' := hws'
        rw [List.getElem?_modify] at hws'
        obtain ⟨old, hold, rfl⟩ := Option.map_eq_some_iff.mp hws'
        by_cases hid : id = i
        · rw [if_pos hid] at hstate'
          cases hstate'
        · rw [if_neg hid] at hstate'
          exact h.linked.fresh i old hold hstate'
      · obtain rfl : id = i := Option.some.inj (hopened.symm.trans hi)
        obtain rfl := Option.some.inj ((h.linked.fresh id ws hws hconnecting).symm.trans hconn)
        rfl
    have hwanted : (fun ch => if ch ∈ client.subscribed then some (client.topicsOf ch) else none) =
        client.wanted := by
      funext ch
      rw [hbooked.wanted_eq]
    have htells := client.tells_subscriptions client.subscribed fun _ => none
    rw [hwanted] at htells
    exact ⟨hone, hbooked, hlinked.tells (s := { s with client := client }) rfl rfl htells⟩
  · rw [if_neg hstate]
    exact h.quietly (.of_same rfl rfl rfl rfl rfl) h.sockets

/-- The gateway handles the oldest frame of a connection. -/
theorem Session.Tidy.deliver (h : s.Tidy env) (id : ℕ) : (s.deliver env id).2.Tidy env := by
  rw [Session.deliver]
  split
  · rename_i frame rest subs hconn
    refine ⟨h.sockets, h.booked, ?_, fun i ws hws hstate => ?_, fun i conn hi hconn' => ?_⟩
    · show (s.connections.set id _).length = _
      rw [List.length_set, h.linked.length]
    · show (s.connections.set id _)[i]? = _
      have hfresh := h.linked.fresh i ws hws hstate
      by_cases hid : id = i
      · subst hid
        rw [hconn] at hfresh
        cases hfresh
      · rw [List.getElem?_set_ne hid]
        exact hfresh
    · replace hconn' : (s.connections.set id _)[i]? = some conn := hconn'
      by_cases hid : id = i
      · subst hid
        obtain ⟨hbound, -⟩ := List.getElem?_eq_some_iff.mp hconn
        rw [List.getElem?_set_self hbound] at hconn'
        obtain rfl := Option.some.inj hconn'
        have hsettled := h.linked.settled id _ hi hconn
        exact hsettled
      · rw [List.getElem?_set_ne hid] at hconn'
        exact h.linked.settled i conn hi hconn'
  · exact h

/-- **One call or event** keeps one connection in step, if it is no reconnect timer too many. -/
theorem Session.Tidy.clientStep (h : s.Tidy env) {event : ClientEvent} (htimely : event.Timely s) :
    (s.clientStep env event).2.Tidy env := by
  cases event with
  | connect => exact h.quietly s.client.quietly_connect h.sockets.connect
  | disconnect => exact h.quietly s.client.quietly_disconnect h.sockets.disconnect
  | subscribe channel handler =>
    obtain ⟨hsockets, hsocket, hrun, hopts⟩ := s.client.sockets_subscribe channel handler
    obtain ⟨hbooked, htells⟩ := h.booked.subscribe channel handler
    exact h.tells hsockets hsocket hrun hopts hbooked htells
  | unsubscribe channel handler =>
    obtain ⟨hsockets, hsocket, hrun, hopts⟩ := s.client.sockets_unsubscribe channel handler
    obtain ⟨hbooked, htells⟩ := h.booked.unsubscribe channel handler
    exact h.tells hsockets hsocket hrun hopts hbooked htells
  | setSymbols symbols =>
    obtain ⟨hbooked, htells⟩ := h.booked.setSymbols symbols
    exact h.tells rfl rfl rfl rfl hbooked htells
  | socketOpens id => exact h.socketOpens id
  | socketCloses id =>
    exact h.quietly (s.client.quietly_socketCloses id) (h.sockets.socketCloses id)
  | timerFires t => exact h.quietly (s.client.quietly_timerFires t) (h.sockets.timerFires htimely)
  | deliver id => exact h.deliver id

/-- A reconnect timer that fires while there is a socket leaves two that are connecting or open. -/
theorem Session.Tidy.timely (h : s.Tidy env) {event : ClientEvent}
    (hone : (s.clientStep env event).2.OneConnection) : event.Timely s := by
  cases event with
  | timerFires t =>
    intro ht hrun
    by_contra hne
    obtain ⟨id, hcurrent⟩ := Option.ne_none_iff_exists'.mp hne
    obtain ⟨ws, hws, hstate⟩ := h.sockets.live_of_current hcurrent
    obtain ⟨hbound, -⟩ := List.getElem?_eq_some_iff.mp hws
    have hsockets : (s.client.timerFires t).sockets =
        s.client.sockets ++ [⟨.connecting, true⟩] := by
      rw [GatewayClient.timerFires, if_pos ht]
      dsimp only
      rw [if_pos hrun, GatewayClient.openSocket]
      dsimp only
      rw [if_pos (h.sockets.running hne).2]
    have hold : (s.client.timerFires t).Live id := by
      refine ⟨ws, ?_, hstate⟩
      rw [hsockets, List.getElem?_append_left hbound]
      exact hws
    have hnew : (s.client.timerFires t).Live s.client.sockets.length := by
      refine ⟨⟨.connecting, true⟩, ?_, .inl rfl⟩
      rw [hsockets, List.getElem?_concat_length]
    exact hbound.ne (hone.one id _ hold hnew)
  | _ => exact trivial

end Step

/-- `connect` and `disconnect` alone say whether the client is to run. -/
theorem shouldRun_clientStep (env : GatewayEnv) (s : Session) (event : ClientEvent) :
    (s.clientStep env event).2.client.shouldRun = match event with
      | .connect => true
      | .disconnect => false
      | _ => s.client.shouldRun := by
  have hopen : ∀ c : GatewayClient, c.openSocket.shouldRun = c.shouldRun := by
    intro c
    rw [GatewayClient.openSocket]
    dsimp only
    split_ifs <;> rfl
  cases event with
  | connect =>
    show s.client.connect.shouldRun = true
    rw [GatewayClient.connect]
    dsimp only
    split_ifs
    · rfl
    · exact hopen _
  | disconnect => rfl
  | subscribe channel handler => exact (s.client.sockets_subscribe channel handler).2.2.1
  | unsubscribe channel handler => exact (s.client.sockets_unsubscribe channel handler).2.2.1
  | setSymbols symbols => rfl
  | socketOpens id =>
    show (s.client.socketOpens id).2.shouldRun = s.client.shouldRun
    rw [GatewayClient.socketOpens]
    split_ifs <;> rfl
  | socketCloses id =>
    show (s.client.socketCloses id).shouldRun = s.client.shouldRun
    rw [GatewayClient.socketCloses]
    split
    · rfl
    · dsimp only
      split_ifs <;> rfl
  | timerFires t =>
    show (s.client.timerFires t).shouldRun = s.client.shouldRun
    rw [GatewayClient.timerFires]
    dsimp only
    split_ifs
    · exact hopen _
    · rfl
    · rfl
  | deliver id =>
    show (s.deliver env id).2.client.shouldRun = s.client.shouldRun
    rw [Session.deliver]
    split <;> rfl

/-- A new client has nothing to keep in step. -/
theorem Session.tidy_start (env : GatewayEnv) (opts : GatewayClientOptions) :
    (Session.start opts).Tidy env := by
  refine ⟨⟨fun id ws hws => ?_, fun id hid => ?_, fun hne => absurd rfl hne⟩,
    ⟨fun channel bucket hlookup => ?_, fun channel => ?_, List.nodup_nil⟩,
    ⟨rfl, fun id ws hws => ?_, fun id conn hid => ?_⟩⟩
  · cases hws
  · cases hid
  · cases hlookup
  · exact ⟨fun hmem => absurd hmem List.not_mem_nil, fun hne => absurd rfl hne⟩
  · cases hws
  · cases hid

/-- **One connection in step with the subscriptions, exactly when** no reconnect timer fires while
the client has a socket. -/
theorem one_connection_iff (env : GatewayEnv) (opts : GatewayClientOptions)
    (events : List ClientEvent) :
    (∀ pre post, events = pre ++ post → (Session.clientRun env opts pre).OneConnection) ↔
      ∀ pre event post, events = pre ++ event :: post →
        event.Timely (Session.clientRun env opts pre) := by
  apply runState_observed_iff (Session.clientStep env) (Session.Tidy env) Session.OneConnection
    (fun s event => event.Timely s)
  · intro s hs
    exact hs.oneConnection
  · intro s event hs hone
    exact hs.timely hone
  · intro s event hs htimely
    exact hs.clientStep htimely
  · exact Session.tidy_start env opts

/-- `connect` while a reconnect is pending: the timer opens a second socket. -/
theorem connected_twice : ¬ ∀ (env : GatewayEnv) (opts : GatewayClientOptions)
    (events : List ClientEvent), ∀ pre post, events = pre ++ post →
      (Session.clientRun env opts pre).OneConnection := by
  intro h
  have hone := h ⟨fun _ _ => none, fun _ => ""⟩ ⟨true, 500, 10000, none⟩
    [.connect, .socketCloses 0, .connect, .timerFires 0] _ [] (List.append_nil _).symm
  have hsecond := hone.one 1 2 ⟨⟨.connecting, true⟩, rfl, .inl rfl⟩
    ⟨⟨.connecting, true⟩, rfl, .inl rfl⟩
  cases hsecond

end Hedge.Cockpit
