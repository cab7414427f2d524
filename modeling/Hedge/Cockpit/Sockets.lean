import Hedge.Cockpit.Subscribing

/-!
# The sockets of a client

Reference: `ui/src/lib/ws.ts`.

`GatewayClient.OneSocket` says that each socket but the current one is gone. Every method and every
handler keeps it, a reconnect timer only when it finds no socket. `GatewayClient.Quietly` is what
they do besides: no socket opens, and what is wanted stays.
-/

namespace Hedge.Cockpit

/-! ## One socket -/

/-- A socket is connecting or open. -/
def GatewayClient.Live (c : GatewayClient) (id : ℕ) : Prop :=
  ∃ ws, c.sockets[id]? = some ws ∧ (ws.readyState = .connecting ∨ ws.readyState = .open)

/-- A socket that is connecting or open and still tells the client when it closes. -/
def WebSocket.Alive (ws : WebSocket) : Prop :=
  (ws.readyState = .connecting ∨ ws.readyState = .open) ∧ ws.onclose = true

/-- A socket that is closed, or closing without telling the client. -/
def WebSocket.Gone (ws : WebSocket) : Prop :=
  ws.readyState = .closed ∨ ws.readyState = .closing ∧ ws.onclose = false

theorem WebSocket.Gone.not_live {ws : WebSocket} (h : ws.Gone) :
    ¬(ws.readyState = .connecting ∨ ws.readyState = .open) := by
  rintro (hlive | hlive)
  · rcases h with hgone | ⟨hgone, -⟩ <;> rw [hlive] at hgone <;> cases hgone
  · rcases h with hgone | ⟨hgone, -⟩ <;> rw [hlive] at hgone <;> cases hgone

/-- Each socket but the current one is gone, and there is a current one only while the client
runs. -/
structure GatewayClient.OneSocket (c : GatewayClient) : Prop where
  each : ∀ id ws, c.sockets[id]? = some ws → ws.Gone ∨ c.socket = some id ∧ ws.Alive
  current : ∀ id, c.socket = some id → ∃ ws, c.sockets[id]? = some ws ∧ ws.Alive
  running : c.socket ≠ none → c.shouldRun = true ∧ c.opts.urlValid = true

section Sockets

variable {c c' : GatewayClient}

theorem GatewayClient.OneSocket.current_of_live (h : c.OneSocket) {id : ℕ} (hlive : c.Live id) :
    c.socket = some id := by
  obtain ⟨ws, hws, hstate⟩ := hlive
  rcases h.each id ws hws with hgone | ⟨hcurrent, -⟩
  · exact absurd hstate hgone.not_live
  · exact hcurrent

theorem GatewayClient.OneSocket.live_of_current (h : c.OneSocket) {id : ℕ}
    (hcurrent : c.socket = some id) : c.Live id := by
  obtain ⟨ws, hws, halive⟩ := h.current id hcurrent
  exact ⟨ws, hws, halive.1⟩

/-- Only the sockets, the current one and whether the client runs matter. -/
theorem GatewayClient.OneSocket.congr (h : c.OneSocket) (hsockets : c'.sockets = c.sockets)
    (hsocket : c'.socket = c.socket) (hrun : c.socket ≠ none → c'.shouldRun = true)
    (hopts : c'.opts = c.opts) : c'.OneSocket := by
  refine ⟨fun id ws => ?_, fun id => ?_, fun hne => ?_⟩
  · rw [hsockets, hsocket]
    exact h.each id ws
  · rw [hsockets, hsocket]
    exact h.current id
  · rw [hsocket] at hne
    rw [hopts]
    exact ⟨hrun hne, (h.running hne).2⟩

/-- A socket is opened when there is none. -/
theorem GatewayClient.OneSocket.openSocket (h : c.OneSocket) (hnone : c.socket = none)
    (hrun : c.shouldRun = true) : c.openSocket.OneSocket := by
  rw [GatewayClient.openSocket]
  dsimp only
  by_cases hvalid : c.opts.urlValid = true
  · rw [if_pos hvalid]
    refine ⟨fun id ws hws => ?_, fun id hid => ?_, fun _ => ⟨hrun, hvalid⟩⟩
    · replace hws : (c.sockets ++ [⟨.connecting, true⟩])[id]? = some ws := hws
      rw [List.getElem?_append] at hws
      split_ifs at hws with hlt
      · rcases h.each id ws hws with hgone | ⟨hcurrent, -⟩
        · exact .inl hgone
        · rw [hnone] at hcurrent
          cases hcurrent
      · have hlen : id - c.sockets.length = 0 := by
          obtain ⟨hbound, -⟩ := List.getElem?_eq_some_iff.mp hws
          rw [List.length_singleton] at hbound
          omega
        rw [hlen] at hws
        refine .inr ⟨?_, ?_⟩
        · show some c.sockets.length = some id
          congr 1
          omega
        · rw [← Option.some.inj hws]
          exact ⟨.inl rfl, rfl⟩
    · obtain rfl : c.sockets.length = id := Option.some.inj hid
      exact ⟨⟨.connecting, true⟩, List.getElem?_concat_length, .inl rfl, rfl⟩
  · rw [if_neg hvalid]
    exact h.congr rfl rfl (fun hne => absurd hnone hne) rfl

theorem GatewayClient.OneSocket.connect (h : c.OneSocket) : c.connect.OneSocket := by
  have hrun : GatewayClient.OneSocket { c with shouldRun := true } :=
    h.congr rfl rfl (fun _ => rfl) rfl
  rw [GatewayClient.connect]
  dsimp only
  split_ifs with hsome
  · exact hrun
  · exact hrun.openSocket (Option.not_isSome_iff_eq_none.mp hsome) rfl

theorem GatewayClient.OneSocket.timerFires (h : c.OneSocket) {t : ℕ}
    (htimely : t ∈ c.timers → c.shouldRun = true → c.socket = none) :
    (c.timerFires t).OneSocket := by
  rw [GatewayClient.timerFires]
  split_ifs with ht
  · have hfired : GatewayClient.OneSocket
        { c with timers := c.timers.erase t, reconnectTimer := none } :=
      h.congr rfl rfl (fun hne => (h.running hne).1) rfl
    dsimp only
    split_ifs with hrun
    · exact hfired.openSocket (htimely ht hrun) hrun
    · exact hfired
  · exact h

/-- One socket changes and stays what it was. -/
theorem GatewayClient.OneSocket.keep (h : c.OneSocket) {id : ℕ} {f : WebSocket → WebSocket}
    (hsockets : c'.sockets = c.sockets.modify id f) (hsocket : c'.socket = c.socket)
    (hf : ∀ ws, c.sockets[id]? = some ws → ws.Gone ∧ (f ws).Gone ∨ ws.Alive ∧ (f ws).Alive)
    (hrun : c'.shouldRun = c.shouldRun) (hopts : c'.opts = c.opts) : c'.OneSocket := by
  refine ⟨fun i ws hws => ?_, fun i hi => ?_, fun hne => ?_⟩
  · rw [hsockets, List.getElem?_modify] at hws
    obtain ⟨old, hold, rfl⟩ := Option.map_eq_some_iff.mp hws
    rw [hsocket]
    by_cases hid : id = i
    · subst hid
      rw [if_pos rfl]
      rcases h.each id old hold with hgone | ⟨hcurrent, halive⟩
      · rcases hf old hold with ⟨-, hstill⟩ | ⟨halive, -⟩
        · exact .inl hstill
        · exact absurd halive.1 hgone.not_live
      · rcases hf old hold with ⟨hgone, -⟩ | ⟨-, hstill⟩
        · exact absurd halive.1 hgone.not_live
        · exact .inr ⟨hcurrent, hstill⟩
    · rw [if_neg hid]
      exact h.each i old hold
  · rw [hsocket] at hi
    obtain ⟨old, hold, halive⟩ := h.current i hi
    refine ⟨if id = i then f old else old, ?_, ?_⟩
    · rw [hsockets, List.getElem?_modify, hold]
      rfl
    · by_cases hid : id = i
      · subst hid
        rw [if_pos rfl]
        rcases hf old hold with ⟨hgone, -⟩ | ⟨-, hstill⟩
        · exact absurd halive.1 hgone.not_live
        · exact hstill
      · rw [if_neg hid]
        exact halive
  · rw [hsocket] at hne
    rw [hrun, hopts]
    exact h.running hne

/-- The current socket is gone. -/
theorem GatewayClient.OneSocket.drop (h : c.OneSocket) {id : ℕ} {f : WebSocket → WebSocket}
    (hcurrent : c.socket = some id) (hsockets : c'.sockets = c.sockets.modify id f)
    (hsocket : c'.socket = none) (hf : ∀ ws, (f ws).Gone) : c'.OneSocket := by
  refine ⟨fun i ws hws => .inl ?_, fun i hi => ?_, fun hne => absurd hsocket hne⟩
  · rw [hsockets, List.getElem?_modify] at hws
    obtain ⟨old, hold, rfl⟩ := Option.map_eq_some_iff.mp hws
    by_cases hid : id = i
    · rw [if_pos hid]
      exact hf old
    · rw [if_neg hid]
      rcases h.each i old hold with hgone | ⟨hother, -⟩
      · exact hgone
      · exact absurd (Option.some.inj (hcurrent.symm.trans hother)) hid
  · rw [hsocket] at hi
    cases hi

theorem WebSocket.gone_detachAndClose (ws : WebSocket) : ws.detachAndClose.Gone := by
  rw [WebSocket.detachAndClose]
  by_cases hclosed : ws.readyState = .closed
  · rw [if_pos hclosed]
    exact .inl rfl
  · rw [if_neg hclosed]
    exact .inr ⟨rfl, rfl⟩

theorem GatewayClient.OneSocket.disconnect (h : c.OneSocket) : c.disconnect.OneSocket := by
  cases hsocket : c.socket with
  | none =>
    apply h.congr
    · rw [GatewayClient.disconnect, hsocket]
    · exact hsocket.symm
    · intro hne
      exact absurd hsocket hne
    · rfl
  | some id =>
    apply h.drop hsocket
    · rw [GatewayClient.disconnect, hsocket]
    · rfl
    · exact WebSocket.gone_detachAndClose

/-- A socket closes: the current one, or one that is gone. -/
theorem GatewayClient.OneSocket.socketCloses (h : c.OneSocket) (id : ℕ) :
    (c.socketCloses id).OneSocket := by
  rw [GatewayClient.socketCloses]
  split
  · exact h
  · rename_i ws hws
    by_cases hclosed : ws.readyState = .closed
    · rw [if_pos hclosed]
      exact h
    · rw [if_neg hclosed]
      rcases h.each id ws hws with hgone | ⟨hcurrent, halive⟩
      · have hdetached : ws.onclose = false := (hgone.resolve_left hclosed).2
        rw [hdetached]
        refine h.keep rfl rfl (fun ws' hws' => .inl ⟨?_, .inl rfl⟩) rfl rfl
        rw [hws] at hws'
        cases hws'
        exact hgone
      · rw [halive.2]
        have hdropped : GatewayClient.OneSocket { c with
            sockets := c.sockets.modify id fun ws => { ws with readyState := .closed }
            socket := none } :=
          h.drop hcurrent rfl rfl fun _ => .inl rfl
        dsimp only
        rw [if_pos rfl]
        split_ifs
        · exact hdropped.congr rfl rfl (fun hne => absurd rfl hne) rfl
        · exact hdropped.congr rfl rfl (fun hne => absurd rfl hne) rfl

/-- Only the current socket can open. -/
theorem GatewayClient.OneSocket.socketOpens (h : c.OneSocket) (id : ℕ) :
    (c.socketOpens id).2.OneSocket := by
  rw [GatewayClient.socketOpens]
  by_cases hconnecting : c.sockets[id]?.map (·.readyState) = some .connecting
  · rw [if_pos hconnecting]
    refine h.keep rfl rfl (fun ws hws => .inr ?_) rfl rfl
    rw [hws] at hconnecting
    have hstate : ws.readyState = .connecting := Option.some.inj hconnecting
    rcases h.each id ws hws with hgone | ⟨-, halive⟩
    · exact absurd (.inl hstate) hgone.not_live
    · exact ⟨halive, .inr rfl, halive.2⟩
  · rw [if_neg hconnecting]
    exact h

end Sockets

/-! ## What the sockets leave alone -/

/-- Sockets may have been created, closed or dropped, and what is wanted is the same. -/
structure GatewayClient.Quietly (c c' : GatewayClient) : Prop where
  length : c.sockets.length ≤ c'.sockets.length
  connecting : ∀ (id : ℕ) (ws : WebSocket), c'.sockets[id]? = some ws →
    ws.readyState = .connecting → id < c.sockets.length →
      ∃ old, c.sockets[id]? = some old ∧ old.readyState = .connecting
  isOpen : ∀ id, c'.openSocketId = some id → c.openSocketId = some id
  handlers : c'.handlers = c.handlers
  subscribed : c'.subscribed = c.subscribed
  symbols : c'.symbols = c.symbols

theorem GatewayClient.Quietly.wanted {c c' : GatewayClient} (h : c.Quietly c') :
    c'.wanted = c.wanted := by
  funext channel
  rw [GatewayClient.wanted, GatewayClient.wanted, h.handlers, GatewayClient.topicsOf,
    GatewayClient.topicsOf, h.symbols]

theorem GatewayClient.Quietly.booked {c c' : GatewayClient} (h : c.Quietly c') (hc : c.Booked) :
    c'.Booked := by
  refine ⟨?_, ?_, ?_⟩
  · rw [h.handlers]
    exact hc.bucket_ne_empty
  · rw [h.handlers, h.subscribed]
    exact hc.mem_subscribed
  · rw [h.subscribed]
    exact hc.nodup

/-- Whether a socket is the open one. -/
theorem GatewayClient.openSocketId_eq_some {c : GatewayClient} {id : ℕ} :
    c.openSocketId = some id ↔
      c.socket = some id ∧ ∃ ws, c.sockets[id]? = some ws ∧ ws.readyState = .open := by
  rw [GatewayClient.openSocketId, Option.filter_eq_some_iff, decide_eq_true_iff]
  exact and_congr_right fun _ => Option.map_eq_some_iff

theorem GatewayClient.Quietly.of_same {c c' : GatewayClient} (hsockets : c'.sockets = c.sockets)
    (hsocket : c'.socket = c.socket) (hhandlers : c'.handlers = c.handlers)
    (hsubscribed : c'.subscribed = c.subscribed) (hsymbols : c'.symbols = c.symbols) :
    c.Quietly c' := by
  refine ⟨le_of_eq (congrArg _ hsockets.symm), fun id ws hws hstate _ => ⟨ws, ?_, hstate⟩,
    fun id hid => ?_, hhandlers, hsubscribed, hsymbols⟩
  · rw [← hsockets]
    exact hws
  · rw [GatewayClient.openSocketId_eq_some, hsockets, hsocket] at hid
    exact GatewayClient.openSocketId_eq_some.mpr hid

theorem GatewayClient.Quietly.trans {c c' c'' : GatewayClient} (h : c.Quietly c')
    (h' : c'.Quietly c'') : c.Quietly c'' := by
  refine ⟨h.length.trans h'.length, fun id ws hws hstate hlt => ?_,
    fun id hid => h.isOpen id (h'.isOpen id hid), h'.handlers.trans h.handlers,
    h'.subscribed.trans h.subscribed, h'.symbols.trans h.symbols⟩
  obtain ⟨old, hold, hold'⟩ := h'.connecting id ws hws hstate (hlt.trans_le h.length)
  exact h.connecting id old hold hold' hlt

/-- A socket that stops being connecting or open, whether it stays the current one or not. -/
theorem GatewayClient.Quietly.of_modify {c c' : GatewayClient} {id : ℕ}
    {f : WebSocket → WebSocket} (hsockets : c'.sockets = c.sockets.modify id f)
    (hsocket : ∀ i, c'.socket = some i → c.socket = some i)
    (hf : ∀ ws, ¬((f ws).readyState = .connecting ∨ (f ws).readyState = .open))
    (hhandlers : c'.handlers = c.handlers) (hsubscribed : c'.subscribed = c.subscribed)
    (hsymbols : c'.symbols = c.symbols) : c.Quietly c' := by
  have hget : ∀ (i : ℕ) (ws : WebSocket), c'.sockets[i]? = some ws →
      (ws.readyState = .connecting ∨ ws.readyState = .open) → c.sockets[i]? = some ws := by
    intro i ws hws hstate
    rw [hsockets, List.getElem?_modify] at hws
    obtain ⟨old, hold, rfl⟩ := Option.map_eq_some_iff.mp hws
    by_cases hid : id = i
    · rw [if_pos hid] at hstate
      exact absurd hstate (hf old)
    · rw [if_neg hid]
      exact hold
  refine ⟨?_, fun i ws hws hstate _ => ⟨ws, hget i ws hws (.inl hstate), hstate⟩, fun i hi => ?_,
    hhandlers, hsubscribed, hsymbols⟩
  · rw [hsockets, List.length_modify]
  · obtain ⟨hcurrent, ws, hws, hopen⟩ := GatewayClient.openSocketId_eq_some.mp hi
    exact GatewayClient.openSocketId_eq_some.mpr
      ⟨hsocket i hcurrent, ws, hget i ws hws (.inr hopen), hopen⟩

theorem GatewayClient.quietly_openSocket (c : GatewayClient) : c.Quietly c.openSocket := by
  rw [GatewayClient.openSocket]
  dsimp only
  by_cases hvalid : c.opts.urlValid = true
  · rw [if_pos hvalid]
    refine ⟨?_, fun id ws hws hstate hlt => ⟨ws, ?_, hstate⟩, fun id hid => ?_, rfl, rfl, rfl⟩
    · rw [List.length_append]
      exact Nat.le_add_right _ _
    · rw [← hws]
      exact (List.getElem?_append_left hlt).symm
    · obtain ⟨hcurrent, ws, hws, hopen⟩ := GatewayClient.openSocketId_eq_some.mp hid
      obtain rfl : c.sockets.length = id := Option.some.inj hcurrent
      replace hws : (c.sockets ++ [⟨.connecting, true⟩])[c.sockets.length]? = some ws := hws
      rw [List.getElem?_concat_length] at hws
      cases hws
      cases hopen
  · rw [if_neg hvalid]
    exact .of_same rfl rfl rfl rfl rfl

theorem GatewayClient.quietly_connect (c : GatewayClient) : c.Quietly c.connect := by
  have hrun : c.Quietly { c with shouldRun := true } := .of_same rfl rfl rfl rfl rfl
  rw [GatewayClient.connect]
  dsimp only
  split_ifs
  · exact hrun
  · exact hrun.trans (GatewayClient.quietly_openSocket _)

theorem GatewayClient.quietly_timerFires (c : GatewayClient) (t : ℕ) :
    c.Quietly (c.timerFires t) := by
  rw [GatewayClient.timerFires]
  split_ifs
  · have hfired : c.Quietly { c with timers := c.timers.erase t, reconnectTimer := none } :=
      .of_same rfl rfl rfl rfl rfl
    dsimp only
    split_ifs
    · exact hfired.trans (GatewayClient.quietly_openSocket _)
    · exact hfired
  · exact .of_same rfl rfl rfl rfl rfl

theorem GatewayClient.quietly_disconnect (c : GatewayClient) : c.Quietly c.disconnect := by
  cases hsocket : c.socket with
  | none =>
    apply GatewayClient.Quietly.of_same
    · rw [GatewayClient.disconnect, hsocket]
    · exact hsocket.symm
    · rfl
    · rfl
    · rfl
  | some id =>
    have hsockets : c.disconnect.sockets = c.sockets.modify id WebSocket.detachAndClose := by
      rw [GatewayClient.disconnect, hsocket]
    exact .of_modify hsockets (fun i hi => by cases hi)
      (fun ws => ws.gone_detachAndClose.not_live) rfl rfl rfl

theorem GatewayClient.quietly_socketCloses (c : GatewayClient) (id : ℕ) :
    c.Quietly (c.socketCloses id) := by
  have hclosed : ∀ ws : WebSocket, ¬(({ ws with readyState := .closed } : WebSocket).readyState =
      .connecting ∨ ({ ws with readyState := .closed } : WebSocket).readyState = .open) := by
    rintro ws (h | h) <;> cases h
  rw [GatewayClient.socketCloses]
  split
  · exact .of_same rfl rfl rfl rfl rfl
  · dsimp only
    split_ifs
    · exact .of_same rfl rfl rfl rfl rfl
    · exact .of_modify rfl (fun i hi => by cases hi) hclosed rfl rfl rfl
    · exact .of_modify rfl (fun i hi => by cases hi) hclosed rfl rfl rfl
    · exact .of_modify rfl (fun i hi => hi) hclosed rfl rfl rfl

end Hedge.Cockpit
