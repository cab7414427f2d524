import Hedge.Cockpit.Session

/-!
# What the client wants and what it says

Reference: `ui/src/lib/ws.ts`, `hedge-ui-gateway/src/subscriptions.rs`.

`GatewayClient.wanted` is what the gateway is to hold for each channel. Each method that changes it
says so to the open socket (`GatewayClient.Tells`), and the gateway does what the frames say
(`held_handleFrame`).
-/

namespace Hedge.Cockpit

open Hedge.Common Hedge.Gateway

/-! ## What is wanted -/

namespace GatewayClient

/-- The topics of a channel: the symbols on the two per-symbol channels, no filter on the others. -/
def topicsOf (c : GatewayClient) (channel : ChannelId) : Finset String :=
  if channel = .market ∨ channel = .orderflow then (c.symbols.getD []).toFinset else ∅

/-- What the gateway is to hold for a channel: its topics if it has a handler. -/
def wanted (c : GatewayClient) (channel : ChannelId) : Option (Finset String) :=
  match c.handlers.lookup channel with
  | some bucket => if bucket = ∅ then none else some (c.topicsOf channel)
  | none => none

end GatewayClient

/-! ## Frames and subscriptions -/

/-- What the gateway holds, by the client's names of the channels. -/
def held (subs : Subscriptions) (channel : ChannelId) : Option (Finset String) :=
  subs.lookup channel.gateway

/-- The subscriptions after a message of the client. -/
def ClientMessage.apply (held : ChannelId → Option (Finset String)) :
    ClientMessage → ChannelId → Option (Finset String)
  | .subscribe channel topics => Function.update held channel (some (topics.getD []).toFinset)
  | .unsubscribe channel => Function.update held channel none
  | .intent _ => held

/-- The subscriptions once the gateway has handled some frames. -/
def settle (env : GatewayEnv) (subs : Subscriptions) (frames : List Json) : Subscriptions :=
  frames.foldl (fun subs frame => (handleFrame env subs frame).2) subs

theorem ChannelId.gateway_injective : Function.Injective ChannelId.gateway := by
  intro a b h
  cases a <;> cases b <;> first | rfl | cases h

/-- **The gateway does what the message says.** -/
theorem held_handleFrame (env : GatewayEnv) (subs : Subscriptions) (msg : ClientMessage) :
    held (handleFrame env subs msg.frame).2 = msg.apply (held subs) := by
  funext ch
  rw [handleFrame]
  cases msg with
  | subscribe channel topics =>
    rw [parse_frame_subscribe]
    show (subs.subscribe channel.gateway (topics.getD [])).lookup ch.gateway = _
    rw [ClientMessage.apply, Subscriptions.subscribe]
    by_cases hch : ch = channel
    · rw [hch, AList.lookup_insert, Function.update_self]
    · rw [AList.lookup_insert_ne (ChannelId.gateway_injective.ne hch), Function.update_of_ne hch]
      rfl
  | unsubscribe channel =>
    rw [parse_frame_unsubscribe]
    show (subs.unsubscribe channel.gateway).lookup ch.gateway = _
    rw [ClientMessage.apply, Subscriptions.unsubscribe]
    by_cases hch : ch = channel
    · rw [hch, AList.lookup_erase, Function.update_self]
    · rw [AList.lookup_erase_ne (ChannelId.gateway_injective.ne hch), Function.update_of_ne hch]
      rfl
  | intent i =>
    rw [parse_frame_intent]
    cases IntentKind.parse i.kind <;> rfl

/-- What a list of messages makes of the subscriptions. -/
def effect (held : ChannelId → Option (Finset String)) (sent : List Sent) :
    ChannelId → Option (Finset String) :=
  sent.foldl (fun held m => m.message.apply held) held

theorem held_settle (env : GatewayEnv) (subs : Subscriptions) (frames : List Json)
    (sent : List Sent) :
    held (settle env subs (frames ++ sent.map fun m => m.message.frame)) =
      effect (held (settle env subs frames)) sent := by
  induction sent generalizing frames with
  | nil =>
    rw [List.map_nil, List.append_nil]
    rfl
  | cons m sent ih =>
    rw [List.map_cons, List.append_cons, ih]
    show effect _ sent = effect _ sent
    congr 1
    rw [settle, List.foldl_append]
    exact held_handleFrame env _ m.message

/-! ## What the methods say -/

/-- The subscribed channels are those with a handler. -/
structure GatewayClient.Booked (c : GatewayClient) : Prop where
  bucket_ne_empty : ∀ channel bucket, c.handlers.lookup channel = some bucket → bucket ≠ ∅
  mem_subscribed : ∀ channel, channel ∈ c.subscribed ↔ c.handlers.lookup channel ≠ none
  nodup : c.subscribed.Nodup

/-- Messages to the open socket, if there is one, that lead from one set of subscriptions to
another. -/
def GatewayClient.Tells (c : GatewayClient) (sent : List Sent)
    (before after : ChannelId → Option (Finset String)) : Prop :=
  (c.openSocketId = none ∧ sent = []) ∨
    ∃ id, c.openSocketId = some id ∧ (∀ m ∈ sent, m.socket = id) ∧ effect before sent = after

section Methods

variable {c : GatewayClient}

theorem GatewayClient.Booked.wanted_eq (h : c.Booked) (channel : ChannelId) :
    c.wanted channel = if channel ∈ c.subscribed then some (c.topicsOf channel) else none := by
  rw [GatewayClient.wanted]
  cases hlookup : c.handlers.lookup channel with
  | none => rw [if_neg fun hmem => (h.mem_subscribed channel).mp hmem hlookup]
  | some bucket =>
    have hmem : channel ∈ c.subscribed := (h.mem_subscribed channel).mpr (by simp [hlookup])
    rw [if_pos hmem]
    exact if_neg (h.bucket_ne_empty channel bucket hlookup)

theorem GatewayClient.tells_nil (c : GatewayClient) (held : ChannelId → Option (Finset String)) :
    c.Tells [] held held := by
  cases h : c.openSocketId with
  | none => exact .inl ⟨h, rfl⟩
  | some id => exact .inr ⟨id, h, fun m hm => absurd hm List.not_mem_nil, rfl⟩

theorem GatewayClient.tells_send (c : GatewayClient) (msg : ClientMessage)
    (held : ChannelId → Option (Finset String)) : c.Tells (c.send msg).2 held (msg.apply held) := by
  rw [GatewayClient.send]
  cases h : c.openSocketId with
  | none => exact .inl ⟨h, rfl⟩
  | some id =>
    refine .inr ⟨id, h, fun m hm => ?_, rfl⟩
    obtain rfl := List.mem_singleton.mp hm
    rfl

theorem GatewayClient.Tells.append {first second : List Sent}
    {before mid after : ChannelId → Option (Finset String)} (h : c.Tells first before mid)
    (h' : c.Tells second mid after) : c.Tells (first ++ second) before after := by
  rcases h with ⟨hnone, rfl⟩ | ⟨id, hid, hfirst, heffect⟩
  · rcases h' with ⟨-, rfl⟩ | ⟨id, hid, -⟩
    · exact .inl ⟨hnone, rfl⟩
    · rw [hnone] at hid
      cases hid
  · rcases h' with ⟨hnone, -⟩ | ⟨id', hid', hsecond, heffect'⟩
    · rw [hnone] at hid
      cases hid
    · obtain rfl : id = id' := Option.some.inj (hid.symm.trans hid')
      refine .inr ⟨id, hid, fun m hm => (List.mem_append.mp hm).elim (hfirst m) (hsecond m), ?_⟩
      rw [effect, List.foldl_append]
      exact (congrArg (fun held => effect held second) heffect).trans heffect'

/-- A subscription goes out with the topics of its channel. -/
theorem GatewayClient.apply_subscribeMessage (c : GatewayClient) (channel : ChannelId)
    (held : ChannelId → Option (Finset String)) :
    (c.subscribeMessage channel).apply held =
      Function.update held channel (some (c.topicsOf channel)) := by
  rw [GatewayClient.subscribeMessage, ClientMessage.apply, GatewayClient.topicsOf]
  congr 2
  by_cases hchannel : channel = .market ∨ channel = .orderflow
  · rw [if_pos hchannel, if_pos hchannel]
    cases c.symbols with
    | none => rfl
    | some symbols =>
      rw [Option.filter_some]
      by_cases hempty : symbols = []
      · rw [if_neg (by simpa using hempty), hempty]
        rfl
      · rw [if_pos (by simpa using hempty)]
  · rw [if_neg hchannel, if_neg hchannel]
    rfl

/-- Subscriptions to a list of channels. -/
theorem GatewayClient.tells_subscriptions (c : GatewayClient) (channels : List ChannelId)
    (held : ChannelId → Option (Finset String)) :
    c.Tells (channels.flatMap c.sendSubscribe) held
      fun ch => if ch ∈ channels then some (c.topicsOf ch) else held ch := by
  induction channels generalizing held with
  | nil =>
    have hsame : (fun ch => if ch ∈ ([] : List ChannelId) then some (c.topicsOf ch) else held ch) =
        held := by
      funext ch
      exact if_neg List.not_mem_nil
    rw [hsame]
    exact c.tells_nil held
  | cons channel channels ih =>
    rw [List.flatMap_cons]
    have hfirst := c.tells_send (c.subscribeMessage channel) held
    rw [c.apply_subscribeMessage] at hfirst
    refine (hfirst.append (ih _)).imp id fun h => ?_
    obtain ⟨id, hid, hsent, heffect⟩ := h
    refine ⟨id, hid, hsent, heffect.trans ?_⟩
    funext ch
    by_cases hmem : ch ∈ channels
    · rw [if_pos hmem, if_pos (List.mem_cons_of_mem _ hmem)]
    · rw [if_neg hmem]
      by_cases hch : ch = channel
      · rw [hch, Function.update_self, if_pos List.mem_cons_self]
      · rw [Function.update_of_ne hch, if_neg]
        exact fun h => (List.mem_cons.mp h).elim hch hmem

/-- A handler more on a channel. -/
theorem GatewayClient.Booked.insert {c' : GatewayClient} (h : c.Booked) {channel : ChannelId}
    {bucket : Finset ℕ} (hbucket : bucket ≠ ∅)
    (hhandlers : c'.handlers = c.handlers.insert channel bucket)
    (hmem : ∀ ch, ch ∈ c'.subscribed ↔ ch ∈ c.subscribed ∨ ch = channel)
    (hnodup : c'.subscribed.Nodup) : c'.Booked := by
  refine ⟨fun ch bucket' hsome => ?_, fun ch => ?_, hnodup⟩
  · rw [hhandlers] at hsome
    by_cases hch : ch = channel
    · rw [hch, AList.lookup_insert] at hsome
      rw [← Option.some.inj hsome]
      exact hbucket
    · rw [AList.lookup_insert_ne hch] at hsome
      exact h.bucket_ne_empty ch bucket' hsome
  · rw [hmem, hhandlers]
    by_cases hch : ch = channel
    · rw [hch, AList.lookup_insert]
      exact ⟨fun _ => Option.some_ne_none bucket, fun _ => .inr rfl⟩
    · rw [AList.lookup_insert_ne hch, ← h.mem_subscribed]
      exact ⟨fun hor => hor.resolve_right hch, .inl⟩

/-- A change of the handlers of a channel that keeps some. -/
theorem GatewayClient.Booked.keep (h : c.Booked) {channel : ChannelId}
    (hmem : channel ∈ c.subscribed) {bucket : Finset ℕ} (hbucket : bucket ≠ ∅) :
    GatewayClient.Booked { c with handlers := c.handlers.insert channel bucket } ∧
      c.Tells [] c.wanted
        (GatewayClient.wanted { c with handlers := c.handlers.insert channel bucket }) := by
  set c' : GatewayClient := { c with handlers := c.handlers.insert channel bucket }
  have hbooked : c'.Booked := h.insert hbucket rfl
    (fun ch => ⟨.inl, fun hor => hor.elim id fun hch => hch ▸ hmem⟩) h.nodup
  have hsame : c'.wanted = c.wanted := by
    funext ch
    rw [h.wanted_eq, hbooked.wanted_eq]
    rfl
  rw [hsame]
  exact ⟨hbooked, c.tells_nil c.wanted⟩

/-- A handler on a channel: its first one subscribes. -/
theorem GatewayClient.Booked.subscribe (h : c.Booked) (channel : ChannelId) (handler : ℕ) :
    (c.subscribe channel handler).2.Booked ∧
      c.Tells (c.subscribe channel handler).1 c.wanted (c.subscribe channel handler).2.wanted := by
  have hbucket : Insert.insert handler ((c.handlers.lookup channel).getD ∅) ≠ ∅ :=
    Finset.insert_ne_empty _ _
  rw [GatewayClient.subscribe]
  dsimp only
  by_cases hmem : channel ∈ c.subscribed
  · rw [if_pos hmem]
    exact h.keep hmem hbucket
  · rw [if_neg hmem]
    have hsubscribed : ∀ ch, ch ∈ c.subscribed ++ [channel] ↔ ch ∈ c.subscribed ∨ ch = channel := by
      intro ch
      rw [List.mem_append, List.mem_singleton]
    have hnodup : (c.subscribed ++ [channel]).Nodup :=
      List.nodup_append.mpr ⟨h.nodup, List.nodup_singleton channel, fun a ha b hb hab =>
        hmem (List.mem_singleton.mp hb ▸ hab ▸ ha)⟩
    set c' : GatewayClient := { c with
      handlers := c.handlers.insert channel
        (Insert.insert handler ((c.handlers.lookup channel).getD ∅))
      subscribed := c.subscribed ++ [channel] }
    have hbooked : c'.Booked := h.insert hbucket rfl hsubscribed hnodup
    refine ⟨hbooked, ?_⟩
    have htells := c'.tells_send (c'.subscribeMessage channel) c.wanted
    have hwanted : c'.wanted = Function.update c.wanted channel (some (c'.topicsOf channel)) := by
      funext ch
      rw [hbooked.wanted_eq]
      by_cases hch : ch = channel
      · rw [hch, Function.update_self, if_pos ((hsubscribed channel).mpr (.inr rfl))]
      · rw [Function.update_of_ne hch, h.wanted_eq]
        refine if_congr ?_ rfl rfl
        exact (hsubscribed ch).trans ⟨fun hor => hor.resolve_right hch, .inl⟩
    rw [c'.apply_subscribeMessage, ← hwanted] at htells
    exact htells

/-- A handler less: the last one unsubscribes. -/
theorem GatewayClient.Booked.unsubscribe (h : c.Booked) (channel : ChannelId) (handler : ℕ) :
    (c.unsubscribe channel handler).2.Booked ∧
      c.Tells (c.unsubscribe channel handler).1 c.wanted
        (c.unsubscribe channel handler).2.wanted := by
  rw [GatewayClient.unsubscribe]
  cases hlookup : c.handlers.lookup channel with
  | none => exact ⟨h, c.tells_nil c.wanted⟩
  | some live =>
    have hmem : channel ∈ c.subscribed := (h.mem_subscribed channel).mpr (by simp [hlookup])
    dsimp only
    by_cases hlast : live.erase handler = ∅
    · rw [if_pos hlast]
      set c' : GatewayClient := { c with
        handlers := c.handlers.erase channel
        subscribed := c.subscribed.erase channel }
      have hsubscribed : ∀ ch, ch ∈ c'.subscribed ↔ ch ≠ channel ∧ ch ∈ c.subscribed :=
        fun ch => h.nodup.mem_erase_iff
      have hbooked : c'.Booked := by
        refine ⟨fun ch bucket hsome => ?_, fun ch => ?_, h.nodup.erase channel⟩
        · replace hsome : (c.handlers.erase channel).lookup ch = some bucket := hsome
          by_cases hch : ch = channel
          · rw [hch, AList.lookup_erase] at hsome
            cases hsome
          · rw [AList.lookup_erase_ne hch] at hsome
            exact h.bucket_ne_empty ch bucket hsome
        · rw [hsubscribed]
          show _ ↔ (c.handlers.erase channel).lookup ch ≠ none
          by_cases hch : ch = channel
          · rw [hch, AList.lookup_erase]
            exact ⟨fun hboth => absurd rfl hboth.1, fun hne => absurd rfl hne⟩
          · rw [AList.lookup_erase_ne hch, ← h.mem_subscribed]
            exact and_iff_right hch
      refine ⟨hbooked, ?_⟩
      -- the message takes away exactly the channel that lost its last handler
      have htells := c'.tells_send (.unsubscribe channel) c.wanted
      have hwanted : c'.wanted = Function.update c.wanted channel none := by
        funext ch
        rw [hbooked.wanted_eq]
        by_cases hch : ch = channel
        · rw [hch, Function.update_self, if_neg]
          exact fun hin => ((hsubscribed channel).mp hin).1 rfl
        · rw [Function.update_of_ne hch, h.wanted_eq]
          refine if_congr ?_ rfl rfl
          exact (hsubscribed ch).trans (and_iff_right hch)
      rw [show (ClientMessage.unsubscribe channel).apply c.wanted = c'.wanted from hwanted.symm]
        at htells
      exact htells
    · rw [if_neg hlast]
      exact h.keep hmem hlast

/-- New symbols: the per-symbol channels that are subscribed go out again. -/
theorem GatewayClient.Booked.setSymbols (h : c.Booked) (symbols : List String) :
    (c.setSymbols symbols).2.Booked ∧
      c.Tells (c.setSymbols symbols).1 c.wanted (c.setSymbols symbols).2.wanted := by
  set c' : GatewayClient := { c with symbols := some symbols } with hc'
  have hbooked : c'.Booked := ⟨h.bucket_ne_empty, h.mem_subscribed, h.nodup⟩
  refine ⟨hbooked, ?_⟩
  set channels := [ChannelId.market, .orderflow].filter fun ch => ch ∈ c.subscribed with hchannels
  have hsent : (c.setSymbols symbols).1 = channels.flatMap c'.sendSubscribe := by
    rw [GatewayClient.setSymbols, hchannels]
    by_cases hmarket : ChannelId.market ∈ c.subscribed <;>
      by_cases horderflow : ChannelId.orderflow ∈ c.subscribed <;>
      simp [hmarket, horderflow, hc']
  have hwanted : c'.wanted =
      fun ch => if ch ∈ channels then some (c'.topicsOf ch) else c.wanted ch := by
    funext ch
    rw [hbooked.wanted_eq, h.wanted_eq]
    have hmem : ch ∈ channels ↔ (ch = .market ∨ ch = .orderflow) ∧ ch ∈ c.subscribed := by
      rw [hchannels, List.mem_filter]
      simp
    by_cases hin : ch ∈ channels
    · rw [if_pos hin]
      exact if_pos (hmem.mp hin).2
    · rw [if_neg hin]
      show (if ch ∈ c.subscribed then _ else none) = _
      by_cases hsub : ch ∈ c.subscribed
      · have hplain : ¬(ch = .market ∨ ch = .orderflow) := fun hch => hin (hmem.mpr ⟨hch, hsub⟩)
        rw [if_pos hsub, if_pos hsub, GatewayClient.topicsOf, GatewayClient.topicsOf,
          if_neg hplain, if_neg hplain]
      · rw [if_neg hsub, if_neg hsub]
  have htells := c'.tells_subscriptions channels c.wanted
  rw [← hwanted, ← hsent] at htells
  exact htells

end Methods

end Hedge.Cockpit
