import Hedge.Cockpit.Store
import Hedge.MarketData.UpstoxConnection

/-!
# What the cockpit shows of the Upstox feed

Reference: `deriveFeedStatus` in `ui/src/lib/feedStatus.ts`, `reduceMarket` in
`ui/src/store/cockpitStore.ts`, behind `hedge-market-data/src/bin/upstox_feed.rs`.

The store keeps the `data` of a connection message, and the status `token_expired` needs a reason in
it. The bridge puts the reason of an error next to `data`, for the supervisor, so no error of it is
ever shown as an expired token; what is shown of a feed that is down is `offline`.
-/

namespace Hedge.Cockpit

open Hedge Hedge.Common Hedge.Gateway Hedge.MarketData

/-! ## The report in the store -/

/-- A message about a connection. -/
def IsConnection (payload : Json) : Prop := payload.get "kind" = some (.str "connection")

/-- The report on Upstox in the `data` of a message. -/
def reportedData (payload : Json) : Option Json :=
  (payload.get "data").filter fun data =>
    isObject data ∧ (data.get "source").bind Json.asStr = some "upstox"

/-- Only a message about a connection changes the connections. -/
theorem connections_reduceMarket_of_not {platform : Platform} {prev : MarketSlice} {ev : Json}
    (h : ¬IsConnection ev) : (reduceMarket platform prev ev).connections = prev.connections := by
  rw [reduceMarket]
  split
  · split_ifs
    · split
      case h_6 => exact absurd ‹ev.get "kind" = some (.str "connection")› h
      all_goals rfl
    · rfl
  · rfl

/-- The store holds the last report. -/
theorem lookup_connections_reduceMarket {platform : Platform} {prev : MarketSlice} {ev : Json}
    (h : IsConnection ev) :
    (reduceMarket platform prev ev).connections.lookup "upstox"
      = (reportedData ev).or (prev.connections.lookup "upstox") := by
  have htruthy : truthy (.str "connection") = true := by decide
  rw [reduceMarket, h, reportedData]
  cases ev.get "data" with
  | none => rfl
  | some data =>
    dsimp only
    rw [htruthy, Option.filter_some]
    cases hobject : isObject data with
    | false => simp
    | true =>
      cases hsource : (data.get "source").bind Json.asStr with
      | none => simp
      | some source =>
        by_cases hupstox : source = "upstox"
        · subst hupstox
          simp
        · simp [hupstox, AList.lookup_insert_ne (Ne.symm hupstox)]

/-- A message of the bridge, from whatever polls and whatever probe. -/
def FromBridge (payload : Json) : Prop :=
  ∃ instruments probe stamp polls,
    payload ∈ Upstox.connectionsOf (Upstox.ltpOutputs instruments probe stamp polls)

/-- The report of the bridge has no reason. -/
theorem reason_of_fromBridge {payload data : Json} (h : FromBridge payload)
    (hreport : reportedData payload = some data) : data.get "reason" = none := by
  obtain ⟨instruments, probe, stamp, polls, hmem⟩ := h
  obtain ⟨status, reason, attempt, cockpit, stamp', rfl⟩ :=
    Upstox.isConnectionPayload_of_mem instruments hmem
  obtain ⟨hdata, _⟩ := Option.filter_eq_some_iff.mp hreport
  simp only [Upstox.connectionPayload, Json.get_obj_cons] at hdata
  simp at hdata
  subst hdata
  simp

/-! ## The status -/

/-- Without a reason no token has expired. -/
theorem deriveFeedStatus_of_no_reason (platform : Platform) (i : FeedStatusInputs)
    (h : i.upstox.bind (·.get "reason") = none) :
    deriveFeedStatus platform i ≠ .tokenExpired ∧
      (isDown i.upstox = true →
        deriveFeedStatus platform i = if i.demoMode then .demoMode else .offline) := by
  have htext : reasonText platform i.upstox = "" := by
    rw [reasonText, h]
    rfl
  have hno : mentionsUnauthorized "" = false := by
    rw [mentionsUnauthorized, decide_eq_false_iff_not]
    simp
  rw [deriveFeedStatus, htext, hno]
  constructor
  · split_ifs <;> simp_all
  · intro hdown
    simp [hdown]

/-- A state that shows the bridge as it is: the last report has no reason, and the status is one that
it allows. -/
structure ShowsBridge (s : CockpitState) : Prop where
  reason : (s.market.connections.lookup "upstox").bind (·.get "reason") = none
  notExpired : s.gatewayMeta.feedStatus ≠ .tokenExpired
  down : isDown (s.market.connections.lookup "upstox") = true →
    s.gatewayMeta.feedStatus = if s.gatewayMeta.demoMode then .demoMode else .offline

/-- A new status keeps it. -/
theorem showsBridge_withFeedStatus {platform : Platform} {s : CockpitState} (m : GatewayMeta)
    (nowMs laterMs : ℤ)
    (hreason : (s.market.connections.lookup "upstox").bind (·.get "reason") = none)
    (hmeta : s.gatewayMeta
      = m.withFeedStatus (CockpitState.feedStatusOf platform m s.market nowMs laterMs)) :
    ShowsBridge s := by
  obtain ⟨hexpired, hdown⟩ := deriveFeedStatus_of_no_reason platform
    (CockpitState.feedStatusInputs m s.market nowMs laterMs) hreason
  refine ⟨hreason, ?_, fun h => ?_⟩
  · rw [hmeta]
    exact hexpired
  · rw [hmeta]
    exact hdown h

theorem showsBridge_initial (nowMs : ℤ) : ShowsBridge (CockpitState.initial nowMs) where
  reason := rfl
  notExpired := fun h => by cases h
  down := fun h => by cases h

/-- The reports that an action brings to the store come from the bridge. -/
def BridgeOnly : StoreAction → Prop
  | .applyEnvelope _ envelope _ => envelope.channel = .market → IsConnection envelope.payload →
      (reportedData envelope.payload).isSome → FromBridge envelope.payload
  | _ => True

/-- A frame leaves the market slice, unless it is on its channel. -/
theorem market_of_reduce {platform : Platform} {env : StoreEnv} {s next : CockpitState}
    {envelope : ServerEnvelope} (hnext : CockpitState.reduce platform env s envelope = some next) :
    next.market = if envelope.channel = .market then
      reduceMarket platform s.market envelope.payload else s.market := by
  rw [CockpitState.reduce] at hnext
  cases hc : envelope.channel with
  | market =>
    rw [hc] at hnext
    cases hnext
    rfl
  | signals | news | alerts | control =>
    rw [hc] at hnext
    cases hnext
    rfl
  | orderflow | risk | exec | psych | replay | latency =>
    rw [hc] at hnext
    obtain ⟨slice, _, rfl⟩ := Option.map_eq_some_iff.mp hnext
    rfl

theorem reason_of_reduce {platform : Platform} {env : StoreEnv} {s next : CockpitState}
    {envelope : ServerEnvelope} {nowMs : ℤ}
    (h : (s.market.connections.lookup "upstox").bind (·.get "reason") = none)
    (hbridge : BridgeOnly (.applyEnvelope env envelope nowMs))
    (hnext : CockpitState.reduce platform env s envelope = some next) :
    (next.market.connections.lookup "upstox").bind (·.get "reason") = none := by
  rw [market_of_reduce hnext]
  split_ifs with hmarket
  · by_cases hconn : IsConnection envelope.payload
    · rw [lookup_connections_reduceMarket hconn]
      cases hreport : reportedData envelope.payload with
      | none => exact h
      | some data =>
        have hfrom := hbridge hmarket hconn (by rw [hreport]; rfl)
        exact reason_of_fromBridge hfrom hreport
    · rw [connections_reduceMarket_of_not hconn]
      exact h
  · exact h

theorem ShowsBridge.step {platform : Platform} {s : CockpitState} (h : ShowsBridge s)
    {action : StoreAction} (hbridge : BridgeOnly action) :
    ShowsBridge (CockpitState.step platform s action).2 := by
  cases action with
  | setGatewayState state nowMs =>
    exact showsBridge_withFeedStatus _ nowMs nowMs h.reason rfl
  | applyEnvelope env envelope nowMs =>
    change ShowsBridge ((s.applyEnvelope platform env envelope nowMs).getD s)
    rw [CockpitState.applyEnvelope]
    cases hreduce : CockpitState.reduce platform env s envelope with
    | none => exact h
    | some next =>
      have hreason := reason_of_reduce h.reason hbridge hreduce
      exact showsBridge_withFeedStatus _ nowMs nowMs hreason rfl
  | setDemoMode active nowMs laterMs =>
    exact showsBridge_withFeedStatus _ nowMs laterMs h.reason rfl
  | recomputeFeedStatus nowMs laterMs =>
    rw [CockpitState.step]
    split_ifs
    · exact h
    · exact showsBridge_withFeedStatus _ nowMs laterMs h.reason rfl
  | reset nowMs => exact showsBridge_initial nowMs
  | _ => exact ⟨h.reason, h.notExpired, h.down⟩

/-- **No error of the bridge is shown as an expired token.** As long as the reports on Upstox are
those of the bridge, whatever its probe and its polls ended with, the status is never
`token_expired`; once a report says `down` it is `offline`, outside the demo mode, until the next. -/
theorem bridge_status (platform : Platform) (startMs : ℤ) (actions : List StoreAction)
    (hbridge : ∀ action ∈ actions, BridgeOnly action) :
    ShowsBridge (CockpitState.after platform startMs actions) :=
  runState_invariant (CockpitState.step platform) ShowsBridge
    (fun _ _ hbridge h => ShowsBridge.step h hbridge) (showsBridge_initial startMs) hbridge

/-- What the bridge reports when its token expires after the probe and eight polls fail. -/
def tokenExpiredPayloads : List Json :=
  Upstox.connectionsOf (Upstox.ltpOutputs ["NSE_EQ|INE002A01018"] (.ok ())
    ⟨0, "1970-01-01T00:00:00+00:00"⟩
    (List.replicate 8 ⟨.error "Upstox returned 401 Unauthorized.",
      ⟨0, "1970-01-01T00:00:00+00:00"⟩⟩))

/-- The reports as the store gets them. -/
def tokenExpiredActions : List StoreAction :=
  tokenExpiredPayloads.map fun payload =>
    .applyEnvelope ⟨0, fun _ => ""⟩ ⟨.market, none, none, payload⟩ 0

theorem bridge_status_tokenExpiredPayloads :
    ShowsBridge (CockpitState.after ⟨fun _ => ""⟩ 0 tokenExpiredActions) := by
  refine bridge_status _ 0 tokenExpiredActions fun action hmem => ?_
  obtain ⟨payload, hpayload, rfl⟩ := List.mem_map.mp hmem
  exact fun _ _ _ => ⟨_, _, _, _, hpayload⟩

/-- The last of the reports says `down`. -/
example : isDown ((CockpitState.after ⟨fun _ => ""⟩ 0 tokenExpiredActions).market.connections.lookup
    "upstox") = true ∧
    (CockpitState.after ⟨fun _ => ""⟩ 0 tokenExpiredActions).gatewayMeta.feedStatus = .offline := by
  decide +kernel

end Hedge.Cockpit
