import Hedge.Common.Run
import Hedge.Gateway.Connections
import Mathlib.Algebra.Order.Ring.Rat

/-!
# The alerts of the cockpit

Reference: `ui/src/store/cockpitStore.ts` (`normaliseAlert`, `sortAlerts`, the alerts case of
`applyEnvelope`), `ui/src/types/alerts.ts`, behind `hedge-ui-gateway/src/dispatcher.rs`.

The store takes one alert from each frame on `/alerts` and merges it into a sorted list. The gateway
sends the whole sorted buffer in one frame, and a list is no alert to the store. `shown_single` is
what the store makes of frames with one alert each, `shown_iff` what it makes of the gateway's.
-/

namespace Hedge.Cockpit

open Hedge Hedge.Common Hedge.Gateway

/-! ## Model -/

/-- `ALERT_SEVERITY_RANK[severity] ?? Number.MAX_SAFE_INTEGER`. -/
def alertSeverityRank : String → ℕ
  | "critical" => 0
  | "high" => 1
  | "medium" => 2
  | "low" => 3
  | "info" => 4
  | _ => 2 ^ 53 - 1

/-- An alert of the panel. An alert that comes in this shape is taken as it is, so its severity can
be any text. -/
structure Alert where
  id : String
  severity : String
  title : String
  source : Option String
  tsNs : Option ℚ
deriving DecidableEq

/-- An event frame, as the handlers of its channel get it. -/
structure ServerEnvelope where
  channel : Channel
  subject : Option String
  tsNs : Option ℚ
  payload : Json

/-- `severityMap[sev] ?? "info"`. -/
def severityMap : String → String
  | "critical" => "critical"
  | "error" => "high"
  | "high" => "high"
  | "warning" => "medium"
  | "medium" => "medium"
  | "info" => "info"
  | "low" => "low"
  | _ => "info"

/-- `typeof value === "object"` of a value that is not null. -/
def isObject : Json → Bool
  | .obj _ => true
  | .arr _ => true
  | _ => false

/-- A string field; the empty one is falsy. -/
def truthyField (v : Json) (key : String) : Option String :=
  ((v.get key).bind Json.asStr).filter fun s => s ≠ ""

/-- What the store reads of its clock and of `String(n)`. -/
structure StoreEnv where
  nowMs : ℚ
  text : ℚ → String

/-- The title of a gateway alert: its own, or a text of its payload, or its source. -/
def alertTitle (payload : Json) (source : String) : String :=
  let inner := (payload.get "payload").getD .null
  ((truthyField payload "title").or
    ((truthyField inner "message").or (truthyField inner "reason"))).getD source

/-- `normaliseAlert`. -/
def normaliseAlert (env : StoreEnv) (payload : Json) (subject : Option String) (tsNs : Option ℚ) :
    Option Alert :=
  if isObject payload then
    match payload.get "id", payload.get "severity", payload.get "title" with
    | some (.str id), some (.str severity), some (.str title) =>
      some ⟨id, severity, title, (payload.get "source").bind Json.asStr,
        (payload.get "ts_ns").bind Json.asF64⟩
    | _, some (.str sev), _ =>
      let source := ((payload.get "source").bind Json.asStr).getD (subject.getD "unknown")
      let ts := ((payload.get "ts_ns").bind Json.asF64).getD (tsNs.getD (env.nowMs * 1000000))
      some ⟨source ++ "-" ++ env.text ts, severityMap sev, alertTitle payload source, some source,
        some ts⟩
    | _, _, _ => none
  else none

/-- The comparison of `sortAlerts`: by rank, then newest first. -/
def Alert.before (a b : Alert) : Prop :=
  alertSeverityRank a.severity < alertSeverityRank b.severity ∨
    alertSeverityRank a.severity = alertSeverityRank b.severity ∧
      b.tsNs.getD 0 ≤ a.tsNs.getD 0

instance : DecidableRel Alert.before := fun _ _ => inferInstanceAs (Decidable (_ ∨ _))

/-- `MAX_ALERTS`. -/
def maxAlerts : ℕ := 250

/-- `sortAlerts`, by a stable sort. -/
def sortAlerts (xs : List Alert) : List Alert := (xs.insertionSort Alert.before).take maxAlerts

/-- The part of `applyEnvelope` that is about the alerts; no other channel changes them. -/
def applyEnvelope (env : StoreEnv) (list : List Alert) (envelope : ServerEnvelope) : List Alert :=
  if envelope.channel = .alerts then
    match normaliseAlert env envelope.payload envelope.subject envelope.tsNs with
    | some alert => sortAlerts (alert :: list)
    | none => list
  else list

/-- `handleFrame`: only event frames reach the handlers of a channel. -/
def envelopeOf : ServerMsg → Option ServerEnvelope
  | .event channel subject tsNs payload =>
    some ⟨channel, subject, tsNs.map fun t => (t.toNat : ℚ), payload⟩
  | _ => none

/-- The alerts after some frames. -/
def applyFrames (env : StoreEnv) (list : List Alert) (frames : List ServerMsg) : List Alert :=
  (frames.filterMap envelopeOf).foldl (applyEnvelope env) list

/-- One activity of the connection, with its frames applied. -/
def cockpitStep (env : StoreEnv) (subs : Subscriptions) (s : DispatcherState × List Alert) :
    Activity → Unit × (DispatcherState × List Alert)
  | .event ev prunedAt insertedAt =>
    let r := handleEvent subs s.1 ev prunedAt insertedAt
    ((), (r.2, applyFrames env s.2 r.1))
  | .tick now =>
    let r := drainSignalFlushes subs s.1 now
    ((), (r.2, applyFrames env s.2 r.1))

/-- `alerts.list` after the activities of a connection. -/
def alertsList (env : StoreEnv) (subs : Subscriptions) (state : DispatcherState)
    (acts : List Activity) : List Alert :=
  (runState (cockpitStep env subs) (state, []) acts).2

/-- The alerts that the gateway raises for some activities. -/
def raised (acts : List Activity) : List UiAlert :=
  (acts.filterMap Activity.event?).filterMap fun ev =>
    (severityForSubject ev.subject).map fun severity => ⟨severity, ev.subject, ev.tsNs, ev.payload⟩

/-- The severity of the panel for one of the gateway. -/
def cockpitSeverity : Severity → String
  | .critical => "critical"
  | .error => "high"
  | .warning => "medium"
  | .info => "info"

/-- The list holds one entry for each alert, known by its time, with its severity; it is ordered by
severity and then by time. -/
structure Shown (alerts : List UiAlert) (list : List Alert) : Prop where
  entries : (list.map fun a => (a.severity, a.tsNs)).Perm
    (alerts.map fun u => (cockpitSeverity u.severity, some (u.tsNs : ℚ)))
  ordered : list.Pairwise Alert.before

/-! ## What the store makes of an alert -/

theorem severityMap_asStr (severity : Severity) :
    severityMap severity.asStr = cockpitSeverity severity := by
  cases severity <;> rfl

theorem Alert.before_total (a b : Alert) : a.before b ∨ b.before a := by
  rcases lt_trichotomy (alertSeverityRank a.severity) (alertSeverityRank b.severity) with h | h | h
  · exact .inl (.inl h)
  · rcases le_total (b.tsNs.getD 0) (a.tsNs.getD 0) with ht | ht
    · exact .inl (.inr ⟨h, ht⟩)
    · exact .inr (.inr ⟨h.symm, ht⟩)
  · exact .inr (.inl h)

theorem Alert.before_trans {a b c : Alert} (hab : a.before b) (hbc : b.before c) : a.before c := by
  rcases hab with hab | ⟨hab, htab⟩ <;> rcases hbc with hbc | ⟨hbc, htbc⟩
  · exact .inl (hab.trans hbc)
  · exact .inl (hab.trans_eq hbc)
  · exact .inl (hab.trans_lt hbc)
  · exact .inr ⟨hab.trans hbc, htbc.trans htab⟩

instance : Std.Total Alert.before := ⟨Alert.before_total⟩

instance : IsTrans Alert (Alert.before) := ⟨fun _ _ _ => Alert.before_trans⟩

theorem sortAlerts_perm {xs : List Alert} (h : xs.length ≤ maxAlerts) :
    (sortAlerts xs).Perm xs := by
  rw [sortAlerts, List.take_of_length_le (by rwa [List.length_insertionSort])]
  exact List.perm_insertionSort _ _

theorem sortAlerts_ordered (xs : List Alert) : (sortAlerts xs).Pairwise Alert.before :=
  (List.pairwise_insertionSort _ xs).sublist (List.take_sublist _ _)

/-- An alert of the gateway, alone in a frame, becomes an entry with its severity and its time. -/
theorem normaliseAlert_toJson (env : StoreEnv) {u : UiAlert} (hu : u.tsNs < UInt64.size)
    (subject : Option String) (tsNs : Option ℚ) :
    ∃ alert, normaliseAlert env u.toJson subject tsNs = some alert ∧
      (alert.severity, alert.tsNs) = (cockpitSeverity u.severity, some (u.tsNs : ℚ)) := by
  have hts : (UInt64.ofNat u.tsNs).toNat = u.tsNs := by
    rw [UInt64.toNat_ofNat']
    exact Nat.mod_eq_of_lt hu
  refine ⟨_, rfl, ?_⟩
  show (severityMap u.severity.asStr, some ((UInt64.ofNat u.tsNs).toNat : ℚ)) = _
  rw [severityMap_asStr, hts]

/-- The frame of one alert. -/
def singleFrame (u : UiAlert) : ServerMsg := .event .alerts (some "alerts") none u.toJson

/-- **Frames of one alert each are shown**, up to the length of the list. -/
theorem shown_single (env : StoreEnv) {alerts : List UiAlert} (hlen : alerts.length ≤ maxAlerts)
    (hts : ∀ u ∈ alerts, u.tsNs < UInt64.size) :
    Shown alerts (applyFrames env [] (alerts.map singleFrame)) := by
  induction alerts using List.reverseRecOn with
  | nil => exact ⟨.refl _, .nil⟩
  | append_singleton alerts u ih =>
    rw [List.length_append, List.length_singleton] at hlen
    have hshown := ih (by omega) fun v hv => hts v (List.mem_append_left _ hv)
    obtain ⟨alert, halert, hkey⟩ :=
      normaliseAlert_toJson env (hts u (List.mem_append_right _ List.mem_cons_self))
        (some "alerts") none
    have hlength : (applyFrames env [] (alerts.map singleFrame)).length = alerts.length := by
      have := hshown.entries.length_eq
      rwa [List.length_map, List.length_map] at this
    have hlast : applyFrames env [] ((alerts ++ [u]).map singleFrame) =
        sortAlerts (alert :: applyFrames env [] (alerts.map singleFrame)) := by
      rw [applyFrames, List.map_append, List.filterMap_append, List.foldl_append, ← applyFrames]
      show applyEnvelope env _ ⟨.alerts, some "alerts", none, u.toJson⟩ = _
      rw [applyEnvelope, if_pos rfl, halert]
      rfl
    rw [hlast]
    refine ⟨?_, sortAlerts_ordered _⟩
    have hfits : (alert :: applyFrames env [] (alerts.map singleFrame)).length ≤ maxAlerts := by
      rw [List.length_cons]
      omega
    have hperm := sortAlerts_perm hfits
    refine (hperm.map _).trans ?_
    rw [List.map_cons, hkey, List.map_append]
    exact (hshown.entries.cons _).trans (List.perm_append_singleton _ _).symm

/-! ## What the store makes of the gateway's frames -/

theorem alerts_not_mem_classifySubject (subject : String) :
    Channel.alerts ∉ classifySubject subject := by
  rw [classifySubject]
  split_ifs
  · simp
  · split <;> simp

/-- A payload that is a list or null is no alert. -/
def IsListing (frame : ServerMsg) : Prop :=
  ∀ subject tsNs payload, frame = .event .alerts subject tsNs payload →
    payload = .null ∨ ∃ elems, payload = .arr elems

theorem applyEnvelope_listing (env : StoreEnv) (list : List Alert) {frame : ServerMsg}
    (h : IsListing frame) {envelope : ServerEnvelope} (henv : envelopeOf frame = some envelope) :
    applyEnvelope env list envelope = list := by
  rw [applyEnvelope]
  split_ifs with halerts
  · cases frame with
    | event channel subject tsNs payload =>
      cases henv
      obtain rfl : channel = .alerts := halerts
      rcases h subject tsNs payload rfl with rfl | ⟨elems, rfl⟩
      · rfl
      · rfl
    | ack => cases henv
    | error => cases henv
    | mode => cases henv
    | pong => cases henv
  · rfl

theorem applyFrames_listing (env : StoreEnv) (list : List Alert) {frames : List ServerMsg}
    (h : ∀ frame ∈ frames, IsListing frame) : applyFrames env list frames = list := by
  rw [applyFrames]
  induction frames with
  | nil => rfl
  | cons frame frames ih =>
    have hrest := ih fun f hf => h f (List.mem_cons_of_mem _ hf)
    rw [List.filterMap_cons]
    split
    · exact hrest
    · rename_i envelope henv
      rw [List.foldl_cons, applyEnvelope_listing env list (h frame List.mem_cons_self) henv]
      exact hrest

/-- The frames of another channel. -/
theorem isListing_of_channel {channel : Channel} (h : channel ≠ .alerts) (subject : Option String)
    (tsNs : Option UInt64) (payload : Json) : IsListing (.event channel subject tsNs payload) := by
  intro subject' tsNs' payload' heq
  injection heq with hchannel
  exact absurd hchannel h

section Frames

variable {subs : Subscriptions} {state : DispatcherState} {ev : NatsEvent} {prunedAt insertedAt : ℕ}

theorem isListing_modeFrames (flipped : Option Bool) :
    ∀ frame ∈ modeFrames subs flipped, IsListing frame := by
  intro frame hframe subject tsNs payload heq
  cases flipped with
  | none => cases hframe
  | some mode =>
    rw [modeFrames] at hframe
    split_ifs at hframe
    · rw [List.mem_singleton.mp hframe] at heq
      cases heq
    · cases hframe

theorem isListing_observeVolatility :
    ∀ frame ∈ (observeVolatility subs state ev).1, IsListing frame := by
  intro frame hframe
  rw [observeVolatility] at hframe
  split_ifs at hframe
  · exact isListing_modeFrames _ frame hframe
  · cases hframe

theorem isListing_routeChannel {channel : Channel} (h : channel ≠ .alerts) :
    ∀ frame ∈ (routeChannel subs state ev prunedAt insertedAt channel).1, IsListing frame := by
  intro frame hframe
  rw [routeChannel] at hframe
  split_ifs at hframe with hsub hsignals haccepts
  · cases hframe
  · split at hframe
    · cases hframe
    · obtain ⟨payload, -, rfl⟩ := List.mem_map.mp hframe
      exact isListing_of_channel (by decide) _ _ _
  · cases hframe
  · rw [List.mem_singleton.mp hframe]
    exact isListing_of_channel h _ _ _

theorem isListing_routeEvent :
    ∀ frame ∈ (routeEvent subs state ev prunedAt insertedAt).1, IsListing frame := by
  intro frame hframe
  obtain ⟨frames, hframes, hmem⟩ := List.mem_flatten.mp hframe
  obtain ⟨pre, channel, post, hsplit, rfl⟩ := exists_split_of_mem_runOutputs hframes
  refine isListing_routeChannel ?_ frame hmem
  rintro rfl
  exact alerts_not_mem_classifySubject ev.subject (by rw [hsplit]; simp)

theorem isListing_listAlerts : ∀ frame ∈ (listAlerts subs state ev), IsListing frame := by
  intro frame hframe subject tsNs payload heq
  rw [listAlerts] at hframe
  split_ifs at hframe
  · rw [List.mem_singleton.mp hframe] at heq
    cases heq
    rw [AlertBuffer.toJson]
    split_ifs
    · exact .inr ⟨_, rfl⟩
    · exact .inl rfl
  · cases hframe

theorem isListing_handleEvent :
    ∀ frame ∈ (handleEvent subs state ev prunedAt insertedAt).1, IsListing frame := by
  intro frame hframe
  rcases List.mem_append.mp hframe with hreply | halerts
  · rcases List.mem_append.mp hreply with hmode | hroute
    · exact isListing_observeVolatility frame hmode
    · exact isListing_routeEvent frame hroute
  · exact isListing_listAlerts frame halerts

theorem isListing_drainSignalFlushes (now : ℕ) :
    ∀ frame ∈ (drainSignalFlushes subs state now).1, IsListing frame := by
  intro frame hframe
  rw [drainSignalFlushes] at hframe
  split_ifs at hframe
  · cases hframe
  · obtain ⟨payload, -, rfl⟩ := List.mem_map.mp hframe
    exact isListing_of_channel (by decide) _ _ _

end Frames

/-- Nothing the gateway sends adds to the alerts. -/
theorem alertsList_eq_nil (env : StoreEnv) (subs : Subscriptions) (state : DispatcherState)
    (acts : List Activity) : alertsList env subs state acts = [] := by
  refine runState_invariant_all (cockpitStep env subs) (fun s => s.2 = []) ?_ rfl acts
  rintro ⟨state, list⟩ act (rfl : list = [])
  cases act with
  | event ev prunedAt insertedAt => exact applyFrames_listing env [] isListing_handleEvent
  | tick now => exact applyFrames_listing env [] (isListing_drainSignalFlushes now)

/-- **The alerts of a connection are shown all along exactly if there are none.** -/
theorem alerts_shown_iff (env : StoreEnv) (subs : Subscriptions) (state : DispatcherState)
    (acts : List Activity) :
    (∀ pre post, acts = pre ++ post → Shown (raised pre) (alertsList env subs state pre)) ↔
      ∀ act ∈ acts, ∀ ev, act.event? = some ev → severityForSubject ev.subject = none := by
  have hshown : ∀ pre, Shown (raised pre) (alertsList env subs state pre) ↔ raised pre = [] := by
    intro pre
    rw [alertsList_eq_nil]
    constructor
    · intro h
      exact List.map_eq_nil_iff.mp (List.nil_perm.mp h.entries)
    · intro h
      rw [h]
      exact ⟨.refl _, .nil⟩
  have hraised : ∀ pre, raised pre = [] ↔
      ∀ act ∈ pre, ∀ ev, act.event? = some ev → severityForSubject ev.subject = none := by
    intro pre
    simp only [raised, List.filterMap_eq_nil_iff, List.mem_filterMap, Option.map_eq_none_iff]
    constructor
    · intro h act hact ev hev
      exact h ev ⟨act, hact, hev⟩
    · rintro h ev ⟨act, hact, hev⟩
      exact h act hact ev hev
  simp only [hshown, hraised]
  constructor
  · intro h
    exact h acts [] (List.append_nil _).symm
  · rintro h pre post rfl act hact
    exact h act (List.mem_append_left _ hact)

/-- The kill switch, as the risk engine announces it. -/
def killswitchActivated : NatsEvent :=
  ⟨"risk.killswitch.activated", "activated", .obj [("reason", .str "daily_loss")],
    1700000000000000000⟩

/-- The alert of the kill switch never reaches the panel. -/
theorem killswitch_not_shown :
    ¬ ∀ (env : StoreEnv) (subs : Subscriptions) (state : DispatcherState) (acts : List Activity),
      state.alerts = ⟨[], 256⟩ → subs.isSubscribed .alerts = true → (raised acts).length ≤ 250 →
      (raised acts).Pairwise (fun u v => u.tsNs ≠ v.tsNs) →
      Shown (raised acts) (alertsList env subs state acts) := by
  intro h
  have hshown := h ⟨0, fun _ => ""⟩ (Subscriptions.subscribe ∅ .alerts [])
    { freshState with alerts := ⟨[], 256⟩ } [.event killswitchActivated 0 0] rfl rfl (by decide)
    (List.pairwise_singleton _ _)
  rw [alertsList_eq_nil] at hshown
  exact absurd hshown.entries.length_eq (by decide)

end Hedge.Cockpit
