import Hedge.Cockpit.Session

/-!
# From the cockpit's controls to the bus

Reference: `ui/src/hooks/useUiGatewaySocket.ts`, `hedge-ui-gateway/src/dispatcher.rs`,
`hedge-ui-gateway/src/intents.rs`.

`GetsThrough` is what a trader expects of an intent that reached the gateway. Two drifts stand in
its way. The hook never joins `/control`, so the gateway refuses every intent whatever the history
of the connection; and four of the five intent kinds name their fields differently at the two ends,
so they would be refused on a connection that did join.
-/

namespace Hedge.Pipeline

open Hedge.Common Hedge.Gateway Hedge.Cockpit

/-- An intent that reached the gateway gets through: it is acknowledged, and one message with its
fields is published on the subject of its kind. -/
def GetsThrough (kind : IntentKind) (i : TraderIntent) (result : Handled) : Prop :=
  (∃ requestId, result.replies = [.ack requestId .control]) ∧
    result.published = [⟨kind.natsSubject, .obj i.fields⟩]

/-- The answer to an intent on a connection that has not joined `/control`. -/
def refusal : Handled :=
  ⟨[.error .intentOnNonControl
    "client must subscribe to /control before publishing intents" none], []⟩

theorem not_getsThrough_refusal (kind : IntentKind) (i : TraderIntent) :
    ¬GetsThrough kind i refusal := by
  rintro ⟨-, hpublished⟩
  cases hpublished

/-! ## The subscription drift -/

/-- A connection that has not joined `/control` refuses every intent. -/
theorem handleFrame_intent {env : GatewayEnv} {subs : Subscriptions} {i : TraderIntent}
    {kind : IntentKind} (hkind : IntentKind.parse i.kind = some kind)
    (hsubs : subs.isSubscribed .control = false) :
    (handleFrame env subs (ClientMessage.intent i).frame).1 = refusal := by
  simp only [handleFrame, parse_frame_intent, hkind, Option.map_some, handleClient, handleIntent,
    hsubs, if_true, refusal]

/-- An intent handled in a session that has not joined `/control` is refused. -/
theorem refusal_of_handled {env : GatewayEnv} {s : Session} (h : s.NoControl) {a : Action}
    {i : TraderIntent} {kind : IntentKind} (hkind : IntentKind.parse i.kind = some kind)
    {result : Handled} (hout : (s.step env a).1 = .handled (ClientMessage.intent i).frame result) :
    result = refusal := by
  cases a with
  | deliver id =>
    simp only [Session.step, Session.deliver] at hout
    split at hout
    · rename_i frame rest subs hconn
      injection hout with hframe hresult
      have hconn' := h.connections _ (List.mem_of_getElem? hconn)
      rw [← hresult, hframe]
      exact handleFrame_intent hkind hconn'.subs
    · cases hout
  | setSymbols symbols =>
    simp only [Session.step] at hout
    split_ifs at hout
  | sendIntent intent =>
    simp only [Session.step] at hout
    split_ifs at hout
  | unmount =>
    simp only [Session.step] at hout
    split_ifs at hout
  | socketOpens id => cases hout
  | socketCloses id => cases hout
  | timerFires t => cases hout
  | linkFails id => cases hout

/-- In every run of the hook's client, whatever opens, closes, reconnects or fails, every intent of
the five kinds that reaches the gateway is refused: nothing is acknowledged and nothing published.
-/
theorem intents_never_get_through (env : GatewayEnv) (opts : GatewayClientOptions)
    (acts : List Action) (i : TraderIntent) (kind : IntentKind)
    (hkind : IntentKind.parse i.kind = some kind) (result : Handled)
    (hreached : Outcome.handled (ClientMessage.intent i).frame result
      ∈ runOutputs (Session.step env) (.mount opts) acts) :
    ¬GetsThrough kind i result ∧ result = refusal := by
  have hrefused : result = refusal := by
    refine runOutputs_forall (Session.step env) Session.NoControl (A := fun _ => True)
      (Q := fun out => ∀ result, out = .handled (ClientMessage.intent i).frame result →
        result = refusal)
      (fun s a _ h => h.step env a) (fun s a _ h _ hout => refusal_of_handled h hkind hout)
      (Session.noControl_mount opts) (fun _ _ => trivial) _ hreached result rfl
  exact ⟨hrefused ▸ not_getsThrough_refusal kind i, hrefused⟩

/-- A gateway whose publishes succeed. -/
def healthyGateway : GatewayEnv where
  publishError _ _ := none
  serdeError _ := "data did not match any variant"

/-- The options of the cockpit. -/
def cockpitOptions : GatewayClientOptions := ⟨true, 500, 10000, none⟩

/-- The socket opens, the ten subscriptions are processed, and the trader engages the kill switch.
-/
def engageKillSwitch : List Action :=
  [.socketOpens 0] ++ List.replicate 10 (.deliver 0) ++
    [.sendIntent (.killswitch true none), .deliver 0]

/-- The kill switch reaches the gateway and is refused. -/
theorem killSwitch_refused :
    Outcome.handled (ClientMessage.intent (.killswitch true none)).frame refusal
        ∈ runOutputs (Session.step healthyGateway) (.mount cockpitOptions) engageKillSwitch ∧
      ¬GetsThrough .killswitch (.killswitch true none) refusal := by
  have hreached : Outcome.handled (ClientMessage.intent (.killswitch true none)).frame refusal
      ∈ runOutputs (Session.step healthyGateway) (.mount cockpitOptions) engageKillSwitch :=
    List.mem_of_getElem? (i := 12) rfl
  exact ⟨hreached, (intents_never_get_through healthyGateway cockpitOptions engageKillSwitch
    (.killswitch true none) .killswitch rfl refusal hreached).1⟩

/-- The kill switch was sent, its frame reached the gateway, and it did not get through. -/
theorem killSwitch_does_not_get_through :
    let outs := runOutputs (Session.step healthyGateway) (.mount cockpitOptions) engageKillSwitch
    outs[11]? = some (.sent true) ∧
      ∃ result, outs[12]?
          = some (.handled (ClientMessage.intent (.killswitch true none)).frame result) ∧
        ¬GetsThrough .killswitch (.killswitch true none) result :=
  ⟨rfl, refusal, rfl, not_getsThrough_refusal _ _⟩

/-! ## The field drift -/

/-- Of the intents the cockpit builds, the gateway accepts the fields of a mode change only. -/
theorem validateIntent_fields_iff {i : TraderIntent} {kind : IntentKind}
    (hkind : IntentKind.parse i.kind = some kind) :
    validateIntent kind (.obj i.fields) = .ok () ↔ kind = .tradingMode := by
  cases i with
  | killswitch engaged reason =>
    cases hkind
    cases reason <;> simp [validateIntent, TraderIntent.fields, bind, Except.bind]
  | strategyToggle strategy enabled =>
    cases hkind
    simp [validateIntent, TraderIntent.fields, bind, Except.bind]
  | priority symbol tier =>
    cases hkind
    simp [validateIntent, TraderIntent.fields, bind, Except.bind]
  | order symbol side quantity orderType limitPaise exchange =>
    cases hkind
    cases side <;> simp [validateIntent, TraderIntent.fields, bind, Except.bind]
  | replay command => cases hkind
  | tradingMode live =>
    cases hkind
    simp [validateIntent, TraderIntent.fields, bind, Except.bind, pure, Except.pure]

end Hedge.Pipeline
