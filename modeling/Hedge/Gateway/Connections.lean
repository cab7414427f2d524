import Hedge.Gateway.Events

/-!
# Connections that share the dispatcher state

Reference: `run_session` in `hedge-ui-gateway/src/gateway.rs`, `handle_nats_event`,
`ingest_for_alerts` and `drain_signal_flushes` in `hedge-ui-gateway/src/dispatcher.rs`.

Every connection handles every event of the bus, and each handling feeds the shared components
again: the second connection to see a volatility reading sees no flip, an alert is listed once per
connection, a join is output to one connection only. The sections of the handlers, each under the
lock of one component, interleave freely.

A connection sends what it would send alone as long as no other connection changes a component
behind a channel it has joined.
-/

namespace Hedge.Gateway

open Hedge Hedge.Common

/-! ## Sections -/

/-- A section of the session loop of a connection. -/
inductive SessionStep where
  | observe (ev : NatsEvent)
  | route (ev : NatsEvent) (prunedAt insertedAt : ℕ)
  | push (ev : NatsEvent)
  | list (ev : NatsEvent)
  | flush (now : ℕ)

/-- The frames of a section and the shared state after it. -/
def sessionStep (subs : Subscriptions) (state : DispatcherState) :
    SessionStep → List ServerMsg × DispatcherState
  | .observe ev => observeVolatility subs state ev
  | .route ev prunedAt insertedAt => routeEvent subs state ev prunedAt insertedAt
  | .push ev => ([], pushAlert state ev)
  | .list ev => (listAlerts subs state ev, state)
  | .flush now => drainSignalFlushes subs state now

/-- What the session loop of a connection does: handle an event or a tick of its flush timer. -/
inductive Activity where
  | event (ev : NatsEvent) (prunedAt insertedAt : ℕ)
  | tick (now : ℕ)

namespace Activity

/-- The sections of an activity. -/
def steps : Activity → List SessionStep
  | event ev prunedAt insertedAt => [.observe ev, .route ev prunedAt insertedAt, .push ev, .list ev]
  | tick now => [.flush now]

/-- The event that is handled. -/
def event? : Activity → Option NatsEvent
  | event ev _ _ => some ev
  | tick _ => none

end Activity

/-- Without another connection in between, the sections of an event are its handling. -/
theorem handleEvent_eq (subs : Subscriptions) (state : DispatcherState) (ev : NatsEvent)
    (prunedAt insertedAt : ℕ) :
    handleEvent subs state ev prunedAt insertedAt =
      ((runOutputs (sessionStep subs) state (Activity.event ev prunedAt insertedAt).steps).flatten,
        runState (sessionStep subs) state (Activity.event ev prunedAt insertedAt).steps) := by
  simp [handleEvent, handleNatsEvent, ingestForAlerts, Activity.steps, sessionStep]

/-! ## Schedules -/

/-- One section of one connection. -/
def gatewayStep (subs : ℕ → Subscriptions) (state : DispatcherState) (step : ℕ × SessionStep) :
    List ServerMsg × DispatcherState :=
  sessionStep (subs step.1) state step.2

/-- The sections of one connection. -/
def stepsOf (conn : ℕ) (schedule : List (ℕ × SessionStep)) : List SessionStep :=
  (schedule.filter fun step => step.1 = conn).map (·.2)

/-- The frames a connection sends in a schedule. -/
def framesOf (subs : ℕ → Subscriptions) (conn : ℕ) (state : DispatcherState)
    (schedule : List (ℕ × SessionStep)) : List ServerMsg :=
  runCollect (gatewayStep subs)
    (fun state step => if step.1 = conn then (gatewayStep subs state step).1 else []) state schedule

/-- The frames a connection sends when it is the only one. -/
def framesAlone (subs : Subscriptions) (state : DispatcherState) (steps : List SessionStep) :
    List ServerMsg :=
  (runOutputs (sessionStep subs) state steps).flatten

/-- In the schedule each of the connections handles every event once, in order, between ticks of its
own. -/
def Broadcasts (conns : Finset ℕ) (events : List NatsEvent) (schedule : List (ℕ × SessionStep)) :
    Prop :=
  (∀ step ∈ schedule, step.1 ∈ conns) ∧
  ∀ conn ∈ conns, ∃ activities : List Activity,
    activities.filterMap Activity.event? = events ∧
    stepsOf conn schedule = activities.flatMap Activity.steps

/-! ## What a section changes -/

/-- The section changes the shared component behind a channel. -/
def SessionStep.touches (subs : Subscriptions) (state : DispatcherState) (channel : Channel) :
    SessionStep → Bool
  | observe ev => channel = .market && ev.subject = "md.breadth.volatility" &&
      (state.volatility.reading ev.payload).any (· != state.volatility.inHighVol)
  | route ev _ _ => channel = .signals && subs.isSubscribed .signals &&
      .signals ∈ classifySubject ev.subject && (signalHalf ev).isSome
  | push ev => channel = .alerts && (severityForSubject ev.subject).isSome
  | list _ => false
  | flush now => channel = .signals && subs.isSubscribed .signals &&
      state.signals.idsWhere (state.signals.isExpired now) ≠ []

/-- No other connection has joined a channel whose component the section changes. -/
def Undisturbing (subs : ℕ → Subscriptions) (state : DispatcherState) (step : ℕ × SessionStep) :
    Prop :=
  ∀ conn, conn ≠ step.1 → ∀ channel, (subs conn).isSubscribed channel = true →
    step.2.touches (subs step.1) state channel = false

section Frames

variable {subs : Subscriptions} {state : DispatcherState} {ev : NatsEvent} {prunedAt insertedAt : ℕ}

/-- Routing to a channel changes nothing but the join, and that for `/signals` only. -/
theorem routeChannel_cases (subs : Subscriptions) (state : DispatcherState) (ev : NatsEvent)
    (prunedAt insertedAt : ℕ) (channel : Channel) :
    (routeChannel subs state ev prunedAt insertedAt channel).2 = state ∨
      channel = .signals ∧ subs.isSubscribed .signals = true ∧ (signalHalf ev).isSome = true ∧
      ∃ signals, (routeChannel subs state ev prunedAt insertedAt channel).2
        = { state with signals } := by
  unfold routeChannel
  split_ifs with hsub hsignals haccepts
  · exact .inl rfl
  · subst hsignals
    cases hhalf : signalHalf ev with
    | none => exact .inl rfl
    | some half => exact .inr ⟨rfl, by simpa using hsub, rfl, _, rfl⟩
  · exact .inl rfl
  · exact .inl rfl

/-- Routing changes nothing but the join. -/
theorem routeEvent_others (subs : Subscriptions) (state : DispatcherState) (ev : NatsEvent)
    (prunedAt insertedAt : ℕ) :
    (routeEvent subs state ev prunedAt insertedAt).2.alerts = state.alerts ∧
      (routeEvent subs state ev prunedAt insertedAt).2.volatility = state.volatility := by
  refine runState_invariant_all _ (fun s : DispatcherState =>
    s.alerts = state.alerts ∧ s.volatility = state.volatility) ?_ ⟨rfl, rfl⟩ _
  intro s channel hs
  rcases routeChannel_cases subs s ev prunedAt insertedAt channel with heq | ⟨-, -, -, _, heq⟩
  · rw [heq]
    exact hs
  · rw [heq]
    exact hs

/-- Routing leaves the join, unless it feeds it. -/
theorem routeEvent_signals (h : subs.isSubscribed .signals = true →
      .signals ∈ classifySubject ev.subject → (signalHalf ev).isSome = false) :
    (routeEvent subs state ev prunedAt insertedAt).2.signals = state.signals := by
  refine runState_invariant _ (fun s : DispatcherState => s.signals = state.signals)
    (A := (· ∈ classifySubject ev.subject)) ?_ rfl fun _ hmem => hmem
  intro s channel hmem hs
  rcases routeChannel_cases subs s ev prunedAt insertedAt channel with
    heq | ⟨rfl, hsub, hhalf, _, -⟩
  · rw [heq]
    exact hs
  · rw [h hsub hmem] at hhalf
    cases hhalf

theorem signals_sessionStep {step : SessionStep}
    (h : step.touches subs state .signals = false) :
    (sessionStep subs state step).2.signals = state.signals := by
  cases step with
  | observe ev =>
    simp only [sessionStep, observeVolatility]
    split_ifs <;> rfl
  | route ev prunedAt insertedAt =>
    refine routeEvent_signals fun hsub hmem => ?_
    simpa [SessionStep.touches, hsub, hmem] using h
  | push ev =>
    simp only [sessionStep, pushAlert]
    split <;> rfl
  | list ev => rfl
  | flush now =>
    simp only [sessionStep, drainSignalFlushes]
    split_ifs with hsub
    · rfl
    · have hnone : state.signals.idsWhere (state.signals.isExpired now) = [] := by
        simpa [SessionStep.touches, hsub] using h
      simp only [SignalsJoiner.flushExpired, hnone]
      rfl

theorem alerts_sessionStep {step : SessionStep} (h : step.touches subs state .alerts = false) :
    (sessionStep subs state step).2.alerts = state.alerts := by
  cases step with
  | observe ev =>
    simp only [sessionStep, observeVolatility]
    split_ifs <;> rfl
  | route ev prunedAt insertedAt => exact (routeEvent_others subs state ev prunedAt insertedAt).1
  | push ev =>
    have hnone : severityForSubject ev.subject = none := by simpa [SessionStep.touches] using h
    simp only [sessionStep, pushAlert, hnone]
  | list ev => rfl
  | flush now =>
    simp only [sessionStep, drainSignalFlushes]
    split_ifs <;> rfl

theorem volatility_sessionStep {step : SessionStep}
    (h : step.touches subs state .market = false) :
    (sessionStep subs state step).2.volatility = state.volatility := by
  cases step with
  | observe ev =>
    simp only [sessionStep, observeVolatility]
    split_ifs with hsubject
    · have hsame : (state.volatility.reading ev.payload).any
          (· != state.volatility.inHighVol) = false := by
        simpa [SessionStep.touches, hsubject] using h
      cases hreading : state.volatility.reading ev.payload with
      | none => simp [VolatilityTracker.observe, hreading]
      | some next =>
        have hnext : next = state.volatility.inHighVol := by simpa [hreading] using hsame
        simp [VolatilityTracker.observe, hreading, VolatilityTracker.set, hnext]
    · rfl
  | route ev prunedAt insertedAt => exact (routeEvent_others subs state ev prunedAt insertedAt).2
  | push ev =>
    simp only [sessionStep, pushAlert]
    split <;> rfl
  | list ev => rfl
  | flush now =>
    simp only [sessionStep, drainSignalFlushes]
    split_ifs <;> rfl

end Frames

/-! ## Two states a connection cannot tell apart -/

/-- The components behind the channels a connection has joined are the same. -/
structure Agree (subs : Subscriptions) (s t : DispatcherState) : Prop where
  signals : subs.isSubscribed .signals = true → s.signals = t.signals
  alerts : subs.isSubscribed .alerts = true → s.alerts = t.alerts
  volatility : subs.isSubscribed .market = true → s.volatility = t.volatility

section Agreement

variable {subs : Subscriptions} {s t : DispatcherState}

theorem Agree.routeChannel (h : Agree subs s t) (ev : NatsEvent) (prunedAt insertedAt : ℕ)
    (channel : Channel) :
    (Gateway.routeChannel subs s ev prunedAt insertedAt channel).1
        = (Gateway.routeChannel subs t ev prunedAt insertedAt channel).1 ∧
      Agree subs (Gateway.routeChannel subs s ev prunedAt insertedAt channel).2
        (Gateway.routeChannel subs t ev prunedAt insertedAt channel).2 := by
  unfold Gateway.routeChannel
  split_ifs with hsub hsignals haccepts
  · exact ⟨rfl, h⟩
  · subst hsignals
    cases signalHalf ev with
    | none => exact ⟨rfl, h⟩
    | some half =>
      have hjoin := h.signals (by simpa using hsub)
      dsimp only
      rw [hjoin]
      exact ⟨rfl, fun _ => rfl, h.alerts, h.volatility⟩
  · exact ⟨rfl, h⟩
  · exact ⟨rfl, h⟩

theorem modeFrames_of_not_subscribed (h : subs.isSubscribed .market = false)
    (flipped : Option Bool) : modeFrames subs flipped = [] := by
  cases flipped with
  | none => rfl
  | some mode => rw [modeFrames, h, if_neg Bool.false_ne_true]

/-- A connection sends the same frames from states it cannot tell apart. -/
theorem Agree.sessionStep (h : Agree subs s t) (step : SessionStep) :
    (Gateway.sessionStep subs s step).1 = (Gateway.sessionStep subs t step).1 ∧
      Agree subs (Gateway.sessionStep subs s step).2 (Gateway.sessionStep subs t step).2 := by
  cases step with
  | observe ev =>
    simp only [Gateway.sessionStep, observeVolatility]
    split_ifs with hsubject
    · cases hsub : subs.isSubscribed .market with
      | true =>
        rw [h.volatility hsub]
        exact ⟨rfl, h.signals, h.alerts, fun _ => rfl⟩
      | false =>
        -- without the channel the volatilities may differ, but no frame shows them
        refine ⟨?_, h.signals, h.alerts, fun hmarket => ?_⟩
        · rw [modeFrames_of_not_subscribed hsub, modeFrames_of_not_subscribed hsub]
        · rw [hsub] at hmarket
          cases hmarket
    · exact ⟨rfl, h⟩
  | route ev prunedAt insertedAt =>
    obtain ⟨hout, hend⟩ := run_simulation (Agree subs)
      (fun _ _ channel hst => hst.routeChannel ev prunedAt insertedAt channel) h
      (classifySubject ev.subject)
    exact ⟨congrArg List.flatten hout, hend⟩
  | push ev =>
    refine ⟨rfl, ?_⟩
    change Agree subs (pushAlert s ev) (pushAlert t ev)
    unfold pushAlert
    cases severityForSubject ev.subject with
    | none => exact h
    | some severity =>
      refine ⟨h.signals, fun hsub => ?_, h.volatility⟩
      dsimp only
      rw [h.alerts hsub]
  | list ev =>
    simp only [Gateway.sessionStep, listAlerts]
    split_ifs with hlist
    · rw [h.alerts hlist.2]
      exact ⟨rfl, h⟩
    · exact ⟨rfl, h⟩
  | flush now =>
    simp only [Gateway.sessionStep, drainSignalFlushes]
    split_ifs with hsub
    · exact ⟨rfl, h⟩
    · rw [h.signals (by simpa using hsub)]
      exact ⟨rfl, fun _ => rfl, h.alerts, h.volatility⟩

/-- A section of another connection that disturbs nothing goes unnoticed. -/
theorem Agree.other {subs' : Subscriptions} {step : SessionStep} (h : Agree subs s t)
    (hstep : ∀ channel, subs.isSubscribed channel = true →
      step.touches subs' s channel = false) :
    Agree subs (Gateway.sessionStep subs' s step).2 t where
  signals hsub := (signals_sessionStep (hstep .signals hsub)).trans (h.signals hsub)
  alerts hsub := (alerts_sessionStep (hstep .alerts hsub)).trans (h.alerts hsub)
  volatility hsub := (volatility_sessionStep (hstep .market hsub)).trans (h.volatility hsub)

end Agreement

/-! ## Frames of a schedule -/

/-- Every connection sends the frames it would send if it were the only one. -/
def FramesHold (subs : ℕ → Subscriptions) (state : DispatcherState)
    (schedule : List (ℕ × SessionStep)) : Prop :=
  ∀ conn, framesOf subs conn state schedule
    = framesAlone (subs conn) state (stepsOf conn schedule)

theorem framesOf_of_agree {subs : ℕ → Subscriptions} {conn : ℕ} {s t : DispatcherState}
    {schedule : List (ℕ × SessionStep)} (hagree : Agree (subs conn) s t)
    (h : ∀ pre step post, schedule = pre ++ step :: post →
      Undisturbing subs (runState (gatewayStep subs) s pre) step) :
    framesOf subs conn s schedule = framesAlone (subs conn) t (stepsOf conn schedule) := by
  induction schedule generalizing s t with
  | nil => rfl
  | cons step schedule ih =>
    have hrest : ∀ pre step' post, schedule = pre ++ step' :: post →
        Undisturbing subs (runState (gatewayStep subs) (gatewayStep subs s step).2 pre) step' :=
      fun pre step' post hsplit => h (step :: pre) step' post (by rw [hsplit]; rfl)
    rw [framesOf, runCollect_cons]
    by_cases hconn : step.1 = conn
    · subst hconn
      obtain ⟨hframes, hnext⟩ := hagree.sessionStep step.2
      have hsteps : stepsOf step.1 (step :: schedule) = step.2 :: stepsOf step.1 schedule := by
        rw [stepsOf, List.filter_cons_of_pos (by simp), List.map_cons]
        rfl
      rw [if_pos rfl, hsteps, framesAlone, runOutputs_cons, List.flatten_cons]
      exact congrArg₂ (· ++ ·) hframes (ih hnext hrest)
    · have hsteps : stepsOf conn (step :: schedule) = stepsOf conn schedule := by
        rw [stepsOf, List.filter_cons_of_neg (by simpa using hconn)]
        rfl
      rw [if_neg hconn, hsteps, List.nil_append]
      exact ih (hagree.other (h [] step schedule rfl conn (Ne.symm hconn))) hrest

/-- Connections are independent as long as none changes a component behind a channel that another
one has joined. -/
theorem frames_hold_of_undisturbing (subs : ℕ → Subscriptions) (state : DispatcherState)
    (schedule : List (ℕ × SessionStep))
    (h : ∀ pre step post, schedule = pre ++ step :: post →
      Undisturbing subs (runState (gatewayStep subs) state pre) step) :
    FramesHold subs state schedule :=
  fun _ => framesOf_of_agree ⟨fun _ => rfl, fun _ => rfl, fun _ => rfl⟩ h

/-- A fresh gateway with the default threshold. -/
def freshState : DispatcherState :=
  ⟨.new 2000000000 256 ∅, ⟨[], 64⟩, ⟨.fin (1 / 20), false⟩⟩

/-- A reading far above the threshold. -/
def volatileEvent : NatsEvent :=
  ⟨"md.breadth.volatility", "volatility", .obj [("value", .num (.posInt 1))], 0⟩

/-- Two connections handle the reading one after the other. -/
def bothHandle : List (ℕ × SessionStep) :=
  [(0, .observe volatileEvent), (0, .route volatileEvent 0 0), (0, .push volatileEvent),
    (0, .list volatileEvent), (1, .observe volatileEvent), (1, .route volatileEvent 0 0),
    (1, .push volatileEvent), (1, .list volatileEvent)]

/-- Only the first connection is on `/market`. -/
def firstOnMarket (conn : ℕ) : Subscriptions :=
  if conn = 0 then Subscriptions.subscribe ∅ .market [] else ∅

theorem frames_hold_firstOnMarket : FramesHold firstOnMarket freshState bothHandle := by
  have hfirst : ∀ state step, Undisturbing firstOnMarket state (0, step) := by
    intro state step conn hconn channel hsub
    rw [firstOnMarket, if_neg hconn] at hsub
    cases hsub
  have hsecond : ∀ state step, step.touches ∅ state .market = false →
      Undisturbing firstOnMarket state (1, step) := by
    intro state step htouches conn hconn channel hsub
    by_cases hzero : conn = 0
    · rw [firstOnMarket, if_pos hzero] at hsub
      have hmarket : channel = .market := by
        by_contra hother
        rw [Subscriptions.isSubscribed_subscribe_ne hother] at hsub
        cases hsub
      rw [hmarket]
      exact htouches
    · rw [firstOnMarket, if_neg hzero] at hsub
      cases hsub
  refine frames_hold_of_undisturbing firstOnMarket freshState bothHandle ?_
  refine forall_split_cons (hfirst _ _) (forall_split_cons (hfirst _ _) ?_)
  refine forall_split_cons (hfirst _ _) (forall_split_cons (hfirst _ _) ?_)
  refine forall_split_cons (hsecond _ _ (by decide +kernel)) (forall_split_cons (hsecond _ _ ?_) ?_)
  · rfl
  refine forall_split_cons (hsecond _ _ rfl) (forall_split_cons (hsecond _ _ rfl) ?_)
  exact forall_split_nil

/-- Both connections are on `/market`. -/
def bothOnMarket (_ : ℕ) : Subscriptions := Subscriptions.subscribe ∅ .market []

/-- The second connection sees no flip. -/
theorem not_framesHold_bothOnMarket :
    ¬ ∀ (subs : ℕ → Subscriptions) (state : DispatcherState) (conns : Finset ℕ)
      (events : List NatsEvent) (schedule : List (ℕ × SessionStep)),
      Broadcasts conns events schedule → FramesHold subs state schedule := by
  intro h
  have hbroadcasts : Broadcasts {0, 1} [volatileEvent] bothHandle := by
    refine ⟨by decide, fun conn hconn => ⟨[.event volatileEvent 0 0], rfl, ?_⟩⟩
    rcases Finset.mem_insert.mp hconn with rfl | hone
    · rfl
    · rw [Finset.mem_singleton.mp hone]
      rfl
  have hsecond := h bothOnMarket freshState {0, 1} [volatileEvent] bothHandle hbroadcasts 1
  exact absurd (congrArg List.length hsecond) (by decide +kernel)

end Hedge.Gateway
