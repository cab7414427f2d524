import Hedge.Exec.Tracking

/-!
# Reporting every change

Reference: `submit`, `on_fill`, `cancel`, `handle_submit_ok` and `handle_submit_err` in
`hedge-exec/src/engine.rs`, `record_outcome` in `hedge-exec/src/router.rs`.

Each call collects the events of the changes it makes, and its caller sees them if it returns `Ok`.
A `submit` that ends in a broker's error rejects its tracker and may make the router switch; both
are collected, and the list is dropped with the error. `changes_reported_iff` says that this is the
only way in which a change is lost.
-/

namespace Hedge.Exec

open Hedge.Common Hedge.Risk Hedge.BrokerApi

/-! ## Changes -/

/-- A transition of an order's tracker, or a switch of the active slot. -/
inductive Change where
  | moved (cid : CorrelationId) (target : OrderLifecycleState)
  | switched (source target : BrokerId)
deriving DecidableEq, Repr

/-- The change an event reports. -/
def EngineEvent.change : EngineEvent → Option Change
  | .lifecycle event => some (.moved event.correlationId event.state)
  | .failover event => some (.switched event.source event.target)
  | .error .. => none
  | .fill .. => none

/-- What reaches the caller: the events of a call that returns `Ok`. -/
def ExecOutput.events : ExecOutput → List EngineEvent
  | .submitted out => match out.result with
    | .ok events => events
    | .error _ => []
  | .filled (.ok events) => events
  | .filled (.error _) => []
  | .cancelled _ (.ok event) => [event]
  | .cancelled _ (.error _) => []

/-- The changes a call reports. -/
def ExecOutput.reported (out : ExecOutput) : List Change := out.events.filterMap EngineEvent.change

/-- The states a broker's error takes a tracker through. -/
def rejectMoves (t : OrderLifecycleTracker) : List OrderLifecycleState :=
  if t.state = .new then [.submitted, .rejected]
  else if t.state = .submitted then [.rejected]
  else []

/-- The states the broker's last word takes a tracker through. -/
def submitMoves (t : OrderLifecycleTracker) : Except BrokerError SubmitAck →
    List OrderLifecycleState
  | .ok _ => if t.state = .new then [.submitted] else []
  | .error _ => rejectMoves t

/-- The transitions a call makes, under the order it is about. -/
def moves (mac : Mac) (eng : ExecutionEngine) (st : ExecutionState) :
    ExecAction → CorrelationId × List OrderLifecycleState
  | .submit call env => (call.cid,
    if !verify mac eng.verifierKey call.token call.approval then []
    else if call.token ∈ st.consumedTokens then []
    else match translateIntent call.intent call.sizedQuantity with
      | .error _ => []
      | .ok _ => submitMoves (st.trackerFor call) (finalReply eng st.router.activeId env))
  | .onFill cid _ _ qty avg tsNs => (cid, match st.trackers.lookup cid with
    | none => []
    | some t => match t.partialFill qty avg tsNs with
      | .error _ => []
      | .ok (_, t') => [t'.state])
  | .cancel cid reply nowNs => (cid, match st.trackers.lookup cid, reply with
    | some t, .ok () => match t.cancel nowNs with
      | .error _ => []
      | .ok (_, t') => [t'.state]
    | _, _ => [])

/-- The switch between two states of the router, if there is one. -/
def switches (r r' : BrokerRouter) : List Change :=
  if r'.active = r.active then [] else [.switched (r.idOf r.active) (r.idOf r'.active)]

/-- Everything a call changes, whether it returns `Ok` or not. -/
def changes (mac : Mac) (eng : ExecutionEngine) (st : ExecutionState) (act : ExecAction) :
    List Change :=
  (moves mac eng st act).2.map (.moved (moves mac eng st act).1)
    ++ switches st.router (execStep mac eng st act).2.router

/-! ## The changes are what happens to the state -/

/-- The state of an order; an order without a tracker is as good as new. -/
def stateOf (st : ExecutionState) (cid : CorrelationId) : OrderLifecycleState :=
  match st.trackers.lookup cid with
  | some t => t.state
  | none => .new

/-- The transitions lead from one state to the other, each along an edge of the state machine. -/
def LeadsTo (s : OrderLifecycleState) : List OrderLifecycleState → OrderLifecycleState → Prop
  | [], s' => s' = s
  | target :: rest, s' => isLegalTransition s target = true ∧ LeadsTo target rest s'

/-- What the transitions `ms` of the order `cid` leave behind. -/
structure Moved (st st' : ExecutionState) (cid : CorrelationId) (ms : List OrderLifecycleState) :
    Prop where
  leads : LeadsTo (stateOf st cid) ms (stateOf st' cid)
  others : ∀ cid' ≠ cid, st'.trackers.lookup cid' = st.trackers.lookup cid'
  keyed : (∀ t, st.trackers.lookup cid = some t → t.correlationId = cid) →
    ∀ t, st'.trackers.lookup cid = some t → t.correlationId = cid

namespace Moved

variable {st st' st'' : ExecutionState} {cid : CorrelationId} {ms : List OrderLifecycleState}

theorem of_trackers_eq (h : st'.trackers = st.trackers) (cid : CorrelationId) :
    Moved st st' cid [] := by
  refine ⟨?_, ?_, ?_⟩
  · simp only [LeadsTo, stateOf, h]
  · intro cid' _
    rw [h]
  · rw [h]
    exact id

/-- Writing the tracker of the order. -/
theorem of_insert {t t' : OrderLifecycleTracker} (hlook : st.trackers.lookup cid = some t)
    (hleads : LeadsTo t.state ms t'.state) (hcid : t'.correlationId = t.correlationId)
    (hst : st'.trackers = st.trackers.insert cid t') : Moved st st' cid ms := by
  refine ⟨?_, ?_, ?_⟩
  · simp only [stateOf, hst, hlook, AList.lookup_insert]
    exact hleads
  · intro cid' hne
    rw [hst, AList.lookup_insert_ne hne]
  · intro hkeyed u hu
    rw [hst, AList.lookup_insert] at hu
    cases hu
    exact hcid.trans (hkeyed t hlook)

/-- Installing a tracker moves nothing. -/
theorem install (st : ExecutionState) (call : SubmitCall) :
    Moved st (st.install call) call.cid [] := by
  cases hold : st.trackers.lookup call.cid with
  | some old =>
    refine of_trackers_eq ?_ call.cid
    rw [ExecutionState.install, installTracker_of_some hold]
  | none =>
    have htracker : (st.install call).trackers.lookup call.cid
        = some (.new call.cid st.router.activeId call.sizedQuantity) :=
      installTracker_of_none hold
    refine ⟨?_, ?_, ?_⟩
    · simp only [LeadsTo, stateOf, htracker, hold]
      rfl
    · intro cid' hne
      simp only [ExecutionState.install, installTracker, hold, AList.lookup_insert_ne hne]
    · intro _ u hu
      rw [htracker] at hu
      cases hu
      rfl

theorem trans (h : Moved st st' cid []) (h' : Moved st' st'' cid ms) : Moved st st'' cid ms := by
  have hsame : stateOf st' cid = stateOf st cid := h.leads
  refine ⟨?_, ?_, fun hkeyed => h'.keyed (h.keyed hkeyed)⟩
  · rw [← hsame]
    exact h'.leads
  · intro cid' hne
    rw [h'.others cid' hne, h.others cid' hne]

end Moved

section Step

variable {t : OrderLifecycleTracker}

/-- An accepted transition is one step of the state machine. -/
theorem leadsTo_transition {t' : OrderLifecycleTracker} {target : OrderLifecycleState}
    {tsNs : UInt64} {id : Option String} {e : LifecycleEvent}
    (h : t.transitionNoFill target tsNs id = .ok (e, t')) :
    LeadsTo t.state [t'.state] t'.state ∧ t'.correlationId = t.correlationId := by
  obtain ⟨hlegal, -, rfl⟩ := OrderLifecycleTracker.transitionNoFill_inv h
  exact ⟨⟨hlegal, rfl⟩, rfl⟩

/-- So is an accepted fill. -/
theorem leadsTo_fill {t' : OrderLifecycleTracker} {qty : UInt64} {avg : Int64} {tsNs : UInt64}
    {e : LifecycleEvent} (h : t.partialFill qty avg tsNs = .ok (e, t')) :
    LeadsTo t.state [t'.state] t'.state ∧ t'.correlationId = t.correlationId := by
  obtain ⟨-, hlegal, -, hle, rfl⟩ := OrderLifecycleTracker.partialFill_inv h
  exact ⟨⟨hlegal, rfl⟩, rfl⟩

/-- A failure leads along `rejectMoves`, and its events name these states. -/
theorem rejectTracker_moves (t : OrderLifecycleTracker) (tsNs : UInt64) :
    LeadsTo t.state (rejectMoves t) (rejectTracker t tsNs).2.state ∧
      (rejectTracker t tsNs).2.correlationId = t.correlationId := by
  unfold rejectMoves
  by_cases hnew : t.state = .new
  · rw [rejectTracker_eq_of_new hnew, if_pos hnew, hnew]
    exact ⟨⟨rfl, rfl, rfl⟩, rfl⟩
  by_cases hsub : t.state = .submitted
  · rw [rejectTracker_eq_of_submitted hsub, if_neg hnew, if_pos hsub, hsub]
    exact ⟨⟨rfl, rfl⟩, rfl⟩
  · rw [rejectTracker_eq_self hnew hsub, if_neg hnew, if_neg hsub]
    exact ⟨rfl, rfl⟩

end Step

section Moves

variable {mac : Mac} {eng : ExecutionEngine} {st : ExecutionState}

theorem moves_submit_of_not_admitted {call : SubmitCall} (env : SubmitEnv)
    (h : ¬ Admitted mac eng st call) : moves mac eng st (.submit call env) = (call.cid, []) := by
  unfold moves
  dsimp only
  split_ifs with hv hused
  · rfl
  · rfl
  · exact absurd ⟨by simpa using hv, hused⟩ h

theorem moves_submit_of_admitted {call : SubmitCall} (env : SubmitEnv)
    (h : Admitted mac eng st call) :
    moves mac eng st (.submit call env)
      = (call.cid, match translateIntent call.intent call.sizedQuantity with
        | .error _ => []
        | .ok _ => submitMoves (st.trackerFor call) (finalReply eng st.router.activeId env)) := by
  simp only [moves, h.verified, h.unused, Bool.not_true, Bool.false_eq_true, if_false]

/-- A `submit` call leaves behind the transitions it makes. -/
theorem submit_moved (call : SubmitCall) (env : SubmitEnv) :
    Moved st (submit mac eng st call env).2 (moves mac eng st (.submit call env)).1
      (moves mac eng st (.submit call env)).2 := by
  by_cases hadm : Admitted mac eng st call
  swap
  · rw [moves_submit_of_not_admitted env hadm, (submit_of_not_admitted env hadm).2]
    exact .of_trackers_eq rfl _
  rw [moves_submit_of_admitted env hadm]
  have hlook := lookup_install st call
  cases ht : translateIntent call.intent call.sizedQuantity with
  | error reason =>
    rw [submit_of_untranslatable env hadm ht]
    exact .install st call
  | ok intent =>
    rw [submit_of_translated env hadm ht]
    refine (Moved.install st call).trans ?_
    cases hreply : finalReply eng st.router.activeId env with
    | ok ack =>
      dsimp only [submitMoves]
      by_cases hnew : (st.trackerFor call).state = .new
      · rw [if_pos hnew,
          (driveSubmit_of_ack _ _ _ _ hreply (handleSubmitOk_eq_of_new hlook hnew _ _)).2.2]
        obtain ⟨hleads, hcid⟩ := leadsTo_transition
          (OrderLifecycleTracker.submit_of_new hnew (some ack.brokerOrderId) env.submitNowNs)
        exact .of_insert hlook hleads hcid rfl
      · rw [if_neg hnew, (driveSubmit_of_ack_refused _ _ _ _ hreply
          (handleSubmitOk_of_ne_new hlook hnew _ _)).2]
        exact .of_trackers_eq rfl _
    | error berr =>
      obtain ⟨-, -, hst⟩ := driveSubmit_of_error (st.install call) call.cid st.router.active
        intent hreply
      rw [hst]
      obtain ⟨hleads, hcid⟩ := rejectTracker_moves (st.trackerFor call) env.submitNowNs
      exact .of_insert hlook hleads hcid (trackers_handleSubmitErr hlook _ _)

variable (mac eng st)

/-- Every call leaves behind the transitions it makes: each is an edge of the state machine, and no
other order is touched. -/
theorem execStep_moved (act : ExecAction) :
    Moved st (execStep mac eng st act).2 (moves mac eng st act).1 (moves mac eng st act).2 := by
  cases act with
  | submit call env => exact submit_moved call env
  | onFill cid symbol side qty avg tsNs =>
    simp only [execStep, onFill, moves]
    cases hlook : st.trackers.lookup cid with
    | none => exact .of_trackers_eq rfl _
    | some t =>
      dsimp only
      cases hfill : t.partialFill qty avg tsNs with
      | error err => exact .of_trackers_eq rfl _
      | ok p =>
        obtain ⟨hleads, hcid⟩ := leadsTo_fill hfill
        dsimp only
        split <;> exact .of_insert hlook hleads hcid rfl
  | cancel cid reply nowNs =>
    simp only [execStep, cancel, moves]
    cases hlook : st.trackers.lookup cid with
    | none => exact .of_trackers_eq rfl _
    | some t =>
      cases reply with
      | error err => exact .of_trackers_eq rfl _
      | ok _ =>
        dsimp only
        cases hcancel : t.cancel nowNs with
        | error err => exact .of_trackers_eq rfl _
        | ok p =>
          obtain ⟨hleads, hcid⟩ := leadsTo_transition hcancel
          exact .of_insert hlook hleads hcid rfl

end Moves

/-! ## What is reported -/

/-- Every tracker is registered under its own correlation id. -/
def Keyed (st : ExecutionState) : Prop :=
  ∀ cid t, st.trackers.lookup cid = some t → t.correlationId = cid

/-- A call whose changes are not reported: it gets through to the broker and ends in an error of the
broker, while its tracker can still be rejected or the failure makes the router switch. -/
def Drops (mac : Mac) (eng : ExecutionEngine) (st : ExecutionState) : ExecAction → Prop
  | .submit call env => Admitted mac eng st call ∧
    (∃ intent, translateIntent call.intent call.sizedQuantity = .ok intent) ∧
    ∃ berr, finalReply eng st.router.activeId env = .error berr ∧
      ((st.trackerFor call).state = .new ∨ (st.trackerFor call).state = .submitted ∨
        (surfacedError eng st.router.activeId env berr).countsTowardFailover = true ∧
          st.router.breaches
            ((st.router.statsOf st.router.active).record .failure 4294967295) = true)
  | _ => False

section Reported

variable {mac : Mac} {eng : ExecutionEngine} {st : ExecutionState}

theorem Keyed.step (h : Keyed st) (act : ExecAction) : Keyed (execStep mac eng st act).2 := by
  have hmoved := execStep_moved mac eng st act
  intro cid t hlook
  by_cases hcid : cid = (moves mac eng st act).1
  · subst hcid
    exact hmoved.keyed (h _) t hlook
  · rw [hmoved.others cid hcid] at hlook
    exact h cid t hlook

/-- The failover event of a recorded outcome reports the switch. -/
theorem reported_recordOutcome (r : BrokerRouter) (outcome : Outcome) (latencyMs : UInt32)
    (tsNs : UInt64) :
    ((r.recordOutcome outcome latencyMs tsNs).1.toList.map EngineEvent.failover).filterMap
        EngineEvent.change
      = switches r (r.recordOutcome outcome latencyMs tsNs).2 := by
  unfold switches
  cases h : r.breaches ((r.statsOf r.active).record outcome latencyMs) with
  | false =>
    rw [BrokerRouter.recordOutcome_of_not_breaches h, BrokerRouter.active_setStats, if_pos rfl]
    rfl
  | true =>
    rw [BrokerRouter.recordOutcome_of_breaches h, BrokerRouter.active_switched,
      BrokerRouter.active_setStats, if_neg r.active.ne_other.symm]
    rfl

theorem switches_self (r : BrokerRouter) : switches r r = [] := if_pos rfl

/-- The router switches on a failure exactly if the window breaches. -/
theorem switches_recordOutcome_eq_nil_iff (r : BrokerRouter) (outcome : Outcome)
    (latencyMs : UInt32) (tsNs : UInt64) :
    switches r (r.recordOutcome outcome latencyMs tsNs).2 = [] ↔
      r.breaches ((r.statsOf r.active).record outcome latencyMs) = false := by
  rw [← reported_recordOutcome]
  cases h : r.breaches ((r.statsOf r.active).record outcome latencyMs) with
  | false =>
    rw [BrokerRouter.recordOutcome_of_not_breaches h]
    exact iff_of_true rfl rfl
  | true =>
    rw [BrokerRouter.recordOutcome_of_breaches h]
    exact iff_of_false (List.cons_ne_nil _ _) Bool.true_eq_false.mp

theorem rejectMoves_eq_nil_iff (t : OrderLifecycleTracker) :
    rejectMoves t = [] ↔ t.state ≠ .new ∧ t.state ≠ .submitted := by
  unfold rejectMoves
  split_ifs with hnew hsub
  · simp [hnew]
  · simp [hsub]
  · simp [hnew, hsub]

/-- The switch a failed call makes. -/
theorem switches_of_error (r : BrokerRouter) (st : ExecutionState) (hr : st.router = r)
    (cid : CorrelationId) (err : ExecError) (tsNs : UInt64) :
    switches r (handleSubmitErr st cid err tsNs).2.router = [] ↔
      ¬ (err.countsTowardFailover = true ∧
        r.breaches ((r.statsOf r.active).record .failure 4294967295) = true) := by
  rw [router_handleSubmitErr, hr]
  split_ifs with hcounts
  · rw [switches_recordOutcome_eq_nil_iff]
    simp [hcounts]
  · exact iff_of_true (switches_self r) fun h => hcounts h.1

/-- A failed call: what it changed, and that it reports nothing. -/
theorem reported_of_error {call : SubmitCall} {env : SubmitEnv} (hadm : Admitted mac eng st call)
    {intent : BrokerApi.OrderIntent}
    (ht : translateIntent call.intent call.sizedQuantity = .ok intent) {berr : BrokerError}
    (hreply : finalReply eng st.router.activeId env = .error berr) :
    (execStep mac eng st (.submit call env)).1.reported = [] ∧
      (changes mac eng st (.submit call env) = [] ↔ ¬ Drops mac eng st (.submit call env)) := by
  obtain ⟨hres, -, hst⟩ := driveSubmit_of_error (st.install call) call.cid st.router.active
    intent hreply
  rw [← submit_of_translated env hadm ht] at hres hst
  refine ⟨?_, ?_⟩
  · simp only [execStep, ExecOutput.reported, ExecOutput.events, hres]
    rfl
  · have hdrops : Drops mac eng st (.submit call env) ↔
        ((st.trackerFor call).state = .new ∨ (st.trackerFor call).state = .submitted ∨
          (surfacedError eng st.router.activeId env berr).countsTowardFailover = true ∧
          st.router.breaches
            ((st.router.statsOf st.router.active).record .failure 4294967295) = true) := by
      constructor
      · rintro ⟨-, -, berr', hreply', h⟩
        rw [hreply] at hreply'
        cases hreply'
        exact h
      · intro h
        exact ⟨hadm, ⟨intent, ht⟩, berr, hreply, h⟩
    have hswitch := switches_of_error st.router (st.install call) rfl call.cid
      (surfacedError eng st.router.activeId env berr) env.submitNowNs
    simp only [changes, execStep, hst, moves_submit_of_admitted env hadm, ht, hreply, submitMoves,
      List.append_eq_nil_iff, List.map_eq_nil_iff, rejectMoves_eq_nil_iff, hdrops, hswitch]
    rw [not_or, not_or, and_assoc]

/-- A call that changes nothing and returns an error. -/
theorem reported_of_quiet {act : ExecAction} (hmoves : (moves mac eng st act).2 = [])
    (hrouter : (execStep mac eng st act).2.router = st.router)
    (hevents : (execStep mac eng st act).1.events = []) :
    (execStep mac eng st act).1.reported = changes mac eng st act := by
  rw [changes, hmoves, hrouter, switches_self, ExecOutput.reported, hevents]
  rfl

/-- A `submit` call reports what it changes, unless it drops its events. -/
theorem submit_reported (hkeyed : Keyed st) (call : SubmitCall) (env : SubmitEnv)
    (h : ¬ Drops mac eng st (.submit call env)) :
    (execStep mac eng st (.submit call env)).1.reported
      = changes mac eng st (.submit call env) := by
  by_cases hadm : Admitted mac eng st call
  swap
  · refine reported_of_quiet ?_ ?_ ?_
    · rw [moves_submit_of_not_admitted env hadm]
    · rw [execStep, (submit_of_not_admitted env hadm).2]
    · obtain ⟨err, herr⟩ := submit_fails_of_not_admitted env hadm
      simp only [execStep, ExecOutput.events, herr]
  cases ht : translateIntent call.intent call.sizedQuantity with
  | error reason =>
    refine reported_of_quiet ?_ ?_ ?_
    · rw [moves_submit_of_admitted env hadm, ht]
    · rw [execStep, submit_of_untranslatable env hadm ht]
      rfl
    · rw [execStep, submit_of_untranslatable env hadm ht]
      rfl
  | ok intent =>
    cases hreply : finalReply eng st.router.activeId env with
    | error berr =>
      obtain ⟨hreported, hchanges⟩ := reported_of_error hadm ht hreply
      rw [hreported, hchanges.mpr h]
    | ok ack =>
      have hlook := lookup_install st call
      by_cases hnew : (st.trackerFor call).state = .new
      · -- a new tracker moves, and the event carries its own correlation id
        obtain ⟨hres, -, hst⟩ := driveSubmit_of_ack _ _ st.router.active intent hreply
          (handleSubmitOk_eq_of_new hlook hnew ack env.submitNowNs)
        rw [← submit_of_translated env hadm ht] at hres hst
        have hcid : (st.trackerFor call).correlationId = call.cid := by
          unfold ExecutionState.trackerFor
          cases hold : st.trackers.lookup call.cid with
          | none => rfl
          | some old => exact hkeyed _ old hold
        have hrouter := reported_recordOutcome st.router .success 0 env.submitNowNs
        simp only [changes, execStep, hst, moves_submit_of_admitted env hadm, ht, hreply,
          submitMoves, if_pos hnew, ExecOutput.reported, ExecOutput.events, hres]
        rw [List.filterMap_cons_some (b := Change.moved call.cid .submitted)]
        · exact congrArg _ hrouter
        · rw [← hcid]
          rfl
      · -- a tracker that was reused refuses the acknowledgement and reports nothing
        obtain ⟨hres, hst⟩ := driveSubmit_of_ack_refused _ _ st.router.active intent hreply
          (handleSubmitOk_of_ne_new hlook hnew ack env.submitNowNs)
        rw [← submit_of_translated env hadm ht] at hres hst
        refine reported_of_quiet ?_ ?_ ?_
        · rw [moves_submit_of_admitted env hadm, ht, hreply]
          exact if_neg hnew
        · rw [execStep, hst]
          rfl
        · simp only [execStep, ExecOutput.events, hres]

/-- A fill leaves the router alone. -/
theorem router_onFill (st : ExecutionState) (cid : CorrelationId) (symbol : UInt32) (side : UInt8)
    (qty : UInt64) (avg : Int64) (tsNs : UInt64) :
    (onFill st cid symbol side qty avg tsNs).2.router = st.router := by
  unfold onFill
  dsimp only
  repeat' split
  all_goals rfl

/-- So does a cancel. -/
theorem router_cancel (st : ExecutionState) (cid : CorrelationId)
    (reply : Except BrokerError Unit) (nowNs : UInt64) :
    (cancel st cid reply nowNs).2.2.router = st.router := by
  unfold cancel
  dsimp only
  repeat' split
  all_goals rfl

/-- Every call reports what it changes, unless it drops its events. -/
theorem execStep_reported (hkeyed : Keyed st) (act : ExecAction) (h : ¬ Drops mac eng st act) :
    (execStep mac eng st act).1.reported = changes mac eng st act := by
  cases act with
  | submit call env => exact submit_reported hkeyed call env h
  | onFill cid symbol side qty avg tsNs =>
    have hrouter : (execStep mac eng st (.onFill cid symbol side qty avg tsNs)).2.router
        = st.router := router_onFill ..
    rw [changes, hrouter, switches_self, List.append_nil]
    simp only [execStep, moves, onFill]
    cases hlook : st.trackers.lookup cid with
    | none => rfl
    | some t =>
      dsimp only
      cases hfill : t.partialFill qty avg tsNs with
      | error err => rfl
      | ok p =>
        obtain ⟨event, t'⟩ := p
        obtain ⟨-, -, rfl, hle, rfl⟩ := OrderLifecycleTracker.partialFill_inv hfill
        rw [← hkeyed cid t hlook]
        dsimp only
        split <;> rfl
  | cancel cid reply nowNs =>
    have hrouter : (execStep mac eng st (.cancel cid reply nowNs)).2.router = st.router :=
      router_cancel ..
    rw [changes, hrouter, switches_self, List.append_nil]
    simp only [execStep, moves, cancel]
    cases hlook : st.trackers.lookup cid with
    | none => rfl
    | some t =>
      cases reply with
      | error err => rfl
      | ok _ =>
        dsimp only
        cases hcancel : t.cancel nowNs with
        | error err => rfl
        | ok p =>
          obtain ⟨event, t'⟩ := p
          obtain ⟨-, rfl, rfl⟩ := OrderLifecycleTracker.transitionNoFill_inv hcancel
          rw [← hkeyed cid t hlook]
          rfl

/-- A call that drops its events reports nothing, of the changes it has made. -/
theorem execStep_of_drops {act : ExecAction} (h : Drops mac eng st act) :
    (execStep mac eng st act).1.reported = [] ∧ changes mac eng st act ≠ [] := by
  cases act with
  | onFill cid symbol side qty avg tsNs => exact h.elim
  | cancel cid reply nowNs => exact h.elim
  | submit call env =>
    obtain ⟨hadm, ⟨intent, ht⟩, berr, hreply, -⟩ := id h
    obtain ⟨hreported, hchanges⟩ := reported_of_error hadm ht hreply
    exact ⟨hreported, fun hnone => hchanges.mp hnone h⟩

end Reported

/-! ## Over a run -/

/-- From a fresh engine, over every sequence of calls: the events that reach the caller report each
transition of a tracker and each switch of the router once, and nothing else, exactly if no call
drops its events. -/
theorem changes_reported_iff (mac : Mac) (eng : ExecutionEngine) (router : BrokerRouter)
    (acts : List ExecAction) :
    (runCollect (execStep mac eng) (fun st act => (execStep mac eng st act).1.reported)
        (.new router) acts).Perm
      (runCollect (execStep mac eng) (changes mac eng) (.new router) acts) ↔
    ∀ pre act post, acts = pre ++ act :: post →
      ¬ Drops mac eng (execRun mac eng (.new router) pre) act := by
  have hfresh : Keyed (.new router) := by
    intro cid t hlook
    cases hlook
  have hstep : ∀ st act, Keyed st → Keyed (execStep mac eng st act).2 := fun st act h => h.step act
  rw [runCollect_perm_iff Keyed hstep ?_ hfresh]
  · refine forall₄_congr fun pre act post hsplit => ?_
    have hkeyed : Keyed (execRun mac eng (.new router) pre) :=
      runState_invariant_all (execStep mac eng) Keyed hstep hfresh pre
    constructor
    · intro heq hdrops
      obtain ⟨hnone, hsome⟩ := execStep_of_drops hdrops
      exact hsome (heq.symm.trans hnone)
    · exact execStep_reported hkeyed act
  · intro st act hkeyed
    by_cases hdrops : Drops mac eng st act
    · exact .inr (execStep_of_drops hdrops).1
    · exact .inl (execStep_reported hkeyed act hdrops)

/-- A fresh engine whose first order is rejected: the tracker goes through `Submitted` to `Rejected`
and the router switches, and the caller sees none of it. -/
theorem rejection_unreported :
    runCollect (execStep tailMac makeEngine) (changes tailMac makeEngine)
        (.new (.new .zerodha .dhan ⟨5000, 100000, 1⟩))
        [.submit (mintedCall ⟨sampleIntent, 10, 1000, 1⟩)
          (scriptedEnv [.refuse (.rejected "halted")])]
      = [.moved (mintedCall ⟨sampleIntent, 10, 1000, 1⟩).cid .submitted,
        .moved (mintedCall ⟨sampleIntent, 10, 1000, 1⟩).cid .rejected,
        .switched .zerodha .dhan] ∧
    ¬ (runCollect (execStep tailMac makeEngine)
        (fun st act => (execStep tailMac makeEngine st act).1.reported)
        (.new (.new .zerodha .dhan ⟨5000, 100000, 1⟩))
        [.submit (mintedCall ⟨sampleIntent, 10, 1000, 1⟩)
          (scriptedEnv [.refuse (.rejected "halted")])]).Perm
      (runCollect (execStep tailMac makeEngine) (changes tailMac makeEngine)
        (.new (.new .zerodha .dhan ⟨5000, 100000, 1⟩))
        [.submit (mintedCall ⟨sampleIntent, 10, 1000, 1⟩)
          (scriptedEnv [.refuse (.rejected "halted")])]) := by
  decide +kernel

end Hedge.Exec
