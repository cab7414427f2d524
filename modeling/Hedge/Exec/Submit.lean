import Hedge.Exec.Engine

/-!
# What one `submit` call does

Reference: `submit`, `handle_submit_ok` and `handle_submit_err` in `hedge-exec/src/engine.rs`.

A call ends in one of four ways: the token does not verify, the token was used before, the intent
does not translate, or the broker is contacted. The first group of lemmas states each of them as one
equation; later results never unfold `submit`.
-/

namespace Hedge.Exec

open Hedge.Common Hedge.Risk Hedge.BrokerApi

/-- The state after steps 2 to 4: the token is consumed and a tracker is installed. -/
def ExecutionState.install (st : ExecutionState) (call : SubmitCall) : ExecutionState :=
  { st with
    consumedTokens := insert call.token st.consumedTokens
    trackers := installTracker st.trackers call.cid
      (.new call.cid st.router.activeId call.sizedQuantity) }

/-- The token is the tag of the call's own arguments and was not used before. -/
structure Admitted (mac : Mac) (eng : ExecutionEngine) (st : ExecutionState) (call : SubmitCall) :
    Prop where
  verified : verify mac eng.verifierKey call.token call.approval = true
  unused : call.token ∉ st.consumedTokens

section Branches

variable {mac : Mac} {eng : ExecutionEngine} {st : ExecutionState} {call : SubmitCall}
  (env : SubmitEnv)

theorem submit_of_not_verified (h : verify mac eng.verifierKey call.token call.approval = false) :
    submit mac eng st call env =
      (({ result := .error (.invalidApprovalToken (cidToHex call.cid)) } : SubmitOutcome).emitLatency
        (latencyRecord call.cid env false), st) := by
  simp [submit, h]

theorem submit_of_used (hv : verify mac eng.verifierKey call.token call.approval = true)
    (hused : call.token ∈ st.consumedTokens) :
    submit mac eng st call env =
      (({ result := .error (.duplicateToken (cidToHex call.cid)) } : SubmitOutcome).emitLatency
        (latencyRecord call.cid env false), st) := by
  simp [submit, hv, hused]

theorem submit_of_untranslatable (h : Admitted mac eng st call) {reason : String}
    (ht : translateIntent call.intent call.sizedQuantity = .error reason) :
    submit mac eng st call env =
      ({ result := .error (.internal ("intent translation failed: " ++ reason)) },
        st.install call) := by
  simp [submit, h.verified, h.unused, ht, ExecutionState.install, BrokerRouter.pickForIntent,
    BrokerRouter.activeId]

theorem submit_of_translated (h : Admitted mac eng st call) {intent : BrokerApi.OrderIntent}
    (ht : translateIntent call.intent call.sizedQuantity = .ok intent) :
    submit mac eng st call env =
      driveSubmit eng (st.install call) call.cid st.router.active st.router.activeId intent env := by
  simp [submit, h.verified, h.unused, ht, ExecutionState.install, BrokerRouter.pickForIntent,
    BrokerRouter.activeId]

/-- A call that is not admitted contacts no broker and changes nothing. -/
theorem submit_of_not_admitted (h : ¬ Admitted mac eng st call) :
    (submit mac eng st call env).1.contacts = [] ∧ (submit mac eng st call env).2 = st := by
  cases hv : verify mac eng.verifierKey call.token call.approval with
  | false =>
    rw [submit_of_not_verified env hv]
    exact ⟨rfl, rfl⟩
  | true =>
    have hused : call.token ∈ st.consumedTokens := by
      by_contra hunused
      exact h ⟨hv, hunused⟩
    rw [submit_of_used env hv hused]
    exact ⟨rfl, rfl⟩

/-- A call that is not admitted fails. -/
theorem submit_fails_of_not_admitted (h : ¬ Admitted mac eng st call) :
    ∃ err, (submit mac eng st call env).1.result = .error err := by
  cases hv : verify mac eng.verifierKey call.token call.approval with
  | false =>
    rw [submit_of_not_verified env hv]
    exact ⟨_, rfl⟩
  | true =>
    have hused : call.token ∈ st.consumedTokens := by
      by_contra hunused
      exact h ⟨hv, hunused⟩
    rw [submit_of_used env hv hused]
    exact ⟨_, rfl⟩

end Branches

/-! ## Translation -/

/-- The wire bytes of the intent name known variants. -/
structure Translatable (intent : Hedge.OrderIntent) : Prop where
  side : intent.side = 0 ∨ intent.side = 1
  orderType : intent.orderType = 0 ∨ intent.orderType = 1
  exchange : intent.exchange = 0 ∨ intent.exchange = 1

/-- The broker intent carries the fields of the signed one, with the sized quantity. -/
structure Carries (intent : Hedge.OrderIntent) (sizedQuantity : UInt64)
    (out : BrokerApi.OrderIntent) : Prop where
  correlationId : out.correlationId = .fromBeBytes intent.correlationId
  symbol : out.symbolRaw = intent.symbol
  side : out.side.asU8 = intent.side
  quantity : out.quantity = sizedQuantity
  orderType : out.orderType.asU8 = intent.orderType
  limitPaise : out.limitPaise = intent.limitPaise
  exchange : out.exchange.asI8 = intent.exchange

/-- A wire byte decodes to the side that encodes to it. -/
theorem translateSide_eq_some_iff {byte : UInt8} {s : Side} :
    translateSide byte = some s ↔ byte = s.asU8 := by
  cases s <;> simp only [translateSide, Side.asU8] <;> split_ifs <;> simp_all

theorem translateIntent_carries {intent : Hedge.OrderIntent} {q : UInt64}
    {out : BrokerApi.OrderIntent} (h : translateIntent intent q = .ok out) :
    Carries intent q out := by
  unfold translateIntent at h
  split at h <;> try cases h
  rename_i side orderType exchange hside htype hexch
  exact {
    correlationId := rfl
    symbol := rfl
    side := (translateSide_eq_some_iff.mp hside).symm
    quantity := rfl
    orderType := (OrderType.fromU8_eq_some_iff.mp htype).symm
    limitPaise := rfl
    exchange := (Exchange.fromI8_eq_some_iff.mp hexch).symm }

/-- Translation succeeds exactly on known wire bytes. -/
theorem translatable_iff {intent : Hedge.OrderIntent} {q : UInt64} :
    Translatable intent ↔ ∃ out, translateIntent intent q = .ok out := by
  constructor
  · rintro ⟨hside, htype, hexch⟩
    have h1 : ∃ s, translateSide intent.side = some s :=
      hside.elim (fun h => ⟨.buy, translateSide_eq_some_iff.mpr h⟩)
        (fun h => ⟨.sell, translateSide_eq_some_iff.mpr h⟩)
    have h2 : ∃ t, OrderType.fromU8 intent.orderType = some t :=
      htype.elim (fun h => ⟨.market, OrderType.fromU8_eq_some_iff.mpr h⟩)
        (fun h => ⟨.limit, OrderType.fromU8_eq_some_iff.mpr h⟩)
    have h3 : ∃ e, Exchange.fromI8 intent.exchange = some e :=
      hexch.elim (fun h => ⟨.nse, Exchange.fromI8_eq_some_iff.mpr h⟩)
        (fun h => ⟨.bse, Exchange.fromI8_eq_some_iff.mpr h⟩)
    obtain ⟨s, hs⟩ := h1
    obtain ⟨t, ht⟩ := h2
    obtain ⟨e, he⟩ := h3
    exact ⟨_, by rw [translateIntent, hs, ht, he]⟩
  · rintro ⟨out, h⟩
    have hc := translateIntent_carries h
    refine ⟨?_, ?_, ?_⟩
    · rw [← hc.side]
      cases out.side <;> decide
    · rw [← hc.orderType]
      cases out.orderType <;> decide
    · rw [← hc.exchange]
      cases out.exchange <;> decide

/-! ## Broker contacts -/

section Contacts

variable {mac : Mac} {eng : ExecutionEngine} {st : ExecutionState} {call : SubmitCall}
  {env : SubmitEnv}

/-- The attempts made: one contact each, to the active slot, all with the same intent. -/
def attemptContacts (eng : ExecutionEngine) (st : ExecutionState) (intent : BrokerApi.OrderIntent)
    (env : SubmitEnv) : List BrokerContact :=
  (List.range' 1 (finalAttempt eng.retryPolicy (submitOp st.router.activeId env))).map fun k =>
    ⟨st.router.active, intent, k, env.react k⟩

theorem driveSubmit_contacts (cid : CorrelationId) (slot : ActiveSlot) (b : BrokerId)
    (intent : BrokerApi.OrderIntent) :
    (driveSubmit eng st cid slot b intent env).1.contacts =
      (List.range' 1 (finalAttempt eng.retryPolicy (submitOp b env))).map fun k =>
        ⟨slot, intent, k, env.react k⟩ := by
  unfold driveSubmit
  rw [← retryWithBackoff_attempts eng.retryPolicy env.jitter]
  dsimp only
  split
  · split <;> rfl
  · rfl

/-- A translated call contacts the active adapter once per attempt. -/
theorem submit_contacts (h : Admitted mac eng st call) {intent : BrokerApi.OrderIntent}
    (ht : translateIntent call.intent call.sizedQuantity = .ok intent) :
    (submit mac eng st call env).1.contacts = attemptContacts eng st intent env := by
  rw [submit_of_translated env h ht, driveSubmit_contacts]
  rfl

/-- A contact is only made by an admitted call, with the translated intent. -/
theorem contact_inv {c : BrokerContact} (hc : c ∈ (submit mac eng st call env).1.contacts) :
    Admitted mac eng st call ∧ ∃ intent,
      translateIntent call.intent call.sizedQuantity = .ok intent ∧
      c ∈ attemptContacts eng st intent env := by
  by_cases h : Admitted mac eng st call
  · refine ⟨h, ?_⟩
    cases ht : translateIntent call.intent call.sizedQuantity with
    | error reason =>
      rw [submit_of_untranslatable env h ht] at hc
      cases hc
    | ok intent =>
      rw [submit_contacts h ht] at hc
      exact ⟨intent, rfl, hc⟩
  · rw [(submit_of_not_admitted env h).1] at hc
    cases hc

theorem mem_attemptContacts {intent : BrokerApi.OrderIntent} {c : BrokerContact} :
    c ∈ attemptContacts eng st intent env ↔
      ∃ k, 1 ≤ k ∧ k ≤ finalAttempt eng.retryPolicy (submitOp st.router.activeId env) ∧
        c = ⟨st.router.active, intent, k, env.react k⟩ := by
  simp only [attemptContacts, List.mem_map, List.mem_range'_1]
  constructor
  · rintro ⟨k, ⟨h1, h2⟩, rfl⟩
    exact ⟨k, h1, by omega, rfl⟩
  · rintro ⟨k, h1, h2, rfl⟩
    exact ⟨k, ⟨h1, by omega⟩, rfl⟩

end Contacts

/-! ## The tracker of the call -/

section Tracker

variable {st : ExecutionState} {cid : CorrelationId} {t : OrderLifecycleTracker}

theorem installTracker_of_none {trackers : Map CorrelationId OrderLifecycleTracker}
    (h : trackers.lookup cid = none) : (installTracker trackers cid t).lookup cid = some t := by
  simp [installTracker, h]

theorem installTracker_of_some {trackers : Map CorrelationId OrderLifecycleTracker}
    {old : OrderLifecycleTracker} (h : trackers.lookup cid = some old) :
    installTracker trackers cid t = trackers := by
  simp [installTracker, h]

theorem installTracker_tracked (trackers : Map CorrelationId OrderLifecycleTracker)
    (cid : CorrelationId) (t : OrderLifecycleTracker) :
    ∃ t', (installTracker trackers cid t).lookup cid = some t' := by
  cases hold : trackers.lookup cid with
  | some old =>
    rw [installTracker_of_some hold]
    exact ⟨old, hold⟩
  | none => exact ⟨t, installTracker_of_none hold⟩

/-- The tracker an admitted call works with: the one already there, or a fresh one. -/
def ExecutionState.trackerFor (st : ExecutionState) (call : SubmitCall) : OrderLifecycleTracker :=
  (st.trackers.lookup call.cid).getD (.new call.cid st.router.activeId call.sizedQuantity)

theorem lookup_install (st : ExecutionState) (call : SubmitCall) :
    (st.install call).trackers.lookup call.cid = some (st.trackerFor call) := by
  cases h : st.trackers.lookup call.cid with
  | none => simp [ExecutionState.install, ExecutionState.trackerFor, h, installTracker_of_none h]
  | some old => simp [ExecutionState.install, ExecutionState.trackerFor, h, installTracker_of_some h]

/-- An acknowledgement moves a tracker in `New` to `Submitted` and is recorded as a success. -/
theorem handleSubmitOk_eq_of_new (hlook : st.trackers.lookup cid = some t) (hnew : t.state = .new)
    (ack : SubmitAck) (tsNs : UInt64) :
    handleSubmitOk st cid ack tsNs = .ok
      (.lifecycle ((t.moved .submitted (some ack.brokerOrderId)).event tsNs)
          :: (st.router.recordOutcome .success 0 tsNs).1.toList.map .failover,
        { st with
          trackers := st.trackers.insert cid (t.moved .submitted (some ack.brokerOrderId))
          router := (st.router.recordOutcome .success 0 tsNs).2 }) := by
  simp only [handleSubmitOk, hlook, OrderLifecycleTracker.submit_of_new hnew]

/-- The tracker then carries the order id. -/
theorem handleSubmitOk_of_new (hlook : st.trackers.lookup cid = some t) (hnew : t.state = .new)
    (ack : SubmitAck) (tsNs : UInt64) :
    ∃ events st', handleSubmitOk st cid ack tsNs = .ok (events, st') ∧
      st'.trackers.lookup cid = some (t.moved .submitted (some ack.brokerOrderId)) := by
  exact ⟨_, _, handleSubmitOk_eq_of_new hlook hnew ack tsNs, AList.lookup_insert _⟩

/-- In any other state the acknowledgement is refused. -/
theorem handleSubmitOk_of_ne_new (hlook : st.trackers.lookup cid = some t) (hne : t.state ≠ .new)
    (ack : SubmitAck) (tsNs : UInt64) :
    handleSubmitOk st cid ack tsNs = .error (.invalidFsmTransition t.state .submitted) := by
  simp only [handleSubmitOk, hlook, OrderLifecycleTracker.submit_of_ne_new hne]

/-- A failure replaces the tracker by its rejected form. -/
theorem trackers_handleSubmitErr (hlook : st.trackers.lookup cid = some t) (err : ExecError)
    (tsNs : UInt64) :
    (handleSubmitErr st cid err tsNs).2.trackers
      = st.trackers.insert cid (rejectTracker t tsNs).2 := by
  unfold handleSubmitErr
  simp only [hlook]
  split <;> rfl

theorem lookup_handleSubmitErr (hlook : st.trackers.lookup cid = some t) (err : ExecError)
    (tsNs : UInt64) :
    (handleSubmitErr st cid err tsNs).2.trackers.lookup cid = some (rejectTracker t tsNs).2 := by
  rw [trackers_handleSubmitErr hlook]
  exact AList.lookup_insert _

/-- From `New`, a failure takes the tracker through `Submitted` into `Rejected`. -/
theorem rejectTracker_eq_of_new (hnew : t.state = .new) (tsNs : UInt64) :
    rejectTracker t tsNs
      = ([(t.moved .submitted none).event tsNs,
          ((t.moved .submitted none).moved .rejected none).event tsNs],
        (t.moved .submitted none).moved .rejected none) := by
  have hsub := OrderLifecycleTracker.submit_of_new hnew none tsNs
  have hrej := OrderLifecycleTracker.reject_of_submitted (t := t.moved .submitted none) rfl tsNs
  simp only [rejectTracker, if_pos hnew, hsub, hrej]
  rfl

/-- From `Submitted`, it takes it into `Rejected`. -/
theorem rejectTracker_eq_of_submitted (hsub : t.state = .submitted) (tsNs : UInt64) :
    rejectTracker t tsNs = ([(t.moved .rejected none).event tsNs], t.moved .rejected none) := by
  have hne : t.state ≠ .new := by
    rw [hsub]
    decide
  simp only [rejectTracker, if_neg hne, OrderLifecycleTracker.reject_of_submitted hsub tsNs]
  rfl

/-- From any other state, the tracker stays as it is. -/
theorem rejectTracker_eq_self (hnew : t.state ≠ .new) (hsub : t.state ≠ .submitted)
    (tsNs : UInt64) : rejectTracker t tsNs = ([], t) := by
  have hillegal : isLegalTransition t.state .rejected = false := by
    cases hs : t.state <;> first | exact absurd hs hnew | exact absurd hs hsub | rfl
  have hrej : t.reject tsNs = .error (.invalidFsmTransition t.state .rejected) :=
    OrderLifecycleTracker.transitionNoFill_of_illegal hillegal tsNs none
  simp only [rejectTracker, if_neg hnew, hrej]

/-- A tracker still in `New` ends up in `Rejected`. -/
theorem rejectTracker_of_new (hnew : t.state = .new) (tsNs : UInt64) :
    (rejectTracker t tsNs).2.state = .rejected := by
  rw [rejectTracker_eq_of_new hnew]
  rfl

/-- A failure touches nothing but the state. -/
theorem rejectTracker_keeps (t : OrderLifecycleTracker) (tsNs : UInt64) :
    (rejectTracker t tsNs).2.broker = t.broker ∧
      (rejectTracker t tsNs).2.filledQty = t.filledQty ∧
      (rejectTracker t tsNs).2.brokerOrderId = t.brokerOrderId := by
  by_cases hnew : t.state = .new
  · rw [rejectTracker_eq_of_new hnew]
    exact ⟨rfl, rfl, rfl⟩
  by_cases hsub : t.state = .submitted
  · rw [rejectTracker_eq_of_submitted hsub]
    exact ⟨rfl, rfl, rfl⟩
  · rw [rejectTracker_eq_self hnew hsub]
    exact ⟨rfl, rfl, rfl⟩

end Tracker

/-! ## The broker's last word -/

section Drive

variable {eng : ExecutionEngine} (st : ExecutionState) (cid : CorrelationId) (slot : ActiveSlot)
  {b : BrokerId} (intent : BrokerApi.OrderIntent) {env : SubmitEnv}

/-- The reply the retry loop ends with. -/
def finalReply (eng : ExecutionEngine) (b : BrokerId) (env : SubmitEnv) :
    Except BrokerError SubmitAck :=
  (env.react (finalAttempt eng.retryPolicy (submitOp b env))).reply

/-- An acknowledged call, if the tracker takes the acknowledgement. -/
theorem driveSubmit_of_ack {ack : SubmitAck} (hreply : finalReply eng b env = .ok ack)
    {events : List EngineEvent} {st' : ExecutionState}
    (hok : handleSubmitOk st cid ack env.submitNowNs = .ok (events, st')) :
    (driveSubmit eng st cid slot b intent env).1.result = .ok events ∧
      (driveSubmit eng st cid slot b intent env).1.latency = [latencyRecord cid env false] ∧
      (driveSubmit eng st cid slot b intent env).2 = st' := by
  have hres : (retryWithBackoff eng.retryPolicy env.jitter (submitOp b env)).result = .ok ack := by
    rw [retryWithBackoff_result, submitOp, ← finalReply, hreply]
    rfl
  simp [driveSubmit, hres, hok, SubmitOutcome.emitLatency]

/-- An acknowledged call whose tracker refuses the acknowledgement returns its error at once. -/
theorem driveSubmit_of_ack_refused {ack : SubmitAck} (hreply : finalReply eng b env = .ok ack)
    {err : ExecError} (herr : handleSubmitOk st cid ack env.submitNowNs = .error err) :
    (driveSubmit eng st cid slot b intent env).1.result = .error err ∧
      (driveSubmit eng st cid slot b intent env).2 = st := by
  have hres : (retryWithBackoff eng.retryPolicy env.jitter (submitOp b env)).result = .ok ack := by
    rw [retryWithBackoff_result, submitOp, ← finalReply, hreply]
    rfl
  simp [driveSubmit, hres, herr]

/-- The error a failed call surfaces: a retryable one is replaced when the budget is used up. -/
def surfacedError (eng : ExecutionEngine) (b : BrokerId) (env : SubmitEnv) (berr : BrokerError) :
    ExecError :=
  let err : ExecError :=
    .broker b (UInt32.ofNat (finalAttempt eng.retryPolicy (submitOp b env))) berr
  if berr.isRetryable then .retryExhausted (UInt32.ofNat eng.retryPolicy.budget) err.display
  else err

/-- A failed call: the tracker is rejected and the latency is reported. -/
theorem driveSubmit_of_error {berr : BrokerError} (hreply : finalReply eng b env = .error berr) :
    (driveSubmit eng st cid slot b intent env).1.result = .error (surfacedError eng b env berr) ∧
      (driveSubmit eng st cid slot b intent env).1.latency = [latencyRecord cid env true] ∧
      (driveSubmit eng st cid slot b intent env).2
        = (handleSubmitErr st cid (surfacedError eng b env berr) env.submitNowNs).2 := by
  have hres : (retryWithBackoff eng.retryPolicy env.jitter (submitOp b env)).result
      = .error (surfacedError eng b env berr) := by
    rw [retryWithBackoff_result, submitOp, ← finalReply, hreply]
    simp only [surface, surfacedError, ExecError.isRetryable]
    exact (apply_ite Except.error _ _ _).symm
  simp [driveSubmit, hres, SubmitOutcome.emitLatency]

/-- The router records a failure if the error counts toward failover. -/
theorem router_handleSubmitErr (err : ExecError) (tsNs : UInt64) :
    (handleSubmitErr st cid err tsNs).2.router
      = if err.countsTowardFailover then (st.router.recordOutcome .failure 4294967295 tsNs).2
        else st.router := by
  unfold handleSubmitErr
  cases st.trackers.lookup cid <;> dsimp only <;> split <;> rfl

end Drive

end Hedge.Exec
