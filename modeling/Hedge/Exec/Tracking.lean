import Hedge.Common.Run
import Hedge.Exec.Submit

/-!
# Tracking accepted orders

Reference: `submit`, `on_fill` and `cancel` in `hedge-exec/src/engine.rs`.

The registry has one tracker per correlation id, while tokens are unique per approval, so two
approvals may share a tracker. A call installs a tracker only if there is none, and the old one
decides what becomes of the new acknowledgement. `accepted_tracked_iff` says when an acknowledged
order is tracked: the call found no tracker, or one that is as good as fresh.
-/

namespace Hedge.Exec

open Hedge.Common Hedge.Risk Hedge.BrokerApi

/-! ## Runs of the engine -/

/-- A call on the engine, with what it meets outside the process. -/
inductive ExecAction where
  | submit (call : SubmitCall) (env : SubmitEnv)
  | onFill (cid : CorrelationId) (symbol : UInt32) (side : UInt8) (cumFilledQty : UInt64)
      (cumAvgFillPaise : Int64) (tsNs : UInt64)
  | cancel (cid : CorrelationId) (reply : Except BrokerError Unit) (nowNs : UInt64)

/-- What a call returns. -/
inductive ExecOutput where
  | submitted (out : SubmitOutcome)
  | filled (result : Except ExecError (List EngineEvent))
  | cancelled (sent : Option (ActiveSlot × String)) (result : Except ExecError EngineEvent)

/-- One call. -/
def execStep (mac : Mac) (eng : ExecutionEngine) (st : ExecutionState) :
    ExecAction → ExecOutput × ExecutionState
  | .submit call env =>
    (.submitted (submit mac eng st call env).1, (submit mac eng st call env).2)
  | .onFill cid symbol side qty avg tsNs =>
    (.filled (onFill st cid symbol side qty avg tsNs).1, (onFill st cid symbol side qty avg tsNs).2)
  | .cancel cid reply nowNs =>
    (.cancelled (cancel st cid reply nowNs).1 (cancel st cid reply nowNs).2.1,
      (cancel st cid reply nowNs).2.2)

/-- The state after a run. -/
abbrev execRun (mac : Mac) (eng : ExecutionEngine) (st : ExecutionState) (acts : List ExecAction) :
    ExecutionState :=
  runState (execStep mac eng) st acts

/-! ## A submitted order keeps its identity -/

/-- `t'` is a later form of the order `t`, which has left `New`. -/
structure SameOrder (t t' : OrderLifecycleTracker) : Prop where
  left_new : t'.state ≠ .new
  brokerOrderId : t'.brokerOrderId = t.brokerOrderId
  requestedQty : t'.requestedQty = t.requestedQty
  broker : t'.broker = t.broker

namespace SameOrder

theorem refl {t : OrderLifecycleTracker} (h : t.state ≠ .new) : SameOrder t t := ⟨h, rfl, rfl, rfl⟩

theorem trans {t t' t'' : OrderLifecycleTracker} (h : SameOrder t t') (h' : SameOrder t' t'') :
    SameOrder t t'' :=
  ⟨h'.left_new, h'.brokerOrderId.trans h.brokerOrderId, h'.requestedQty.trans h.requestedQty,
    h'.broker.trans h.broker⟩

/-- A transition without an order id leads to the same order. -/
theorem of_transitionNoFill {t t' : OrderLifecycleTracker} {target : OrderLifecycleState}
    {tsNs : UInt64} {e : LifecycleEvent} (htarget : target ≠ .new)
    (h : t.transitionNoFill target tsNs none = .ok (e, t')) : SameOrder t t' := by
  obtain ⟨-, -, rfl⟩ := OrderLifecycleTracker.transitionNoFill_inv h
  exact ⟨htarget, rfl, rfl, rfl⟩

/-- A fill leads to the same order. -/
theorem of_partialFill {t t' : OrderLifecycleTracker} {qty : UInt64} {avg : Int64} {tsNs : UInt64}
    {e : LifecycleEvent} (h : t.partialFill qty avg tsNs = .ok (e, t')) : SameOrder t t' := by
  obtain ⟨-, -, -, hle, rfl⟩ := OrderLifecycleTracker.partialFill_inv h
  exact ⟨t.fillTarget_ne_new qty, rfl, rfl, rfl⟩

/-- A failed submit on the same id rejects the order at most. -/
theorem of_rejectTracker {t : OrderLifecycleTracker} (h : t.state ≠ .new) (tsNs : UInt64) :
    SameOrder t (rejectTracker t tsNs).2 := by
  simp only [rejectTracker, if_neg h]
  cases hrej : t.reject tsNs with
  | error err => exact refl h
  | ok p => exact of_transitionNoFill (by decide) hrej

end SameOrder

/-- The registry holds the order `t`, which has left `New`, in some later form. -/
def Holds (st : ExecutionState) (cid : CorrelationId) (t : OrderLifecycleTracker) : Prop :=
  ∃ t', st.trackers.lookup cid = some t' ∧ SameOrder t t'

section Step

variable {mac : Mac} {eng : ExecutionEngine} {st : ExecutionState} {cid : CorrelationId}
  {t : OrderLifecycleTracker}

/-- Writing a tracker keeps an order if the write under its own id does. -/
theorem Holds.insert (h : Holds st cid t) {cid' : CorrelationId} {new : OrderLifecycleTracker}
    (hsame : ∀ t', st.trackers.lookup cid' = some t' → t'.state ≠ .new → SameOrder t' new)
    {st' : ExecutionState} (hst : st'.trackers = st.trackers.insert cid' new) :
    Holds st' cid t := by
  obtain ⟨t', hlook, hto⟩ := h
  by_cases hcid : cid = cid'
  · subst hcid
    exact ⟨new, by rw [hst, AList.lookup_insert], hto.trans (hsame t' hlook hto.left_new)⟩
  · exact ⟨t', by rw [hst, AList.lookup_insert_ne hcid, hlook], hto⟩

/-- Steps 2 to 4 of a call keep every order: a tracker is only installed where there is none. -/
theorem Holds.install (h : Holds st cid t) (call : SubmitCall) : Holds (st.install call) cid t := by
  cases hold : st.trackers.lookup call.cid with
  | none =>
    have hst : (st.install call).trackers = st.trackers.insert call.cid
        (.new call.cid st.router.activeId call.sizedQuantity) := by
      simp [ExecutionState.install, installTracker, hold]
    refine h.insert (fun t' ht' => ?_) hst
    rw [hold] at ht'
    cases ht'
  | some old =>
    obtain ⟨t', hlook, hto⟩ := h
    exact ⟨t', by rw [ExecutionState.install, installTracker_of_some hold, hlook], hto⟩

/-- An acknowledgement is only taken by a tracker in `New`, which no held order is. -/
theorem Holds.handleSubmitOk (h : Holds st cid t) {cid' : CorrelationId} {ack : SubmitAck}
    {tsNs : UInt64} {events : List EngineEvent} {st' : ExecutionState}
    (hok : handleSubmitOk st cid' ack tsNs = .ok (events, st')) : Holds st' cid t := by
  unfold Exec.handleSubmitOk at hok
  cases hlook : st.trackers.lookup cid' with
  | none => simp [hlook] at hok
  | some old =>
    by_cases hnew : old.state = .new
    · simp only [hlook, OrderLifecycleTracker.submit_of_new hnew] at hok
      cases hok
      refine h.insert (fun t' ht' hne => ?_) rfl
      rw [hlook] at ht'
      cases ht'
      exact absurd hnew hne
    · simp [hlook, OrderLifecycleTracker.submit_of_ne_new hnew] at hok

/-- A failure rejects the order at most. -/
theorem Holds.handleSubmitErr (h : Holds st cid t) (cid' : CorrelationId) (err : ExecError)
    (tsNs : UInt64) : Holds (handleSubmitErr st cid' err tsNs).2 cid t := by
  unfold Exec.handleSubmitErr
  cases hlook : st.trackers.lookup cid' with
  | none =>
    dsimp only
    split <;> exact h
  | some old =>
    have hrej : ∀ t', st.trackers.lookup cid' = some t' → t'.state ≠ .new →
        SameOrder t' (rejectTracker old tsNs).2 := by
      intro t' ht' hne
      rw [hlook] at ht'
      cases ht'
      exact .of_rejectTracker hne tsNs
    dsimp only
    split <;> exact h.insert hrej rfl

/-- A whole `submit` call keeps every order that has left `New`. -/
theorem Holds.submit (h : Holds st cid t) (call : SubmitCall) (env : SubmitEnv) :
    Holds (submit mac eng st call env).2 cid t := by
  by_cases hadm : Admitted mac eng st call
  swap
  · rw [(submit_of_not_admitted env hadm).2]
    exact h
  cases ht : translateIntent call.intent call.sizedQuantity with
  | error reason =>
    rw [submit_of_untranslatable env hadm ht]
    exact h.install call
  | ok intent =>
    rw [submit_of_translated env hadm ht]
    cases hreply : finalReply eng st.router.activeId env with
    | ok ack =>
      cases hok : Exec.handleSubmitOk (st.install call) call.cid ack env.submitNowNs with
      | ok p =>
        rw [(driveSubmit_of_ack _ _ _ _ hreply hok).2.2]
        exact (h.install call).handleSubmitOk hok
      | error err =>
        rw [(driveSubmit_of_ack_refused _ _ _ _ hreply hok).2]
        exact h.install call
    | error berr =>
      obtain ⟨-, -, hst⟩ := driveSubmit_of_error (st.install call) call.cid st.router.active
        intent hreply
      rw [hst]
      exact (h.install call).handleSubmitErr _ _ _

/-- One step: no call on the engine loses an order that has left `New`. -/
theorem Holds.execStep (h : Holds st cid t) (a : ExecAction) :
    Holds (execStep mac eng st a).2 cid t := by
  cases a with
  | submit call env => exact h.submit call env
  | onFill cid' symbol side qty avg tsNs =>
    simp only [Exec.execStep, onFill]
    cases hlook : st.trackers.lookup cid' with
    | none => exact h
    | some prior =>
      cases hfill : prior.partialFill qty avg tsNs with
      | error err => simpa only [hfill] using h
      | ok p =>
        have hsame : ∀ t', st.trackers.lookup cid' = some t' → t'.state ≠ .new →
            SameOrder t' p.2 := by
          intro t' ht' _
          rw [hlook] at ht'
          cases ht'
          exact .of_partialFill hfill
        simp only [hfill]
        split <;> exact h.insert hsame rfl
  | cancel cid' reply nowNs =>
    simp only [Exec.execStep, cancel]
    cases hlook : st.trackers.lookup cid' with
    | none => exact h
    | some old =>
      cases reply with
      | error err => exact h
      | ok _ =>
        cases hcancel : old.cancel nowNs with
        | error err => simpa only [hcancel] using h
        | ok p =>
          simp only [hcancel]
          refine h.insert (fun t' ht' _ => ?_) rfl
          rw [hlook] at ht'
          cases ht'
          exact .of_transitionNoFill (by decide) hcancel

/-- The whole run: an order that has left `New` stays registered with its broker, its order id and
its quantity. -/
theorem Holds.execRun (mac : Mac) (eng : ExecutionEngine) (h : Holds st cid t)
    (acts : List ExecAction) :
    Holds (execRun mac eng st acts) cid t :=
  runState_invariant_all (Exec.execStep mac eng) (fun st => Holds st cid t)
    (fun _ a hst => hst.execStep a) h acts

end Step

/-! ## Acknowledged orders -/

section Acknowledged

variable {mac : Mac} {eng : ExecutionEngine} {st : ExecutionState} {call : SubmitCall}
  {env : SubmitEnv}

/-- The broker acknowledged a contact of the call. -/
def Acknowledged (mac : Mac) (eng : ExecutionEngine) (st : ExecutionState) (call : SubmitCall)
    (env : SubmitEnv) (c : BrokerContact) (ack : SubmitAck) : Prop :=
  c ∈ (submit mac eng st call env).1.contacts ∧ c.reaction.reply = .ok ack

/-- The acknowledgement is the last word of an admitted, translated call. -/
theorem Acknowledged.inv {c : BrokerContact} {ack : SubmitAck}
    (h : Acknowledged mac eng st call env c ack) :
    Admitted mac eng st call ∧
      (∃ intent, translateIntent call.intent call.sizedQuantity = .ok intent) ∧
      c.slot = st.router.active ∧ finalReply eng st.router.activeId env = .ok ack := by
  obtain ⟨hadm, intent, ht, hmem⟩ := contact_inv h.1
  obtain ⟨k, hk, hle, rfl⟩ := mem_attemptContacts.mp hmem
  refine ⟨hadm, ⟨intent, ht⟩, rfl, ?_⟩
  -- an acknowledged attempt settles, so it is the last one
  have hok : (env.react k).reply = .ok ack := h.2
  have hset : settles (submitOp st.router.activeId env) k = true := by
    simp only [settles, submitOp, hok]
  have hlast : k = finalAttempt eng.retryPolicy (submitOp st.router.activeId env) := by
    rcases Nat.eq_or_lt_of_le hle with heq | hlt
    · exact heq
    · rw [not_settles_of_lt_lastAttempt hk hlt] at hset
      cases hset
  rw [finalReply, ← hlast]
  exact hok

/-- A reply of `Ok` to the first attempt acknowledges the call. -/
theorem Acknowledged.of_first (env : SubmitEnv) (hadm : Admitted mac eng st call)
    {intent : BrokerApi.OrderIntent}
    (ht : translateIntent call.intent call.sizedQuantity = .ok intent) {ack : SubmitAck}
    (hok : (env.react 1).reply = .ok ack) :
    Acknowledged mac eng st call env ⟨st.router.active, intent, 1, env.react 1⟩ ack := by
  refine ⟨?_, hok⟩
  rw [submit_contacts hadm ht]
  exact mem_attemptContacts.mpr ⟨1, le_refl 1, one_le_finalAttempt _ _, rfl⟩

/-- After the call and in every later state, the registry tracks the acknowledged order. -/
def AcceptedTracked (mac : Mac) (eng : ExecutionEngine) (st : ExecutionState) (call : SubmitCall)
    (env : SubmitEnv) (c : BrokerContact) (ack : SubmitAck) : Prop :=
  (∃ events, (submit mac eng st call env).1.result = .ok events) ∧
    ∀ later, ∃ t, (execRun mac eng (submit mac eng st call env).2 later).trackers.lookup call.cid
        = some t ∧
      t.brokerOrderId = some ack.brokerOrderId ∧ t.requestedQty = call.sizedQuantity ∧
      t.broker = st.router.idOf c.slot

/-- The call finds no tracker under its correlation id, or one that is as good as fresh: still in
`New`, for the same quantity and the active broker. -/
def TrackerFits (st : ExecutionState) (call : SubmitCall) : Prop :=
  st.trackers.lookup call.cid = none ∨ ∃ t, st.trackers.lookup call.cid = some t ∧
    t.state = .new ∧ t.requestedQty = call.sizedQuantity ∧ t.broker = st.router.activeId

theorem trackerFits_iff :
    TrackerFits st call ↔ (st.trackerFor call).state = .new ∧
      (st.trackerFor call).requestedQty = call.sizedQuantity ∧
      (st.trackerFor call).broker = st.router.activeId := by
  unfold TrackerFits ExecutionState.trackerFor
  cases st.trackers.lookup call.cid with
  | none => simp [OrderLifecycleTracker.new]
  | some t => simp

end Acknowledged

/-- At any point of any run, an acknowledged order is tracked, then and ever after, exactly when the
call found no tracker under its correlation id or one as good as fresh. -/
theorem accepted_tracked_iff (mac : Mac) (eng : ExecutionEngine) (st₀ : ExecutionState)
    (acts : List ExecAction) (call : SubmitCall) (env : SubmitEnv) (c : BrokerContact)
    (ack : SubmitAck) (hack : Acknowledged mac eng (execRun mac eng st₀ acts) call env c ack) :
    AcceptedTracked mac eng (execRun mac eng st₀ acts) call env c ack ↔
      TrackerFits (execRun mac eng st₀ acts) call := by
  generalize execRun mac eng st₀ acts = st at hack ⊢
  obtain ⟨hadm, ⟨intent, ht⟩, hslot, hreply⟩ := hack.inv
  have hsubmit := submit_of_translated env hadm ht
  have hlook := lookup_install st call
  have hbroker : st.router.idOf c.slot = st.router.activeId := by rw [hslot]; rfl
  rw [trackerFits_iff, AcceptedTracked, hbroker, hsubmit]
  by_cases hnew : (st.trackerFor call).state = .new
  · -- the tracker takes the acknowledgement and keeps its own quantity and broker
    obtain ⟨events, st', hok, hlook'⟩ := handleSubmitOk_of_new hlook hnew ack env.submitNowNs
    obtain ⟨hres, -, hst⟩ := driveSubmit_of_ack (st.install call) call.cid st.router.active intent
      hreply hok
    rw [hres, hst]
    have hholds : Holds st' call.cid
        ((st.trackerFor call).moved .submitted (some ack.brokerOrderId)) :=
      ⟨_, hlook', .refl (by simp [OrderLifecycleTracker.moved])⟩
    constructor
    · rintro ⟨-, hlater⟩
      obtain ⟨t, htlook, -, hqty, hbrk⟩ := hlater []
      rw [execRun, runState_nil, hlook'] at htlook
      obtain rfl := Option.some.inj htlook
      exact ⟨hnew, hqty, hbrk⟩
    · rintro ⟨-, hqty, hbrk⟩
      refine ⟨⟨events, rfl⟩, fun later => ?_⟩
      obtain ⟨t', hlook'', hsame⟩ := hholds.execRun mac eng later
      exact ⟨t', hlook'', hsame.brokerOrderId, hsame.requestedQty.trans hqty,
        hsame.broker.trans hbrk⟩
  · -- the acknowledgement is refused and the call returns an error
    have herr := handleSubmitOk_of_ne_new hlook hnew ack env.submitNowNs
    rw [(driveSubmit_of_ack_refused (st.install call) call.cid st.router.active intent hreply
      herr).1]
    constructor
    · rintro ⟨⟨events, hok⟩, -⟩
      cases hok
    · exact fun h => absurd h.1 hnew

/-- Two approvals of the same intent: the second order is accepted by the broker, but its call fails
and the registry knows only the first. -/
theorem second_approval_untracked :
    let first := mintedCall ⟨sampleIntent, 10, 1000, 1⟩
    let second := mintedCall ⟨sampleIntent, 10, 1000, 2⟩
    let st := execRun tailMac makeEngine makeState
      [.submit first (scriptedEnv [.ack ⟨"ORD-1", none⟩])]
    first.token ≠ second.token ∧ Admitted tailMac makeEngine makeState first ∧
      Admitted tailMac makeEngine st second ∧
      ∃ c, Acknowledged tailMac makeEngine st second (scriptedEnv [.ack ⟨"ORD-2", none⟩]) c
          ⟨"ORD-2", none⟩ ∧
        ¬ AcceptedTracked tailMac makeEngine st second (scriptedEnv [.ack ⟨"ORD-2", none⟩]) c
          ⟨"ORD-2", none⟩ := by
  intro first second st
  have hadm : Admitted tailMac makeEngine st second := ⟨by decide +kernel, by decide +kernel⟩
  have ht : translateIntent second.intent second.sizedQuantity
      = .ok ⟨⟨1⟩, 42, .buy, 10, .market, 100000, .nse⟩ := by decide +kernel
  refine ⟨by decide +kernel, ⟨by decide +kernel, by decide +kernel⟩, hadm, _,
    .of_first _ hadm ht rfl, ?_⟩
  rintro ⟨⟨events, hok⟩, -⟩
  have herr : (submit tailMac makeEngine st second (scriptedEnv [.ack ⟨"ORD-2", none⟩])).1.result
      = .error (.invalidFsmTransition .submitted .submitted) := by decide +kernel
  rw [herr] at hok
  cases hok

/-- The intent of another order. -/
def earlierIntent : Hedge.OrderIntent :=
  { sampleIntent with correlationId := Vector.replicate 16 7, quantity := 5 }

/-- The first approval of an order is tracked, though another order was approved before it. -/
theorem first_approval_tracked :
    let st := execRun tailMac makeEngine makeState
      [.submit (mintedCall ⟨earlierIntent, 5, 900, 1⟩) (scriptedEnv [.ack ⟨"ORD-0", none⟩])]
    ∃ c, AcceptedTracked tailMac makeEngine st (mintedCall ⟨sampleIntent, 10, 1000, 2⟩)
      (scriptedEnv [.ack ⟨"ORD-1", none⟩]) c ⟨"ORD-1", none⟩ := by
  intro st
  have hadm : Admitted tailMac makeEngine st (mintedCall ⟨sampleIntent, 10, 1000, 2⟩) :=
    ⟨by decide +kernel, by decide +kernel⟩
  have ht : translateIntent sampleIntent 10
      = .ok ⟨⟨1⟩, 42, .buy, 10, .market, 100000, .nse⟩ := by decide +kernel
  have hack := Acknowledged.of_first (scriptedEnv [.ack ⟨"ORD-1", none⟩]) hadm ht rfl
  exact ⟨_, (accepted_tracked_iff tailMac makeEngine makeState _ _ _ _ _ hack).mpr
    (.inl (by decide +kernel))⟩

end Hedge.Exec
