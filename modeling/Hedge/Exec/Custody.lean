import Hedge.Exec.Interleaving

/-!
# Where an order is kept

Reference: `submit` and `cancel` in `hedge-exec/src/engine.rs`, `active_adapter` and
`record_outcome` in `hedge-exec/src/router.rs`.

The active slot is read afresh when a call picks its adapter, when it records the outcome and when
an order is cancelled, and another call can make the router switch in between. A cancel then goes to
a broker that does not have the order, and an outcome into the window of an adapter that did not
serve the call. An error that does not count toward failover is recorded nowhere.
`orders_stay_with_broker` says what has to hold at these points to exclude that.
-/

namespace Hedge.Exec

open Hedge.Common Hedge.Risk Hedge.BrokerApi

/-! ## Requests and outcomes -/

/-- The cancel request a step sends: the order, the slot it goes to and the id it carries. -/
def cancelRequest (cfg : Config) : Label → List (CorrelationId × ActiveSlot × String)
  | .advance tid => match cfg.threads tid with
    | .cancelSending cid _ orderId _ _ => [(cid, cfg.engine.router.active, orderId)]
    | _ => []
  | _ => []

/-- Alone, a `cancel` thread sends what `cancel` sends. -/
theorem solo_cancelRequest {mac : Mac} {eng : ExecutionEngine} {cfg : Config} {tid : ℕ}
    (h : cfg.threads tid = .idle) (cid : CorrelationId) (reply : Except BrokerError Unit)
    (nowNs : UInt64) :
    runCollect (threadStep mac eng) cancelRequest cfg (solo tid (.cancel cid reply nowNs) 3)
      = (cancel cfg.engine cid reply nowNs).1.toList.map (cid, ·) := by
  simp only [solo, List.replicate, runCollect_cons, runCollect_nil, threadStep, startCall, h,
    Op.start]
  cases hlook : cfg.engine.trackers.lookup cid with
  | none => simp [advance, cancel, cancelRequest, hlook]
  | some t =>
    cases reply with
    | error err => simp [advance, cancel, cancelRequest, hlook]
    | ok _ =>
      cases hcancel : t.cancel nowNs <;>
        simp [advance, cancel, cancelRequest, hlook, hcancel]

/-- The outcome of a submit call, by what the broker's answer comes to after the retries. -/
def outcomeOf : Except ExecError SubmitAck → Outcome
  | .ok _ => .success
  | .error _ => .failure

/-- A cancel is sent to the broker of the tracker, with an id that this broker gave the order. -/
def CancelsAtHolder (cfg : Config) (label : Label) : Prop :=
  ∀ cid slot orderId, (cid, slot, orderId) ∈ cancelRequest cfg label →
    (∃ t, cfg.engine.trackers.lookup cid = some t ∧ cfg.engine.router.idOf slot = t.broker) ∧
      ⟨cid, cfg.engine.router.idOf slot, orderId⟩ ∈ cfg.issued

/-- An outcome is recorded, and in the window of the adapter that was contacted. -/
def RecordsAtServer (mac : Mac) (eng : ExecutionEngine) (cfg : Config) : Label → Prop
  | .advance tid => match cfg.threads tid with
    | .folding _ _ slot answer => ∃ latencyMs tsNs result,
      (advance mac eng cfg tid).2.threads tid
        = .recording slot (outcomeOf answer) latencyMs tsNs result
    | .recording slot outcome latencyMs _ _ =>
      (advance mac eng cfg tid).2.engine.router.statsOf slot
        = (cfg.engine.router.statsOf slot).record outcome latencyMs
    | _ => True
  | _ => True

/-- What has to hold where an answer is folded and where the tracker or the active slot is looked at
again. -/
def undisturbed (cfg : Config) : Label → Bool
  | .advance tid => match cfg.threads tid with
    -- the acknowledgement finds the order new, and tracked under the broker that gave it
    | .folding call _ slot (.ok _) => match cfg.engine.trackers.lookup call.cid with
      | some t => t.state == .new && t.broker == cfg.engine.router.idOf slot
      | none => true
    -- the error that is left after the retries counts toward failover
    | .folding _ _ _ (.error err) => err.countsTowardFailover
    -- the slot the call has picked is active
    | .recording slot _ _ _ _ => cfg.engine.router.active == slot
    -- the order was acknowledged
    | .cancelReading cid _ _ => match cfg.engine.trackers.lookup cid with
      | some t => t.brokerOrderId.isSome
      | none => true
    -- the slot of the broker that was read is active
    | .cancelSending _ broker _ _ _ => cfg.engine.router.activeId == broker
    | _ => true
  | _ => true

/-! ## Who has an order -/

/-- Every broker order id in the registry was given by the tracker's broker. -/
def TrackersHeld (st : ExecutionState) (issued : List Issued) : Prop :=
  ∀ cid t id, st.trackers.lookup cid = some t → t.brokerOrderId = some id →
    ⟨cid, t.broker, id⟩ ∈ issued

/-- What a call remembers of an order is true. -/
def ThreadHeld (cfg : Config) : Thread → Prop
  | .contacting call _ _ _ => ∃ t, cfg.engine.trackers.lookup call.cid = some t
  | .folding call _ slot (.ok ack) =>
    (∃ t, cfg.engine.trackers.lookup call.cid = some t) ∧
      ⟨call.cid, cfg.engine.router.idOf slot, ack.brokerOrderId⟩ ∈ cfg.issued
  | .cancelSending cid broker orderId _ _ =>
    (∃ t, cfg.engine.trackers.lookup cid = some t ∧ t.broker = broker) ∧
      ⟨cid, broker, orderId⟩ ∈ cfg.issued
  | _ => True

/-- The registry and every call in flight agree with what the brokers have acknowledged. -/
structure Held (cfg : Config) : Prop where
  trackers : TrackersHeld cfg.engine cfg.issued
  threads : ∀ tid, ThreadHeld cfg (cfg.threads tid)

namespace TrackersHeld

variable {st : ExecutionState} {issued : List Issued}

theorem insert (h : TrackersHeld st issued) {cid : CorrelationId} {t : OrderLifecycleTracker}
    (ht : ∀ id, t.brokerOrderId = some id → ⟨cid, t.broker, id⟩ ∈ issued) :
    TrackersHeld { st with trackers := st.trackers.insert cid t } issued := by
  intro cid' u id hlook hid
  by_cases hcid : cid' = cid
  · subst hcid
    rw [AList.lookup_insert] at hlook
    cases hlook
    exact ht id hid
  · rw [AList.lookup_insert_ne hcid] at hlook
    exact h cid' u id hlook hid

/-- Rewriting a tracker that keeps its broker and its id. -/
theorem rewrite (h : TrackersHeld st issued) {cid : CorrelationId} {t t' : OrderLifecycleTracker}
    (hlook : st.trackers.lookup cid = some t) (hbroker : t'.broker = t.broker)
    (hid : t'.brokerOrderId = t.brokerOrderId) :
    TrackersHeld { st with trackers := st.trackers.insert cid t' } issued := by
  refine h.insert ?_
  intro id hid'
  rw [hbroker]
  exact h cid t id hlook (hid.symm.trans hid')

theorem install (h : TrackersHeld st issued) (cid : CorrelationId) (broker : BrokerId)
    (qty : UInt64) :
    TrackersHeld { st with trackers := installTracker st.trackers cid (.new cid broker qty) }
      issued := by
  cases hold : st.trackers.lookup cid with
  | some old =>
    rw [installTracker_of_some hold]
    exact h
  | none =>
    simp only [installTracker, hold]
    refine h.insert ?_
    intro id hid
    cases hid

theorem rejectTracked (h : TrackersHeld st issued) (cid : CorrelationId) (tsNs : UInt64) :
    TrackersHeld (st.rejectTracked cid tsNs) issued := by
  unfold ExecutionState.rejectTracked
  split
  · rename_i t hlook
    obtain ⟨hbroker, -, hid⟩ := rejectTracker_keeps t tsNs
    exact h.rewrite hlook hbroker hid
  · exact h

theorem mono (h : TrackersHeld st issued) {issued' : List Issued}
    (hsub : ∀ i ∈ issued, i ∈ issued') : TrackersHeld st issued' := by
  intro cid t id hlook hid
  exact hsub _ (h cid t id hlook hid)

end TrackersHeld

theorem ThreadHeld.later {cfg cfg' : Config} {th : Thread} (hlater : Later cfg cfg')
    (h : ThreadHeld cfg th) : ThreadHeld cfg' th := by
  have htracked : ∀ cid, (∃ t, cfg.engine.trackers.lookup cid = some t) →
      ∃ t, cfg'.engine.trackers.lookup cid = some t := by
    rintro cid ⟨t, hlook⟩
    obtain ⟨t', hlook', -⟩ := hlater.engine.trackers cid t hlook
    exact ⟨t', hlook'⟩
  unfold ThreadHeld at h ⊢
  split at h
  · exact htracked _ h
  · rw [hlater.engine.idOf]
    exact ⟨htracked _ h.1, hlater.issued _ h.2⟩
  · obtain ⟨⟨t, hlook, hbroker⟩, hissued⟩ := h
    obtain ⟨t', hlook', hkept, -⟩ := hlater.engine.trackers _ t hlook
    exact ⟨⟨t', hlook', hkept.trans hbroker⟩, hlater.issued _ hissued⟩
  · trivial

theorem threadHeld_start (cfg : Config) (op : Op) : ThreadHeld cfg op.start := by
  cases op <;> trivial

section Step

variable {mac : Mac} {eng : ExecutionEngine} {cfg : Config} {tid : ℕ}

/-- An acknowledgement that is not disturbed finds its tracker. -/
theorem tracker_of_undisturbed_ack {call : SubmitCall} {env : SubmitEnv} {slot : ActiveSlot}
    {ack : SubmitAck} (hth : cfg.threads tid = .folding call env slot (.ok ack))
    (h : ThreadHeld cfg (cfg.threads tid)) (hu : undisturbed cfg (.advance tid) = true) :
    ∃ t, cfg.engine.trackers.lookup call.cid = some t ∧ t.state = .new ∧
      t.broker = cfg.engine.router.idOf slot := by
  rw [hth] at h
  obtain ⟨⟨t, hlook⟩, -⟩ := h
  simp only [undisturbed, hth, hlook, Bool.and_eq_true, beq_iff_eq] at hu
  exact ⟨t, hlook, hu⟩

theorem TrackersHeld.effect {th : Thread} {st : ExecutionState} {issued : List Issued}
    (h : Held cfg) (hu : undisturbed cfg (.advance tid) = true) (hth : cfg.threads tid = th)
    (heffect : Effect cfg th st issued) : TrackersHeld st issued := by
  have hheld := h.threads tid
  cases heffect with
  | keep _ htrackers _ =>
    rw [TrackersHeld, htrackers]
    exact h.trackers
  | install call env slot => exact h.trackers.install _ _ _
  | contact call env slot intent acks =>
    exact h.trackers.mono fun i hi => List.mem_append_left _ hi
  | @submit call env slot ack t t' event hlook hsub =>
    obtain ⟨u, hlook', hnew, hbroker⟩ := tracker_of_undisturbed_ack hth hheld hu
    obtain rfl : u = t := Option.some.inj (hlook'.symm.trans hlook)
    rw [OrderLifecycleTracker.submit_of_new hnew] at hsub
    cases hsub
    rw [hth] at hheld
    refine h.trackers.insert ?_
    intro id hid
    cases hid
    change ⟨call.cid, u.broker, ack.brokerOrderId⟩ ∈ cfg.issued
    rw [hbroker]
    exact hheld.2
  | reject call env slot err => exact h.trackers.rejectTracked _ _
  | cancel hlook hcancel =>
    obtain ⟨-, -, rfl⟩ := OrderLifecycleTracker.transitionNoFill_inv hcancel
    exact h.trackers.rewrite hlook rfl rfl
  | fill hlook hfill =>
    obtain ⟨-, -, -, hle, rfl⟩ := OrderLifecycleTracker.partialFill_inv hfill
    exact h.trackers.rewrite hlook rfl rfl

/-- One section keeps the registry in agreement with the acknowledgements. -/
theorem trackersHeld_advance (h : Held cfg) (hu : undisturbed cfg (.advance tid) = true) :
    TrackersHeld (advance mac eng cfg tid).2.engine (advance mac eng cfg tid).2.issued :=
  .effect h hu rfl (advance_effect mac eng cfg tid)

/-- One section leaves its thread with what is true. -/
theorem threadHeld_advance (h : Held cfg) (hu : undisturbed cfg (.advance tid) = true) :
    ThreadHeld (advance mac eng cfg tid).2 ((advance mac eng cfg tid).2.threads tid) := by
  unfold advance
  cases hth : cfg.threads tid with
  | idle =>
    dsimp only
    rw [hth]
    trivial
  | installing call env slot =>
    dsimp only
    split
    · rw [Config.threads_goto_self]
      trivial
    · rw [Config.threads_goto_self]
      exact installTracker_tracked ..
  | contacting call env slot intent =>
    have htracked := h.threads tid
    rw [hth] at htracked
    dsimp only [Config.goto]
    rw [Function.update_self]
    cases (retryWithBackoff eng.retryPolicy env.jitter
      (submitOp (cfg.engine.router.idOf slot) env)).result with
    | error err => trivial
    | ok ack => exact ⟨htracked, List.mem_append_right _ (List.mem_singleton.mpr rfl)⟩
  | folding call env slot answer =>
    cases answer with
    | ok ack =>
      dsimp only
      repeat' split
      all_goals
        rw [Config.threads_goto_self]
        trivial
    | error err =>
      dsimp only
      split <;> rw [Config.threads_goto_self] <;> trivial
  | cancelReading cid reply nowNs =>
    dsimp only
    split
    · rw [Config.threads_goto_self]
      trivial
    · rename_i t hlook
      rw [Config.threads_goto_self]
      simp only [undisturbed, hth, hlook] at hu
      obtain ⟨id, hid⟩ := Option.isSome_iff_exists.mp hu
      refine ⟨⟨t, hlook, rfl⟩, ?_⟩
      rw [hid]
      exact h.trackers cid t id hlook hid
  | _ =>
    dsimp only
    repeat' split
    all_goals
      rw [Config.threads_goto_self]
      trivial

variable (mac eng)

/-- Every undisturbed step keeps the agreement. -/
theorem Held.step (h : Held cfg) {label : Label} (hu : undisturbed cfg label = true) :
    Held (threadStep mac eng cfg label).2 := by
  refine ⟨?_, ?_⟩
  · cases label with
    | advance tid => exact trackersHeld_advance h hu
    | forcePrimary => exact h.trackers
    | start tid op =>
      rw [threadStep]
      rcases startCall_cases cfg tid op with hcall | hcall <;> rw [hcall] <;> exact h.trackers
  · refine threads_step ThreadHeld (fun _ _ _ hlater => ThreadHeld.later hlater) threadHeld_start ?_
      h.threads
    rintro tid rfl -
    exact threadHeld_advance h hu

/-- Where the agreement holds, an undisturbed cancel goes to the broker that has the order. -/
theorem cancelsAtHolder_of_undisturbed (h : Held cfg) {label : Label}
    (hu : undisturbed cfg label = true) : CancelsAtHolder cfg label := by
  intro cid slot orderId hsent
  cases label with
  | start tid op => cases hsent
  | forcePrimary => cases hsent
  | advance tid =>
    have hheld := h.threads tid
    cases hth : cfg.threads tid with
    | cancelSending cid' broker orderId' reply nowNs =>
      simp only [cancelRequest, hth, List.mem_singleton, Prod.mk.injEq] at hsent
      obtain ⟨rfl, rfl, rfl⟩ := hsent
      simp only [undisturbed, hth, beq_iff_eq] at hu
      rw [hth] at hheld
      obtain ⟨⟨t, hlook, hbroker⟩, hissued⟩ := hheld
      change cfg.engine.router.idOf cfg.engine.router.active = broker at hu
      rw [hu]
      exact ⟨⟨t, hlook, hbroker.symm⟩, hissued⟩
    | _ => simp only [cancelRequest, hth, List.not_mem_nil] at hsent

/-- And an undisturbed outcome is recorded where it belongs. -/
theorem recordsAtServer_of_undisturbed (h : Held cfg) {label : Label}
    (hu : undisturbed cfg label = true) : RecordsAtServer mac eng cfg label := by
  cases label with
  | start tid op => trivial
  | forcePrimary => trivial
  | advance tid =>
    unfold RecordsAtServer
    dsimp only
    cases hth : cfg.threads tid with
    | folding call env slot answer =>
      cases answer with
      | ok ack =>
        obtain ⟨t, hlook, hnew, -⟩ := tracker_of_undisturbed_ack hth (h.threads tid) hu
        simp only [advance, hth, hlook, OrderLifecycleTracker.submit_of_new hnew,
          Config.threads_goto_self]
        exact ⟨_, _, _, rfl⟩
      | error err =>
        have hcounts : err.countsTowardFailover = true := by simpa only [undisturbed, hth] using hu
        simp only [advance, hth, hcounts, if_true, Config.threads_goto_self]
        exact ⟨_, _, _, rfl⟩
    | recording slot outcome latencyMs tsNs result =>
      simp only [undisturbed, hth, beq_iff_eq] at hu
      subst hu
      simp only [advance, hth, Config.engine_goto]
      exact BrokerRouter.statsOf_recordOutcome ..
    | _ => trivial

end Step

/-! ## Over a schedule -/

/-- From a fresh engine, in every schedule whose steps are undisturbed, each cancel goes to the
broker that has the order, with the id it gave, and each outcome into the window of the adapter that
was contacted. -/
theorem orders_stay_with_broker (mac : Mac) (eng : ExecutionEngine) (router : BrokerRouter)
    (labels : List Label)
    (h : ∀ pre label post, labels = pre ++ label :: post →
      undisturbed (threadRun mac eng (.new router) pre) label = true) :
    ∀ pre label post, labels = pre ++ label :: post →
      CancelsAtHolder (threadRun mac eng (.new router) pre) label ∧
        RecordsAtServer mac eng (threadRun mac eng (.new router) pre) label := by
  intro pre label post hsplit
  have hfresh : Held (.new router) := by
    refine ⟨?_, fun _ => trivial⟩
    intro cid t id hlook
    cases hlook
  have hheld : Held (threadRun mac eng (.new router) pre) :=
    runState_invariant_split (threadStep mac eng) Held
      (fun _ _ hprev hundisturbed => hprev.step mac eng hundisturbed) hfresh h pre (label :: post)
      hsplit
  have hu := h pre label post hsplit
  exact ⟨cancelsAtHolder_of_undisturbed hheld hu, recordsAtServer_of_undisturbed mac eng hheld hu⟩

/-- An intent with another correlation id. -/
def otherIntent : Hedge.OrderIntent :=
  { sampleIntent with correlationId := Vector.ofFn fun i : Fin 16 => if i.val = 15 then 2 else 0 }

/-- An order is acknowledged while the broker rejects another, and is then cancelled. -/
def cancelledOrder : List Label :=
  solo 0 (.submit (mintedCall ⟨sampleIntent, 10, 1000, 1⟩) (scriptedEnv [.ack ⟨"ORD-1", none⟩])) 4
    ++ solo 1 (.submit (mintedCall ⟨otherIntent, 10, 1000, 2⟩)
      (scriptedEnv [.refuse (.rejected "halted")])) 6
    ++ [.advance 0, .advance 0]
    ++ solo 2 (.cancel (mintedCall ⟨sampleIntent, 10, 1000, 1⟩).cid (.ok ()) 2000) 3

/-- The cancel goes to the broker that has the order. -/
theorem orders_stay_with_broker_cancelled :
    (∀ pre label post, cancelledOrder = pre ++ label :: post →
      undisturbed (threadRun tailMac makeEngine (.new makeState.router) pre) label = true) ∧
    ∀ pre label post, cancelledOrder = pre ++ label :: post →
      CancelsAtHolder (threadRun tailMac makeEngine (.new makeState.router) pre) label ∧
        RecordsAtServer tailMac makeEngine
          (threadRun tailMac makeEngine (.new makeState.router) pre) label := by
  have hcollected : ∀ b ∈ runCollect (threadStep tailMac makeEngine)
      (fun cfg label => [undisturbed cfg label]) (.new makeState.router) cancelledOrder,
      b = true := by decide +kernel
  have h : ∀ pre label post, cancelledOrder = pre ++ label :: post →
      undisturbed (threadRun tailMac makeEngine (.new makeState.router) pre) label = true := by
    intro pre label post hsplit
    exact forall_mem_runCollect_iff.mp hcollected pre label post hsplit _
      (List.mem_singleton_self _)
  exact ⟨h, orders_stay_with_broker _ _ _ _ h⟩

/-- A router that switches after one sample. -/
def eagerRouter : BrokerRouter := .new .zerodha .dhan ⟨5000, 100000, 1⟩

/-- While the first order is with the broker, the rejection of a second one makes the router switch.
-/
def overtaken : List Label :=
  solo 0 (.submit (mintedCall ⟨sampleIntent, 10, 1000, 1⟩) (scriptedEnv [.ack ⟨"ORD-1", none⟩])) 3
    ++ solo 1 (.submit (mintedCall ⟨otherIntent, 10, 1000, 2⟩)
      (scriptedEnv [.refuse (.rejected "halted")])) 6
    ++ [.advance 0, .advance 0]

/-- Then the first order is to be cancelled. -/
def overtakenCancel : List Label :=
  overtaken ++ [.advance 0,
    .start 2 (.cancel (mintedCall ⟨sampleIntent, 10, 1000, 1⟩).cid (.ok ()) 2000), .advance 2]

/-- The acknowledgement of the first broker is recorded for the second, and the cancel of the order
goes to the second as well. -/
theorem order_left_behind :
    ¬ RecordsAtServer tailMac makeEngine
      (threadRun tailMac makeEngine (.new eagerRouter) overtaken) (.advance 0) ∧
    ¬ CancelsAtHolder (threadRun tailMac makeEngine (.new eagerRouter) overtakenCancel)
      (.advance 2) := by
  refine ⟨?_, ?_⟩
  · have hmissed : (match (threadRun tailMac makeEngine (.new eagerRouter) overtaken).threads 0 with
        | .recording slot outcome latencyMs _ _ =>
          decide ((advance tailMac makeEngine
              (threadRun tailMac makeEngine (.new eagerRouter) overtaken) 0).2.engine.router.statsOf
                slot
            ≠ ((threadRun tailMac makeEngine (.new eagerRouter) overtaken).engine.router.statsOf
                slot).record outcome latencyMs)
        | _ => false) = true := by decide +kernel
    intro h
    unfold RecordsAtServer at h
    dsimp only at h
    split at hmissed
    · rename_i hth
      rw [hth] at h
      exact of_decide_eq_true hmissed h
    · cases hmissed
  · have hbroker : ((threadRun tailMac makeEngine (.new eagerRouter)
        overtakenCancel).engine.trackers.lookup
          (mintedCall ⟨sampleIntent, 10, 1000, 1⟩).cid).map (·.broker) = some .zerodha := by
      decide +kernel
    intro h
    obtain ⟨⟨t, hlook, hsame⟩, -⟩ :=
      h (mintedCall ⟨sampleIntent, 10, 1000, 1⟩).cid .backup "ORD-1" (by decide +kernel)
    have hdhan : BrokerId.dhan = t.broker := hsame
    rw [hlook, Option.map_some, ← hdhan] at hbroker
    cases hbroker

end Hedge.Exec
