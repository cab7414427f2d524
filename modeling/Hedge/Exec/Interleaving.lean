import Hedge.Exec.Threads

/-!
# What survives an interleaving

Reference: `submit`, `cancel` and `on_fill` in `hedge-exec/src/engine.rs`.

Whatever the order of the sections, a tracker keeps its broker and never loses shares, and the
brokers' acknowledgements are never taken back. `threads_step` turns this into an induction rule:
what holds of each thread and survives time has to be checked only for the thread that moves.
-/

namespace Hedge.Exec

open Hedge.Common Hedge.Risk Hedge.BrokerApi

/-! ## What every section keeps -/

/-- No tracker is lost, keeps its broker and never loses shares; the slots keep their brokers. -/
structure Grows (st st' : ExecutionState) : Prop where
  trackers : ∀ cid t, st.trackers.lookup cid = some t → ∃ t', st'.trackers.lookup cid = some t' ∧
    t'.broker = t.broker ∧ t.filledQty ≤ t'.filledQty
  idOf : st'.router.idOf = st.router.idOf

namespace Grows

variable {st st' : ExecutionState}

theorem of_trackers_eq (htrackers : st'.trackers = st.trackers)
    (hid : st'.router.idOf = st.router.idOf) : Grows st st' := by
  refine ⟨?_, hid⟩
  intro cid t hlook
  exact ⟨t, by rw [htrackers, hlook], rfl, UInt64.le_refl _⟩

theorem refl (st : ExecutionState) : Grows st st := of_trackers_eq rfl rfl

/-- Rewriting one tracker. -/
theorem of_insert {cid : CorrelationId} {t t' : OrderLifecycleTracker}
    (hlook : st.trackers.lookup cid = some t) (hbroker : t'.broker = t.broker)
    (hfilled : t.filledQty ≤ t'.filledQty) :
    Grows st { st with trackers := st.trackers.insert cid t' } := by
  refine ⟨?_, rfl⟩
  intro cid' u hlook'
  by_cases hcid : cid' = cid
  · subst hcid
    rw [hlook] at hlook'
    cases hlook'
    exact ⟨t', AList.lookup_insert _, hbroker, hfilled⟩
  · exact ⟨u, by rw [AList.lookup_insert_ne hcid, hlook'], rfl, UInt64.le_refl _⟩

/-- Installing a tracker where there is none. -/
theorem of_install (st : ExecutionState) (cid : CorrelationId) (t : OrderLifecycleTracker) :
    Grows st { st with trackers := installTracker st.trackers cid t } := by
  refine ⟨?_, rfl⟩
  intro cid' u hlook'
  cases hold : st.trackers.lookup cid with
  | some old =>
    rw [installTracker_of_some hold]
    exact ⟨u, hlook', rfl, UInt64.le_refl _⟩
  | none =>
    have hcid : cid' ≠ cid := by
      rintro rfl
      rw [hold] at hlook'
      cases hlook'
    refine ⟨u, ?_, rfl, UInt64.le_refl _⟩
    simp only [installTracker, hold]
    rw [AList.lookup_insert_ne hcid, hlook']

/-- Rejecting the tracker of an order. -/
theorem rejectTracked (st : ExecutionState) (cid : CorrelationId) (tsNs : UInt64) :
    Grows st (st.rejectTracked cid tsNs) := by
  unfold ExecutionState.rejectTracked
  split
  · rename_i t hlook
    obtain ⟨hbroker, hfilled, -⟩ := rejectTracker_keeps t tsNs
    exact of_insert hlook hbroker (UInt64.le_of_eq hfilled.symm)
  · exact refl st

end Grows

/-- A later configuration of the same system. -/
structure Later (cfg cfg' : Config) : Prop where
  engine : Grows cfg.engine cfg'.engine
  issued : ∀ i ∈ cfg.issued, i ∈ cfg'.issued

theorem Later.goto {cfg : Config} {st : ExecutionState} (h : Grows cfg.engine st) (tid : ℕ)
    (next : Thread) : Later cfg (cfg.goto tid next st) :=
  ⟨h, fun _ hi => hi⟩

/-- What a section of a thread does to the engine and to the acknowledgements: it leaves the
registry alone, adds acknowledgements, installs a tracker or rewrites one. -/
inductive Effect (cfg : Config) : Thread → ExecutionState → List Issued → Prop
  | keep (th : Thread) {st : ExecutionState} (htrackers : st.trackers = cfg.engine.trackers)
      (hid : st.router.idOf = cfg.engine.router.idOf) : Effect cfg th st cfg.issued
  | install (call : SubmitCall) (env : SubmitEnv) (slot : ActiveSlot) :
      Effect cfg (.installing call env slot)
        { cfg.engine with
          trackers := installTracker cfg.engine.trackers call.cid
            (.new call.cid (cfg.engine.router.idOf slot) call.sizedQuantity) } cfg.issued
  | contact (call : SubmitCall) (env : SubmitEnv) (slot : ActiveSlot)
      (intent : BrokerApi.OrderIntent) (acks : List Issued) :
      Effect cfg (.contacting call env slot intent) cfg.engine (cfg.issued ++ acks)
  | submit {call : SubmitCall} {env : SubmitEnv} {slot : ActiveSlot} {ack : SubmitAck}
      {t t' : OrderLifecycleTracker} {event : LifecycleEvent}
      (hlook : cfg.engine.trackers.lookup call.cid = some t)
      (hsub : t.submit (some ack.brokerOrderId) env.submitNowNs = .ok (event, t')) :
      Effect cfg (.folding call env slot (.ok ack))
        { cfg.engine with trackers := cfg.engine.trackers.insert call.cid t' } cfg.issued
  | reject (call : SubmitCall) (env : SubmitEnv) (slot : ActiveSlot) (err : ExecError) :
      Effect cfg (.folding call env slot (.error err))
        (cfg.engine.rejectTracked call.cid env.submitNowNs) cfg.issued
  | cancel {cid : CorrelationId} {nowNs : UInt64} {t t' : OrderLifecycleTracker}
      {event : LifecycleEvent} (hlook : cfg.engine.trackers.lookup cid = some t)
      (hcancel : t.cancel nowNs = .ok (event, t')) :
      Effect cfg (.cancelApplying cid nowNs)
        { cfg.engine with trackers := cfg.engine.trackers.insert cid t' } cfg.issued
  | fill {cid : CorrelationId} {symbol : UInt32} {side : UInt8} {qty : UInt64} {avg : Int64}
      {tsNs priorQty : UInt64} {priorAvg : Int64} {t t' : OrderLifecycleTracker}
      {event : LifecycleEvent} (hlook : cfg.engine.trackers.lookup cid = some t)
      (hfill : t.partialFill qty avg tsNs = .ok (event, t')) :
      Effect cfg (.fillApplying cid symbol side qty avg tsNs priorQty priorAvg)
        { cfg.engine with trackers := cfg.engine.trackers.insert cid t' } cfg.issued

theorem Effect.grows {cfg : Config} {th : Thread} {st : ExecutionState} {issued : List Issued}
    (h : Effect cfg th st issued) : Grows cfg.engine st := by
  cases h with
  | keep _ htrackers hid => exact .of_trackers_eq htrackers hid
  | install call env slot => exact .of_install _ _ _
  | contact => exact .refl _
  | submit hlook hsub =>
    obtain ⟨-, -, rfl⟩ := OrderLifecycleTracker.transitionNoFill_inv hsub
    exact .of_insert hlook rfl (UInt64.le_refl _)
  | reject call env slot err => exact .rejectTracked _ _ _
  | cancel hlook hcancel =>
    obtain ⟨-, -, rfl⟩ := OrderLifecycleTracker.transitionNoFill_inv hcancel
    exact .of_insert hlook rfl (UInt64.le_refl _)
  | fill hlook hfill =>
    obtain ⟨hmono, -, -, hle, rfl⟩ := OrderLifecycleTracker.partialFill_inv hfill
    exact .of_insert hlook rfl hmono

theorem Effect.issued_sub {cfg : Config} {th : Thread} {st : ExecutionState}
    {issued : List Issued} (h : Effect cfg th st issued) : ∀ i ∈ cfg.issued, i ∈ issued := by
  intro i hi
  cases h with
  | contact => exact List.mem_append_left _ hi
  | _ => exact hi

section Step

variable (mac : Mac) (eng : ExecutionEngine) (cfg : Config)

theorem advance_threads_of_ne {tid tid' : ℕ} (h : tid' ≠ tid) :
    (advance mac eng cfg tid).2.threads tid' = cfg.threads tid' := by
  unfold advance
  dsimp only
  repeat' split
  all_goals first | rfl | exact Function.update_of_ne h _ _

/-- Whatever a section does to the registry and to the acknowledgements, it is one of these. -/
theorem advance_effect (tid : ℕ) :
    Effect cfg (cfg.threads tid) (advance mac eng cfg tid).2.engine
      (advance mac eng cfg tid).2.issued := by
  have hkeep : ∀ th, Effect cfg th cfg.engine cfg.issued := fun th => .keep th rfl rfl
  unfold advance
  cases cfg.threads tid with
  | idle => exact hkeep _
  | verifying call env =>
    dsimp only
    split_ifs
    · exact hkeep _
    · exact hkeep _
    · exact .keep _ rfl rfl
  | picking call env => exact hkeep _
  | installing call env slot =>
    dsimp only
    split <;> exact .install call env slot
  | contacting call env slot intent => exact .contact call env slot intent _
  | folding call env slot answer =>
    cases answer with
    | ok ack =>
      dsimp only
      split
      · exact hkeep _
      · rename_i t hlook
        split
        · exact hkeep _
        · rename_i event t' hsub
          exact .submit hlook hsub
    | error err =>
      dsimp only
      split <;> exact .reject call env slot err
  | recording slot outcome latencyMs tsNs result =>
    exact .keep _ rfl (BrokerRouter.idOf_recordOutcome ..)
  | cancelReading cid reply nowNs =>
    dsimp only
    split <;> exact hkeep _
  | cancelSending cid broker orderId reply nowNs => cases reply <;> exact hkeep _
  | cancelApplying cid nowNs =>
    dsimp only
    split
    · exact hkeep _
    · rename_i t hlook
      split
      · exact hkeep _
      · rename_i event t' hcancel
        exact .cancel hlook hcancel
  | fillReading cid symbol side qty avg tsNs =>
    dsimp only
    split <;> exact hkeep _
  | fillApplying cid symbol side qty avg tsNs priorQty priorAvg =>
    dsimp only
    split
    · exact hkeep _
    · rename_i t hlook
      split
      · exact hkeep _
      · rename_i event t' hfill
        exact .fill hlook hfill

/-- One section leads to a later configuration. -/
theorem advance_later (tid : ℕ) : Later cfg (advance mac eng cfg tid).2 :=
  ⟨(advance_effect mac eng cfg tid).grows, (advance_effect mac eng cfg tid).issued_sub⟩

/-- Every step of a schedule leads to a later configuration. -/
theorem threadStep_later (label : Label) : Later cfg (threadStep mac eng cfg label).2 := by
  cases label with
  | start tid op =>
    rw [threadStep]
    rcases startCall_cases cfg tid op with hstart | hstart
    · rw [hstart]
      exact ⟨.refl _, fun _ hi => hi⟩
    · rw [hstart]
      exact Later.goto (.refl _) tid _
  | advance tid => exact advance_later mac eng cfg tid
  | forcePrimary => exact ⟨.of_trackers_eq rfl rfl, fun _ hi => hi⟩

variable {mac eng cfg}

/-- What holds of every thread stays true if it survives time and each section establishes it for
the thread it moves. -/
theorem threads_step (P : Config → Thread → Prop)
    (hlater : ∀ cfg cfg' th, Later cfg cfg' → P cfg th → P cfg' th)
    (hstart : ∀ (cfg : Config) (op : Op), P cfg op.start) {label : Label}
    (hadvance : ∀ tid, label = .advance tid → P cfg (cfg.threads tid) →
      P (advance mac eng cfg tid).2 ((advance mac eng cfg tid).2.threads tid))
    (h : ∀ tid, P cfg (cfg.threads tid)) (tid : ℕ) :
    P (threadStep mac eng cfg label).2 ((threadStep mac eng cfg label).2.threads tid) := by
  have hold := hlater _ _ _ (threadStep_later mac eng cfg label) (h tid)
  cases label with
  | start tid' op =>
    rw [threadStep] at hold ⊢
    rcases startCall_cases cfg tid' op with hcall | hcall
    · rw [hcall]
      exact h tid
    · rw [hcall] at hold ⊢
      by_cases htid : tid = tid'
      · subst htid
        rw [Config.threads_goto_self]
        exact hstart _ op
      · rw [Config.threads_goto_of_ne cfg htid]
        exact hold
  | advance tid' =>
    by_cases htid : tid = tid'
    · subst htid
      exact hadvance tid rfl (h tid)
    · rw [threadStep, advance_threads_of_ne mac eng cfg htid]
      exact hold
  | forcePrimary => exact hold

end Step

end Hedge.Exec
