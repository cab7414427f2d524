import Hedge.Exec.Interleaving

/-!
# Fill deltas under concurrent reports

Reference: `on_fill` in `hedge-exec/src/engine.rs`, `partial_fill` in `hedge-exec/src/lifecycle.rs`.

An `on_fill` call reads the cumulative quantity under one lock and applies its report under another.
Shares that come in between are reported twice: by the call that brought them and by the one that
had read the older figure. `run_accounted` keeps that account over a schedule, and `fill_deltas_iff`
says when the reported fills add up.
-/

namespace Hedge.Exec

open Hedge.Common Hedge.Risk Hedge.BrokerApi

/-! ## What is reported and what is counted -/

/-- The shares a tracker has filled; none without a tracker. -/
def filledOf (st : ExecutionState) (cid : CorrelationId) : ℕ :=
  match st.trackers.lookup cid with
  | some t => t.filledQty.toNat
  | none => 0

/-- The shares an event reports as filled under a correlation id. -/
def fillQty (cid : CorrelationId) : EngineEvent → ℕ
  | .fill cid' _ _ qty _ _ => if cid' = cid then qty.toNat else 0
  | _ => 0

/-- The shares the events of a returning call report. -/
def fillTotal (cid : CorrelationId) : Option CallResult → ℕ
  | some (.ok events) => (events.map (fillQty cid)).sum
  | _ => 0

/-- What `on_fill` read is not more than the tracker has, and no other call reports fills. -/
def FillSound (cfg : Config) : Thread → Prop
  | .fillApplying cid _ _ _ _ _ priorQty _ =>
    ∃ t, cfg.engine.trackers.lookup cid = some t ∧ priorQty ≤ t.filledQty
  | .recording _ _ _ _ (.ok events) => ∀ cid, (events.map (fillQty cid)).sum = 0
  | _ => True

theorem FillSound.later {cfg cfg' : Config} {th : Thread} (hlater : Later cfg cfg')
    (h : FillSound cfg th) : FillSound cfg' th := by
  unfold FillSound at h ⊢
  split at h
  · obtain ⟨t, hlook, hle⟩ := h
    obtain ⟨t', hlook', -, hmono⟩ := hlater.engine.trackers _ t hlook
    exact ⟨t', hlook', UInt64.le_trans hle hmono⟩
  · exact h
  · trivial

theorem fillSound_start (cfg : Config) (op : Op) : FillSound cfg op.start := by
  cases op <;> trivial

section Fills

variable {mac : Mac} {eng : ExecutionEngine} {cfg : Config}

/-- Every section leaves its thread sound. -/
theorem fillSound_advance (tid : ℕ) :
    FillSound (advance mac eng cfg tid).2 ((advance mac eng cfg tid).2.threads tid) := by
  unfold advance
  cases hth : cfg.threads tid with
  | idle =>
    dsimp only
    rw [hth]
    trivial
  | folding call env slot answer =>
    cases answer with
    | ok ack =>
      dsimp only
      split
      · rw [Config.threads_goto_self]
        trivial
      · split
        · rw [Config.threads_goto_self]
          trivial
        · rw [Config.threads_goto_self]
          intro cid
          rfl
    | error err =>
      dsimp only
      split <;> rw [Config.threads_goto_self] <;> trivial
  | fillReading cid symbol side qty avg tsNs =>
    dsimp only
    split
    · rw [Config.threads_goto_self]
      trivial
    · rename_i t hlook
      rw [Config.threads_goto_self]
      exact ⟨t, hlook, UInt64.le_refl _⟩
  | contacting call env slot intent =>
    dsimp only [Config.goto]
    rw [Function.update_self]
    trivial
  | _ =>
    dsimp only
    repeat' split
    all_goals
      rw [Config.threads_goto_self]
      trivial

/-- The shares an accepted fill counts a second time: those that came in since it read the
tracker. -/
def countedAgain (st : ExecutionState) (cid : CorrelationId) (qty : UInt64) (avg : Int64)
    (tsNs priorQty : UInt64) : ℕ :=
  match st.trackers.lookup cid with
  | none => 0
  | some t => match t.partialFill qty avg tsNs with
    | .error _ => 0
    | .ok _ => t.filledQty.toNat - priorQty.toNat

/-- The shares of an order that a step counts a second time. -/
def staleQty (cfg : Config) (cid : CorrelationId) : Label → ℕ
  | .advance tid => match cfg.threads tid with
    | .fillApplying cid' _ _ qty avg tsNs priorQty _ =>
      if cid' = cid then countedAgain cfg.engine cid' qty avg tsNs priorQty else 0
    | _ => 0
  | _ => 0

theorem filledOf_insert {st : ExecutionState} {cid : CorrelationId} {t t' : OrderLifecycleTracker}
    (hlook : st.trackers.lookup cid = some t) (hfilled : t'.filledQty = t.filledQty)
    (cid' : CorrelationId) :
    filledOf { st with trackers := st.trackers.insert cid t' } cid' = filledOf st cid' := by
  unfold filledOf
  by_cases hcid : cid' = cid
  · subst hcid
    rw [AList.lookup_insert, hlook]
    exact congrArg UInt64.toNat hfilled
  · rw [AList.lookup_insert_ne hcid]

theorem filledOf_moved {st : ExecutionState} {cid : CorrelationId} {t : OrderLifecycleTracker}
    (hlook : st.trackers.lookup cid = some t) (target : OrderLifecycleState) (id : Option String)
    (cid' : CorrelationId) :
    filledOf { st with trackers := st.trackers.insert cid (t.moved target id) } cid'
      = filledOf st cid' := by
  refine filledOf_insert hlook ?_ cid'
  rfl

theorem filledOf_rejectTracked (st : ExecutionState) (cid : CorrelationId) (tsNs : UInt64)
    (cid' : CorrelationId) : filledOf (st.rejectTracked cid tsNs) cid' = filledOf st cid' := by
  unfold ExecutionState.rejectTracked
  split
  · rename_i t hlook
    exact filledOf_insert hlook (rejectTracker_keeps t tsNs).2.1 cid'
  · rfl

theorem filledOf_install (st : ExecutionState) (cid : CorrelationId) (broker : BrokerId)
    (qty : UInt64) (cid' : CorrelationId) :
    filledOf { st with trackers := installTracker st.trackers cid (.new cid broker qty) } cid'
      = filledOf st cid' := by
  cases hold : st.trackers.lookup cid with
  | some old => rw [installTracker_of_some hold]
  | none =>
    unfold filledOf
    simp only [installTracker, hold]
    by_cases hcid : cid' = cid
    · subst hcid
      rw [AList.lookup_insert, hold]
      rfl
    · rw [AList.lookup_insert_ne hcid]

/-- The shares an accepted fill reports. -/
theorem fillTotal_fillEvents (event : LifecycleEvent) (cid cid' : CorrelationId) (symbol : UInt32)
    (side : UInt8) (qty : UInt64) (avg : Int64) (tsNs priorQty : UInt64) (priorAvg : Int64) :
    fillTotal cid (some (.ok (fillEvents event cid' symbol side qty avg tsNs priorQty priorAvg)))
      = if cid' = cid then qty.toNat - priorQty.toNat else 0 := by
  have hdelta := UInt64.toNat_saturatingSub qty priorQty
  unfold fillEvents
  dsimp only
  split
  · rename_i hzero
    rw [hzero] at hdelta
    simp only [fillTotal, List.map_cons, List.map_nil, fillQty, List.sum_cons, List.sum_nil]
    rw [← hdelta]
    split <;> rfl
  · simp only [fillTotal, List.map_cons, List.map_nil, fillQty, List.sum_cons, List.sum_nil, hdelta,
      Nat.zero_add, Nat.add_zero]

/-- An accepted fill reports the shares it adds and those it counts again. -/
theorem fill_accounted {t t' : OrderLifecycleTracker} {qty : UInt64} {avg : Int64}
    {tsNs priorQty : UInt64} {event : LifecycleEvent}
    (hfill : t.partialFill qty avg tsNs = .ok (event, t')) (hprior : priorQty ≤ t.filledQty) :
    (qty.toNat - priorQty.toNat) + t.filledQty.toNat
      = t'.filledQty.toNat + (t.filledQty.toNat - priorQty.toNat) := by
  obtain ⟨hmono, -, -, hle, rfl⟩ := OrderLifecycleTracker.partialFill_inv hfill
  have h1 := UInt64.le_iff_toNat_le.mp hmono
  have h2 := UInt64.le_iff_toNat_le.mp hprior
  dsimp only
  omega

/-- The section reports no fill and touches no filled quantity. -/
def Quiet (cfg : Config) (cid : CorrelationId) (p : Option CallResult × Config) : Prop :=
  fillTotal cid p.1 = 0 ∧ filledOf p.2.engine cid = filledOf cfg.engine cid

theorem Effect.filledOf_eq {th : Thread} {st : ExecutionState} {issued : List Issued}
    (h : Effect cfg th st issued)
    (hfill : ∀ cid' symbol side qty avg tsNs priorQty priorAvg,
      th ≠ .fillApplying cid' symbol side qty avg tsNs priorQty priorAvg) (cid : CorrelationId) :
    filledOf st cid = filledOf cfg.engine cid := by
  cases h with
  | keep _ htrackers _ => rw [filledOf, filledOf, htrackers]
  | install call env slot => exact filledOf_install ..
  | contact => rfl
  | submit hlook hsub =>
    obtain ⟨-, -, rfl⟩ := OrderLifecycleTracker.transitionNoFill_inv hsub
    exact filledOf_moved hlook _ _ cid
  | reject call env slot err => exact filledOf_rejectTracked ..
  | cancel hlook hcancel =>
    obtain ⟨-, -, rfl⟩ := OrderLifecycleTracker.transitionNoFill_inv hcancel
    exact filledOf_moved hlook _ _ cid
  | fill => exact absurd rfl (hfill _ _ _ _ _ _ _ _)

theorem fillTotal_advance (cid : CorrelationId) {tid : ℕ} (h : FillSound cfg (cfg.threads tid))
    (hfill : ∀ cid' symbol side qty avg tsNs priorQty priorAvg,
      cfg.threads tid ≠ .fillApplying cid' symbol side qty avg tsNs priorQty priorAvg) :
    fillTotal cid (advance mac eng cfg tid).1 = 0 := by
  unfold advance
  cases hth : cfg.threads tid with
  | recording slot outcome latencyMs tsNs result =>
    rw [hth] at h
    cases result with
    | error err => rfl
    | ok events =>
      have hfailover : ∀ o : Option FailoverEvent,
          ((o.toList.map EngineEvent.failover).map (fillQty cid)).sum = 0 := by
        rintro (_ | e) <;> rfl
      change ((events ++ _).map (fillQty cid)).sum = 0
      rw [List.map_append, List.sum_append, h cid, hfailover]
  | fillApplying cid' symbol side qty avg tsNs priorQty priorAvg =>
    exact absurd hth (hfill _ _ _ _ _ _ _ _)
  | folding call env slot answer =>
    cases answer with
    | ok ack =>
      dsimp only
      repeat' split
      all_goals rfl
    | error err =>
      dsimp only
      split <;> rfl
  | _ =>
    dsimp only
    repeat' split
    all_goals rfl

/-- Only the second section of `on_fill` is about filled shares. -/
theorem advance_quiet (cid : CorrelationId) {tid : ℕ} (h : FillSound cfg (cfg.threads tid))
    (hfill : ∀ cid' symbol side qty avg tsNs priorQty priorAvg,
      cfg.threads tid ≠ .fillApplying cid' symbol side qty avg tsNs priorQty priorAvg) :
    Quiet cfg cid (advance mac eng cfg tid) :=
  ⟨fillTotal_advance cid h hfill, (advance_effect mac eng cfg tid).filledOf_eq hfill cid⟩

/-- One section of a call: what it reports is what the tracker gains and what it counts again. -/
theorem advance_accounted (cid : CorrelationId) {tid : ℕ} (h : FillSound cfg (cfg.threads tid)) :
    fillTotal cid (advance mac eng cfg tid).1 + filledOf cfg.engine cid
      = filledOf (advance mac eng cfg tid).2.engine cid + staleQty cfg cid (.advance tid) := by
  by_cases hfill : ∃ cid' symbol side qty avg tsNs priorQty priorAvg,
      cfg.threads tid = .fillApplying cid' symbol side qty avg tsNs priorQty priorAvg
  · obtain ⟨cid', symbol, side, qty, avg, tsNs, priorQty, priorAvg, hth⟩ := hfill
    rw [hth] at h
    obtain ⟨t, hlook, hprior⟩ := h
    simp only [advance, staleQty, countedAgain, hth, hlook]
    cases hfill : t.partialFill qty avg tsNs with
    | error err =>
      dsimp only
      rw [ite_self]
      exact Nat.add_comm _ _
    | ok p =>
      obtain ⟨event, t'⟩ := p
      dsimp only
      rw [fillTotal_fillEvents, Config.engine_goto]
      by_cases hcid : cid' = cid
      · subst hcid
        rw [if_pos rfl, if_pos rfl, filledOf, hlook, filledOf, AList.lookup_insert]
        exact fill_accounted hfill hprior
      · rw [if_neg hcid, if_neg hcid, filledOf, filledOf, AList.lookup_insert_ne (Ne.symm hcid)]
        exact Nat.add_comm _ _
  · have hquiet : Quiet cfg cid (advance mac eng cfg tid) :=
      advance_quiet cid h fun _ _ _ _ _ _ _ _ hth => hfill ⟨_, _, _, _, _, _, _, _, hth⟩
    have hstale : staleQty cfg cid (.advance tid) = 0 := by
      unfold staleQty
      dsimp only
      split
      · rename_i hth
        exact absurd ⟨_, _, _, _, _, _, _, _, hth⟩ hfill
      · rfl
    rw [hquiet.1, hquiet.2, hstale, Nat.zero_add, Nat.add_zero]

variable (mac eng)

theorem threadStep_accounted (cid : CorrelationId) (h : ∀ tid, FillSound cfg (cfg.threads tid))
    (label : Label) :
    fillTotal cid (threadStep mac eng cfg label).1 + filledOf cfg.engine cid
      = filledOf (threadStep mac eng cfg label).2.engine cid + staleQty cfg cid label := by
  cases label with
  | advance tid => exact advance_accounted cid (h tid)
  | forcePrimary => exact Nat.add_comm _ _
  | start tid op =>
    have hengine : (startCall cfg tid op).engine = cfg.engine := by
      rcases startCall_cases cfg tid op with hcall | hcall <;> rw [hcall]
      rfl
    rw [threadStep, hengine]
    exact Nat.add_comm _ _

theorem fillSound_threadStep (label : Label) (h : ∀ tid, FillSound cfg (cfg.threads tid)) :
    ∀ tid, FillSound (threadStep mac eng cfg label).2
      ((threadStep mac eng cfg label).2.threads tid) :=
  threads_step FillSound (fun _ _ _ hlater => FillSound.later hlater) fillSound_start
    (fun tid _ _ => fillSound_advance tid) h

/-! ## Over a schedule -/

/-- Over a schedule: what is reported is what the tracker gained and what was counted again. -/
theorem run_accounted (cid : CorrelationId) (labels : List Label)
    (h : ∀ tid, FillSound cfg (cfg.threads tid)) :
    ((runOutputs (threadStep mac eng) cfg labels).map (fillTotal cid)).sum + filledOf cfg.engine cid
      = filledOf (threadRun mac eng cfg labels).engine cid
        + (runCollect (threadStep mac eng) (fun cfg l => [staleQty cfg cid l]) cfg labels).sum := by
  induction labels generalizing cfg with
  | nil => exact Nat.add_comm _ _
  | cons label labels ih =>
    have hstep := threadStep_accounted mac eng cid h label
    have hrest := ih (fillSound_threadStep mac eng label h)
    rw [runOutputs_cons, List.map_cons, List.sum_cons, runCollect_cons, List.sum_append,
      List.sum_singleton, threadRun, runState_cons]
    rw [threadRun] at hrest
    omega

/-- If the step is the second section of an `on_fill` call and the report is accepted, the tracker's
quantity is the one the call read. -/
def SnapshotFresh (cfg : Config) (cid : CorrelationId) : Label → Prop
  | .advance tid => match cfg.threads tid with
    | .fillApplying cid' _ _ qty _ _ priorQty _ => cid' = cid →
      ∀ t, cfg.engine.trackers.lookup cid = some t → t.AcceptsFill qty → t.filledQty = priorQty
    | _ => True
  | _ => True

/-- A fresh snapshot is one that counts nothing again. -/
theorem staleQty_eq_zero_iff (cid : CorrelationId) (h : ∀ tid, FillSound cfg (cfg.threads tid))
    (label : Label) : staleQty cfg cid label = 0 ↔ SnapshotFresh cfg cid label := by
  cases label with
  | start tid op => exact iff_of_true rfl trivial
  | forcePrimary => exact iff_of_true rfl trivial
  | advance tid =>
    have hsound := h tid
    unfold staleQty SnapshotFresh
    dsimp only
    cases hth : cfg.threads tid with
    | fillApplying cid' symbol side qty avg tsNs priorQty priorAvg =>
      rw [hth] at hsound
      obtain ⟨t, hlook, hprior⟩ := hsound
      dsimp only
      by_cases hcid : cid' = cid
      · subst hcid
        simp only [if_true, countedAgain, hlook, forall_true_left, Option.some.injEq, forall_eq',
          ← OrderLifecycleTracker.partialFill_isOk_iff t qty avg tsNs]
        cases hfill : t.partialFill qty avg tsNs with
        | error err => simp
        | ok p =>
          have hle := UInt64.le_iff_toNat_le.mp hprior
          simp only [Except.ok.injEq, exists_eq', forall_true_left, ← UInt64.toNat_inj]
          omega
      · rw [if_neg hcid]
        exact iff_of_true rfl fun hcid' => absurd hcid' hcid
    | _ => exact iff_of_true rfl trivial

/-- From a fresh engine, under every schedule of calls: the reported fills of an order add up to the
quantity of its tracker exactly if no accepted `on_fill` call finds that quantity changed between
its two sections. -/
theorem fill_deltas_iff (router : BrokerRouter) (labels : List Label) (cid : CorrelationId) :
    ((runOutputs (threadStep mac eng) (.new router) labels).map (fillTotal cid)).sum
        = filledOf (threadRun mac eng (.new router) labels).engine cid ↔
      ∀ pre label post, labels = pre ++ label :: post →
        SnapshotFresh (threadRun mac eng (.new router) pre) cid label := by
  have hsound : ∀ tid, FillSound (.new router) ((Config.new router).threads tid) :=
    fun _ => trivial
  have hrun := run_accounted mac eng cid labels hsound
  have hnone : filledOf (Config.new router).engine cid = 0 := rfl
  rw [hnone, Nat.add_zero] at hrun
  rw [hrun, Nat.add_eq_left, List.sum_eq_zero_iff, forall_mem_runCollect_iff]
  refine forall₄_congr fun pre label post _ => ?_
  rw [List.forall_mem_singleton]
  refine staleQty_eq_zero_iff cid ?_ label
  exact runState_invariant_all (threadStep mac eng)
    (fun cfg => ∀ tid, FillSound cfg (cfg.threads tid))
    (fun _ label => fillSound_threadStep mac eng label) hsound pre

end Fills

/-- An acknowledged order, and two reports of it of which the second is read before the first is
applied. -/
def crossedFills : List Label :=
  solo 0 (.submit (mintedCall ⟨sampleIntent, 10, 1000, 1⟩) (scriptedEnv [.ack ⟨"ORD-1", none⟩])) 6
    ++ [.start 1 (.onFill (mintedCall ⟨sampleIntent, 10, 1000, 1⟩).cid 1 0 5 100 2000),
      .start 2 (.onFill (mintedCall ⟨sampleIntent, 10, 1000, 1⟩).cid 1 0 10 100 2001),
      .advance 1, .advance 2, .advance 1, .advance 2]

/-- Five shares and then ten are reported of an order for ten. -/
theorem crossedFills_counted_twice :
    ((runOutputs (threadStep tailMac makeEngine) (.new makeState.router) crossedFills).map
        (fillTotal (mintedCall ⟨sampleIntent, 10, 1000, 1⟩).cid)).sum = 15 ∧
    filledOf (threadRun tailMac makeEngine (.new makeState.router) crossedFills).engine
      (mintedCall ⟨sampleIntent, 10, 1000, 1⟩).cid = 10 := by
  decide +kernel

end Hedge.Exec
