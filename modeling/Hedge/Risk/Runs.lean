import Hedge.Common.Run
import Hedge.Risk.Gates

/-!
# Runs of the Risk_Engine

Reference: `hedge-risk/src/engine.rs`, `hedge-risk/src/state.rs` and `hedge-risk/src/frequency.rs`.

Between two `evaluate` calls other tasks mutate the engine: they update the PnL, engage and reset
the Kill_Switch, reset the session, and write any public field through the guard that `state()`
hands out. A run is an interleaving of these actions. The three limits below are limits over time:

- the daily-loss stop blocks entries while the PnL stays at or below the limit;
- a drawdown breach engages the Kill_Switch unless the daily-loss gate returns first;
- the trade-frequency limits bind only what the counters record, and `evaluate` records nothing.
-/

namespace Hedge.Risk

open Hedge.Common Hedge.Core

/-- What can happen to a `RiskEngine`. -/
inductive RiskAction where
  | evaluate (inp : EvalInput)
  | updatePnl (realizedPaise unrealizedPaise : Int64) (capital : CapitalConfig)
  | resetSession (capital : CapitalConfig)
  /-- Any write through the guard returned by `state()`. -/
  | write (f : RiskState → RiskState)
  | killActivate (reason : KillReason)
  | killReset

/-- `reset_session` is the only action that starts a new session. -/
def RiskAction.isResetSession : RiskAction → Bool
  | .resetSession _ => true
  | _ => false

/-- `KillSwitchState::reset`. -/
def RiskAction.isKillReset : RiskAction → Bool
  | .killReset => true
  | _ => false

/-- One action; only `evaluate` has a decision. -/
def riskStep (mac : Mac) (eng : RiskEngine) (s : RiskEngineState) :
    RiskAction → Option RiskDecision × RiskEngineState
  | .evaluate inp => (some (evaluateInner mac eng s inp).1, (evaluateInner mac eng s inp).2)
  | .updatePnl r u capital => (none, { s with state := s.state.updatePnl r u capital })
  | .resetSession capital => (none, { s with state := s.state.resetSession capital })
  | .write f => (none, { s with state := f s.state })
  | .killActivate reason => (none, { s with killSwitch := (s.killSwitch.activate reason).2 })
  | .killReset => (none, { s with killSwitch := s.killSwitch.reset })

/-- The state after a run. -/
abbrev riskRun (mac : Mac) (eng : RiskEngine) (s : RiskEngineState) (acts : List RiskAction) :
    RiskEngineState :=
  runState (riskStep mac eng) s acts

section Step

variable {mac : Mac} {eng : RiskEngine} {s : RiskEngineState} {inp : EvalInput}

/-- `evaluate` writes nothing of `RiskState` but the frequency counters. -/
theorem evaluateInner_state_eq (mac : Mac) (eng : RiskEngine) (s : RiskEngineState)
    (inp : EvalInput) :
    ∃ f : FrequencyCounters,
      (evaluateInner mac eng s inp).2.state = { s.state with frequency := f } := by
  rw [evaluateInner_state]
  rcases firstFailing eng s inp with _ | g
  · exact ⟨_, rfl⟩
  · cases g <;> first | exact ⟨s.state.frequency, rfl⟩ | exact ⟨_, rfl⟩

/-- The loss gate reads the same after an `evaluate` call. -/
theorem dailyLossBreached_evaluateInner :
    dailyLossBreached eng (evaluateInner mac eng s inp).2.state = dailyLossBreached eng s.state := by
  obtain ⟨f, hf⟩ := evaluateInner_state_eq mac eng s inp
  rw [hf]
  rfl

/-- A breached loss limit rejects the call. -/
theorem not_approved_of_dailyLossBreached (h : dailyLossBreached eng s.state = true) :
    (evaluateInner mac eng s inp).1.isApproved = false := by
  by_contra hne
  have happ := evaluateInner_isApproved_iff.mp (Bool.eq_true_of_not_eq_false hne)
  have hpass := firstFailing_eq_none_iff.mp happ .dailyLoss
  simp [Gate.fails, h] at hpass

end Step

/-! ## The daily-loss stop -/

section DailyLoss

variable (mac : Mac) (eng : RiskEngine) (s₀ : RiskEngineState)

/-- After the actions `pre` the stop is due: an update brought the PnL to the limit and the session
was not reset since. -/
def LossStopDue (pre : List RiskAction) : Prop :=
  ∃ before r u capital mid, pre = before ++ RiskAction.updatePnl r u capital :: mid ∧
    dailyLossBreached eng (riskRun mac eng s₀ (before ++ [.updatePnl r u capital])).state = true ∧
    ∀ a ∈ mid, a.isResetSession = false

/-- No `evaluate` of the run is approved while the stop is due. -/
def LossStopHolds (acts : List RiskAction) : Prop :=
  ∀ pre a post, acts = pre ++ a :: post → LossStopDue mac eng s₀ pre → ∀ inp, a = .evaluate inp →
    (evaluateInner mac eng (riskRun mac eng s₀ pre) inp).1.isApproved = false

/-- The action brings the PnL back above the limit. -/
def RiskAction.recovers (state : RiskState) : RiskAction → Bool
  | .updatePnl r u _ =>
    decide (-(Int64.fromU32 eng.riskCfg.maxDailyLossInr * 100) < r.saturatingAdd u)
  | .write f => !dailyLossBreached eng (f state)
  | _ => false

/-- While the stop is due, no action of the run brings the PnL back above the limit. -/
def NoRecovery (acts : List RiskAction) : Prop :=
  ∀ pre a post, acts = pre ++ a :: post → LossStopDue mac eng s₀ pre →
    a.recovers eng (riskRun mac eng s₀ pre).state = false

variable {mac eng s₀}

/-- One step: a breach persists unless the action recovers from it or resets the session. -/
theorem dailyLossBreached_riskStep {s : RiskEngineState} {a : RiskAction}
    (hreset : a.isResetSession = false) (hrec : a.recovers eng s.state = false)
    (h : dailyLossBreached eng s.state = true) :
    dailyLossBreached eng (riskStep mac eng s a).2.state = true := by
  cases a with
  | evaluate inp =>
    change dailyLossBreached eng (evaluateInner mac eng s inp).2.state = true
    rw [dailyLossBreached_evaluateInner, h]
  | updatePnl r u capital =>
    have hle : r.saturatingAdd u ≤ -(Int64.fromU32 eng.riskCfg.maxDailyLossInr * 100) := by
      simpa [RiskAction.recovers] using hrec
    exact decide_eq_true hle
  | resetSession capital => cases hreset
  | write f => simpa [RiskAction.recovers, riskStep] using hrec
  | killActivate reason => exact h
  | killReset => exact h

/-- The whole run: where the stop is due the PnL is still at or below the limit. -/
theorem breached_of_lossStopDue {acts pre post : List RiskAction}
    (hno : NoRecovery mac eng s₀ acts) (hacts : acts = pre ++ post)
    (hdue : LossStopDue mac eng s₀ pre) :
    dailyLossBreached eng (riskRun mac eng s₀ pre).state = true := by
  obtain ⟨before, r, u, capital, mid, rfl, hbreach, hmid⟩ := hdue
  have hrun : ∀ done, riskRun mac eng s₀ (before ++ .updatePnl r u capital :: done)
      = riskRun mac eng (riskRun mac eng s₀ (before ++ [.updatePnl r u capital])) done := by
    intro done
    simp
  rw [hrun]
  -- induction over the actions since the breaching update
  refine runState_invariant_along (riskStep mac eng)
    (fun s => dailyLossBreached eng s.state = true) hbreach ?_
  intro done a rest hsplit hI
  refine dailyLossBreached_riskStep (hmid a (by simp [hsplit])) ?_ hI
  rw [← riskRun, ← hrun]
  refine hno _ a (rest ++ post) (by simp [hacts, hsplit]) ?_
  exact ⟨before, r, u, capital, done, rfl, hbreach, fun b hb => hmid b (by simp [hsplit, hb])⟩

/-- In every run that does not recover from a breach, the daily-loss stop holds. -/
theorem lossStop_of_noRecovery (mac : Mac) (eng : RiskEngine) (s₀ : RiskEngineState)
    (acts : List RiskAction) (hno : NoRecovery mac eng s₀ acts) :
    LossStopHolds mac eng s₀ acts := by
  intro pre a post hacts hdue inp ha
  exact not_approved_of_dailyLossBreached (breached_of_lossStopDue hno hacts hdue)

end DailyLoss

/-- The unrealised loss recovers, and the next call is approved in the same session. -/
theorem lossStop_fails_on_recovery :
    ¬ LossStopHolds (fun _ _ => Vector.replicate 32 0) (makeEngineWith Defaults.risk)
      (makeEngineWith Defaults.risk).init
      [.updatePnl 0 (-60001) Defaults.capital, .updatePnl 0 0 Defaults.capital,
        .evaluate (makeInput 1000 1)] := by
  intro h
  have hrejected := h [.updatePnl 0 (-60001) Defaults.capital, .updatePnl 0 0 Defaults.capital]
    (.evaluate (makeInput 1000 1)) [] rfl
    ⟨[], 0, -60001, Defaults.capital, [.updatePnl 0 0 Defaults.capital], rfl, by decide +kernel,
      by decide +kernel⟩ _ rfl
  revert hrejected
  decide +kernel

/-- A loss that deepens after the breach keeps the stop. -/
theorem lossStop_of_noRecovery_deepening :
    LossStopHolds (fun _ _ => Vector.replicate 32 0) (makeEngineWith Defaults.risk)
      (makeEngineWith Defaults.risk).init
      [.updatePnl 0 (-60001) Defaults.capital, .updatePnl (-50000) (-10000) Defaults.capital,
        .evaluate (makeInput 1000 1)] := by
  refine lossStop_of_noRecovery _ _ _ _ ?_
  refine forall_split_cons (fun _ => by decide +kernel) ?_
  refine forall_split_cons (fun _ => by decide +kernel) ?_
  exact forall_split_cons (fun _ => by decide +kernel) forall_split_nil

/-! ## The drawdown stop -/

section Drawdown

variable {mac : Mac} {eng : RiskEngine} {s : RiskEngineState} {inp : EvalInput}

/-- An active switch rejects every call. -/
theorem rejectionReason_of_active (h : s.killSwitch.active = true) :
    (evaluateInner mac eng s inp).1.rejectionReason = some .killSwitchEngaged := by
  have hfirst : firstFailing eng s inp = some .killSwitch :=
    List.find?_cons_of_pos h
  rw [evaluateInner_rejectionReason, hfirst]
  rfl

/-- A call never releases the switch. -/
theorem active_evaluateInner (h : s.killSwitch.active = true) :
    (evaluateInner mac eng s inp).2.killSwitch.active = true := by
  rw [evaluateInner_state]
  rcases firstFailing eng s inp with _ | g
  · exact h
  · cases g <;> first | exact h | exact KillSwitchState.activate_active _ _

/-- One step: only `KillSwitchState::reset` releases the switch. -/
theorem active_riskStep {a : RiskAction} (ha : a.isKillReset = false)
    (h : s.killSwitch.active = true) : (riskStep mac eng s a).2.killSwitch.active = true := by
  cases a with
  | evaluate inp => exact active_evaluateInner h
  | killActivate reason => exact KillSwitchState.activate_active _ _
  | killReset => cases ha
  | _ => exact h

/-- The whole run: the switch stays active until it is reset. -/
theorem active_riskRun {acts : List RiskAction} (hacts : ∀ a ∈ acts, a.isKillReset = false)
    (h : s.killSwitch.active = true) : (riskRun mac eng s acts).killSwitch.active = true :=
  runState_invariant (riskStep mac eng) (fun s => s.killSwitch.active = true)
    (fun _ _ ha hs => active_riskStep ha hs) h hacts

/-- The switch is inactive before a call that changes it only at the drawdown gate. -/
theorem active_after_iff (mac : Mac) (hinactive : s.killSwitch.active = false) :
    (evaluateInner mac eng s inp).2.killSwitch.active = true ↔
      firstFailing eng s inp = some .drawdown := by
  rw [evaluateInner_state]
  rcases firstFailing eng s inp with _ | g
  · simp [stateAfter, refreshFrequency, hinactive]
  · cases g <;> simp [stateAfter, refreshFrequency, hinactive]

/-- In session, with the switch inactive and the drawdown at its limit, the drawdown gate is the
first to fail exactly when the loss gate passes. -/
theorem firstFailing_eq_drawdown_iff (hinactive : s.killSwitch.active = false)
    (hsession : isWithinSession eng.sessionCfg inp.ist = true)
    (hdrawdown : drawdownBreached eng s.state = true) :
    firstFailing eng s inp = some .drawdown ↔ dailyLossBreached eng s.state = false := by
  cases hloss : dailyLossBreached eng s.state <;>
    simp [firstFailing, Gate.documentedOrder, Gate.fails, hinactive, hsession, hdrawdown, hloss]

/-- The call leaves the switch active, and every later call is rejected by it until its reset. -/
def SwitchEngages (mac : Mac) (eng : RiskEngine) (s : RiskEngineState) (inp : EvalInput) : Prop :=
  (evaluateInner mac eng s inp).2.killSwitch.active = true ∧
    ∀ mid inp', (∀ a ∈ mid, RiskAction.isKillReset a = false) →
      let later := riskRun mac eng (evaluateInner mac eng s inp).2 mid
      (evaluateInner mac eng later inp').1.rejectionReason = some .killSwitchEngaged

end Drawdown

/-- At any point of any run, a call that observes a drawdown breach engages the switch for good
exactly when the daily loss limit is not breached as well. -/
theorem drawdown_engages_iff (mac : Mac) (eng : RiskEngine) (s₀ : RiskEngineState)
    (acts : List RiskAction) (inp : EvalInput)
    (hsession : isWithinSession eng.sessionCfg inp.ist = true)
    (hinactive : (riskRun mac eng s₀ acts).killSwitch.active = false)
    (hdrawdown : (eng.riskCfg.maxDrawdownInr.toNat * 100 : ℤ)
      ≤ (riskRun mac eng s₀ acts).state.drawdownPaise.toInt) :
    SwitchEngages mac eng (riskRun mac eng s₀ acts) inp ↔
      -(eng.riskCfg.maxDailyLossInr.toNat * 100 : ℤ)
        < (riskRun mac eng s₀ acts).state.realizedPnlPaise.toInt
          + (riskRun mac eng s₀ acts).state.unrealizedPnlPaise.toInt := by
  have hiff := firstFailing_eq_drawdown_iff hinactive hsession (drawdownBreached_iff.mpr hdrawdown)
  rw [← not_le, ← dailyLossBreached_iff, Bool.not_eq_true, ← hiff, ← active_after_iff mac hinactive]
  refine ⟨fun h => h.1, fun h => ⟨h, fun mid inp' hmid => ?_⟩⟩
  exact rejectionReason_of_active (active_riskRun hmid h)

/-- A loss past both limits: the call returns at the loss gate and the switch stays inactive. -/
theorem drawdown_does_not_engage_past_loss_limit :
    let eng := makeEngineWith Defaults.risk
    let s := riskRun (fun _ _ => Vector.replicate 32 0) eng eng.init
      [.updatePnl 0 (-100001) Defaults.capital]
    isWithinSession eng.sessionCfg (makeInput 1000 1).ist = true ∧ s.killSwitch.active = false ∧
      (eng.riskCfg.maxDrawdownInr.toNat * 100 : ℤ) ≤ s.state.drawdownPaise.toInt ∧
      ¬ SwitchEngages (fun _ _ => Vector.replicate 32 0) eng s (makeInput 1000 1) := by
  refine ⟨by decide +kernel, by decide +kernel, by decide +kernel, fun h => ?_⟩
  have hactive := h.1
  revert hactive
  decide +kernel

/-- Gains given back: the drawdown limit is reached above the loss limit, and the switch engages. -/
theorem drawdown_engages_after_gains :
    SwitchEngages (fun _ _ => Vector.replicate 32 0) (makeEngineWith Defaults.risk)
      (riskRun (fun _ _ => Vector.replicate 32 0) (makeEngineWith Defaults.risk)
        (makeEngineWith Defaults.risk).init
        [.updatePnl 90000 0 Defaults.capital, .updatePnl 90000 (-100000) Defaults.capital])
      (makeInput 1000 1) :=
  (drawdown_engages_iff _ _ _ _ _ (by decide +kernel) (by decide +kernel) (by decide +kernel)).mpr
    (by decide +kernel)

/-! ## The trade-frequency limits -/

section Frequency

/-- No closed window of `span` nanoseconds holds more than `limit` of `times`. -/
def WindowBound (times : List UInt64) (span : ℕ) (limit : UInt32) : Prop :=
  ∀ start : ℕ,
    times.countP (fun t => decide (start ≤ t.toNat ∧ t.toNat ≤ start + span)) ≤ limit.toNat

/-- The three limits of the configuration, on the times of a run's entries. -/
structure FrequencyBound (cfg : RiskConfig) (times : List UInt64) : Prop where
  perMinute : WindowBound times nsPerMinute cfg.maxTradesPerMinute
  perHour : WindowBound times nsPerHour cfg.maxTradesPerHour
  perSession : times.length ≤ cfg.maxTradesPerSession.toNat

theorem FrequencyBound.nil (cfg : RiskConfig) : FrequencyBound cfg [] :=
  ⟨fun _ => Nat.zero_le _, fun _ => Nat.zero_le _, Nat.zero_le _⟩

variable (mac : Mac) (eng : RiskEngine)

/-- The evaluation time of an approved call. -/
def approvedAt (s : RiskEngineState) : RiskAction → List UInt64
  | .evaluate inp =>
    if (evaluateInner mac eng s inp).1.isApproved then [inp.frequencyNs] else []
  | _ => []

/-- The evaluation time of a call that passes every gate but the frequency gate. -/
def eligibleAt (s : RiskEngineState) : RiskAction → List UInt64
  | .evaluate inp =>
    if Gate.documentedOrder.all fun g => g == .frequency || !g.fails eng s inp then
      [inp.frequencyNs] else []
  | _ => []

/-- The approval times of a run of a fresh engine. -/
def approvalTimes (acts : List RiskAction) : List UInt64 :=
  runCollect (riskStep mac eng) (approvedAt mac eng) eng.init acts

/-- The times at which a run of a fresh engine would trade if there were no frequency gate. -/
def eligibleTimes (acts : List RiskAction) : List UInt64 :=
  runCollect (riskStep mac eng) (eligibleAt eng) eng.init acts

/-- The action is not `reset_session` and does not write the frequency counters by hand. -/
def RiskAction.KeepsCounters : RiskAction → Prop
  | .resetSession _ => False
  | .write f => ∀ st, (f st).frequency = st.frequency
  | _ => True

/-- No admission is recorded. -/
def FrequencyCounters.Empty (f : FrequencyCounters) : Prop :=
  f.minute.iter = [] ∧ f.hour.iter = [] ∧ f.session.len = 0

variable {mac eng} {s : RiskEngineState}

theorem FrequencyCounters.empty_new : FrequencyCounters.new.Empty :=
  ⟨RingWindow.iter_new 0 (by decide), RingWindow.iter_new 0 (by decide), rfl⟩

/-- Empty counters breach a limit only if it is zero. -/
theorem FrequencyCounters.wouldBreach_of_empty {f : FrequencyCounters} (hf : f.Empty)
    (nowNs : UInt64) (m h n : UInt32) :
    (f.wouldBreach nowNs m h n).1 = true ↔ m = 0 ∨ h = 0 ∨ n = 0 := by
  obtain ⟨hm, hh, hs⟩ := hf
  simp only [wouldBreach, liveCount, hm, hh, hs, List.countP_nil, decide_eq_true_eq,
    ← UInt32.toNat_inj, UInt32.toNat_zero]
  omega

/-- `evaluate` records no admission, not even its own. -/
theorem empty_evaluateInner {inp : EvalInput} (h : s.state.frequency.Empty) :
    (evaluateInner mac eng s inp).2.state.frequency.Empty := by
  rw [evaluateInner_state]
  -- every branch keeps the rings: `would_breach` refreshes the caches only
  rcases firstFailing eng s inp with _ | g
  · exact h
  · cases g <;> exact h

/-- One step: the counters stay empty. -/
theorem empty_riskStep {a : RiskAction} (ha : a.KeepsCounters) (h : s.state.frequency.Empty) :
    (riskStep mac eng s a).2.state.frequency.Empty := by
  cases a with
  | evaluate inp => exact empty_evaluateInner h
  | resetSession capital => exact ha.elim
  | write f =>
    change (f s.state).frequency.Empty
    rwa [ha s.state]
  | _ => exact h

/-- With empty counters and positive limits the frequency gate changes no decision. -/
theorem approvedAt_eq_eligibleAt {a : RiskAction} (h : s.state.frequency.Empty)
    (hpos : ¬ (eng.riskCfg.maxTradesPerMinute = 0 ∨ eng.riskCfg.maxTradesPerHour = 0 ∨
      eng.riskCfg.maxTradesPerSession = 0)) :
    approvedAt mac eng s a = eligibleAt eng s a := by
  cases a with
  | evaluate inp =>
    have hfreq : Gate.fails eng s inp .frequency = false :=
      Bool.eq_false_iff.mpr fun hb => hpos ((FrequencyCounters.wouldBreach_of_empty h _ _ _ _).mp hb)
    have hiff : (evaluateInner mac eng s inp).1.isApproved = true ↔
        (Gate.documentedOrder.all fun g => g == .frequency || !g.fails eng s inp) = true := by
      rw [evaluateInner_isApproved_iff, firstFailing_eq_none_iff]
      simp only [List.all_eq_true, Bool.or_eq_true, beq_iff_eq, Bool.not_eq_true']
      refine ⟨fun hall g _ => .inr (hall g), fun hall g => ?_⟩
      rcases hall g g.mem_documentedOrder with rfl | hg
      · exact hfreq
      · exact hg
    simp only [approvedAt, eligibleAt, hiff]
  | _ => rfl

/-- A zero limit lets nothing through. -/
theorem approvedAt_eq_nil {a : RiskAction} (h : s.state.frequency.Empty)
    (hzero : eng.riskCfg.maxTradesPerMinute = 0 ∨ eng.riskCfg.maxTradesPerHour = 0 ∨
      eng.riskCfg.maxTradesPerSession = 0) :
    approvedAt mac eng s a = [] := by
  cases a with
  | evaluate inp =>
    have hfreq : Gate.fails eng s inp .frequency = true :=
      (FrequencyCounters.wouldBreach_of_empty h _ _ _ _).mpr hzero
    have hnot : (evaluateInner mac eng s inp).1.isApproved ≠ true := by
      rw [Ne, evaluateInner_isApproved_iff, firstFailing_eq_none_iff]
      intro hall
      simp [hall] at hfreq
    simp [approvedAt, hnot]
  | _ => rfl

end Frequency

/-- The approvals of a fresh engine respect the frequency limits exactly when a limit is zero or the
calls that pass every other gate respect them by themselves. -/
theorem approvals_within_limits_iff (mac : Mac) (eng : RiskEngine) (acts : List RiskAction)
    (hkeep : ∀ a ∈ acts, a.KeepsCounters) :
    FrequencyBound eng.riskCfg (approvalTimes mac eng acts) ↔
      (eng.riskCfg.maxTradesPerMinute = 0 ∨ eng.riskCfg.maxTradesPerHour = 0 ∨
        eng.riskCfg.maxTradesPerSession = 0) ∨
      FrequencyBound eng.riskCfg (eligibleTimes mac eng acts) := by
  have hstep : ∀ s a, RiskAction.KeepsCounters a → s.state.frequency.Empty →
      (riskStep mac eng s a).2.state.frequency.Empty := fun s a ha h => empty_riskStep ha h
  have hinit : eng.init.state.frequency.Empty := FrequencyCounters.empty_new
  by_cases hzero : eng.riskCfg.maxTradesPerMinute = 0 ∨ eng.riskCfg.maxTradesPerHour = 0 ∨
      eng.riskCfg.maxTradesPerSession = 0
  · have hnil : approvalTimes mac eng acts = [] := by
      rw [approvalTimes, runCollect_congr (fun s => s.state.frequency.Empty) hstep
        (fun s a _ h => approvedAt_eq_nil h hzero) hinit hkeep]
      exact runCollect_const_nil _ _
    simp only [hnil, hzero, true_or, FrequencyBound.nil]
  · have heq : approvalTimes mac eng acts = eligibleTimes mac eng acts :=
      runCollect_congr (fun s => s.state.frequency.Empty) hstep
        (fun s a _ h => approvedAt_eq_eligibleAt h hzero) hinit hkeep
    rw [heq, or_iff_right hzero]

/-- Five approvals within a microsecond, against a limit of four a minute. -/
theorem approvals_exceed_minute_limit :
    ¬ FrequencyBound Defaults.risk
      (approvalTimes (fun _ _ => Vector.replicate 32 0) (makeEngineWith Defaults.risk)
        [.evaluate (makeInput 1000 1), .evaluate (makeInput 1000 2), .evaluate (makeInput 1000 3),
          .evaluate (makeInput 1000 4), .evaluate (makeInput 1000 5)]) := by
  intro h
  have hcount := h.perMinute 1
  revert hcount
  decide +kernel

/-- Two calls are within the default limits. -/
theorem approvals_within_limits_of_two_calls :
    FrequencyBound Defaults.risk
      (approvalTimes (fun _ _ => Vector.replicate 32 0) (makeEngineWith Defaults.risk)
        [.evaluate (makeInput 1000 1), .evaluate (makeInput 1000 2)]) := by
  refine (approvals_within_limits_iff _ (makeEngineWith Defaults.risk) _ ?_).mpr (.inr ?_)
  · simp [RiskAction.KeepsCounters]
  · have htimes : eligibleTimes (fun _ _ => Vector.replicate 32 0) (makeEngineWith Defaults.risk)
        [.evaluate (makeInput 1000 1), .evaluate (makeInput 1000 2)] = [1, 2] := by
      decide +kernel
    rw [htimes]
    exact ⟨fun _ => List.countP_le_length.trans (by decide),
      fun _ => List.countP_le_length.trans (by decide), by decide⟩

end Hedge.Risk
