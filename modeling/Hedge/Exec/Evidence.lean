import Hedge.Common.Log
import Hedge.Common.Run
import Hedge.Exec.Router
import Mathlib.Data.List.Count

/-!
# What a failover is based on

Reference: `hedge-exec/src/router.rs`.

The window of a slot holds the last outcomes recorded against it. A failover clears the window of
the slot it makes active; a hint in `pick_for_intent` and `force_primary` make a slot active without
clearing its window, so that it is judged by what was recorded before. `failover_fresh` says that
failover decisions rest on fresh outcomes only in every run in which a hint and a fail-back only
turn to a slot with an empty window.
-/

namespace Hedge.Exec

open Hedge.Common

/-! ## The window of a slot -/

namespace AdapterStats

/-- The window holds the last outcomes of `log`, in order from the slot at `pos`. -/
structure Holds (s : AdapterStats) (log : List Sample) : Prop where
  pos_eq_zero : log.length < s.capacity → s.pos = 0
  samples : s.samples.rotate s.pos = lastN s.capacity log

section Holds

variable {s : AdapterStats} {log : List Sample}

theorem Holds.length_samples (h : s.Holds log) : s.samples.length = min s.capacity log.length := by
  rw [← List.length_rotate s.samples s.pos, h.samples, length_lastN]

/-- A window that is not full lists the outcomes. -/
theorem Holds.samples_eq (h : s.Holds log) (hlen : log.length < s.capacity) : s.samples = log := by
  have hsamples := h.samples
  rwa [h.pos_eq_zero hlen, List.rotate_zero, lastN_of_length_le hlen.le] at hsamples

theorem holds_withCapacity (capacity : ℕ) : (withCapacity capacity).Holds [] :=
  ⟨fun _ => rfl, (lastN_nil _).symm⟩

theorem holds_reset (s : AdapterStats) : s.reset.Holds [] := ⟨fun _ => rfl, (lastN_nil _).symm⟩

/-- An empty window holds nothing. -/
theorem Holds.of_samples_nil (h : s.Holds log) (hcap : 0 < s.capacity) (hnil : s.samples = []) :
    s.Holds [] := by
  have hlen := h.length_samples
  rw [hnil, List.length_nil] at hlen
  refine ⟨fun _ => h.pos_eq_zero (by omega), ?_⟩
  rw [hnil, List.rotate_nil, lastN_nil]

/-- Recording appends to the log. -/
theorem Holds.record (h : s.Holds log) (hcap : 0 < s.capacity) (outcome : Outcome)
    (latencyMs : UInt32) : (s.record outcome latencyMs).Holds (log ++ [⟨outcome, latencyMs⟩]) := by
  have hlen := h.length_samples
  unfold AdapterStats.record
  dsimp only
  split_ifs with hroom
  · have hlog : log.length < s.capacity := by omega
    refine ⟨fun _ => h.pos_eq_zero hlog, ?_⟩
    rw [h.pos_eq_zero hlog, List.rotate_zero, h.samples_eq hlog, lastN_of_length_le]
    rw [List.length_append, List.length_singleton]
    exact hlog
  · have hfull : s.samples.length = s.capacity := by omega
    have hi : s.pos % s.capacity < s.samples.length := by
      rw [hfull]
      exact Nat.mod_lt _ hcap
    refine ⟨fun hlt => ?_, ?_⟩
    · rw [List.length_append, List.length_singleton] at hlt
      dsimp only at hlt
      omega
    · dsimp only
      rw [rotate_set_succ hi, ← hfull, List.rotate_mod, h.samples, hfull,
        lastN_concat hcap (by omega)]

end Holds

theorem capacity_record (s : AdapterStats) (outcome : Outcome) (latencyMs : UInt32) :
    (s.record outcome latencyMs).capacity = s.capacity := by
  unfold record
  dsimp only
  split_ifs <;> rfl

/-- The statistics of a list of outcomes. -/
def ofLog (log : List Sample) : AdapterStats := ⟨windowSize, log, 0⟩

/-- The error rate does not depend on the order of the outcomes. -/
theorem errorRateBps_congr {s t : AdapterStats} (h : s.samples.Perm t.samples) :
    s.errorRateBps = t.errorRateBps := by
  unfold errorRateBps
  rw [h.length_eq, h.countP_eq, h.isEmpty_eq]

/-- Nor does the latency percentile. -/
theorem p99LatencyMs_congr {s t : AdapterStats} (h : s.samples.Perm t.samples) :
    s.p99LatencyMs = t.p99LatencyMs := by
  have hlatencies := (h.map Sample.latencyMs).filter fun ms => ms != 4294967295
  unfold p99LatencyMs
  dsimp only
  rw [insertionSort_eq_of_perm hlatencies]

end AdapterStats

/-! ## Runs of a router -/

/-- A call of the router. -/
inductive RouterCall where
  | pickForIntent (hint : Option BrokerId)
  | forcePrimary
  | recordOutcome (outcome : Outcome) (latencyMs : UInt32) (tsNs : UInt64)
deriving DecidableEq, Repr

/-- One call. -/
def routerStep (r : BrokerRouter) : RouterCall → Option FailoverEvent × BrokerRouter
  | .pickForIntent hint => (none, (r.pickForIntent hint).2)
  | .forcePrimary => (none, r.forcePrimary)
  | .recordOutcome outcome latencyMs tsNs => r.recordOutcome outcome latencyMs tsNs

/-- The outcome a call records. -/
def RouterCall.sample : RouterCall → List Sample
  | .recordOutcome outcome latencyMs _ => [⟨outcome, latencyMs⟩]
  | _ => []

/-- A router, and the outcomes recorded since its active slot last became active. -/
structure Watched where
  router : BrokerRouter
  fresh : List Sample

/-- One call, watched. -/
def watchStep (w : Watched) (call : RouterCall) : Option FailoverEvent × Watched :=
  let (event, router) := routerStep w.router call
  (event, ⟨router, if router.active = w.router.active then w.fresh ++ call.sample else []⟩)

/-- A new router after a sequence of calls. -/
def watched (primaryId backupId : BrokerId) (thresholds : FailoverThresholds)
    (calls : List RouterCall) : Watched :=
  runState watchStep ⟨.new primaryId backupId thresholds, []⟩ calls

/-- What a failover rests on: enough outcomes since the slot it leaves became active, this call's
included, and the statistics of the last of them. -/
structure FreshEvidence (w : Watched) (sample : Sample) (event : FailoverEvent) : Prop where
  source : event.source = w.router.activeId
  enough : max 1 w.router.thresholds.minSamples.toNat ≤ (w.fresh ++ [sample]).length
  errorRate : event.errorRateBps
    = (AdapterStats.ofLog (lastN windowSize (w.fresh ++ [sample]))).errorRateBps
  p99Latency : event.p99LatencyMs
    = (AdapterStats.ofLog (lastN windowSize (w.fresh ++ [sample]))).p99LatencyMs

/-- A hint or a fail-back that changes the active slot turns to one with an empty window. -/
def TurnsToEmpty (r : BrokerRouter) : RouterCall → Prop
  | .pickForIntent hint => (r.pickForIntent hint).1 ≠ r.active →
    (r.statsOf (r.pickForIntent hint).1).samples = []
  | .forcePrimary => .primary ≠ r.active → (r.statsOf .primary).samples = []
  | .recordOutcome _ _ _ => True

/-! ## Fresh windows -/

/-- The window of the active slot holds the fresh outcomes and no others. -/
structure Fair (w : Watched) : Prop where
  capacity : ∀ slot, (w.router.statsOf slot).capacity = windowSize
  holds : ∀ slot, ∃ log, (w.router.statsOf slot).Holds log
  active : (w.router.statsOf w.router.active).Holds w.fresh

theorem fair_new (primaryId backupId : BrokerId) (thresholds : FailoverThresholds) :
    Fair ⟨.new primaryId backupId thresholds, []⟩ := by
  refine ⟨fun slot => ?_, fun slot => ⟨[], ?_⟩, AdapterStats.holds_withCapacity windowSize⟩
  · cases slot <;> rfl
  · cases slot <;> exact AdapterStats.holds_withCapacity windowSize

section Step

variable {w : Watched}

theorem Fair.capacity_pos (h : Fair w) (slot : ActiveSlot) :
    0 < (w.router.statsOf slot).capacity := by
  rw [h.capacity]
  decide

/-- Turning to another slot with an empty window keeps the windows fair. -/
theorem Fair.turn (h : Fair w) (slot : ActiveSlot)
    (hempty : slot ≠ w.router.active → (w.router.statsOf slot).samples = []) :
    Fair ⟨{ w.router with active := slot }, if slot = w.router.active then w.fresh else []⟩ := by
  have hstats : ∀ slot', ({ w.router with active := slot } : BrokerRouter).statsOf slot'
      = w.router.statsOf slot' := by
    intro slot'
    cases slot' <;> rfl
  refine ⟨fun slot' => ?_, fun slot' => ?_, ?_⟩
  · rw [hstats]
    exact h.capacity slot'
  · obtain ⟨log, hlog⟩ := h.holds slot'
    exact ⟨log, by rwa [hstats]⟩
  · dsimp only
    rw [hstats]
    split_ifs with hslot
    · rw [hslot]
      exact h.active
    · obtain ⟨log, hlog⟩ := h.holds slot
      exact hlog.of_samples_nil (h.capacity_pos slot) (hempty hslot)

/-- Noting an outcome in the active window keeps the windows fair. -/
theorem Fair.note (h : Fair w) (outcome : Outcome) (latencyMs : UInt32) :
    Fair ⟨w.router.setStats w.router.active
        ((w.router.statsOf w.router.active).record outcome latencyMs),
      w.fresh ++ [⟨outcome, latencyMs⟩]⟩ := by
  have hrecord := h.active.record (h.capacity_pos _) outcome latencyMs
  refine ⟨fun slot => ?_, fun slot => ?_, ?_⟩
  · dsimp only
    rcases w.router.active.eq_or_eq_other slot with rfl | rfl
    · rw [BrokerRouter.statsOf_setStats, AdapterStats.capacity_record]
      exact h.capacity _
    · rw [BrokerRouter.statsOf_setStats_other]
      exact h.capacity _
  · dsimp only
    rcases w.router.active.eq_or_eq_other slot with rfl | rfl
    · rw [BrokerRouter.statsOf_setStats]
      exact ⟨_, hrecord⟩
    · rw [BrokerRouter.statsOf_setStats_other]
      exact h.holds _
  · dsimp only
    rw [BrokerRouter.active_setStats, BrokerRouter.statsOf_setStats]
    exact hrecord

/-- A failover keeps the windows fair. -/
theorem Fair.switched (h : Fair w) : Fair ⟨w.router.switched, []⟩ := by
  refine ⟨fun slot => ?_, fun slot => ?_, ?_⟩
  · dsimp only
    rcases w.router.active.eq_or_eq_other slot with rfl | rfl
    · rw [BrokerRouter.statsOf_switched]
      exact h.capacity _
    · rw [BrokerRouter.statsOf_switched_other]
      exact h.capacity _
  · dsimp only
    rcases w.router.active.eq_or_eq_other slot with rfl | rfl
    · rw [BrokerRouter.statsOf_switched]
      exact h.holds _
    · rw [BrokerRouter.statsOf_switched_other]
      exact ⟨[], AdapterStats.holds_reset _⟩
  · dsimp only
    rw [BrokerRouter.active_switched, BrokerRouter.statsOf_switched_other]
    exact AdapterStats.holds_reset _

theorem Fair.step (h : Fair w) {call : RouterCall} (hcall : TurnsToEmpty w.router call) :
    Fair (watchStep w call).2 := by
  cases call with
  | pickForIntent hint =>
    have hturn := h.turn _ hcall
    simpa [watchStep, routerStep, RouterCall.sample, BrokerRouter.pickForIntent_snd] using hturn
  | forcePrimary =>
    have hturn := h.turn .primary hcall
    simpa [watchStep, routerStep, RouterCall.sample, BrokerRouter.forcePrimary] using hturn
  | recordOutcome outcome latencyMs tsNs =>
    have hnote := h.note outcome latencyMs
    cases hbreach : w.router.breaches
        ((w.router.statsOf w.router.active).record outcome latencyMs) with
    | false =>
      simpa [watchStep, routerStep, RouterCall.sample,
        BrokerRouter.recordOutcome_of_not_breaches hbreach] using hnote
    | true =>
      have hother := (ActiveSlot.ne_other w.router.active).symm
      simpa [watchStep, routerStep, BrokerRouter.recordOutcome_of_breaches hbreach,
        BrokerRouter.active_switched, hother] using hnote.switched

/-- In a fair state a failover rests on the fresh outcomes. -/
theorem Fair.freshEvidence (h : Fair w) {outcome : Outcome} {latencyMs : UInt32} {tsNs : UInt64}
    {event : FailoverEvent}
    (hevent : (w.router.recordOutcome outcome latencyMs tsNs).1 = some event) :
    FreshEvidence w ⟨outcome, latencyMs⟩ event := by
  have hrecord := h.active.record (h.capacity_pos _) outcome latencyMs
  generalize hstats : (w.router.statsOf w.router.active).record outcome latencyMs = stats at hrecord
  have hcap : stats.capacity = windowSize := by
    rw [← hstats, AdapterStats.capacity_record]
    exact h.capacity _
  have hperm : stats.samples.Perm (lastN windowSize (w.fresh ++ [⟨outcome, latencyMs⟩])) := by
    rw [← hcap, ← hrecord.samples]
    exact (List.rotate_perm _ _).symm
  cases hbreach : w.router.breaches stats with
  | false =>
    rw [← hstats] at hbreach
    rw [BrokerRouter.recordOutcome_of_not_breaches hbreach] at hevent
    cases hevent
  | true =>
    have hfew : ¬ UInt32.ofNat stats.windowLen < w.router.thresholds.minSamples := by
      have hboth := Bool.and_eq_true_iff.mp hbreach
      simpa using hboth.1
    rw [← hstats] at hbreach
    rw [BrokerRouter.recordOutcome_of_breaches hbreach, hstats] at hevent
    cases hevent
    refine ⟨rfl, ?_, AdapterStats.errorRateBps_congr hperm, AdapterStats.p99LatencyMs_congr hperm⟩
    have hlen := hrecord.length_samples
    have hwindow : windowSize = 64 := rfl
    rw [UInt32.lt_iff_toNat_lt, UInt32.toNat_ofNat', AdapterStats.windowLen, hlen, hcap] at hfew
    rw [List.length_append, List.length_singleton] at hfew ⊢
    omega

end Step

/-- For every sequence of calls on a new router in which a hint and a fail-back only turn to a slot
with an empty window: each failover rests on at least `max(1, min_samples)` outcomes recorded since
the slot it leaves became active, and its figures are those of the last 64 of them. -/
theorem failover_fresh (primaryId backupId : BrokerId) (thresholds : FailoverThresholds)
    (calls : List RouterCall)
    (hturns : ∀ pre call post, calls = pre ++ call :: post →
      TurnsToEmpty (watched primaryId backupId thresholds pre).router call) :
    ∀ pre outcome latencyMs tsNs post event,
      calls = pre ++ .recordOutcome outcome latencyMs tsNs :: post →
      ((watched primaryId backupId thresholds pre).router.recordOutcome outcome latencyMs tsNs).1
        = some event →
      FreshEvidence (watched primaryId backupId thresholds pre) ⟨outcome, latencyMs⟩ event := by
  intro pre outcome latencyMs tsNs post event hcalls hevent
  have hfair : Fair (watched primaryId backupId thresholds pre) :=
    runState_invariant_split watchStep Fair (fun _ _ hprev hturn => hprev.step hturn)
      (fair_new _ _ _) hturns pre (.recordOutcome outcome latencyMs tsNs :: post) hcalls
  exact hfair.freshEvidence hevent

/-- A hint turns to the backup, whose window is empty; one failure there makes the router switch. -/
theorem failover_fresh_after_hint :
    let calls : List RouterCall := [.pickForIntent (some .dhan), .recordOutcome .failure 10 1]
    ∃ event,
      ((watched .zerodha .dhan ⟨5000, 1000, 1⟩ [.pickForIntent (some .dhan)]).router.recordOutcome
        .failure 10 1).1 = some event ∧
      (∀ pre call post, calls = pre ++ call :: post →
        TurnsToEmpty (watched .zerodha .dhan ⟨5000, 1000, 1⟩ pre).router call) ∧
      FreshEvidence (watched .zerodha .dhan ⟨5000, 1000, 1⟩ [.pickForIntent (some .dhan)])
        ⟨.failure, 10⟩ event := by
  intro calls
  have hturns : ∀ pre call post, calls = pre ++ call :: post →
      TurnsToEmpty (watched .zerodha .dhan ⟨5000, 1000, 1⟩ pre).router call :=
    forall_split_cons (fun _ => rfl) (forall_split_cons trivial forall_split_nil)
  refine ⟨⟨.dhan, .zerodha, 10000, 10, 1⟩, by decide +kernel, hturns, ?_⟩
  exact failover_fresh .zerodha .dhan ⟨5000, 1000, 1⟩ calls hturns _ _ _ _ [] _ rfl
    (by decide +kernel)

/-- Four failures, a failover and a fail-back: the first success after it makes the router switch
again, on four outcomes recorded before. -/
theorem failover_on_stale_window :
    ¬ ∀ (primaryId backupId : BrokerId) (thresholds : FailoverThresholds) (calls : List RouterCall)
      (pre : List RouterCall) (outcome : Outcome) (latencyMs : UInt32) (tsNs : UInt64)
      (post : List RouterCall) (event : FailoverEvent),
      calls = pre ++ .recordOutcome outcome latencyMs tsNs :: post →
      ((watched primaryId backupId thresholds pre).router.recordOutcome outcome latencyMs tsNs).1
        = some event →
      FreshEvidence (watched primaryId backupId thresholds pre) ⟨outcome, latencyMs⟩ event := by
  intro h
  have hfresh := h .zerodha .dhan ⟨5000, 1000, 4⟩ _
    (List.replicate 4 (.recordOutcome .failure 10 1) ++ [.forcePrimary]) .success 10 2 []
    ⟨.zerodha, .dhan, 8000, 10, 2⟩ rfl (by decide +kernel)
  exact absurd hfresh.enough (by decide +kernel)

end Hedge.Exec
