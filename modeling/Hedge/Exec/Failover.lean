import Hedge.Exec.Authority
import Hedge.Exec.Failure

/-!
# Failover under persistent failure

Reference: `record_outcome` in `hedge-exec/src/router.rs`, `handle_submit_err` in
`hedge-exec/src/engine.rs`.

A router that starts with an empty window switches as soon as the window holds enough failures. A
failed call puts one into the window only if the error it surfaces counts toward failover, and an
error that was retried until the budget was used up surfaces as `RetryExhausted`, which does not. So
a broker that only ever times out is never left: `failover_iff` says which runs of failing calls do
switch in time.
-/

namespace Hedge.Exec

open Hedge.Common Hedge.Risk Hedge.BrokerApi

/-! ## A window of failures -/

/-- The sample of a failed call. -/
def failureSample : Sample := ⟨.failure, 4294967295⟩

/-- A window that holds `n` failures and nothing else. -/
def failureWindow (n : ℕ) : AdapterStats := ⟨windowSize, List.replicate n failureSample, 0⟩

theorem record_failureWindow {n : ℕ} (h : n < windowSize) :
    (failureWindow n).record .failure 4294967295 = failureWindow (n + 1) := by
  have hlen : (failureWindow n).samples.length < (failureWindow n).capacity := by
    rw [failureWindow, List.length_replicate]
    exact h
  rw [AdapterStats.record, if_pos hlen, failureWindow, failureWindow, List.replicate_succ']
  rfl

/-- Only failures are an error rate of one hundred percent. -/
theorem errorRateBps_failureWindow (n : ℕ) : (failureWindow (n + 1)).errorRateBps = 10000 := by
  have hcount : (List.replicate (n + 1) failureSample).countP
      (fun x => decide (x.outcome = .failure)) = n + 1 := by
    rw [List.countP_replicate, if_pos (by decide)]
  have hrate : (n + 1) * 10000 / (n + 1) = 10000 := Nat.mul_div_cancel_left _ (Nat.succ_pos n)
  simp only [AdapterStats.errorRateBps, failureWindow, hcount, List.length_replicate, hrate]
  rfl

section Router

variable {r : BrokerRouter} {n : ℕ}

theorem ofNat_windowLen_lt_iff (hn : n < windowSize) (m : UInt32) :
    UInt32.ofNat (failureWindow (n + 1)).windowLen < m ↔ n + 1 < m.toNat := by
  have hlen : (failureWindow (n + 1)).windowLen = n + 1 := List.length_replicate
  have hsmall : (n + 1) % 2 ^ 32 = n + 1 := by
    unfold windowSize at hn
    omega
  rw [hlen, UInt32.lt_iff_toNat_lt, UInt32.toNat_ofNat', hsmall]

theorem breaches_failureWindow (hn : n < windowSize) (hrate : r.thresholds.errorRateBps ≤ 10000) :
    r.breaches (failureWindow (n + 1)) = true ↔ r.thresholds.minSamples.toNat ≤ n + 1 := by
  unfold BrokerRouter.breaches
  rw [errorRateBps_failureWindow, decide_eq_true hrate, Bool.true_or, Bool.and_true,
    Bool.not_eq_true', decide_eq_false_iff_not, ofNat_windowLen_lt_iff hn, Nat.not_lt]

/-- Below the minimum the router only notes the failure. -/
theorem recordOutcome_of_few (hwindow : r.statsOf r.active = failureWindow n)
    (hn : n < windowSize) (hrate : r.thresholds.errorRateBps ≤ 10000)
    (hfew : n + 1 < r.thresholds.minSamples.toNat) (tsNs : UInt64) :
    (r.recordOutcome .failure 4294967295 tsNs).2 = r.setStats r.active (failureWindow (n + 1)) := by
  have hrecord : (r.statsOf r.active).record .failure 4294967295 = failureWindow (n + 1) := by
    rw [hwindow, record_failureWindow hn]
  have hcalm : r.breaches ((r.statsOf r.active).record .failure 4294967295) = false := by
    rw [hrecord, ← Bool.not_eq_true, breaches_failureWindow hn hrate]
    omega
  rw [BrokerRouter.recordOutcome_of_not_breaches hcalm, hrecord]

/-- With enough failures it switches. -/
theorem recordOutcome_of_enough (hwindow : r.statsOf r.active = failureWindow n)
    (hn : n < windowSize) (hrate : r.thresholds.errorRateBps ≤ 10000)
    (henough : r.thresholds.minSamples.toNat ≤ n + 1) (tsNs : UInt64) :
    (r.recordOutcome .failure 4294967295 tsNs).2.active = r.active.other := by
  have hbreach : r.breaches ((r.statsOf r.active).record .failure 4294967295) = true := by
    rw [hwindow, record_failureWindow hn, breaches_failureWindow hn hrate]
    exact henough
  rw [BrokerRouter.recordOutcome_of_breaches hbreach, BrokerRouter.active_switched,
    BrokerRouter.active_setStats]

end Router

/-! ## Failing calls -/

/-- A run of submit calls. -/
abbrev submitStep (mac : Mac) (eng : ExecutionEngine) (st : ExecutionState)
    (c : SubmitCall × SubmitEnv) : SubmitOutcome × ExecutionState :=
  submit mac eng st c.1 c.2

/-- Every attempt the call makes fails with an error that counts toward failover. -/
def AttemptsFail (out : SubmitOutcome) : Prop :=
  ∀ contact ∈ out.contacts, ∃ err, contact.reaction.reply = .error err ∧
    err.countsTowardFailover = true

/-- The call reaches the broker, and one of the replies within its budget is not retried. -/
def Refused (eng : ExecutionEngine) (c : SubmitCall × SubmitEnv) : Prop :=
  Translatable c.1.intent ∧ ∃ k, 1 ≤ k ∧ k ≤ eng.retryPolicy.budget ∧ ¬ RetriedAfter c.2 k

section Step

variable {mac : Mac} {eng : ExecutionEngine} {st : ExecutionState} {c : SubmitCall × SubmitEnv}

/-- A broker that never accepts fails every attempt. -/
theorem attemptsFail_of_react (h : ∀ k, ∃ err, (c.2.react k).reply = .error err ∧
    err.countsTowardFailover = true) : AttemptsFail (submitStep mac eng st c).1 := by
  intro contact hcontact
  obtain ⟨-, intent, -, hmem⟩ := contact_inv hcontact
  obtain ⟨k, -, -, rfl⟩ := mem_attemptContacts.mp hmem
  exact h k

/-- The last attempt of a failing call: its error counts, and it is retryable unless a reply within
the budget was not. -/
theorem finalReply_of_attemptsFail (h : Admitted mac eng st c.1)
    (hfail : AttemptsFail (submitStep mac eng st c).1) {intent : BrokerApi.OrderIntent}
    (ht : translateIntent c.1.intent c.1.sizedQuantity = .ok intent) :
    ∃ berr, finalReply eng st.router.activeId c.2 = .error berr ∧
      berr.countsTowardFailover = true ∧
      (berr.isRetryable = false ↔
        ∃ k, 1 ≤ k ∧ k ≤ eng.retryPolicy.budget ∧ ¬ RetriedAfter c.2 k) := by
  have hmem : (⟨st.router.active, intent,
        finalAttempt eng.retryPolicy (submitOp st.router.activeId c.2),
        c.2.react (finalAttempt eng.retryPolicy (submitOp st.router.activeId c.2))⟩ : BrokerContact)
      ∈ (submitStep mac eng st c).1.contacts := by
    rw [submitStep, submit_contacts h ht, mem_attemptContacts]
    exact ⟨_, one_le_finalAttempt _ _, le_rfl, rfl⟩
  obtain ⟨berr, hreply, hcounts⟩ := hfail _ hmem
  refine ⟨berr, hreply, hcounts, ?_⟩
  have hsettles : settles (submitOp st.router.activeId c.2)
      (finalAttempt eng.retryPolicy (submitOp st.router.activeId c.2)) = true ↔
        berr.isRetryable = false := by
    unfold settles
    rw [submitOp, hreply]
    exact Bool.not_eq_true' berr.isRetryable ▸ Iff.rfl
  rw [← hsettles, finalAttempt, settles_lastAttempt_iff]
  have hbudget : 1 + (eng.retryPolicy.budget - 1) = eng.retryPolicy.budget := by
    have hone : 1 ≤ eng.retryPolicy.budget := le_max_right _ _
    omega
  simp only [hbudget, ← settles_submitOp_eq_false_iff (b := st.router.activeId),
    Bool.not_eq_false]

/-- A refused call puts one failure into the router's window. -/
theorem router_of_refused (h : Admitted mac eng st c.1)
    (hfail : AttemptsFail (submitStep mac eng st c).1) (hrefused : Refused eng c) :
    (submitStep mac eng st c).2.router
      = (st.router.recordOutcome .failure 4294967295 c.2.submitNowNs).2 := by
  obtain ⟨htrans, hsettled⟩ := hrefused
  obtain ⟨intent, ht⟩ := (translatable_iff (q := c.1.sizedQuantity)).mp htrans
  obtain ⟨berr, hreply, hcounts, hretry⟩ := finalReply_of_attemptsFail h hfail ht
  have hsurfaced : (surfacedError eng st.router.activeId c.2 berr).countsTowardFailover = true := by
    rw [surfacedError, if_neg (by rw [hretry.mpr hsettled]; exact Bool.false_ne_true)]
    exact hcounts
  have hdrive := driveSubmit_of_error (st.install c.1) c.1.cid st.router.active intent hreply
  rw [submitStep, submit_of_translated c.2 h ht, hdrive.2.2, router_handleSubmitErr,
    if_pos hsurfaced]
  rfl

/-- Any other failing call leaves the router as it is. -/
theorem router_of_not_refused (h : Admitted mac eng st c.1)
    (hfail : AttemptsFail (submitStep mac eng st c).1) (hrefused : ¬ Refused eng c) :
    (submitStep mac eng st c).2.router = st.router := by
  cases ht : translateIntent c.1.intent c.1.sizedQuantity with
  | error reason =>
    rw [submitStep, submit_of_untranslatable c.2 h ht]
    rfl
  | ok intent =>
    obtain ⟨berr, hreply, -, hretry⟩ := finalReply_of_attemptsFail h hfail ht
    have htrans : Translatable c.1.intent := translatable_iff.mpr ⟨intent, ht⟩
    have hretryable : berr.isRetryable = true := by
      rw [← Bool.not_eq_false, hretry]
      exact fun hsettled => hrefused ⟨htrans, hsettled⟩
    have hsurfaced :
        ¬ (surfacedError eng st.router.activeId c.2 berr).countsTowardFailover = true := by
      rw [surfacedError, if_pos hretryable]
      exact Bool.false_ne_true
    have hdrive := driveSubmit_of_error (st.install c.1) c.1.cid st.router.active intent hreply
    rw [submitStep, submit_of_translated c.2 h ht, hdrive.2.2, router_handleSubmitErr,
      if_neg hsurfaced]
    rfl

end Step

/-! ## Runs of failing calls -/

/-- The calls carry valid tokens that were never used, and every attempt they make fails. -/
structure FailingRun (mac : Mac) (eng : ExecutionEngine) (st : ExecutionState)
    (calls : List (SubmitCall × SubmitEnv)) : Prop where
  verified : ∀ c ∈ calls, verify mac eng.verifierKey c.1.token c.1.approval = true
  unused : ∀ c ∈ calls, c.1.token ∉ st.consumedTokens
  distinct : (calls.map fun c => c.1.token).Nodup
  fails : ∀ pre c post, calls = pre ++ c :: post →
    AttemptsFail (submitStep mac eng (runState (submitStep mac eng) st pre) c).1

/-- The window of the active slot `slot` holds `n` failures. -/
structure Failed (st : ExecutionState) (slot : ActiveSlot) (thresholds : FailoverThresholds)
    (n : ℕ) : Prop where
  active : st.router.active = slot
  thresholds : st.router.thresholds = thresholds
  window : st.router.statsOf slot = failureWindow n

section Run

variable {mac : Mac} {eng : ExecutionEngine} {st : ExecutionState} {c : SubmitCall × SubmitEnv}
  {calls : List (SubmitCall × SubmitEnv)} {slot : ActiveSlot} {thresholds : FailoverThresholds}
  {n : ℕ}

theorem FailingRun.admitted (h : FailingRun mac eng st (c :: calls)) : Admitted mac eng st c.1 :=
  ⟨h.verified c List.mem_cons_self, h.unused c List.mem_cons_self⟩

theorem FailingRun.head_fails (h : FailingRun mac eng st (c :: calls)) :
    AttemptsFail (submitStep mac eng st c).1 :=
  h.fails [] c calls rfl

theorem FailingRun.tail (h : FailingRun mac eng st (c :: calls)) :
    FailingRun mac eng (submitStep mac eng st c).2 calls := by
  have hdistinct := List.nodup_cons.mp h.distinct
  refine ⟨fun d hd => h.verified d (List.mem_cons_of_mem _ hd), ?_, hdistinct.2, ?_⟩
  · intro d hd hused
    rw [submitStep, submit_consumedTokens h.admitted, Finset.mem_insert] at hused
    rcases hused with heq | hused
    · exact hdistinct.1 (List.mem_map.mpr ⟨d, hd, heq⟩)
    · exact h.unused d (List.mem_cons_of_mem _ hd) hused
  · intro pre d post hsplit
    exact h.fails (c :: pre) d post (by rw [hsplit]; rfl)

/-- A call that is not refused leaves the window as it is. -/
theorem Failed.step_of_not_refused (hf : Failed st slot thresholds n)
    (h : FailingRun mac eng st (c :: calls)) (hrefused : ¬ Refused eng c) :
    Failed (submitStep mac eng st c).2 slot thresholds n := by
  have hrouter := router_of_not_refused h.admitted h.head_fails hrefused
  exact ⟨by rw [hrouter, hf.active], by rw [hrouter, hf.thresholds], by rw [hrouter, hf.window]⟩

/-- A refused call below the minimum adds one failure to the window. -/
theorem Failed.step_of_refused (hf : Failed st slot thresholds n)
    (h : FailingRun mac eng st (c :: calls)) (hrefused : Refused eng c) (hn : n < windowSize)
    (hrate : thresholds.errorRateBps ≤ 10000) (hfew : n + 1 < thresholds.minSamples.toNat) :
    Failed (submitStep mac eng st c).2 slot thresholds (n + 1) := by
  obtain ⟨rfl, rfl, hwindow⟩ := hf
  have hrouter := router_of_refused h.admitted h.head_fails hrefused
  rw [recordOutcome_of_few hwindow hn hrate hfew] at hrouter
  refine ⟨?_, ?_, ?_⟩
  · rw [hrouter, BrokerRouter.active_setStats]
  · rw [hrouter, BrokerRouter.thresholds_setStats]
  · rw [hrouter, BrokerRouter.statsOf_setStats]

/-- Too few calls never make the router switch. -/
theorem active_of_few (hf : Failed st slot thresholds n) (h : FailingRun mac eng st calls)
    (hrate : thresholds.errorRateBps ≤ 10000) (hmin : thresholds.minSamples.toNat ≤ windowSize)
    (hfew : n + calls.length < max 1 thresholds.minSamples.toNat) :
    ∀ pre post, calls = pre ++ post →
      (runState (submitStep mac eng) st pre).router.active = slot := by
  induction calls generalizing st n with
  | nil =>
    intro pre post hsplit
    obtain ⟨rfl, -⟩ := List.append_eq_nil_iff.mp hsplit.symm
    exact hf.active
  | cons c calls ih =>
    intro pre post hsplit
    rw [List.length_cons] at hfew
    cases pre with
    | nil => exact hf.active
    | cons d pre =>
      obtain ⟨rfl, hrest⟩ := List.cons_eq_cons.mp hsplit
      rw [runState_cons]
      by_cases hrefused : Refused eng c
      · have hstep := hf.step_of_refused h hrefused (by omega) hrate (by omega)
        exact ih hstep h.tail (by omega) pre post hrest
      · have hstep := hf.step_of_not_refused h hrefused
        exact ih hstep h.tail (by omega) pre post hrest

/-- As many calls as the minimum make the router switch exactly when all of them are refused. -/
theorem switches_iff_of_exactly (hf : Failed st slot thresholds n)
    (h : FailingRun mac eng st calls) (hrate : thresholds.errorRateBps ≤ 10000)
    (hmin : thresholds.minSamples.toNat ≤ windowSize)
    (hexactly : n + calls.length = max 1 thresholds.minSamples.toNat) (hcalls : calls ≠ []) :
    (∃ pre post, calls = pre ++ post ∧
      (runState (submitStep mac eng) st pre).router.active = slot.other) ↔
    ∀ c ∈ calls, Refused eng c := by
  induction calls generalizing st n with
  | nil => exact absurd rfl hcalls
  | cons c calls ih =>
    rw [List.length_cons] at hexactly
    by_cases hrefused : Refused eng c
    · by_cases hlast : calls = []
      · subst hlast
        rw [List.length_nil] at hexactly
        -- the last call fills the count that the thresholds ask for
        have hswitch : (submitStep mac eng st c).2.router.active = slot.other := by
          obtain ⟨rfl, rfl, hwindow⟩ := hf
          rw [router_of_refused h.admitted h.head_fails hrefused]
          have hpos : 1 ≤ windowSize := by decide
          exact recordOutcome_of_enough hwindow (by omega) hrate (by omega) _
        refine iff_of_true ⟨[c], [], rfl, hswitch⟩ ?_
        intro d hd
        rw [List.mem_singleton.mp hd]
        exact hrefused
      · have hpos : 0 < calls.length := List.length_pos_iff.mpr hlast
        have hstep := hf.step_of_refused h hrefused (by omega) hrate (by omega)
        have hrest := ih hstep h.tail (by omega) hlast
        rw [List.forall_mem_cons, and_iff_right hrefused, ← hrest]
        constructor
        · rintro ⟨pre, post, hsplit, hactive⟩
          cases pre with
          | nil => exact absurd (hf.active.symm.trans hactive) slot.ne_other
          | cons d pre =>
            obtain ⟨rfl, hrest'⟩ := List.cons_eq_cons.mp hsplit
            exact ⟨pre, post, hrest', hactive⟩
        · rintro ⟨pre, post, hsplit, hactive⟩
          exact ⟨c :: pre, post, by rw [hsplit]; rfl, hactive⟩
    · refine iff_of_false ?_ fun hall => hrefused (hall c List.mem_cons_self)
      rintro ⟨pre, post, hsplit, hactive⟩
      cases pre with
      | nil => exact slot.ne_other (hf.active.symm.trans hactive)
      | cons d pre =>
        obtain ⟨rfl, hrest⟩ := List.cons_eq_cons.mp hsplit
        -- one call that is not refused leaves the count short to the end
        have hstep := hf.step_of_not_refused h hrefused
        have hstays := active_of_few hstep h.tail hrate hmin (by omega) pre post hrest
        exact slot.ne_other (hstays.symm.trans hactive)

end Run

/-- On a fresh engine, `max(1, min_samples)` calls whose attempts all fail make the router switch
exactly when each of them reaches the broker and gets a reply within its budget that is not retried.
-/
theorem failover_iff (mac : Mac) (eng : ExecutionEngine) (primaryId backupId : BrokerId)
    (thresholds : FailoverThresholds) (calls : List (SubmitCall × SubmitEnv))
    (hrate : thresholds.errorRateBps ≤ 10000) (hmin : thresholds.minSamples ≤ 64)
    (hcalls : FailingRun mac eng (.new (.new primaryId backupId thresholds)) calls)
    (hlength : calls.length = max 1 thresholds.minSamples.toNat) :
    (∃ pre post, calls = pre ++ post ∧
      (runState (submitStep mac eng) (.new (.new primaryId backupId thresholds)) pre).router.active
        = .backup) ↔
    ∀ c ∈ calls, Refused eng c := by
  have hfresh : Failed (.new (.new primaryId backupId thresholds)) .primary thresholds 0 :=
    ⟨rfl, rfl, rfl⟩
  have hne : calls ≠ [] := by
    rintro rfl
    rw [List.length_nil] at hlength
    omega
  exact switches_iff_of_exactly hfresh hcalls hrate (UInt32.le_iff_toNat_le.mp hmin) (by omega) hne

/-- A broker that answers every attempt with the same error. -/
def downEnv (err : BrokerError) : SubmitEnv := ⟨fun _ => .refuse err, fun _ => .fin 0, 0, 0, 0⟩

/-- One call to a broker that is down makes a failing run, if the error counts. -/
theorem failingRun_down (thresholds : FailoverThresholds) (err : BrokerError)
    (hcounts : err.countsTowardFailover = true) :
    FailingRun tailMac makeEngine (.new (.new .zerodha .dhan thresholds))
      [(mintedCall ⟨sampleIntent, 10, 1000, 1⟩, downEnv err)] := by
  have hverified : verify tailMac makeEngine.verifierKey
      (mintedCall ⟨sampleIntent, 10, 1000, 1⟩).token
      (mintedCall ⟨sampleIntent, 10, 1000, 1⟩).approval = true := by decide +kernel
  refine ⟨?_, fun c _ => Finset.notMem_empty _, List.nodup_singleton _, ?_⟩
  · intro c hc
    rw [List.mem_singleton.mp hc]
    exact hverified
  · refine forall_split_cons ?_ forall_split_nil
    exact attemptsFail_of_react fun _ => ⟨err, rfl, hcounts⟩

/-- With a minimum of one sample, one rejected order makes the router switch. -/
theorem failover_after_rejection :
    ∃ pre post, [(mintedCall ⟨sampleIntent, 10, 1000, 1⟩, downEnv (.rejected "halted"))]
        = pre ++ post ∧
      (runState (submitStep tailMac makeEngine)
        (.new (.new .zerodha .dhan ⟨5000, 100000, 1⟩)) pre).router.active = .backup := by
  refine (failover_iff tailMac makeEngine .zerodha .dhan ⟨5000, 100000, 1⟩ _ (by decide) (by decide)
    (failingRun_down _ _ rfl) rfl).mpr ?_
  intro c hc
  rw [List.mem_singleton.mp hc]
  refine ⟨⟨by decide +kernel, by decide +kernel, by decide +kernel⟩, 1, le_rfl, by decide, ?_⟩
  rintro ⟨err, hreply, hretry⟩
  cases hreply
  cases hretry

/-- A broker that never answers is not left. -/
theorem no_failover_after_timeout :
    FailingRun tailMac makeEngine (.new (.new .zerodha .dhan ⟨5000, 100000, 1⟩))
      [(mintedCall ⟨sampleIntent, 10, 1000, 1⟩, downEnv (.network "timed out"))] ∧
    ¬ ∃ pre post, [(mintedCall ⟨sampleIntent, 10, 1000, 1⟩, downEnv (.network "timed out"))]
        = pre ++ post ∧
      (runState (submitStep tailMac makeEngine)
        (.new (.new .zerodha .dhan ⟨5000, 100000, 1⟩)) pre).router.active = .backup := by
  have hrun := failingRun_down ⟨5000, 100000, 1⟩ (.network "timed out") rfl
  refine ⟨hrun, ?_⟩
  have hfresh : Failed (.new (.new .zerodha .dhan ⟨5000, 100000, 1⟩)) .primary
      ⟨5000, 100000, 1⟩ 0 := ⟨rfl, rfl, rfl⟩
  intro hswitch
  have hall := (switches_iff_of_exactly hfresh hrun (by decide) (by decide) rfl
    (List.cons_ne_nil _ _)).mp hswitch
  obtain ⟨-, k, -, -, hsettled⟩ := hall _ (List.mem_singleton.mpr rfl)
  exact hsettled ⟨.network "timed out", rfl, rfl⟩

end Hedge.Exec
