import Hedge.Exec.Submit

/-!
# Lost replies and failed submits

Reference: `submit` in `hedge-exec/src/engine.rs`, `retry_with_backoff` in
`hedge-exec/src/retry.rs`.

Two properties of one call. The retry loop sends the same request again after a retryable error and
has no way to tell a refused request from an accepted one whose reply was lost, so it can place two
orders. And a call that fails is meant to leave its order rejected and its latency reported; the
exit at a failed translation does neither.
-/

namespace Hedge.Exec

open Hedge.Common Hedge.Risk Hedge.BrokerApi

/-! ## Duplicate orders -/

/-- Orders the broker accepted. -/
def acceptedOrders (contacts : List BrokerContact) : ℕ :=
  contacts.countP fun c => c.reaction.accepted

/-- The reply to attempt `k` is an error that is retried. -/
def RetriedAfter (env : SubmitEnv) (k : ℕ) : Prop :=
  ∃ err, (env.react k).reply = .error err ∧ err.isRetryable = true

theorem settles_submitOp_eq_false_iff {b : BrokerId} {env : SubmitEnv} {k : ℕ} :
    settles (submitOp b env) k = false ↔ RetriedAfter env k := by
  unfold settles submitOp RetriedAfter
  cases (env.react k).reply <;> simp [ExecError.isRetryable]

/-- Attempt `j` is made exactly when the budget allows it and every earlier reply is retried. -/
theorem le_finalAttempt_iff {policy : RetryPolicy} {b : BrokerId} {env : SubmitEnv} {j : ℕ}
    (hj : 1 ≤ j) :
    j ≤ finalAttempt policy (submitOp b env) ↔
      j ≤ policy.budget ∧ ∀ k, 1 ≤ k → k < j → RetriedAfter env k := by
  have hbudget : 1 ≤ policy.budget := le_max_right _ _
  rw [finalAttempt, le_lastAttempt_iff hj]
  simp only [settles_submitOp_eq_false_iff]
  rw [show 1 + (policy.budget - 1) = policy.budget by omega]

/-- The broker accepts two attempts of the call: an earlier one whose reply is lost, and a later one
the loop still makes. -/
def AcceptedTwice (eng : ExecutionEngine) (env : SubmitEnv) : Prop :=
  ∃ i j, 1 ≤ i ∧ i < j ∧ j ≤ eng.retryPolicy.budget ∧ (env.react i).accepted = true ∧
    (env.react j).accepted = true ∧ ∀ k, 1 ≤ k → k < j → RetriedAfter env k

/-- One call with a valid unused token places at most one order exactly when its intent does not
translate or the broker does not accept two of its attempts. -/
theorem at_most_one_order_iff (mac : Mac) (eng : ExecutionEngine) (st : ExecutionState)
    (call : SubmitCall) (env : SubmitEnv) (h : Admitted mac eng st call) :
    acceptedOrders (submit mac eng st call env).1.contacts ≤ 1 ↔
      ¬ (Translatable call.intent ∧ AcceptedTwice eng env) := by
  rw [translatable_iff (q := call.sizedQuantity)]
  cases ht : translateIntent call.intent call.sizedQuantity with
  | error reason =>
    rw [submit_of_untranslatable env h ht]
    simp [acceptedOrders]
  | ok intent =>
    rw [submit_contacts h ht, acceptedOrders, attemptContacts, List.countP_map,
      countP_attempts_le_one_iff]
    constructor
    · rintro hone ⟨-, i, j, hi, hij, hj, hacci, haccj, hbefore⟩
      exact hone i j hi hij ((le_finalAttempt_iff (by omega)).mpr ⟨hj, hbefore⟩) ⟨hacci, haccj⟩
    · intro hnot i j hi hij hj hboth
      obtain ⟨hle, hbefore⟩ := (le_finalAttempt_iff (by omega)).mp hj
      exact hnot ⟨⟨intent, rfl⟩, i, j, hi, hij, hle, hboth.1, hboth.2, hbefore⟩

/-- The first reply is lost, the request goes out again, and the broker holds two orders. -/
theorem two_orders_after_lost_reply :
    Admitted tailMac makeEngine makeState (mintedCall ⟨sampleIntent, 10, 1000, 1⟩) ∧
      ¬ acceptedOrders (submit tailMac makeEngine makeState
        (mintedCall ⟨sampleIntent, 10, 1000, 1⟩)
        (scriptedEnv [.lose "connection reset", .ack ⟨"ORD-2", none⟩])).1.contacts ≤ 1 :=
  ⟨⟨by decide +kernel, by decide +kernel⟩, by decide +kernel⟩

/-- A refused first attempt and an acknowledged second one are one order. -/
theorem one_order_after_refusal :
    acceptedOrders (submit tailMac makeEngine makeState (mintedCall ⟨sampleIntent, 10, 1000, 1⟩)
      (scriptedEnv [.refuse (.transient "busy"), .ack ⟨"ORD-1", none⟩])).1.contacts ≤ 1 := by
  refine (at_most_one_order_iff _ _ _ _ _ ⟨by decide +kernel, by decide +kernel⟩).mpr ?_
  rintro ⟨-, i, j, hi, hij, hj, hacci, haccj, -⟩
  -- only the second attempt of this script is accepted
  have honly : ∀ k, 1 ≤ k → ((scriptedEnv [.refuse (.transient "busy"),
      .ack ⟨"ORD-1", none⟩]).react k).accepted = true → k = 2 := by
    intro k hk hacc
    match k, hk with
    | 1, _ => cases hacc
    | 2, _ => rfl
    | k + 3, _ => cases hacc
  have := honly i hi hacci
  have := honly j (by omega) haccj
  omega

/-! ## Clean failure -/

/-- If the call fails, the order has no tracker or a rejected one, and the routing latency of the
call was reported. -/
def FailsCleanly (mac : Mac) (eng : ExecutionEngine) (st : ExecutionState) (call : SubmitCall)
    (env : SubmitEnv) : Prop :=
  ∀ err, (submit mac eng st call env).1.result = .error err →
    (∀ t, (submit mac eng st call env).2.trackers.lookup call.cid = some t → t.state = .rejected) ∧
    ∃ r ∈ (submit mac eng st call env).1.latency,
      r.stage = Stage.executionRouting.asU8 ∧ r.correlationId = call.cid.toBeBytes

/-- A call with a valid unused token and a fresh correlation id fails cleanly, whatever the broker
does, exactly when its wire bytes translate. -/
theorem fails_cleanly_iff (mac : Mac) (eng : ExecutionEngine) (st : ExecutionState)
    (call : SubmitCall) (env : SubmitEnv) (h : Admitted mac eng st call)
    (hfresh : st.trackers.lookup call.cid = none) :
    FailsCleanly mac eng st call env ↔ Translatable call.intent := by
  have htracker : st.trackerFor call = .new call.cid st.router.activeId call.sizedQuantity := by
    simp [ExecutionState.trackerFor, hfresh]
  have hlook := lookup_install st call
  rw [htracker] at hlook
  rw [translatable_iff (q := call.sizedQuantity)]
  cases ht : translateIntent call.intent call.sizedQuantity with
  | error reason =>
    -- the early exit leaves the tracker in `New`
    refine ⟨fun hclean => ?_, fun hok => by simp at hok⟩
    have hsubmit := submit_of_untranslatable env h ht
    unfold FailsCleanly at hclean
    rw [hsubmit] at hclean
    have hstate := (hclean _ rfl).1 _ hlook
    cases hstate
  | ok intent =>
    refine ⟨fun _ => ⟨intent, rfl⟩, fun _ err herr => ?_⟩
    have hsubmit := submit_of_translated env h ht
    rw [hsubmit] at herr ⊢
    cases hreply : finalReply eng st.router.activeId env with
    | ok ack =>
      -- a fresh tracker takes the acknowledgement, so the call succeeds
      obtain ⟨events, st', hok, -⟩ := handleSubmitOk_of_new hlook rfl ack env.submitNowNs
      rw [(driveSubmit_of_ack _ _ _ _ hreply hok).1] at herr
      cases herr
    | error berr =>
      obtain ⟨-, hlat, hst⟩ := driveSubmit_of_error (st.install call) call.cid st.router.active
        intent hreply
      rw [hlat, hst]
      refine ⟨fun t hlookt => ?_, _, List.mem_singleton.mpr rfl, rfl, rfl⟩
      rw [lookup_handleSubmitErr hlook] at hlookt
      obtain rfl := Option.some.inj hlookt
      exact rejectTracker_of_new rfl _

/-- Order type two is no order type: the order stays `New` and no latency is reported. -/
theorem unclean_failure_of_unknown_order_type :
    let call := mintedCall ⟨{ sampleIntent with orderType := 2 }, 10, 1000, 1⟩
    Admitted tailMac makeEngine makeState call ∧ makeState.trackers.lookup call.cid = none ∧
      ¬ FailsCleanly tailMac makeEngine makeState call (scriptedEnv [.ack ⟨"ORD-1", none⟩]) := by
  refine ⟨⟨by decide +kernel, by decide +kernel⟩, by decide +kernel, fun h => ?_⟩
  obtain ⟨r, hr, -⟩ := (h (.internal "intent translation failed: unknown order_type discriminant")
    (by decide +kernel)).2
  revert hr
  have ht : translateIntent { sampleIntent with orderType := 2 } 10
      = .error "unknown order_type discriminant" := by decide +kernel
  rw [submit_of_untranslatable _ ⟨by decide +kernel, by decide +kernel⟩ ht]
  simp

/-- A market order refused by the broker fails cleanly. -/
theorem clean_failure_of_refusal :
    FailsCleanly tailMac makeEngine makeState (mintedCall ⟨sampleIntent, 10, 1000, 1⟩)
      (scriptedEnv [.refuse (.rejected "margin")]) :=
  (fails_cleanly_iff _ _ _ _ _ ⟨by decide +kernel, by decide +kernel⟩ (by decide +kernel)).mpr
    ⟨by decide +kernel, by decide +kernel, by decide +kernel⟩

end Hedge.Exec
