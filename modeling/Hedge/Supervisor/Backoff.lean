import Hedge.Common.Run
import Hedge.Supervisor.Detector

/-!
# Reconnect attempts

Reference: `classify_md_connection` in `hedge-supervisor/src/detector.rs`, `decide` in
`hedge-supervisor/src/policy.rs`.

The policy counts the disconnects of a source and never forgets them: a `reconnected` message is
dropped by the classifier, and nothing else calls `reset_backoff`. So the attempt of a reconnect is
the number of earlier disconnects of its source, up to the largest `u32`.
-/

namespace Hedge.Supervisor

open Hedge Hedge.Common

open PolicyConfig (attemptCount)

/-- A message on `md.connection.<source>` and the time it is classified. -/
structure MdMessage where
  payload : Json
  tsNs : UInt64

namespace MdMessage

/-- The status the message reports for a source. -/
def reports (message : MdMessage) (status source : String) : Bool :=
  match MdConnectionEvent.fromJson message.payload with
  | some ev => ev.status = status && ev.source = source
  | none => false

end MdMessage

/-- One message through the detector and the policy: the actions to actuate and the counters. -/
def mdStep (policy : PolicyConfig) (attempts : Attempts) (message : MdMessage) :
    List RecoveryAction × Attempts :=
  match classifyMdConnection message.payload with
  | none => ([], attempts)
  | some kind =>
    let (action, attempts) := policy.decide attempts ⟨kind, message.tsNs⟩
    ([action], attempts)

/-! ## Counting disconnects -/

/-- The disconnects of a source. -/
def disconnects (source : String) (messages : List MdMessage) : ℕ :=
  messages.countP (·.reports "disconnected" source)

/-- The disconnects of a source since its last `reconnected`. -/
def disconnectsSince (source : String) (messages : List MdMessage) : ℕ :=
  messages.foldl (fun n message =>
    if message.reports "reconnected" source then 0
    else if message.reports "disconnected" source then n + 1 else n) 0

theorem disconnectsSince_concat (source : String) (messages : List MdMessage)
    (message : MdMessage) :
    disconnectsSince source (messages ++ [message]) =
      if message.reports "reconnected" source then 0
      else if message.reports "disconnected" source then disconnectsSince source messages + 1
      else disconnectsSince source messages := by
  rw [disconnectsSince, List.foldl_append]
  rfl

theorem disconnects_concat (source : String) (messages : List MdMessage) (message : MdMessage) :
    disconnects source (messages ++ [message])
      = disconnects source messages + if message.reports "disconnected" source then 1 else 0 := by
  rw [disconnects, List.countP_append, List.countP_singleton]
  rfl

/-- A message reports one status. -/
theorem not_reports_of_reports {message : MdMessage} {source : String}
    (h : message.reports "reconnected" source = true) :
    message.reports "disconnected" source = false := by
  unfold MdMessage.reports at h ⊢
  cases hev : MdConnectionEvent.fromJson message.payload with
  | none => rfl
  | some ev =>
    rw [hev] at h
    simp only [Bool.and_eq_true, decide_eq_true_eq] at h
    simp [h.1]

theorem disconnectsSince_le (source : String) (messages : List MdMessage) :
    disconnectsSince source messages ≤ disconnects source messages := by
  induction messages using List.reverseRecOn with
  | nil => exact Nat.le_refl _
  | append_singleton messages message ih =>
    rw [disconnectsSince_concat, disconnects_concat]
    split_ifs <;> omega

/-- When the source has failed again after it came back, its first failure since then was met with
earlier ones on the count. -/
theorem exists_first_since {source : String} {messages : List MdMessage}
    (hpos : 0 < disconnectsSince source messages)
    (hlt : disconnectsSince source messages < disconnects source messages) :
    ∃ pre message post, messages = pre ++ message :: post ∧
      message.reports "disconnected" source = true ∧
      disconnectsSince source pre = 0 ∧ 0 < disconnects source pre := by
  induction messages using List.reverseRecOn with
  | nil => exact absurd hpos (Nat.lt_irrefl 0)
  | append_singleton messages message ih =>
    rw [disconnectsSince_concat] at hpos hlt
    rw [disconnects_concat] at hlt
    by_cases hback : message.reports "reconnected" source = true
    · rw [if_pos hback] at hpos
      exact absurd hpos (Nat.lt_irrefl 0)
    · rw [if_neg hback] at hpos hlt
      by_cases hdown : message.reports "disconnected" source = true
      · rw [if_pos hdown] at hlt
        rw [if_pos hdown] at hlt
        by_cases hfirst : disconnectsSince source messages = 0
        · exact ⟨messages, message, [], rfl, hdown, hfirst, by omega⟩
        · obtain ⟨pre, first, post, hsplit, h⟩ := ih (by omega) (by omega)
          exact ⟨pre, first, post ++ [message], by rw [hsplit]; simp, h⟩
      · rw [if_neg hdown] at hpos hlt
        rw [if_neg hdown] at hlt
        obtain ⟨pre, first, post, hsplit, h⟩ := ih hpos (by omega)
        exact ⟨pre, first, post ++ [message], by rw [hsplit]; simp, h⟩

/-- The source came back before it ever failed, if it came back at all. -/
def NeverCameBack (source : String) (messages : List MdMessage) : Prop :=
  ∀ pre message post, messages = pre ++ message :: post →
    message.reports "reconnected" source = true → disconnects source pre = 0

theorem disconnectsSince_eq_iff (source : String) (messages : List MdMessage) :
    disconnectsSince source messages = disconnects source messages ↔
      NeverCameBack source messages := by
  induction messages using List.reverseRecOn with
  | nil => exact iff_of_true rfl forall_split_nil
  | append_singleton messages message ih =>
    have hsplit : NeverCameBack source (messages ++ [message]) ↔ NeverCameBack source messages ∧
        (message.reports "reconnected" source = true → disconnects source messages = 0) :=
      forall_split_concat_iff
    have hle := disconnectsSince_le source messages
    rw [hsplit, ← ih, disconnectsSince_concat, disconnects_concat]
    by_cases hback : message.reports "reconnected" source = true
    · rw [if_pos hback, not_reports_of_reports hback, if_neg Bool.false_ne_true]
      simp only [hback, forall_const]
      omega
    · rw [if_neg hback]
      simp only [hback, Bool.false_eq_true, false_implies, and_true]
      split_ifs <;> omega

/-! ## What the policy counts -/

theorem classifyMdConnection_eq_some_iff {message : MdMessage} {kind : FailureKind} :
    classifyMdConnection message.payload = some kind ↔
      ∃ source, kind = .wsDisconnected source ∧ message.reports "disconnected" source = true := by
  unfold classifyMdConnection MdMessage.reports
  cases MdConnectionEvent.fromJson message.payload with
  | none => simp
  | some ev =>
    by_cases hstatus : ev.status = "disconnected"
    · simp only [Option.bind_some, hstatus, if_true, decide_true, Bool.true_and,
        decide_eq_true_eq, Option.some.injEq]
      constructor
      · rintro rfl
        exact ⟨ev.source, rfl, rfl⟩
      · rintro ⟨source, rfl, rfl⟩
        rfl
    · simp [hstatus]

/-- A message counts for the source whose disconnect it reports, and leads to its reconnect. -/
theorem mdStep_cases (policy : PolicyConfig) (attempts : Attempts) (message : MdMessage) :
    (∃ source, message.reports "disconnected" source = true ∧
      mdStep policy attempts message =
        ([⟨.reconnect source (policy.backoff.delayFor (attemptCount attempts source))
            (attemptCount attempts source), message.tsNs⟩],
          PolicyConfig.count attempts (.wsDisconnected source))) ∨
    ((∀ source, message.reports "disconnected" source = false) ∧
      mdStep policy attempts message = ([], attempts)) := by
  unfold mdStep
  cases hkind : classifyMdConnection message.payload with
  | none =>
    refine .inr ⟨fun source => Bool.eq_false_of_not_eq_true fun h => ?_, rfl⟩
    rw [classifyMdConnection_eq_some_iff.mpr ⟨source, rfl, h⟩] at hkind
    cases hkind
  | some kind =>
    obtain ⟨source, rfl, h⟩ := classifyMdConnection_eq_some_iff.mp hkind
    exact .inl ⟨source, h, rfl⟩

theorem reports_source_unique {message : MdMessage} {status source source' : String}
    (h : message.reports status source = true) (h' : message.reports status source' = true) :
    source = source' := by
  unfold MdMessage.reports at h h'
  cases hev : MdConnectionEvent.fromJson message.payload with
  | none =>
    rw [hev] at h
    cases h
  | some ev =>
    rw [hev] at h h'
    simp only [Bool.and_eq_true, decide_eq_true_eq] at h h'
    exact h.2.symm.trans h'.2

/-- The policy has counted every disconnect of the source, as far as the field goes. -/
theorem attemptCount_mdStep (policy : PolicyConfig) (messages : List MdMessage) (source : String) :
    (attemptCount (runState (mdStep policy) ∅ messages) source).toNat
      = min (disconnects source messages) (2 ^ 32 - 1) := by
  induction messages using List.reverseRecOn with
  | nil => rfl
  | append_singleton messages message ih =>
    rw [runState_append, runState_cons, runState_nil, disconnects_concat]
    rcases mdStep_cases policy (runState (mdStep policy) ∅ messages) message with
      ⟨source', hdown, hstep⟩ | ⟨hother, hstep⟩
    · rw [hstep]
      dsimp only
      rw [PolicyConfig.attemptCount_count]
      by_cases hsource : source' = source
      · subst hsource
        have hone : (1 : UInt32).toNat = 1 := rfl
        rw [if_pos rfl, if_pos hdown, UInt32.toNat_saturatingAdd, ih]
        omega
      · have hup : message.reports "disconnected" source = false :=
          Bool.eq_false_of_not_eq_true fun h => hsource (reports_source_unique hdown h)
        rw [if_neg (by simpa using hsource), ih, hup, if_neg Bool.false_ne_true, Nat.add_zero]
    · rw [hstep, hother source, if_neg Bool.false_ne_true, Nat.add_zero]
      exact ih

/-! ## Attempts and delays -/

/-- Every reconnect carries the number of disconnects of its source since the source last came back,
and the delay of that attempt. -/
def BackoffHolds (policy : PolicyConfig) (messages : List MdMessage) : Prop :=
  ∀ pre message post, messages = pre ++ message :: post →
    ∀ action ∈ (mdStep policy (runState (mdStep policy) ∅ pre) message).1,
    ∀ source backoff attempt, action.kind = .reconnect source backoff attempt →
      attempt.toNat = disconnectsSince source pre ∧
      backoff.nanos = min policy.backoff.maxDelay.nanos
        (policy.backoff.base.nanos * 2 ^ disconnectsSince source pre)

/-- No source fails again after it came back from a failure, or more often than is counted. -/
def FailsFirst (messages : List MdMessage) : Prop :=
  ∀ pre message post source, messages = pre ++ message :: post →
    message.reports "disconnected" source = true →
    NeverCameBack source pre ∧ disconnects source pre < 2 ^ 32

/-- What one message has to meet. -/
theorem backoff_step_iff {policy : PolicyConfig}
    (hmax : policy.backoff.maxDelay.nanos ≤ 2 ^ 64 - 1) (pre : List MdMessage)
    (message : MdMessage) :
    (∀ action ∈ (mdStep policy (runState (mdStep policy) ∅ pre) message).1,
      ∀ source backoff attempt, action.kind = .reconnect source backoff attempt →
        attempt.toNat = disconnectsSince source pre ∧
        backoff.nanos = min policy.backoff.maxDelay.nanos
          (policy.backoff.base.nanos * 2 ^ disconnectsSince source pre)) ↔
    ∀ source, message.reports "disconnected" source = true →
      min (disconnects source pre) (2 ^ 32 - 1) = disconnectsSince source pre := by
  rcases mdStep_cases policy (runState (mdStep policy) ∅ pre) message with
    ⟨source, hdown, hstep⟩ | ⟨hother, hstep⟩
  · rw [hstep]
    have hcount := attemptCount_mdStep policy pre source
    have hdelay := BackoffParams.nanos_delayFor hmax
      (attemptCount (runState (mdStep policy) ∅ pre) source)
    constructor
    · intro h source' hdown'
      obtain rfl := reports_source_unique hdown hdown'
      rw [← hcount]
      exact (h _ (List.mem_singleton_self _) source _ _ rfl).1
    · intro h action hmem source' backoff attempt hkind
      rw [List.mem_singleton.mp hmem] at hkind
      cases hkind
      have hattempt := hcount.trans (h source hdown)
      exact ⟨hattempt, by rw [hdelay, hattempt]⟩
  · rw [hstep]
    refine iff_of_true (fun _ hmem => by cases hmem) fun source hdown => ?_
    rw [hother source] at hdown
    cases hdown

/-- The attempts and delays of a run are those of the formula exactly when no source fails again
after it came back, or more often than is counted. -/
theorem backoff_holds_iff {policy : PolicyConfig}
    (hmax : policy.backoff.maxDelay.nanos ≤ 2 ^ 64 - 1) (messages : List MdMessage) :
    BackoffHolds policy messages ↔ FailsFirst messages := by
  have hsteps : BackoffHolds policy messages ↔ ∀ pre message post,
      messages = pre ++ message :: post → ∀ source, message.reports "disconnected" source = true →
        min (disconnects source pre) (2 ^ 32 - 1) = disconnectsSince source pre :=
    forall₃_congr fun pre message post => imp_congr_right fun _ => backoff_step_iff hmax pre message
  rw [hsteps]
  constructor
  · intro h pre message post source hsplit hdown
    have hhere := h pre message post hsplit source hdown
    have hle := disconnectsSince_le source pre
    rw [← disconnectsSince_eq_iff]
    suffices hsame : disconnectsSince source pre = disconnects source pre by omega
    by_contra hne
    by_cases hpos : 0 < disconnectsSince source pre
    · -- The first failure after it came back was met with a count that was not zero.
      obtain ⟨pre', first, post', hsplit', hfirst, hzero, hsome⟩ :=
        exists_first_since hpos (by omega)
      have hbefore := h pre' first (post' ++ message :: post)
        (by rw [hsplit, hsplit']; simp) source hfirst
      omega
    · omega
  · intro h pre message post hsplit source hdown
    obtain ⟨hfirst, hcounted⟩ := h pre message post source hsplit hdown
    rw [(disconnectsSince_eq_iff source pre).mpr hfirst]
    omega

/-- A message of a source. -/
def mdMessage (source status : String) : MdMessage :=
  ⟨.obj [("source", .str source), ("status", .str status)], 0⟩

/-- A policy with the default backoff: 100 ms, at most 30 s. -/
def defaultPolicy : PolicyConfig where
  backoff := ⟨⟨100000000, by decide⟩, ⟨30000000000, by decide⟩⟩
  primaryBroker := .zerodha
  backupBroker := .dhan
  mitigations := ∅
  ollamaFallbacks := ∅

/-- Two feeds fail in turn, one of them three times before it comes back, and then the other again. -/
def outage : List MdMessage :=
  [mdMessage "nse_l1" "disconnected", mdMessage "bse_l1" "disconnected",
    mdMessage "nse_l1" "disconnected", mdMessage "nse_l1" "disconnected",
    mdMessage "nse_l1" "reconnected", mdMessage "bse_l1" "disconnected"]

theorem backoff_holds_iff_outage : BackoffHolds defaultPolicy outage ↔ FailsFirst outage :=
  backoff_holds_iff (by decide) outage

/-- A feed that fails, comes back and fails again. -/
def failsAgain : List MdMessage :=
  [mdMessage "nse_l1" "disconnected", mdMessage "nse_l1" "reconnected",
    mdMessage "nse_l1" "disconnected"]

/-- The second failure is counted as the second attempt. -/
theorem not_backoffHolds_failsAgain :
    ¬ ∀ (policy : PolicyConfig) (messages : List MdMessage),
      policy.backoff.maxDelay.nanos ≤ 2 ^ 64 - 1 → BackoffHolds policy messages := by
  intro h
  have hlast := h defaultPolicy failsAgain (by decide) [mdMessage "nse_l1" "disconnected",
    mdMessage "nse_l1" "reconnected"] (mdMessage "nse_l1" "disconnected") [] rfl
    ⟨.reconnect "nse_l1" (defaultPolicy.backoff.delayFor 1) 1, 0⟩
  have haction := hlast (by decide +kernel) "nse_l1" _ 1 rfl
  exact absurd haction.1 (by decide +kernel)

end Hedge.Supervisor
