import Hedge.Common.Run
import Hedge.Exec.Submit

/-!
# Authority of the Risk_Engine

Reference: `submit` in `hedge-exec/src/engine.rs`, `hedge-risk/src/approval.rs` and
`hedge-exec/tests/authority.rs`.

Runs here interleave two kinds of events: the Risk_Engine signs an approval, and somebody calls
`submit` with arbitrary arguments, forged, tampered or replayed ones included. HMAC-SHA256 is
assumed ideal on the messages of the run. No function from 63 to 32 bytes is injective, so both
halves of the assumption are about the run at hand: a tag of a 63-byte message that somebody
presents was handed out by the signer before, and no two messages signed or presented in the run
collide.
-/

namespace Hedge.Exec

open Hedge.Common Hedge.Risk Hedge.BrokerApi

/-- An event of the run. -/
inductive AuthEvent where
  | sign (a : Approval)
  | submit (call : SubmitCall) (env : SubmitEnv)

/-- The message an event feeds into the MAC. -/
def AuthEvent.message : AuthEvent → List UInt8
  | .sign a => writeCanonicalToArray a
  | .submit call _ => writeCanonicalToArray call.approval

/-- One event; signing leaves the engine alone. -/
def authStep (mac : Mac) (eng : ExecutionEngine) (st : ExecutionState) :
    AuthEvent → Option SubmitOutcome × ExecutionState
  | .sign _ => (none, st)
  | .submit call env => (some (submit mac eng st call env).1, (submit mac eng st call env).2)

/-- The state after a run. -/
abbrev authRun (mac : Mac) (eng : ExecutionEngine) (st : ExecutionState) (events : List AuthEvent) :
    ExecutionState :=
  runState (authStep mac eng) st events

/-- The MAC is ideal on the run: tags are not produced without the key and do not collide. -/
structure IdealMac (mac : Mac) (key : Key) (events : List AuthEvent) : Prop where
  unforgeable : ∀ pre e post, events = pre ++ e :: post → ∀ call env, e = .submit call env →
    mac key (writeCanonicalToArray call.approval) = call.token →
      ∃ a, AuthEvent.sign a ∈ pre ∧ sign mac key a = call.token
  collisionFree : ∀ e ∈ events, ∀ e' ∈ events,
    mac key e.message = mac key e'.message → e.message = e'.message

/-! ## Consumed tokens -/

section Consumed

variable {mac : Mac} {eng : ExecutionEngine} {st : ExecutionState}

theorem handleSubmitOk_consumedTokens {cid : CorrelationId} {ack : SubmitAck} {tsNs : UInt64}
    {events : List EngineEvent} {st' : ExecutionState}
    (h : handleSubmitOk st cid ack tsNs = .ok (events, st')) :
    st'.consumedTokens = st.consumedTokens := by
  unfold handleSubmitOk at h
  split at h
  · cases h
  split at h
  · cases h
  · cases h
    rfl

theorem handleSubmitErr_consumedTokens (cid : CorrelationId) (err : ExecError) (tsNs : UInt64) :
    (handleSubmitErr st cid err tsNs).2.consumedTokens = st.consumedTokens := by
  unfold handleSubmitErr
  cases st.trackers.lookup cid <;> dsimp only <;> split <;> rfl

/-- The answer of the broker does not touch the token set. -/
theorem driveSubmit_consumedTokens (cid : CorrelationId) (slot : ActiveSlot) (b : BrokerId)
    (intent : BrokerApi.OrderIntent) (env : SubmitEnv) :
    (driveSubmit eng st cid slot b intent env).2.consumedTokens = st.consumedTokens := by
  cases hreply : finalReply eng b env with
  | ok ack =>
    cases hok : handleSubmitOk st cid ack env.submitNowNs with
    | ok p =>
      rw [(driveSubmit_of_ack _ _ _ _ hreply hok).2.2]
      exact handleSubmitOk_consumedTokens hok
    | error err => rw [(driveSubmit_of_ack_refused _ _ _ _ hreply hok).2]
  | error berr =>
    obtain ⟨-, -, hst⟩ := driveSubmit_of_error st cid slot intent hreply
    rw [hst, handleSubmitErr_consumedTokens]

/-- An admitted call consumes its token, whatever becomes of it. -/
theorem submit_consumedTokens {call : SubmitCall} (h : Admitted mac eng st call) (env : SubmitEnv) :
    (submit mac eng st call env).2.consumedTokens = insert call.token st.consumedTokens := by
  cases ht : translateIntent call.intent call.sizedQuantity with
  | error reason =>
    rw [submit_of_untranslatable env h ht]
    rfl
  | ok intent =>
    rw [submit_of_translated env h ht, driveSubmit_consumedTokens]
    rfl

/-- One step: a consumed token stays consumed. -/
theorem mem_consumedTokens_authStep {token : ApprovalToken} (h : token ∈ st.consumedTokens)
    (e : AuthEvent) : token ∈ (authStep mac eng st e).2.consumedTokens := by
  cases e with
  | sign a => exact h
  | submit call env =>
    change token ∈ (submit mac eng st call env).2.consumedTokens
    by_cases hadm : Admitted mac eng st call
    · rw [submit_consumedTokens hadm]
      exact Finset.mem_insert_of_mem h
    · rw [(submit_of_not_admitted env hadm).2]
      exact h

/-- The whole run: a consumed token stays consumed. -/
theorem mem_consumedTokens_authRun {token : ApprovalToken} (h : token ∈ st.consumedTokens)
    (events : List AuthEvent) : token ∈ (authRun mac eng st events).consumedTokens :=
  runState_invariant_all (authStep mac eng) (fun st => token ∈ st.consumedTokens)
    (fun _ e hst => mem_consumedTokens_authStep hst e) h events

end Consumed

/-! ## The two halves of the authority -/

section Authority

variable (mac : Mac) (eng : ExecutionEngine) (st₀ : ExecutionState) (events : List AuthEvent)

/-- Every intent handed to a broker carries the fields of a tuple signed before, under the token of
the call. -/
def ContactsSigned : Prop :=
  ∀ pre e post, events = pre ++ e :: post → ∀ call env, e = .submit call env →
    ∀ c ∈ (submit mac eng (authRun mac eng st₀ pre) call env).1.contacts,
      ∃ a, AuthEvent.sign a ∈ pre ∧ sign mac eng.verifierKey a = call.token ∧
        Carries a.intent a.sizedQuantity c.intent

/-- After a call that contacted a broker, what `answer` says of every later call with its token. -/
def LaterCalls (answer : (call call' : SubmitCall) → ExecError) : Prop :=
  ∀ pre call env mid call' env' post,
    events = pre ++ AuthEvent.submit call env :: (mid ++ AuthEvent.submit call' env' :: post) →
    (submit mac eng (authRun mac eng st₀ pre) call env).1.contacts ≠ [] →
    call'.token = call.token →
      let st := authRun mac eng st₀ (pre ++ .submit call env :: mid)
      let out := submit mac eng st call' env'
      out.1.result = .error (answer call call') ∧ out.1.contacts = [] ∧
        out.2.trackers = st.trackers ∧ out.2.router = st.router

end Authority

section

variable {mac : Mac} {eng : ExecutionEngine} {st₀ : ExecutionState} {events : List AuthEvent}

/-- A call that verifies presents exactly the arguments of a tuple signed before. -/
theorem signed_of_verified (hideal : IdealMac mac eng.verifierKey events)
    {pre post : List AuthEvent} {call : SubmitCall} {env : SubmitEnv}
    (hevents : events = pre ++ .submit call env :: post)
    (hv : verify mac eng.verifierKey call.token call.approval = true) :
    AuthEvent.sign call.approval ∈ pre := by
  have htoken := verify_iff.mp hv
  obtain ⟨a, hmem, ha⟩ := hideal.unforgeable pre _ post hevents call env rfl htoken.symm
  have hmessage : (AuthEvent.sign a).message = (AuthEvent.submit call env).message :=
    hideal.collisionFree _ (by simp [hevents, hmem]) _ (by simp [hevents]) (ha.trans htoken)
  have happroval : a = call.approval := writeCanonicalToArray_injective hmessage
  rwa [← happroval]

theorem contactsSigned (hideal : IdealMac mac eng.verifierKey events) :
    ContactsSigned mac eng st₀ events := by
  intro pre e post hevents call env he c hc
  subst he
  obtain ⟨hadm, intent, ht, hmem⟩ := contact_inv hc
  obtain ⟨k, -, -, rfl⟩ := mem_attemptContacts.mp hmem
  exact ⟨call.approval, signed_of_verified hideal hevents hadm.verified,
    (verify_iff.mp hadm.verified).symm, translateIntent_carries ht⟩

/-- The error a later call with a consumed token gets: `DuplicateToken` for the signed arguments,
`InvalidApprovalToken` for any others. -/
def replayError (call call' : SubmitCall) : ExecError :=
  if call'.approval = call.approval then .duplicateToken (cidToHex call'.cid)
  else .invalidApprovalToken (cidToHex call'.cid)

theorem laterCalls (hideal : IdealMac mac eng.verifierKey events) :
    LaterCalls mac eng st₀ events replayError := by
  intro pre call env mid call' env' post hevents hcontacts htoken st out
  obtain ⟨c, hc⟩ := List.exists_mem_of_ne_nil _ hcontacts
  have hadm := (contact_inv hc).1
  -- the token is consumed from the first call on
  have hused : call'.token ∈ st.consumedTokens := by
    have hst : st = authRun mac eng (submit mac eng (authRun mac eng st₀ pre) call env).2 mid := by
      simp only [st, authRun, runState_append, runState_cons]
      rfl
    rw [hst, htoken]
    refine mem_consumedTokens_authRun ?_ mid
    rw [submit_consumedTokens hadm]
    exact Finset.mem_insert_self _ _
  have hverify : verify mac eng.verifierKey call'.token call'.approval = true ↔
      call'.approval = call.approval := by
    rw [htoken, verify_iff, verify_iff.mp hadm.verified]
    refine ⟨fun h => ?_, fun h => by rw [h]⟩
    have hmessage : (AuthEvent.submit call env).message = (AuthEvent.submit call' env').message :=
      hideal.collisionFree _ (by simp [hevents]) _ (by simp [hevents]) h
    exact (writeCanonicalToArray_injective hmessage).symm
  by_cases heq : call'.approval = call.approval
  · have hout : out = _ := submit_of_used env' (hverify.mpr heq) hused
    rw [hout, replayError, if_pos heq]
    exact ⟨rfl, rfl, rfl, rfl⟩
  · have hout : out = _ := submit_of_not_verified env'
      (Bool.eq_false_iff.mpr fun h => heq (hverify.mp h))
    rw [hout, replayError, if_neg heq]
    exact ⟨rfl, rfl, rfl, rfl⟩

end

/-- Under an ideal MAC every broker contact was signed, and after the one call that contacts a
broker every later call with its token changes nothing and is answered by `replayError`. -/
theorem submit_authority (mac : Mac) (eng : ExecutionEngine) (st₀ : ExecutionState)
    (events : List AuthEvent) (hideal : IdealMac mac eng.verifierKey events) :
    ContactsSigned mac eng st₀ events ∧ LaterCalls mac eng st₀ events replayError :=
  ⟨contactsSigned hideal, laterCalls hideal⟩

/-- One approval, its submission, and a replay of its token with eleven shares in place of ten. -/
def tamperedReplay : List AuthEvent :=
  [.sign ⟨sampleIntent, 10, 1000, 1⟩,
    .submit (mintedCall ⟨sampleIntent, 10, 1000, 1⟩) (scriptedEnv [.ack ⟨"ORD-1", none⟩]),
    .submit { mintedCall ⟨sampleIntent, 10, 1000, 1⟩ with sizedQuantity := 11 }
      (scriptedEnv [.ack ⟨"ORD-2", none⟩])]

/-- On the tampered replay the fixture MAC is ideal. -/
theorem idealMac_tamperedReplay : IdealMac tailMac makeEngine.verifierKey tamperedReplay where
  unforgeable := by
    refine forall_split_cons (fun call env h => by cases h) ?_
    refine forall_split_cons (fun call env h _ => ?_) ?_
    · cases h
      exact ⟨_, List.mem_singleton.mpr rfl, rfl⟩
    refine forall_split_cons (fun call env h _ => ?_) forall_split_nil
    cases h
    exact ⟨_, List.mem_cons_self, rfl⟩
  collisionFree := by decide +kernel

/-- A replay with other arguments is not answered by `DuplicateToken`: the signature is checked
before the token set. -/
theorem tampered_replay_not_duplicate :
    IdealMac tailMac makeEngine.verifierKey tamperedReplay ∧
      ¬ (ContactsSigned tailMac makeEngine makeState tamperedReplay ∧
        LaterCalls tailMac makeEngine makeState tamperedReplay
          fun _ call' => .duplicateToken (cidToHex call'.cid)) := by
  refine ⟨idealMac_tamperedReplay, fun h => ?_⟩
  have hcontacts : (submit tailMac makeEngine makeState (mintedCall ⟨sampleIntent, 10, 1000, 1⟩)
      (scriptedEnv [.ack ⟨"ORD-1", none⟩])).1.contacts.length = 1 := by decide +kernel
  have hne := List.ne_nil_of_length_pos (hcontacts ▸ Nat.one_pos)
  have hanswer := (h.2 [.sign ⟨sampleIntent, 10, 1000, 1⟩] _ _ [] _ _ [] rfl hne rfl).1
  revert hanswer
  decide +kernel

/-- The run of the tampered replay meets the assumptions of the authority theorem. -/
theorem submit_authority_tamperedReplay :
    ContactsSigned tailMac makeEngine makeState tamperedReplay ∧
      LaterCalls tailMac makeEngine makeState tamperedReplay replayError :=
  submit_authority tailMac makeEngine makeState tamperedReplay idealMac_tamperedReplay

end Hedge.Exec
