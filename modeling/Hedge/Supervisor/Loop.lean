import Hedge.Supervisor.Pipeline

/-!
# The supervisor and its own messages

Reference: `FailureDetector::run` in `hedge-supervisor/src/detector.rs`, `Supervisor::run` in
`hedge-supervisor/src/supervisor.rs`, `actuate` in `hedge-supervisor/src/actuator.rs`.

The bus delivers what the actuator publishes to every subscription that matches, those of the
detector included. The side effects of a Redis reconnect and of a model fallback are reports of the
failure they answer, and are classified as that failure again: one such report keeps the supervisor
busy for ever. No other failure comes back to it.
-/

namespace Hedge.Supervisor

open Hedge Hedge.Common

/-! ## Closed loop -/

/-- `FAILURE_CHANNEL_DEPTH`. -/
def failureChannelDepth : ℕ := 1024

/-- A message on its way to a subscription of the detector. -/
structure Delivery where
  subscription : Subscription
  payload : Json

/-- The deliveries of a published message. -/
def route (message : Message) : List Delivery :=
  (Subscription.all.filter fun sub => subjectMatches sub.pattern message.subject).map
    (⟨·, message.payload⟩)

/-- The supervisor with the bus around it. -/
structure Loop where
  process : Process
  inFlight : List Delivery
  channel : List FailureEvent
  actions : List RecoveryAction

/-- One step of the detector task, which takes some delivery, or of the main loop, which handles the
next failure of the channel and saves the state or fails to. -/
inductive LoopStep where
  | deliver (index : ℕ) (tsNs : UInt64)
  | handle (nowNs tsNs : UInt64) (saved : Bool)

namespace Loop

/-- The external messages, all of them on their way. -/
def start (process : Process) (external : List Message) : Loop :=
  ⟨process, external.flatMap route, [], []⟩

/-- A step, when it is enabled. The detector waits for room in the channel before it sends; a
failure whose state cannot be saved is not actuated. -/
def step (policy : PolicyConfig) (th : Thresholds) (loop : Loop) : LoopStep → Option Loop
  | .deliver index tsNs => loop.inFlight[index]?.bind fun delivery =>
    match delivery.subscription.classify th delivery.payload with
    | none => some { loop with inFlight := loop.inFlight.eraseIdx index }
    | some kind =>
      if loop.channel.length < failureChannelDepth then
        some { loop with
          inFlight := loop.inFlight.eraseIdx index, channel := loop.channel ++ [⟨kind, tsNs⟩] }
      else none
  | .handle nowNs tsNs saved => match loop.channel with
    | [] => none
    | event :: channel =>
      let (action, process) := handleOne policy loop.process event nowNs
      if saved then
        some ⟨process, loop.inFlight ++ (actuate action tsNs).flatMap route, channel,
          loop.actions ++ [action]⟩
      else some ⟨process, loop.inFlight, channel, loop.actions⟩

end Loop

/-! ## What a step does -/

variable {policy : PolicyConfig} {th : Thresholds}

/-- A step drops a delivery, classifies one, or handles a failure. -/
theorem Loop.step_cases {loop loop' : Loop} {label : LoopStep}
    (h : loop.step policy th label = some loop') :
    (∃ index delivery kind tsNs, loop.inFlight[index]? = some delivery ∧
      delivery.subscription.classify th delivery.payload = kind ∧
      loop' = { loop with
        inFlight := loop.inFlight.eraseIdx index
        channel := loop.channel ++ (kind.map (FailureEvent.mk · tsNs)).toList }) ∨
    (∃ event channel nowNs tsNs saved, loop.channel = event :: channel ∧
      loop' = {
        process := (handleOne policy loop.process event nowNs).2
        inFlight := loop.inFlight ++ if saved = true then
          (actuate (handleOne policy loop.process event nowNs).1 tsNs).flatMap route else []
        channel := channel
        actions := loop.actions ++ if saved = true then
          [(handleOne policy loop.process event nowNs).1] else [] }) := by
  cases label with
  | deliver index tsNs =>
    obtain ⟨delivery, hdelivery, h⟩ := Option.bind_eq_some_iff.mp h
    refine .inl ⟨index, delivery, _, tsNs, hdelivery, rfl, ?_⟩
    cases hkind : delivery.subscription.classify th delivery.payload with
    | none =>
      simp only [hkind, Option.some.injEq] at h
      simp [← h]
    | some kind =>
      simp only [hkind, Option.ite_none_right_eq_some, Option.some.injEq] at h
      simp [← h.2]
  | handle nowNs tsNs saved =>
    unfold Loop.step at h
    cases hchannel : loop.channel with
    | nil => simp [hchannel] at h
    | cons event channel =>
      refine .inr ⟨event, channel, nowNs, tsNs, saved, rfl, ?_⟩
      cases saved <;> simpa [hchannel, eq_comm] using h

/-! ## Failures that come back -/

/-- The failures whose recovery reports them again. -/
def FailureKind.comesBack : FailureKind → Prop
  | redisUnavailable | ollamaUnresponsive _ => True
  | wsDisconnected _ | brokerErrorRateBreach _ | externalApiLatencySpike _ => False

/-- The delivery is classified as a failure that comes back. -/
def Delivery.comesBack (th : Thresholds) (delivery : Delivery) : Prop :=
  ∃ kind, delivery.subscription.classify th delivery.payload = some kind ∧ kind.comesBack

section Routes

variable (payload : Json)

@[simp] theorem route_cacheRedisDegraded :
    route ⟨["cache", "redis", "degraded"], payload⟩ = [⟨.cacheRedis, payload⟩] := rfl

@[simp] theorem route_aiOllamaDegraded :
    route ⟨["ai", "ollama", "degraded"], payload⟩ = [⟨.aiOllamaDegraded, payload⟩] := rfl

@[simp] theorem route_execBrokerFailover :
    route ⟨["exec", "broker", "failover"], payload⟩ = [] := rfl

@[simp] theorem route_opsAction (target : String) :
    route ⟨["ops", "action", target], payload⟩ = [] := rfl

end Routes

/-- The recovery of such a failure puts a report of it on the way to the detector. -/
theorem exists_comesBack_actuate {kind : FailureKind} (hkind : kind.comesBack) (th : Thresholds)
    (policy : PolicyConfig) (attempt : UInt32) (detected tsNs : UInt64) :
    ∃ delivery ∈ (actuate ⟨policy.actionFor attempt kind, detected⟩ tsNs).flatMap route,
      delivery.comesBack th := by
  cases kind with
  | redisUnavailable =>
    simp only [PolicyConfig.actionFor, actuate, sideEffect, List.flatMap_append,
      List.flatMap_singleton, route_cacheRedisDegraded, route_opsAction, List.append_nil,
      List.mem_singleton, exists_eq_left]
    refine ⟨.redisUnavailable, ?_, trivial⟩
    simp [Subscription.classify, classifyCacheRedis, CacheRedisEvent.fromJson, readStruct,
      Json.isStruct, Json.required, Json.structField]
  | ollamaUnresponsive model =>
    simp only [PolicyConfig.actionFor, actuate, sideEffect, List.flatMap_append,
      List.flatMap_singleton, route_aiOllamaDegraded, route_opsAction, List.append_nil,
      List.mem_singleton, exists_eq_left]
    refine ⟨.ollamaUnresponsive model, ?_, trivial⟩
    simp [Subscription.classify, classifyAiOllamaDegraded, AiOllamaDegradedEvent.fromJson,
      readStruct, Json.isStruct, Json.required, Json.defaulted, Json.structField]
  | wsDisconnected source => exact hkind.elim
  | brokerErrorRateBreach broker => exact hkind.elim
  | externalApiLatencySpike source => exact hkind.elim

/-- What is published for any other failure reaches no subscription of the detector. -/
theorem route_actuate_eq_nil {kind : FailureKind} (hkind : ¬ kind.comesBack)
    (policy : PolicyConfig) (attempt : UInt32) (detected tsNs : UInt64) :
    (actuate ⟨policy.actionFor attempt kind, detected⟩ tsNs).flatMap route = [] := by
  cases kind with
  | redisUnavailable => exact absurd trivial hkind
  | ollamaUnresponsive model => exact absurd trivial hkind
  | wsDisconnected source => rfl
  | brokerErrorRateBreach broker =>
    dsimp only [PolicyConfig.actionFor]
    split_ifs <;> rfl
  | externalApiLatencySpike source => rfl

/-! ## The loop that goes on -/

/-- Some failure that comes back is the only one in the channel, or is reported on the way to it. -/
def Loop.Turning (th : Thresholds) (loop : Loop) : Prop :=
  (∃ event : FailureEvent, loop.channel = [event] ∧ event.kind.comesBack) ∨
    loop.channel = [] ∧ ∃ delivery ∈ loop.inFlight, delivery.comesBack th

theorem Loop.Turning.exists_step {loop : Loop} (h : loop.Turning th) :
    ∃ label loop', loop.step policy th label = some loop' ∧ loop'.Turning th := by
  rcases h with ⟨event, hchannel, hkind⟩ | ⟨hchannel, delivery, hmem, kind, hclass, hkind⟩
  · refine ⟨.handle 0 0 true, _, by simp only [Loop.step, hchannel, if_true]; rfl, .inr ⟨rfl, ?_⟩⟩
    obtain ⟨delivery, hmem, hback⟩ := exists_comesBack_actuate hkind th policy
      (PolicyConfig.attemptOf loop.process.attempts event.kind) event.tsNs 0
    exact ⟨delivery, List.mem_append_right _ hmem, hback⟩
  · obtain ⟨index, hindex⟩ := List.mem_iff_getElem?.mp hmem
    refine ⟨.deliver index 0, { loop with
      inFlight := loop.inFlight.eraseIdx index, channel := [⟨kind, 0⟩] }, ?_,
      .inl ⟨⟨kind, 0⟩, rfl, hkind⟩⟩
    simp [Loop.step, hindex, hclass, hchannel, failureChannelDepth]

/-- One report of a failure that comes back is enough for the loop to go on. -/
theorem endless_of_comesBack (policy : PolicyConfig) {process : Process}
    {external : List Message} {message : Message} (hmessage : message ∈ external)
    {delivery : Delivery} (hdelivery : delivery ∈ route message) (hback : delivery.comesBack th) :
    Endless (Loop.step policy th) (Loop.start process external) :=
  endless_of_invariant (Loop.Turning th) (fun _ => Loop.Turning.exists_step)
    (.inr ⟨rfl, delivery, List.mem_flatMap.mpr ⟨message, hmessage, hdelivery⟩, hback⟩)

/-! ## The loop that ends -/

/-- A subject that matches a pattern of three tokens or more starts with its first two. -/
theorem subject_eq_of_matches {p q r : String} {ps subject : List String}
    (h : subjectMatches (p :: q :: r :: ps) subject = true) : ∃ rest, subject = p :: q :: rest := by
  cases subject with
  | nil => simp [subjectMatches] at h
  | cons t subject =>
    cases subject with
    | nil => simp [subjectMatches] at h
    | cons u subject =>
      simp only [subjectMatches, Bool.and_eq_true, decide_eq_true_eq] at h
      obtain ⟨rfl, rfl, -⟩ := h
      exact ⟨subject, rfl⟩

/-- A subject matches at most one subscription. -/
theorem subscription_unique {sub sub' : Subscription} {subject : List String}
    (h : subjectMatches sub.pattern subject = true)
    (h' : subjectMatches sub'.pattern subject = true) : sub = sub' := by
  have hstarts : ∀ {sub : Subscription}, subjectMatches sub.pattern subject = true →
      subject.take 2 = sub.pattern.take 2 := by
    intro sub h
    cases sub <;>
    · obtain ⟨rest, rfl⟩ := subject_eq_of_matches h
      rfl
  have hsame := (hstarts h).symm.trans (hstarts h')
  cases sub <;> cases sub' <;> first | rfl | exact absurd hsame (by decide)

theorem length_route_le (message : Message) : (route message).length ≤ 1 := by
  have hnodup : (Subscription.all.filter fun sub =>
      subjectMatches sub.pattern message.subject).Nodup := List.Nodup.filter _ (by decide)
  have hmatches : ∀ sub ∈ Subscription.all.filter fun sub =>
      subjectMatches sub.pattern message.subject,
        subjectMatches sub.pattern message.subject = true :=
    fun sub hsub => (List.mem_filter.mp hsub).2
  rw [route, List.length_map]
  generalize Subscription.all.filter _ = subs at hnodup hmatches ⊢
  match subs with
  | [] => exact Nat.zero_le 1
  | [_] => exact Nat.le_refl 1
  | sub :: sub' :: subs =>
    have hne : sub ≠ sub' := fun heq => (List.nodup_cons.mp hnodup).1 (heq ▸ List.mem_cons_self ..)
    exact absurd (subscription_unique (hmatches sub (by simp)) (hmatches sub' (by simp))) hne

/-- The budget of external messages covers what is done and what is on the way, and nothing on the
way comes back. -/
structure Loop.Calm (th : Thresholds) (budget : ℕ) (loop : Loop) : Prop where
  inFlight : ∀ delivery ∈ loop.inFlight, ¬ delivery.comesBack th
  channel : ∀ event ∈ loop.channel, ¬ event.kind.comesBack
  covers : loop.actions.length + loop.channel.length + loop.inFlight.length ≤ budget

/-- The steps that are left. -/
def Loop.pending (loop : Loop) : ℕ := 2 * loop.inFlight.length + loop.channel.length

theorem Loop.Calm.step {budget : ℕ} {loop loop' : Loop} {label : LoopStep}
    (h : loop.Calm th budget) (hstep : loop.step policy th label = some loop') :
    loop'.Calm th budget ∧ loop'.pending < loop.pending := by
  have hcovers := h.covers
  obtain ⟨index, delivery, kind, tsNs, hdelivery, hclass, rfl⟩ |
    ⟨event, channel, nowNs, tsNs, saved, hchannel, rfl⟩ := loop.step_cases hstep
  · have hindex : index < loop.inFlight.length := (List.getElem?_eq_some_iff.mp hdelivery).1
    have hrest := List.length_eraseIdx_of_lt hindex
    have hsent : (kind.map (FailureEvent.mk · tsNs)).toList.length ≤ 1 := by
      cases kind <;> simp
    refine ⟨⟨fun d hd => h.inFlight d (List.mem_of_mem_eraseIdx hd), ?_, ?_⟩, ?_⟩
    · intro event hevent
      rcases List.mem_append.mp hevent with hevent | hevent
      · exact h.channel event hevent
      · simp only [Option.mem_toList, Option.map_eq_some_iff] at hevent
        obtain ⟨kind, rfl, rfl⟩ := hevent
        intro hback
        exact h.inFlight delivery (List.mem_of_getElem? hdelivery) ⟨kind, hclass, hback⟩
    · simp only [List.length_append]
      omega
    · simp only [Loop.pending, List.length_append]
      omega
  · have hquiet : ¬ event.kind.comesBack := h.channel event (by simp [hchannel])
    have hsilent :
        (actuate (handleOne policy loop.process event nowNs).1 tsNs).flatMap route = [] :=
      route_actuate_eq_nil hquiet policy _ _ tsNs
    have hlength : loop.channel.length = channel.length + 1 := by rw [hchannel]; rfl
    have htaken : (if saved = true then
        [(handleOne policy loop.process event nowNs).1] else []).length ≤ 1 := by
      cases saved <;> simp
    simp only [hsilent, ite_self, List.append_nil]
    refine ⟨⟨h.inFlight, fun e he => h.channel e (by simp [hchannel, he]), ?_⟩, ?_⟩
    · simp only [List.length_append]
      omega
    · simp only [Loop.pending]
      omega

theorem calm_start {external : List Message} (process : Process)
    (h : ∀ message ∈ external, ∀ delivery ∈ route message, ¬ delivery.comesBack th) :
    (Loop.start process external).Calm th external.length := by
  refine ⟨fun delivery hdelivery => ?_, fun _ hevent => (List.not_mem_nil hevent).elim, ?_⟩
  · obtain ⟨message, hmessage, hdelivery⟩ := List.mem_flatMap.mp hdelivery
    exact h message hmessage delivery hdelivery
  · have hroutes : (external.flatMap route).length ≤ external.length := by
      rw [List.length_flatMap]
      calc (external.map fun message => (route message).length).sum
          ≤ (external.map fun _ => 1).sum := List.sum_le_sum fun m _ => length_route_le m
        _ = external.length := by simp
    simpa [Loop.start] using hroutes

/-! ## When the loop ends -/

/-- The loop ends in every order of its steps, with at most one action for an external message. -/
def LoopEnds (policy : PolicyConfig) (th : Thresholds) (process : Process)
    (external : List Message) : Prop :=
  ¬ Endless (Loop.step policy th) (Loop.start process external) ∧
  ∀ labels loop, runEnabled (Loop.step policy th) (Loop.start process external) labels = some loop →
    loop.actions.length ≤ external.length

/-- The loop ends exactly when no external message reports a failure that comes back. -/
theorem loopEnds_iff (policy : PolicyConfig) (th : Thresholds) (process : Process)
    (external : List Message) :
    LoopEnds policy th process external ↔
      ∀ message ∈ external, ∀ delivery ∈ route message, ¬ delivery.comesBack th := by
  constructor
  · intro h message hmessage delivery hdelivery hback
    exact h.1 (endless_of_comesBack policy hmessage hdelivery hback)
  · intro h
    have hcalm := calm_start process h
    refine ⟨not_endless_of_measure (Loop.Calm th external.length) Loop.pending
      (fun _ _ _ hI hstep => hI.step hstep) hcalm, fun labels loop hrun => ?_⟩
    have hcovers := (runEnabled_invariant (Loop.Calm th external.length)
      (fun _ _ _ hI hstep => (hI.step hstep).1) hcalm hrun).covers
    omega

/-- A report that Redis is degraded. -/
def redisDegradedReport : Message :=
  ⟨["cache", "redis", "degraded"], .obj [("state", .str "degraded")]⟩

/-- One report keeps the supervisor busy. -/
theorem not_loopEnds_redisDegraded :
    ¬ ∀ (policy : PolicyConfig) (th : Thresholds) (process : Process) (external : List Message),
      LoopEnds policy th process external := by
  intro h
  have hback : Delivery.comesBack ⟨0, 0⟩ ⟨.cacheRedis, redisDegradedReport.payload⟩ :=
    ⟨.redisUnavailable, rfl, trivial⟩
  exact (h ⟨⟨⟨0, by decide⟩, ⟨0, by decide⟩⟩, .zerodha, .dhan, ∅, ∅⟩ ⟨0, 0⟩ ⟨∅, .default⟩
    [redisDegradedReport]).1
    (endless_of_comesBack _ (List.mem_singleton_self _) (List.mem_singleton_self _) hback)

end Hedge.Supervisor
