import Hedge.Common.Run
import Hedge.Exec.Submit
import Mathlib.Logic.Function.Basic

/-!
# Concurrent calls on the engine

Reference: `submit`, `cancel` and `on_fill` in `hedge-exec/src/engine.rs`, `force_primary` in
`hedge-exec/src/router.rs`.

The engine is shared by concurrent calls. A call holds no lock from one end to the other, so it is a
thread that stops between its atomic sections: a section takes one lock, or reads the active slot
once. A schedule is a list of labels that say which thread moves next; every interleaving is one.
The retry loop touches nothing shared and is one section.

A thread that runs alone does what the function of `Exec.Engine` does (`solo_submit`, `solo_cancel`,
`solo_onFill`).
-/

namespace Hedge.Exec

open Hedge.Common Hedge.Risk Hedge.BrokerApi

/-- What a call returns. -/
abbrev CallResult := Except ExecError (List EngineEvent)

/-- A call on the engine, with what it meets outside the process. -/
inductive Op where
  | submit (call : SubmitCall) (env : SubmitEnv)
  | cancel (cid : CorrelationId) (reply : Except BrokerError Unit) (nowNs : UInt64)
  | onFill (cid : CorrelationId) (symbol : UInt32) (side : UInt8) (cumFilledQty : UInt64)
      (cumAvgFillPaise : Int64) (tsNs : UInt64)

/-- Where a call is, and what it remembers. -/
inductive Thread where
  | idle
  | verifying (call : SubmitCall) (env : SubmitEnv)
  | picking (call : SubmitCall) (env : SubmitEnv)
  | installing (call : SubmitCall) (env : SubmitEnv) (slot : ActiveSlot)
  | contacting (call : SubmitCall) (env : SubmitEnv) (slot : ActiveSlot)
      (intent : BrokerApi.OrderIntent)
  | folding (call : SubmitCall) (env : SubmitEnv) (slot : ActiveSlot)
      (answer : Except ExecError SubmitAck)
  | recording (slot : ActiveSlot) (outcome : Outcome) (latencyMs : UInt32) (tsNs : UInt64)
      (result : CallResult)
  | cancelReading (cid : CorrelationId) (reply : Except BrokerError Unit) (nowNs : UInt64)
  | cancelSending (cid : CorrelationId) (broker : BrokerId) (brokerOrderId : String)
      (reply : Except BrokerError Unit) (nowNs : UInt64)
  | cancelApplying (cid : CorrelationId) (nowNs : UInt64)
  | fillReading (cid : CorrelationId) (symbol : UInt32) (side : UInt8) (cumFilledQty : UInt64)
      (cumAvgFillPaise : Int64) (tsNs : UInt64)
  | fillApplying (cid : CorrelationId) (symbol : UInt32) (side : UInt8) (cumFilledQty : UInt64)
      (cumAvgFillPaise : Int64) (tsNs : UInt64) (priorCumQty : UInt64) (priorCumAvgPaise : Int64)

/-- The first section of a call. -/
def Op.start : Op → Thread
  | .submit call env => .verifying call env
  | .cancel cid reply nowNs => .cancelReading cid reply nowNs
  | .onFill cid symbol side qty avg tsNs => .fillReading cid symbol side qty avg tsNs

/-- An acknowledgement: the broker gave the order this id. -/
structure Issued where
  cid : CorrelationId
  broker : BrokerId
  brokerOrderId : String
deriving DecidableEq, Repr

/-- The engine, the calls in flight and every acknowledgement the brokers have given. -/
structure Config where
  engine : ExecutionState
  threads : ℕ → Thread
  issued : List Issued

/-- A fresh engine with no call in flight. -/
def Config.new (router : BrokerRouter) : Config := ⟨.new router, fun _ => .idle, []⟩

/-- Which thread moves, or which call starts. -/
inductive Label where
  | start (tid : ℕ) (op : Op)
  | advance (tid : ℕ)
  | forcePrimary

namespace Config

/-- Leave the section: the thread goes to `next`, the engine to `engine`. -/
def goto (cfg : Config) (tid : ℕ) (next : Thread) (engine : ExecutionState) : Config :=
  { cfg with engine, threads := Function.update cfg.threads tid next }

end Config

/-- The broker's acknowledgements in an answer. -/
def issuedBy (cid : CorrelationId) (broker : BrokerId) : Except ExecError SubmitAck → List Issued
  | .ok ack => [⟨cid, broker, ack.brokerOrderId⟩]
  | .error _ => []

/-- The events of an accepted fill against the figures read before. -/
def fillEvents (event : LifecycleEvent) (cid : CorrelationId) (symbol : UInt32) (side : UInt8)
    (cumFilledQty : UInt64) (cumAvgFillPaise : Int64) (tsNs : UInt64) (priorCumQty : UInt64)
    (priorCumAvgPaise : Int64) : List EngineEvent :=
  let deltaQty := cumFilledQty.saturatingSub priorCumQty
  if deltaQty = 0 then [.lifecycle event]
  else
    let deltaNotional := cumAvgFillPaise.toInt * cumFilledQty.toNat
      - priorCumAvgPaise.toInt * priorCumQty.toNat
    let fillPx := Int64.ofInt (deltaNotional.tdiv deltaQty.toNat)
    [.lifecycle event, .fill cid symbol side deltaQty fillPx tsNs]

/-- The state after `handle_submit_err` has driven the tracker of an order into `Rejected`. -/
def ExecutionState.rejectTracked (st : ExecutionState) (cid : CorrelationId) (tsNs : UInt64) :
    ExecutionState :=
  match st.trackers.lookup cid with
  | some t => { st with trackers := st.trackers.insert cid (rejectTracker t tsNs).2 }
  | none => st

/-- One section of one call; the result is there when the call returns. -/
def advance (mac : Mac) (eng : ExecutionEngine) (cfg : Config) (tid : ℕ) :
    Option CallResult × Config :=
  let st := cfg.engine
  match cfg.threads tid with
  | .idle => (none, cfg)
  -- the token set
  | .verifying call env =>
    if !verify mac eng.verifierKey call.token call.approval then
      (some (.error (.invalidApprovalToken (cidToHex call.cid))), cfg.goto tid .idle st)
    else if call.token ∈ st.consumedTokens then
      (some (.error (.duplicateToken (cidToHex call.cid))), cfg.goto tid .idle st)
    else (none, cfg.goto tid (.picking call env)
      { st with consumedTokens := insert call.token st.consumedTokens })
  -- the active slot
  | .picking call env => (none, cfg.goto tid (.installing call env st.router.active) st)
  -- the registry
  | .installing call env slot =>
    let fresh := OrderLifecycleTracker.new call.cid (st.router.idOf slot) call.sizedQuantity
    let st := { st with trackers := installTracker st.trackers call.cid fresh }
    match translateIntent call.intent call.sizedQuantity with
    | .error reason =>
      (some (.error (.internal ("intent translation failed: " ++ reason))), cfg.goto tid .idle st)
    | .ok intent => (none, cfg.goto tid (.contacting call env slot intent) st)
  -- the broker
  | .contacting call env slot _ =>
    let broker := st.router.idOf slot
    let run := retryWithBackoff eng.retryPolicy env.jitter (submitOp broker env)
    (none, { cfg.goto tid (.folding call env slot run.result) st with
      issued := cfg.issued ++ issuedBy call.cid broker run.result })
  -- the tracker
  | .folding call env slot (.ok ack) => match st.trackers.lookup call.cid with
    | none => (some (.error (.internal "tracker disappeared")), cfg.goto tid .idle st)
    | some t => match t.submit (some ack.brokerOrderId) env.submitNowNs with
      | .error err => (some (.error err), cfg.goto tid .idle st)
      | .ok (event, t) => (none,
        cfg.goto tid (.recording slot .success 0 env.submitNowNs (.ok [.lifecycle event]))
          { st with trackers := st.trackers.insert call.cid t })
  | .folding call env slot (.error err) =>
    let st := st.rejectTracked call.cid env.submitNowNs
    if err.countsTowardFailover then
      (none, cfg.goto tid (.recording slot .failure 4294967295 env.submitNowNs (.error err)) st)
    else (some (.error err), cfg.goto tid .idle st)
  -- the router
  | .recording _ outcome latencyMs tsNs result =>
    let recorded := st.router.recordOutcome outcome latencyMs tsNs
    (some (result.map (· ++ recorded.1.toList.map .failover)),
      cfg.goto tid .idle { st with router := recorded.2 })
  | .cancelReading cid reply nowNs => match st.trackers.lookup cid with
    | none => (some (.error (.internal ("no tracker for correlation_id " ++ cidToHex cid))),
        cfg.goto tid .idle st)
    | some t =>
      (none, cfg.goto tid (.cancelSending cid t.broker (t.brokerOrderId.getD "") reply nowNs) st)
  -- the request goes to the adapter that is active now
  | .cancelSending cid broker _ reply nowNs => match reply with
    | .error err => (some (.error (.broker broker 1 err)), cfg.goto tid .idle st)
    | .ok () => (none, cfg.goto tid (.cancelApplying cid nowNs) st)
  -- trackers are never removed, so the lookup does not fail
  | .cancelApplying cid nowNs => match st.trackers.lookup cid with
    | none => (some (.error (.internal "tracker existed seconds ago")), cfg.goto tid .idle st)
    | some t => match t.cancel nowNs with
      | .error err => (some (.error err), cfg.goto tid .idle st)
      | .ok (event, t) => (some (.ok [.lifecycle event]),
        cfg.goto tid .idle { st with trackers := st.trackers.insert cid t })
  | .fillReading cid symbol side qty avg tsNs => match st.trackers.lookup cid with
    | none => (some (.error (.internal ("no tracker for correlation_id " ++ cidToHex cid))),
        cfg.goto tid .idle st)
    | some t => (none,
      cfg.goto tid (.fillApplying cid symbol side qty avg tsNs t.filledQty t.avgFillPaise) st)
  | .fillApplying cid symbol side qty avg tsNs priorQty priorAvg =>
    match st.trackers.lookup cid with
    | none => (some (.error (.internal ("no tracker for correlation_id " ++ cidToHex cid))),
        cfg.goto tid .idle st)
    | some t => match t.partialFill qty avg tsNs with
      | .error err => (some (.error err), cfg.goto tid .idle st)
      | .ok (event, t) =>
        (some (.ok (fillEvents event cid symbol side qty avg tsNs priorQty priorAvg)),
          cfg.goto tid .idle { st with trackers := st.trackers.insert cid t })

/-- A call only starts on an idle thread. -/
def startCall (cfg : Config) (tid : ℕ) (op : Op) : Config :=
  match cfg.threads tid with
  | .idle => cfg.goto tid op.start cfg.engine
  | _ => cfg

/-- One step of a schedule. -/
def threadStep (mac : Mac) (eng : ExecutionEngine) (cfg : Config) :
    Label → Option CallResult × Config
  | .start tid op => (none, startCall cfg tid op)
  | .advance tid => advance mac eng cfg tid
  | .forcePrimary =>
    (none, { cfg with engine := { cfg.engine with router := cfg.engine.router.forcePrimary } })

/-- The configuration after a schedule. -/
abbrev threadRun (mac : Mac) (eng : ExecutionEngine) (cfg : Config) (labels : List Label) :
    Config :=
  runState (threadStep mac eng) cfg labels

/-! ## A call that runs alone -/

namespace Config

@[simp] theorem threads_goto_self (cfg : Config) (tid : ℕ) (next : Thread) (st : ExecutionState) :
    (cfg.goto tid next st).threads tid = next :=
  Function.update_self ..

theorem threads_goto_of_ne (cfg : Config) {tid tid' : ℕ} (h : tid' ≠ tid) (next : Thread)
    (st : ExecutionState) : (cfg.goto tid next st).threads tid' = cfg.threads tid' :=
  Function.update_of_ne h ..

@[simp] theorem engine_goto (cfg : Config) (tid : ℕ) (next : Thread) (st : ExecutionState) :
    (cfg.goto tid next st).engine = st := rfl

@[simp] theorem issued_goto (cfg : Config) (tid : ℕ) (next : Thread) (st : ExecutionState) :
    (cfg.goto tid next st).issued = cfg.issued := rfl

end Config

theorem startCall_cases (cfg : Config) (tid : ℕ) (op : Op) :
    startCall cfg tid op = cfg ∨ startCall cfg tid op = cfg.goto tid op.start cfg.engine := by
  unfold startCall
  split
  · exact .inr rfl
  · exact .inl rfl

/-- The schedule in which one call runs from its start through `n` sections. -/
def solo (tid : ℕ) (op : Op) (n : ℕ) : List Label :=
  .start tid op :: List.replicate n (.advance tid)

section Solo

variable {mac : Mac} {eng : ExecutionEngine} {cfg : Config} {tid : ℕ}

/-- Alone, an `on_fill` thread computes `onFill`. -/
theorem solo_onFill (h : cfg.threads tid = .idle) (cid : CorrelationId) (symbol : UInt32)
    (side : UInt8) (qty : UInt64) (avg : Int64) (tsNs : UInt64) :
    (threadRun mac eng cfg (solo tid (.onFill cid symbol side qty avg tsNs) 2)).engine
      = (onFill cfg.engine cid symbol side qty avg tsNs).2 := by
  simp only [threadRun, solo, List.replicate, runState_cons, runState_nil, threadStep, startCall, h,
    Op.start]
  cases hlook : cfg.engine.trackers.lookup cid with
  | none => simp [advance, onFill, hlook]
  | some t =>
    cases hfill : t.partialFill qty avg tsNs with
    | error err => simp [advance, onFill, hlook, hfill]
    | ok p =>
      simp only [advance, onFill, hlook, hfill, Config.threads_goto_self, Config.engine_goto]
      split <;> rfl

/-- Alone, a `cancel` thread computes `cancel`. -/
theorem solo_cancel (h : cfg.threads tid = .idle) (cid : CorrelationId)
    (reply : Except BrokerError Unit) (nowNs : UInt64) :
    (threadRun mac eng cfg (solo tid (.cancel cid reply nowNs) 3)).engine
      = (cancel cfg.engine cid reply nowNs).2.2 := by
  simp only [threadRun, solo, List.replicate, runState_cons, runState_nil, threadStep, startCall, h,
    Op.start]
  cases hlook : cfg.engine.trackers.lookup cid with
  | none => simp [advance, cancel, hlook]
  | some t =>
    cases reply with
    | error err => simp [advance, cancel, hlook]
    | ok _ =>
      cases hcancel : t.cancel nowNs with
      | error err => simp [advance, cancel, hlook, hcancel]
      | ok p => simp [advance, cancel, hlook, hcancel]

/-- Alone, the last three sections of a `submit` compute `driveSubmit`. -/
theorem solo_drive {call : SubmitCall} {env : SubmitEnv} {slot : ActiveSlot}
    {intent : BrokerApi.OrderIntent} (h : cfg.threads tid = .contacting call env slot intent) :
    (threadRun mac eng cfg (List.replicate 3 (.advance tid))).engine
      = (driveSubmit eng cfg.engine call.cid slot (cfg.engine.router.idOf slot) intent env).2 := by
  simp only [threadRun, List.replicate, runState_cons, runState_nil, threadStep]
  cases hres : (retryWithBackoff eng.retryPolicy env.jitter
      (submitOp (cfg.engine.router.idOf slot) env)).result with
  | ok ack =>
    cases hlook : cfg.engine.trackers.lookup call.cid with
    | none => simp [advance, h, hres, hlook, driveSubmit, handleSubmitOk]
    | some t =>
      cases hsub : t.submit (some ack.brokerOrderId) env.submitNowNs with
      | error err => simp [advance, h, hres, hlook, hsub, driveSubmit, handleSubmitOk]
      | ok p => simp [advance, h, hres, hlook, hsub, driveSubmit, handleSubmitOk]
  | error err =>
    cases hcounts : err.countsTowardFailover with
    | true =>
      cases hlook : cfg.engine.trackers.lookup call.cid <;>
        simp [advance, h, hres, hlook, hcounts, driveSubmit, handleSubmitErr,
          ExecutionState.rejectTracked]
    | false =>
      cases hlook : cfg.engine.trackers.lookup call.cid <;>
        simp [advance, h, hres, hlook, hcounts, driveSubmit, handleSubmitErr,
          ExecutionState.rejectTracked]

/-- Alone, a `submit` thread computes `submit`. -/
theorem solo_submit (h : cfg.threads tid = .idle) (call : SubmitCall) (env : SubmitEnv) :
    (threadRun mac eng cfg (solo tid (.submit call env) 6)).engine
      = (submit mac eng cfg.engine call env).2 := by
  have hsplit : solo tid (.submit call env) 6
      = solo tid (.submit call env) 3 ++ List.replicate 3 (.advance tid) := rfl
  rw [hsplit, threadRun, runState_append]
  cases hv : verify mac eng.verifierKey call.token call.approval with
  | false =>
    rw [submit_of_not_verified env hv]
    simp [solo, List.replicate, threadStep, startCall, h, Op.start, advance, hv]
  | true =>
    by_cases hused : call.token ∈ cfg.engine.consumedTokens
    · rw [submit_of_used env hv hused]
      simp [solo, List.replicate, threadStep, startCall, h, Op.start, advance, hv, hused]
    have hadm : Admitted mac eng cfg.engine call := ⟨hv, hused⟩
    cases ht : translateIntent call.intent call.sizedQuantity with
    | error reason =>
      rw [submit_of_untranslatable env hadm ht]
      simp [solo, List.replicate, threadStep, startCall, h, Op.start, advance, hv, hused, ht,
        ExecutionState.install, BrokerRouter.activeId]
    | ok intent =>
      have hinstalled : (threadRun mac eng cfg (solo tid (.submit call env) 3)).engine
          = cfg.engine.install call ∧
          (threadRun mac eng cfg (solo tid (.submit call env) 3)).threads tid
            = .contacting call env cfg.engine.router.active intent := by
        simp [solo, List.replicate, threadStep, startCall, h, Op.start, advance, hv, hused, ht,
          ExecutionState.install, BrokerRouter.activeId]
      rw [submit_of_translated env hadm ht]
      exact (solo_drive hinstalled.2).trans (by rw [hinstalled.1]; rfl)

end Solo

end Hedge.Exec
