import Hedge.Exec.Lifecycle
import Hedge.Exec.Retry
import Hedge.Exec.Router
import Hedge.Risk.Approval
import Mathlib.Data.Finset.Insert

/-!
# Execution engine

Reference: `hedge-exec/src/engine.rs`.

`submit` is the only function that hands an order to a broker. Its state is the router, the tracker
registry and the set of consumed tokens. What it meets outside the process is a `SubmitEnv`: the
broker's reaction to each attempt, the jitter it draws and the clock. What it does outside the
process is recorded in a `SubmitOutcome`: every broker contact, every latency record and every
sleep.
-/

namespace Hedge.Exec

open Hedge.Common Hedge.Risk Hedge.BrokerApi

/-- `EXEC_ROUTE_BUDGET_NS`. -/
def execRouteBudgetNs : UInt64 := 5000000

/-- Replay flag. -/
inductive ReplayMode where
  | off
  | on
deriving DecidableEq, Repr

/-- Events the engine asks the network layer to publish. -/
inductive EngineEvent where
  | lifecycle (event : LifecycleEvent)
  | failover (event : FailoverEvent)
  | error (tag : String) (correlationIdHex : String) (message : String)
  | fill (correlationId : CorrelationId) (symbol : UInt32) (side : UInt8) (filledQty : UInt64)
      (avgFillPaise : Int64) (tsNs : UInt64)
deriving DecidableEq, Repr

/-- The fixed half of `ExecutionEngineInner`. -/
structure ExecutionEngine where
  verifierKey : Key
  retryPolicy : RetryPolicy
  replayMode : ReplayMode

/-- The mutable half of `ExecutionEngineInner`. -/
structure ExecutionState where
  router : BrokerRouter
  trackers : Map CorrelationId OrderLifecycleTracker
  consumedTokens : Finset ApprovalToken

/-- `ExecutionEngine::new`. -/
def ExecutionState.new (router : BrokerRouter) : ExecutionState := ⟨router, ∅, ∅⟩

/-- The lowercase hexadecimal digit of a nibble. -/
def hexDigit (n : ℕ) : Char := "0123456789abcdef".toList.getD n '0'

/-- `cid_to_hex`. -/
def cidToHex (cid : CorrelationId) : String :=
  String.ofList (cid.toBeBytes.flatMap fun b =>
    [hexDigit (b.toNat / 16), hexDigit (b.toNat % 16)])

/-- The side a wire byte names. -/
def translateSide (byte : UInt8) : Option Side :=
  if byte = 0 then some .buy else if byte = 1 then some .sell else none

/-- `translate_intent`: wire bytes that name no variant are refused. -/
def translateIntent (intent : Hedge.OrderIntent) (sizedQuantity : UInt64) :
    Except String BrokerApi.OrderIntent :=
  match translateSide intent.side, OrderType.fromU8 intent.orderType,
      Exchange.fromI8 intent.exchange with
  | none, _, _ => .error "unknown side discriminant"
  | some _, none, _ => .error "unknown order_type discriminant"
  | some _, some _, none => .error "unknown exchange discriminant"
  | some side, some orderType, some exchange => .ok {
      correlationId := .fromBeBytes intent.correlationId
      symbolRaw := intent.symbol
      side := side
      quantity := sizedQuantity
      orderType := orderType
      limitPaise := intent.limitPaise
      exchange := exchange }

/-! ## Folding the broker's answer into the state -/

/-- `handle_submit_ok`: the tracker moves first, and a refused transition skips the rest. -/
def handleSubmitOk (st : ExecutionState) (cid : CorrelationId) (ack : SubmitAck) (tsNs : UInt64) :
    Except ExecError (List EngineEvent × ExecutionState) :=
  match st.trackers.lookup cid with
  | none => .error (.internal "tracker disappeared")
  | some t => match t.submit (some ack.brokerOrderId) tsNs with
    | .error err => .error err
    | .ok (event, t) =>
      let outcome := st.router.recordOutcome .success 0 tsNs
      .ok (.lifecycle event :: outcome.1.toList.map .failover,
        { st with trackers := st.trackers.insert cid t, router := outcome.2 })

/-- Drive a tracker into `Rejected`, through `Submitted` if it is still `New`. -/
def rejectTracker (t : OrderLifecycleTracker) (tsNs : UInt64) :
    List LifecycleEvent × OrderLifecycleTracker :=
  let (submitted, t) :=
    if t.state = .new then match t.submit none tsNs with
      | .ok (event, t) => ([event], t)
      | .error _ => ([], t)
    else ([], t)
  match t.reject tsNs with
  | .ok (event, t) => (submitted ++ [event], t)
  | .error _ => (submitted, t)

/-- `handle_submit_err`. -/
def handleSubmitErr (st : ExecutionState) (cid : CorrelationId) (err : ExecError) (tsNs : UInt64) :
    List EngineEvent × ExecutionState :=
  let error : EngineEvent := .error err.tag (cidToHex cid) err.display
  let (moves, st) := match st.trackers.lookup cid with
    | some t =>
      let (events, t) := rejectTracker t tsNs
      (events.map EngineEvent.lifecycle, { st with trackers := st.trackers.insert cid t })
    | none => ([], st)
  if err.countsTowardFailover then
    -- `u32::MAX` marks a round trip without a measurement
    let outcome := st.router.recordOutcome .failure 4294967295 tsNs
    (error :: moves ++ outcome.1.toList.map .failover, { st with router := outcome.2 })
  else (error :: moves, st)

/-! ## `submit` -/

/-- The arguments of a `submit` call. -/
structure SubmitCall where
  token : ApprovalToken
  intent : Hedge.OrderIntent
  sizedQuantity : UInt64
  tsNs : UInt64
  sequence : UInt64
deriving DecidableEq

/-- The tuple a call claims to be approved. -/
def SubmitCall.approval (call : SubmitCall) : Approval :=
  ⟨call.intent, call.sizedQuantity, call.tsNs, call.sequence⟩

/-- The correlation id of a call. -/
def SubmitCall.cid (call : SubmitCall) : CorrelationId := .fromBeBytes call.intent.correlationId

/-- What one `submit` call meets outside the process. -/
structure SubmitEnv where
  react : ℕ → SubmitReaction
  jitter : ℕ → ExactFloat
  stageStartNs : UInt64
  submitNowNs : UInt64
  emitNowNs : UInt64

/-- One `BrokerAdapter::submit` request and what became of it. -/
structure BrokerContact where
  slot : ActiveSlot
  intent : BrokerApi.OrderIntent
  attempt : ℕ
  reaction : SubmitReaction

/-- What one `submit` call returns and does outside the process. -/
structure SubmitOutcome where
  result : Except ExecError (List EngineEvent)
  contacts : List BrokerContact := []
  latency : List LatencyRecord := []
  breaches : List LatencyRecord := []
  sleeps : List UInt64 := []

/-- The record `emit_latency` builds. -/
def latencyRecord (cid : CorrelationId) (env : SubmitEnv) (breachHint : Bool) : LatencyRecord :=
  let elapsed := env.emitNowNs.saturatingSub env.stageStartNs
  { correlationId := cid.toBeBytes
    stage := Stage.executionRouting.asU8
    nanos := elapsed
    budgetNanos := execRouteBudgetNs
    breach := breachHint || decide (execRouteBudgetNs < elapsed) }

/-- `emit_latency`: the record, and once more as a breach if it is one. -/
def SubmitOutcome.emitLatency (out : SubmitOutcome) (record : LatencyRecord) : SubmitOutcome :=
  { out with
    latency := out.latency ++ [record]
    breaches := out.breaches ++ if record.breach then [record] else [] }

/-- `trackers.entry(cid).or_insert_with(..)`. -/
def installTracker (trackers : Map CorrelationId OrderLifecycleTracker) (cid : CorrelationId)
    (t : OrderLifecycleTracker) : Map CorrelationId OrderLifecycleTracker :=
  match trackers.lookup cid with
  | some _ => trackers
  | none => trackers.insert cid t

/-- The operation the retry loop drives. -/
def submitOp (brokerId : BrokerId) (env : SubmitEnv) (attempt : ℕ) : Except ExecError SubmitAck :=
  match (env.react attempt).reply with
  | .ok ack => .ok ack
  | .error err => .error (.broker brokerId (UInt32.ofNat attempt) err)

/-- Steps 6 and 7: contact the broker and fold its answer. -/
def driveSubmit (eng : ExecutionEngine) (st : ExecutionState) (cid : CorrelationId)
    (slot : ActiveSlot) (brokerId : BrokerId) (intent : BrokerApi.OrderIntent) (env : SubmitEnv) :
    SubmitOutcome × ExecutionState :=
  let run := retryWithBackoff eng.retryPolicy env.jitter (submitOp brokerId env)
  let contacts := (List.range' 1 run.attempts).map fun k =>
    (⟨slot, intent, k, env.react k⟩ : BrokerContact)
  match run.result with
  | .ok ack => match handleSubmitOk st cid ack env.submitNowNs with
    | .error err => ({ result := .error err, contacts, sleeps := run.sleeps }, st)
    | .ok (events, st) =>
      (({ result := .ok events, contacts, sleeps := run.sleeps } : SubmitOutcome).emitLatency
        (latencyRecord cid env false), st)
  | .error err =>
    let (_, st) := handleSubmitErr st cid err env.submitNowNs
    (({ result := .error err, contacts, sleeps := run.sleeps } : SubmitOutcome).emitLatency
      (latencyRecord cid env true), st)

/-- `ExecutionEngine::submit`. -/
def submit (mac : Mac) (eng : ExecutionEngine) (st : ExecutionState) (call : SubmitCall)
    (env : SubmitEnv) : SubmitOutcome × ExecutionState :=
  let cid := call.cid
  -- Step 1: verify the HMAC
  if !verify mac eng.verifierKey call.token call.approval then
    (({ result := .error (.invalidApprovalToken (cidToHex cid)) } : SubmitOutcome).emitLatency
      (latencyRecord cid env false), st)
  -- Step 2: enforce single use
  else if call.token ∈ st.consumedTokens then
    (({ result := .error (.duplicateToken (cidToHex cid)) } : SubmitOutcome).emitLatency
      (latencyRecord cid env false), st)
  else
  let st := { st with consumedTokens := insert call.token st.consumedTokens }
  -- Step 3: pick the adapter
  let (slot, router) := st.router.pickForIntent none
  let brokerId := router.idOf slot
  -- Step 4: install a tracker
  let st := { st with
    router
    trackers := installTracker st.trackers cid (.new cid brokerId call.sizedQuantity) }
  -- Step 5: translate the intent
  match translateIntent call.intent call.sizedQuantity with
  | .error reason =>
    ({ result := .error (.internal ("intent translation failed: " ++ reason)) }, st)
  | .ok intent => driveSubmit eng st cid slot brokerId intent env

/-! ## Fills and cancels -/

/-- `on_fill`: the tracker takes the cumulative figures, the event carries the difference. -/
def onFill (st : ExecutionState) (cid : CorrelationId) (symbol : UInt32) (side : UInt8)
    (cumFilledQty : UInt64) (cumAvgFillPaise : Int64) (tsNs : UInt64) :
    Except ExecError (List EngineEvent) × ExecutionState :=
  match st.trackers.lookup cid with
  | none => (.error (.internal ("no tracker for correlation_id " ++ cidToHex cid)), st)
  | some prior => match prior.partialFill cumFilledQty cumAvgFillPaise tsNs with
    | .error err => (.error err, st)
    | .ok (event, t) =>
      let st := { st with trackers := st.trackers.insert cid t }
      let deltaQty := cumFilledQty.saturatingSub prior.filledQty
      -- a redelivery of the same figures makes no fill
      if deltaQty = 0 then (.ok [.lifecycle event], st)
      else
        let deltaNotional := cumAvgFillPaise.toInt * cumFilledQty.toNat
          - prior.avgFillPaise.toInt * prior.filledQty.toNat
        let fillPx := Int64.ofInt (deltaNotional.tdiv deltaQty.toNat)
        (.ok [.lifecycle event, .fill cid symbol side deltaQty fillPx tsNs], st)

/-- `cancel`: the request goes to the active adapter. The first component is the broker order id
sent, if a request was made. -/
def cancel (st : ExecutionState) (cid : CorrelationId) (reply : Except BrokerError Unit)
    (nowNs : UInt64) :
    Option (ActiveSlot × String) × Except ExecError EngineEvent × ExecutionState :=
  match st.trackers.lookup cid with
  | none => (none, .error (.internal ("no tracker for correlation_id " ++ cidToHex cid)), st)
  | some t =>
    let sent := some (st.router.active, t.brokerOrderId.getD "")
    match reply with
    | .error err => (sent, .error (.broker t.broker 1 err), st)
    | .ok () => match t.cancel nowNs with
      | .error err => (sent, .error err, st)
      | .ok (event, t) =>
        (sent, .ok (.lifecycle event), { st with trackers := st.trackers.insert cid t })

/-! ## The fixtures of the crate's tests -/

/-- `sample_intent`. -/
def sampleIntent : Hedge.OrderIntent where
  correlationId := Vector.ofFn fun i : Fin 16 => if i.val = 15 then 1 else 0
  symbol := 42
  side := 0
  quantity := 10
  orderType := 0
  limitPaise := 100000
  exchange := 0

/-- The engine of `make_engine`. -/
def makeEngine : ExecutionEngine := ⟨[1, 2, 3], ⟨4, 1, 1, 0⟩, .off⟩

/-- The state of `make_engine`: Zerodha with Dhan as backup. -/
def makeState : ExecutionState := .new (.new .zerodha .dhan ⟨5000, 100000, 4⟩)

/-- A keyed function that reads off the last thirty-two bytes of the message. -/
def tailMac : Mac := fun key message =>
  Vector.ofFn fun i : Fin 32 => message.getD (31 + i.val) 0 ^^^ key.getD i.val 0

/-- A call whose token is minted over exactly its own arguments. -/
def mintedCall (a : Approval) : SubmitCall :=
  ⟨sign tailMac makeEngine.verifierKey a, a.intent, a.sizedQuantity, a.tsNs, a.sequence⟩

/-- A broker that follows a script and refuses what is beyond it, at a fixed clock. -/
def scriptedEnv (script : List SubmitReaction) : SubmitEnv :=
  ⟨fun k => script.getD (k - 1) (.refuse (.rejected "script over")), fun _ => .fin 0, 0, 0, 0⟩

end Hedge.Exec
