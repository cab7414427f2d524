import Hedge.Common.Json
import Hedge.Supervisor.Policy
import Mathlib.Data.List.Infix

/-!
# The failure detector of the supervisor

Reference: `hedge-supervisor/src/detector.rs`.

Each of the six subscriptions has a classifier from a payload to at most one failure. A payload that
is no JSON document is dropped by every classifier, as is `null`, which stands for it here. The
detector stamps the failure with its clock.
-/

namespace Hedge.Supervisor

open Hedge Hedge.Common

/-! ## Payloads -/

/-- `BrokerId` on the wire: the name of the variant, alone or as the key of a `null`. -/
def readBrokerId (v : Json) : Option BrokerId :=
  let name := match v with
    | .str name => some name
    | .obj [(name, .null)] => some name
    | _ => none
  match name with
  | some "Zerodha" => some .zerodha
  | some "Dhan" => some .dhan
  | some "Shoonya" => some .shoonya
  | some "AngelOne" => some .angelOne
  | some "Upstox" => some .upstox
  | some "Simulated" => some .simulated
  | _ => none

/-- `md.connection.<source>`. -/
structure MdConnectionEvent where
  source : String
  status : String
  attempt : UInt32

/-- Read a struct of `n` fields. -/
def readStruct {α : Type*} (n : ℕ) (read : Json → Option α) (v : Json) : Option α :=
  if v.isStruct n then read v else none

def MdConnectionEvent.fromJson : Json → Option MdConnectionEvent :=
  readStruct 3 fun v => do
    let source ← v.required 0 "source" Json.asStr
    let status ← v.required 1 "status" Json.asStr
    let attempt ← v.defaulted 2 "attempt" Json.asU32 0
    return ⟨source, status, attempt⟩

/-- `cache.redis.<state>`. -/
structure CacheRedisEvent where
  state : String

def CacheRedisEvent.fromJson : Json → Option CacheRedisEvent :=
  readStruct 1 fun v => do
    let state ← v.required 0 "state" Json.asStr
    return ⟨state⟩

/-- `broker.metric.<broker>`. -/
structure BrokerMetricEvent where
  brokerId : BrokerId
  error : Bool
  latencyNs : UInt64
  tsNs : UInt64

def BrokerMetricEvent.fromJson : Json → Option BrokerMetricEvent :=
  readStruct 4 fun v => do
    let brokerId ← v.required 0 "broker_id" readBrokerId
    let error ← v.required 1 "error" Json.asBool
    let latencyNs ← v.defaulted 2 "latency_ns" Json.asU64 0
    let tsNs ← v.defaulted 3 "ts_ns" Json.asU64 0
    return ⟨brokerId, error, latencyNs, tsNs⟩

/-- `obs.latency.<stage>`. -/
structure ObsLatencyEvent where
  stage : String
  nanos : UInt64
  breach : Bool

def ObsLatencyEvent.fromJson : Json → Option ObsLatencyEvent :=
  readStruct 3 fun v => do
    let stage ← v.required 0 "stage" Json.asStr
    let nanos ← v.required 1 "nanos" Json.asU64
    let breach ← v.defaulted 2 "breach" Json.asBool false
    return ⟨stage, nanos, breach⟩

/-- `obs.error.<source>`. -/
structure ObsErrorEvent where
  source : String
  severity : String
  code : String
  message : String

def ObsErrorEvent.fromJson : Json → Option ObsErrorEvent :=
  readStruct 4 fun v => do
    let source ← v.required 0 "source" Json.asStr
    let severity ← v.defaulted 1 "severity" Json.asStr ""
    let code ← v.defaulted 2 "code" Json.asStr ""
    let message ← v.defaulted 3 "message" Json.asStr ""
    return ⟨source, severity, code, message⟩

/-- `ai.ollama.degraded`. -/
structure AiOllamaDegradedEvent where
  model : String
  fallbackModel : String
  reason : String

def AiOllamaDegradedEvent.fromJson : Json → Option AiOllamaDegradedEvent :=
  readStruct 3 fun v => do
    let model ← v.required 0 "model" Json.asStr
    let fallbackModel ← v.defaulted 1 "fallback_model" Json.asStr ""
    let reason ← v.defaulted 2 "reason" Json.asStr ""
    return ⟨model, fallbackModel, reason⟩

/-! ## Classifiers -/

/-- The thresholds of the detector. -/
structure Thresholds where
  failoverLatencyNs : UInt64
  spikeThresholdNs : UInt64

/-- `classify_md_connection`: a reconnect is no failure. -/
def classifyMdConnection (payload : Json) : Option FailureKind :=
  (MdConnectionEvent.fromJson payload).bind fun ev =>
    if ev.status = "disconnected" then some (.wsDisconnected ev.source) else none

/-- `classify_cache_redis`. -/
def classifyCacheRedis (payload : Json) : Option FailureKind :=
  (CacheRedisEvent.fromJson payload).bind fun ev =>
    if ev.state = "degraded" ∨ ev.state = "unavailable" then some .redisUnavailable else none

/-- `classify_broker_metric`. -/
def classifyBrokerMetric (th : Thresholds) (payload : Json) : Option FailureKind :=
  (BrokerMetricEvent.fromJson payload).bind fun ev =>
    if ev.error ∨ th.failoverLatencyNs < ev.latencyNs then
      some (.brokerErrorRateBreach ev.brokerId)
    else none

/-- `classify_obs_latency`. -/
def classifyObsLatency (th : Thresholds) (payload : Json) : Option FailureKind :=
  (ObsLatencyEvent.fromJson payload).bind fun ev =>
    if ev.breach ∨ th.spikeThresholdNs < ev.nanos then some (.externalApiLatencySpike ev.stage)
    else none

/-- `classify_obs_error`: only the sources that name Redis or Ollama count. -/
def classifyObsError (payload : Json) : Option FailureKind :=
  (ObsErrorEvent.fromJson payload).bind fun ev =>
    if ev.severity ≠ "error" ∧ ev.severity ≠ "critical" then none
    else
      let lc := ev.source.toList.map Char.toLower
      if "redis".toList <:+: lc then some .redisUnavailable
      else if "ollama".toList <:+: lc then some (.ollamaUnresponsive "unknown")
      else none

/-- `classify_ai_ollama_degraded`. -/
def classifyAiOllamaDegraded (payload : Json) : Option FailureKind :=
  (AiOllamaDegradedEvent.fromJson payload).map fun ev => .ollamaUnresponsive ev.model

/-! ## Subscriptions -/

/-- The subscriptions of the detector. -/
inductive Subscription where
  | mdConnection
  | cacheRedis
  | brokerMetric
  | obsLatency
  | obsError
  | aiOllamaDegraded
deriving DecidableEq, Repr

namespace Subscription

/-- All subscriptions, in the order they are made. -/
def all : List Subscription :=
  [mdConnection, cacheRedis, brokerMetric, obsLatency, obsError, aiOllamaDegraded]

/-- The tokens of the subject pattern. -/
def pattern : Subscription → List String
  | mdConnection => ["md", "connection", ">"]
  | cacheRedis => ["cache", "redis", ">"]
  | brokerMetric => ["broker", "metric", ">"]
  | obsLatency => ["obs", "latency", ">"]
  | obsError => ["obs", "error", ">"]
  | aiOllamaDegraded => ["ai", "ollama", "degraded"]

/-- The classifier of the subscription. -/
def classify (th : Thresholds) : Subscription → Json → Option FailureKind
  | mdConnection => classifyMdConnection
  | cacheRedis => classifyCacheRedis
  | brokerMetric => classifyBrokerMetric th
  | obsLatency => classifyObsLatency th
  | obsError => classifyObsError
  | aiOllamaDegraded => classifyAiOllamaDegraded

end Subscription

/-- A subject matches a pattern token by token; `>` stands for one token or more at the end. -/
def subjectMatches : List String → List String → Bool
  | [">"], _ :: _ => true
  | p :: ps, t :: ts => p = t && subjectMatches ps ts
  | [], [] => true
  | _, _ => false

end Hedge.Supervisor
