import Hedge.Common.Decimal
import Hedge.Common.Run
import Hedge.Warm.Cache

/-!
# Feeding the warm cache

Reference: `hedge-warmcache/src/updater.rs`.

Each handler decodes one JSON payload and stores what it carries; a payload that does not decode or
names no id is dropped. A payload without a time is stored under the time of its arrival. Unknown
fields are ignored, the `shadow` flag of a ranking among them.
-/

namespace Hedge.Warm

open Hedge Hedge.Common

/-! ## Payloads -/

/-- The time that a payload is stored under. -/
def stampOr (tsNs nowNs : UInt64) : UInt64 := if tsNs = 0 then nowNs else tsNs

/-- `AiRankEvent`. -/
structure AiRankEvent where
  correlationId : String
  tradeConfidenceScore : ExactFloat
  tsNs : UInt64

def AiRankEvent.read (v : Json) : Option AiRankEvent :=
  if !v.isStruct 3 then none
  else (v.required 0 "correlation_id" Json.asStr).bind fun correlationId =>
    (v.required 1 "trade_confidence_score" Json.asF32).bind fun tradeConfidenceScore =>
      (v.defaulted 2 "ts_ns" Json.asU64 0).map fun tsNs =>
        ⟨correlationId, tradeConfidenceScore, tsNs⟩

/-- `AiRegimeChangedEvent`. -/
structure AiRegimeChangedEvent where
  toLabel : String
  tsNs : UInt64

def AiRegimeChangedEvent.read (v : Json) : Option AiRegimeChangedEvent :=
  if !v.isStruct 2 then none
  else (v.required 0 "to" Json.asStr).bind fun toLabel =>
    (v.defaulted 1 "ts_ns" Json.asU64 0).map fun tsNs => ⟨toLabel, tsNs⟩

/-- `AiPsychStabilityEvent`. -/
structure AiPsychStabilityEvent where
  score : ExactFloat
  tsNs : UInt64

def AiPsychStabilityEvent.read (v : Json) : Option AiPsychStabilityEvent :=
  if !v.isStruct 2 then none
  else (v.required 0 "score" Json.asF32).bind fun score =>
    (v.defaulted 1 "ts_ns" Json.asU64 0).map fun tsNs => ⟨score, tsNs⟩

/-- `AiPriorityChangedEvent`. -/
structure AiPriorityChangedEvent where
  symbol : String
  toLabel : String
  tsNs : UInt64

def AiPriorityChangedEvent.read (v : Json) : Option AiPriorityChangedEvent :=
  if !v.isStruct 3 then none
  else (v.required 0 "symbol" Json.asStr).bind fun symbol =>
    (v.required 1 "to" Json.asStr).bind fun toLabel =>
      (v.defaulted 2 "ts_ns" Json.asU64 0).map fun tsNs => ⟨symbol, toLabel, tsNs⟩

/-- `AiNewsImpactEvent`. -/
structure AiNewsImpactEvent where
  symbol : String
  sentiment : ExactFloat
  impactMagnitude : ExactFloat
  tsNs : UInt64

def AiNewsImpactEvent.read (v : Json) : Option AiNewsImpactEvent :=
  if !v.isStruct 4 then none
  else (v.required 0 "symbol" Json.asStr).bind fun symbol =>
    (v.required 1 "sentiment" Json.asF32).bind fun sentiment =>
      (v.required 2 "impact_magnitude" Json.asF32).bind fun impactMagnitude =>
        (v.defaulted 3 "ts_ns" Json.asU64 0).map fun tsNs =>
          ⟨symbol, sentiment, impactMagnitude, tsNs⟩

/-! ## Texts -/

/-- `regime_to_market_stability`. -/
def regimeToMarketStability (label : String) : ExactFloat :=
  match label with
  | "Trending" => .fin 1
  | "Sideways" => .fin (8 / 10)
  | "HighVolatility" => .fin (5 / 10)
  | "NewsDriven" => .fin (4 / 10)
  | "LowParticipation" => .fin (3 / 10)
  | "LiquidityCrisis" => .fin (1 / 10)
  | "Panic" => .fin (5 / 100)
  | _ => .fin 1

/-- `parse_priority`. -/
def parsePriority (label : String) : Priority :=
  match label with
  | "P1" => .p1
  | "P2" => .p2
  | "P3" => .p3
  | "P4" => .p4
  | _ => .p3

/-- `parse_symbol`: the decimal form of an id. -/
def parseSymbol (s : String) : Option SymbolId :=
  (parseUnsigned 10 (2 ^ 32) s).map fun n => ⟨UInt32.ofNat n⟩

/-- `parse_correlation_id`: 32 hexadecimal digits, or a decimal number. -/
def parseCorrelationId (s : String) : Option CorrelationId :=
  let hex := if s.utf8ByteSize = 32 then parseUnsigned 16 (2 ^ 128) s else none
  (hex.or (parseUnsigned 10 (2 ^ 128) s)).map fun n => ⟨BitVec.ofNat 128 n⟩

/-! ## Handlers -/

/-- What `handle_rank` stores of a payload: the id, the confidence and the time of the payload. -/
def rankStored (v : Json) : Option (CorrelationId × ExactFloat × UInt64) :=
  (AiRankEvent.read v).bind fun ev =>
    (parseCorrelationId ev.correlationId).map fun cid => (cid, ev.tradeConfidenceScore, ev.tsNs)

/-- `handle_rank`. -/
def handleRank (cache : WarmCache) (v : Json) (nowNs : UInt64) : WarmCache :=
  match rankStored v with
  | some (cid, confidence, tsNs) => cache.storeTradeConfidence cid confidence (stampOr tsNs nowNs)
  | none => cache

/-- `handle_regime`. -/
def handleRegime (cache : WarmCache) (v : Json) (nowNs : UInt64) : WarmCache :=
  match AiRegimeChangedEvent.read v with
  | some ev => cache.storeMarketStability (regimeToMarketStability ev.toLabel) (stampOr ev.tsNs nowNs)
  | none => cache

/-- `handle_psych`. -/
def handlePsych (cache : WarmCache) (v : Json) (nowNs : UInt64) : WarmCache :=
  match AiPsychStabilityEvent.read v with
  | some ev => cache.storeTraderStability ev.score (stampOr ev.tsNs nowNs)
  | none => cache

/-- `handle_priority`. -/
def handlePriority (cache : WarmCache) (v : Json) : WarmCache :=
  match AiPriorityChangedEvent.read v with
  | some ev => match parseSymbol ev.symbol with
    | some sym => cache.storePriority sym (parsePriority ev.toLabel)
    | none => cache
  | none => cache

/-- `handle_news`. -/
def handleNews (cache : WarmCache) (v : Json) (nowNs : UInt64) : WarmCache :=
  match AiNewsImpactEvent.read v with
  | some ev => match parseSymbol ev.symbol with
    | some sym => cache.storeNewsImpact sym
        ⟨ev.sentiment, ev.impactMagnitude, stampOr ev.tsNs nowNs⟩
    | none => cache
  | none => cache

/-- The subscriptions of the updater. -/
inductive WarmSubject where
  | rank
  | regime
  | psych
  | priority
  | news
deriving DecidableEq, Repr

/-- A message and the reading of the clock while it is handled. -/
structure WarmEvent where
  subject : WarmSubject
  payload : Json
  nowNs : UInt64

/-- One round of the loop of `run`. -/
def handle (cache : WarmCache) (ev : WarmEvent) : WarmCache :=
  match ev.subject with
  | .rank => handleRank cache ev.payload ev.nowNs
  | .regime => handleRegime cache ev.payload ev.nowNs
  | .psych => handlePsych cache ev.payload ev.nowNs
  | .priority => handlePriority cache ev.payload
  | .news => handleNews cache ev.payload ev.nowNs

/-- The cache after some messages. -/
def handleAll (cache : WarmCache) (events : List WarmEvent) : WarmCache := events.foldl handle cache

/-- A message is a ranking or leaves the rankings alone. -/
theorem confidence_handle {ev : WarmEvent} (h : ev.subject ≠ .rank) (cache : WarmCache) :
    (handle cache ev).confidence = cache.confidence := by
  obtain ⟨subject, payload, nowNs⟩ := ev
  cases subject with
  | rank => exact absurd rfl h
  | regime =>
    simp only [handle, handleRegime]
    split <;> rfl
  | psych =>
    simp only [handle, handlePsych]
    split <;> rfl
  | priority =>
    simp only [handle, handlePriority]
    split
    · split <;> rfl
    · rfl
  | news =>
    simp only [handle, handleNews]
    split
    · split <;> rfl
    · rfl

/-- A ranking leaves the snapshot alone. -/
theorem inner_handleRank (cache : WarmCache) (v : Json) (nowNs : UInt64) :
    (handleRank cache v nowNs).inner = cache.inner := by
  unfold handleRank
  split <;> rfl

/-- No message changes the staleness window. -/
theorem stalenessNs_handleAll (cache : WarmCache) (events : List WarmEvent) :
    (handleAll cache events).confidence.stalenessNs = cache.confidence.stalenessNs := by
  induction events generalizing cache with
  | nil => rfl
  | cons ev events ih =>
    change (handleAll (handle cache ev) events).confidence.stalenessNs = _
    rw [ih]
    by_cases hrank : ev.subject = .rank
    · simp only [handle, hrank, handleRank]
      split
      · exact ConfidenceLru.stalenessNs_insert _ _ _ _
      · rfl
    · rw [confidence_handle hrank]

/-- What a message does to the snapshot depends on the snapshot only. -/
theorem inner_handle_congr {cache cache' : WarmCache} (h : cache.inner = cache'.inner)
    (ev : WarmEvent) : (handle cache ev).inner = (handle cache' ev).inner := by
  obtain ⟨inner, confidence⟩ := cache
  obtain ⟨inner', confidence'⟩ := cache'
  obtain ⟨subject, payload, nowNs⟩ := ev
  subst h
  cases subject with
  | rank => simp only [handle, inner_handleRank]
  | regime =>
    simp only [handle, handleRegime]
    split <;> rfl
  | psych =>
    simp only [handle, handlePsych]
    split <;> rfl
  | priority =>
    simp only [handle, handlePriority]
    split
    · split <;> rfl
    · rfl
  | news =>
    simp only [handle, handleNews]
    split
    · split <;> rfl
    · rfl

end Hedge.Warm
