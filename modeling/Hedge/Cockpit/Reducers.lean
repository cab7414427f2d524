import Hedge.Cockpit.Alerts
import Hedge.Core.Types

/-!
# The reducers of the cockpit

Reference: the helpers and the per-channel reducers of `ui/src/store/cockpitStore.ts`.

Each channel has a slice and a reducer from a payload to the next slice. A reducer that reads a
property of `null` or `undefined` throws, which is `none` here. A value that may be `undefined` is an
`Option`. Numbers are the exact ones of their texts. Where the source uses a value as a key that may
be of another kind than a text, its conversion is part of the platform.
-/

namespace Hedge.Cockpit

open Hedge Hedge.Common Hedge.Gateway

/-! ## Values -/

/-- What the platform makes of a value where a text is needed. -/
structure Platform where
  toText : Option Json → String

/-- A value as a property key. -/
def Platform.key (platform : Platform) : Option Json → String
  | some (.str s) => s
  | v => platform.toText v

/-- `!!value`. -/
def truthy : Json → Bool
  | .null => false
  | .bool b => b
  | .num n => decide ((Json.num n).asF64 ≠ some 0)
  | .str s => decide (s ≠ "")
  | .arr _ => true
  | .obj _ => true

/-- `value.key`, which throws on `null` and `undefined`. -/
def property (v : Option Json) (key : String) : Option (Option Json) :=
  match v with
  | none => none
  | some .null => none
  | some v => some (v.get key)

/-- `a ?? b`. -/
def orElse (a b : Option Json) : Option Json :=
  match a with
  | none => b
  | some .null => b
  | some v => some v

/-- An object without the fields that are `undefined`. -/
def definedFields (fields : List (String × Option Json)) : Json :=
  .obj (fields.filterMap fun field => field.2.map fun v => (field.1, v))

/-- `cap`. -/
def cap {α : Type*} (xs : List α) (n : ℕ) : List α := if xs.length > n then xs.take n else xs

/-- Equality of two values of a `Set`. Arrays and objects are compared by identity, and no two places
of the lists that are compared here hold the same one. -/
def sameValue : Json → Json → Bool
  | .null, .null => true
  | .bool a, .bool b => decide (a = b)
  | .num m, .num n => decide ((Json.num m).asF64 = (Json.num n).asF64)
  | .str a, .str b => decide (a = b)
  | _, _ => false

/-- `[...value]`: the elements of an array and the characters of a text; nothing else can be spread. -/
def spread : Option Json → Option (List Json)
  | some (.arr elems) => some elems
  | some (.str s) => some (s.toList.map fun c => .str (String.singleton c))
  | _ => none

/-- The loop of `uniqLeft`: the first occurrences, until there are `capN`. -/
def uniqLeftFrom (capN : ℕ) (out : List Json) : List Json → List Json
  | [] => out
  | s :: rest =>
    if out.any (sameValue s) then uniqLeftFrom capN out rest
    else if capN ≤ (out ++ [s]).length then out ++ [s]
    else uniqLeftFrom capN (out ++ [s]) rest

/-- `uniqLeft`, which throws on what cannot be spread. -/
def uniqLeft (existing : List Json) (incoming : Option Json) (capN : ℕ) : Option (List Json) :=
  (spread incoming).map fun incoming => uniqLeftFrom capN [] (incoming ++ existing)

/-! ## Bounds -/

def maxNews : ℕ := 200
def maxAiExplanations : ℕ := 100
def maxReplayFrames : ℕ := 200
def maxRiskDecisions : ℕ := 200
def maxExecOrders : ℕ := 250
def maxBehaviors : ℕ := 32

/-! ## Market -/

structure MarketSlice where
  ticks : Map String Json
  oi : Map String Json
  breadthVolatility : Option Json
  breadthSectors : Map String Json
  connections : Map String Json

/-- `emptyMarket`. -/
def emptyMarket : MarketSlice := ⟨∅, ∅, none, ∅, ∅⟩

/-- The tick that a top of book makes: it keeps the last price of the tick before it. -/
def tickOfBook (prev : MarketSlice) (symbol : String) (data : Json) : Json :=
  definedFields [("symbol", some (.str symbol)),
    ("ltp_paise", orElse ((prev.ticks.lookup symbol).bind (·.get "ltp_paise"))
      (data.get "bid_paise")),
    ("bid_paise", data.get "bid_paise"), ("ask_paise", data.get "ask_paise"),
    ("ts_recv_ns", data.get "ts_ns")]

/-- `reduceMarket`: it checks what it reads and never throws. -/
def reduceMarket (platform : Platform) (prev : MarketSlice) (ev : Json) : MarketSlice :=
  match ev.get "kind", ev.get "data" with
  | some kind, some data =>
    if truthy kind ∧ isObject data then
      match kind, (data.get "symbol").bind Json.asStr, (data.get "source").bind Json.asStr with
      | .str "tick", some symbol, _ => { prev with ticks := prev.ticks.insert symbol data }
      | .str "book", some symbol, _ =>
        { prev with ticks := prev.ticks.insert symbol (tickOfBook prev symbol data) }
      | .str "oi", some symbol, _ => { prev with oi := prev.oi.insert symbol data }
      | .str "breadth.volatility", _, _ => { prev with breadthVolatility := some data }
      | .str "breadth.sector", _, _ =>
        { prev with
          breadthSectors := prev.breadthSectors.insert (platform.key (data.get "sector")) data }
      | .str "connection", _, some source =>
        { prev with connections := prev.connections.insert source data }
      | _, _, _ => prev
    else prev
  | _, _ => prev

/-! ## Orderflow -/

structure OrderflowSlice where
  heatmaps : Map String Json

/-- `reduceOrderflow`. -/
def reduceOrderflow (platform : Platform) (prev : OrderflowSlice) (ev : Json) :
    Option OrderflowSlice := do
  let kind ← property (some ev) "kind"
  match kind, ev.get "data" with
  | some (.str "heatmap"), data =>
    let symbol ← property data "symbol"
    return { prev with heatmaps := prev.heatmaps.insert (platform.key symbol) (data.getD .null) }
  | _, _ => return prev

/-! ## Signals -/

/-- The presentation state of the market open. -/
structure WarModeStatus where
  active : Bool
  minConfidence : ℚ
  scanMultiplier : ℚ

/-- `emptyWarMode`. -/
def emptyWarMode : WarModeStatus := ⟨false, 6 / 10, 2⟩

structure RankedSignal where
  correlationId : String
  signalId : Option String
  strategy : String
  symbol : String
  side : String
  baseProbability : ℚ
  confidence : ℚ
  tradeConfidenceScore : Option ℚ
  factors : Option Json
  shadow : Bool
  explanation : Option String
  tsNs : Option ℚ

structure SignalsSlice where
  byCorrelation : Map String RankedSignal
  recent : List RankedSignal
  priorities : Map String Json
  lastEmittedAtByStrategy : Map String ℚ
  enabledByStrategy : Map String Bool

/-- `emptySignals`. -/
def emptySignals : SignalsSlice := ⟨∅, [], ∅, ∅, ∅⟩

/-- `asString`. -/
def asString (v : Option Json) : Option String := v.bind Json.asStr

/-- `asNumber`. -/
def asNumber (v : Option Json) : Option ℚ := v.bind Json.asF64

/-- An object, or nothing. -/
def asObject (v : Option Json) : Option Json := v.filter isObject

/-- `Boolean(v ?? false)`. -/
def asFlag (v : Option Json) : Bool := ((orElse v (some (.bool false))).map truthy).getD false

/-- A signal of the shape `{ signal, ranks }`, with the AI fields of its first rank. -/
def flattenNested (p : Json) : Option RankedSignal :=
  let signal := (asObject (p.get "signal")).getD (.obj [])
  let rank := match p.get "ranks" with
    | some (.arr (first :: _)) => first
    | _ => .obj []
  let correlationId := (asString (p.get "correlation_id")).or
    ((asString (signal.get "correlation_id")).or (asString (rank.get "correlation_id")))
  (correlationId.filter fun id => id ≠ "").map fun correlationId =>
    { correlationId := correlationId
      signalId := (asString (signal.get "signal_id")).or (asString (rank.get "signal_id"))
      strategy := ((asString (signal.get "strategy")).or (asString (rank.get "strategy"))).getD "—"
      symbol := ((asString (signal.get "symbol")).or (asString (rank.get "symbol"))).getD "—"
      side := ((asString (signal.get "side")).or (asString (rank.get "side"))).getD "buy"
      baseProbability := (asNumber (signal.get "base_probability")).getD 0
      confidence := (asNumber (signal.get "confidence")).getD 0
      tradeConfidenceScore := asNumber (rank.get "trade_confidence_score")
      factors := asObject (rank.get "factors")
      shadow := asFlag (orElse (signal.get "shadow") (rank.get "shadow"))
      explanation := (asString (rank.get "explanation")).or (asString (signal.get "explanation"))
      tsNs := (asNumber (rank.get "ts_ns")).or (asNumber (signal.get "ts_ns")) }

/-- A signal that comes flat. -/
def flattenFlat (p : Json) : Option RankedSignal :=
  ((asString (p.get "correlation_id")).filter fun id => id ≠ "").map fun correlationId =>
    { correlationId := correlationId
      signalId := asString (p.get "signal_id")
      strategy := (asString (p.get "strategy")).getD "—"
      symbol := (asString (p.get "symbol")).getD "—"
      side := (asString (p.get "side")).getD "buy"
      baseProbability := (asNumber (p.get "base_probability")).getD 0
      confidence := (asNumber (p.get "confidence")).getD 0
      tradeConfidenceScore := asNumber (p.get "trade_confidence_score")
      factors := asObject (p.get "factors")
      shadow := asFlag (p.get "shadow")
      explanation := asString (p.get "explanation")
      tsNs := asNumber (p.get "ts_ns") }

/-- `flattenSignalPayload`. -/
def flattenSignalPayload (payload : Json) : Option RankedSignal :=
  if isObject payload then
    if (payload.get "signal").isSome ∨ (payload.get "ranks").isSome then flattenNested payload
    else flattenFlat payload
  else none

/-- A signal that `reduceSignals` takes: no shadow one, and in the war mode none below its
confidence. -/
def RankedSignal.isTaken (sig : RankedSignal) (warMode : WarModeStatus) : Bool :=
  !sig.shadow && !(warMode.active && decide (sig.confidence < warMode.minConfidence))

/-- `reduceSignals`. -/
def reduceSignals (prev : SignalsSlice) (sig : RankedSignal) (warMode : WarModeStatus) :
    SignalsSlice :=
  if sig.isTaken warMode then
    { prev with
      byCorrelation := prev.byCorrelation.insert sig.correlationId sig
      recent := cap (sig :: prev.recent.filter fun s => s.correlationId ≠ sig.correlationId)
        maxAiExplanations
      lastEmittedAtByStrategy := match sig.tsNs.filter fun ts => ts ≠ 0 with
        | some ts => prev.lastEmittedAtByStrategy.insert sig.strategy ts
        | none => prev.lastEmittedAtByStrategy }
  else prev

/-- A frame on the channel of signals that is about the tier of a symbol. -/
def isPriorityChange (env : ServerEnvelope) : Bool :=
  env.subject.any fun subject => startsWith subject "ai.priority.changed"

/-- `reduceSignalsChannel`. -/
def reduceSignalsChannel (platform : Platform) (prev : SignalsSlice) (env : ServerEnvelope)
    (warMode : WarModeStatus) : SignalsSlice :=
  if isPriorityChange env then
    match (env.payload.get "symbol").filter truthy, (env.payload.get "to").filter truthy with
    | some symbol, some tier =>
      { prev with priorities := prev.priorities.insert (platform.key (some symbol)) tier }
    | _, _ => prev
  else match flattenSignalPayload env.payload with
    | some flat => reduceSignals prev flat warMode
    | none => prev

/-! ## Risk and execution -/

structure RiskSlice where
  decisions : List (Option Json)
  killswitch : Json
  cooldowns : Map String Json
  positions : Map String Json
  portfolio : Option Json
  dailyTargetReached : Option Json

/-- `emptyRisk`. -/
def emptyRisk : RiskSlice := ⟨[], .obj [("active", .bool false)], ∅, ∅, none, none⟩

/-- `reduceRisk`. -/
def reduceRisk (platform : Platform) (prev : RiskSlice) (ev : Json) : Option RiskSlice := do
  let kind ← property (some ev) "kind"
  let data := ev.get "data"
  match kind with
  | some (.str "decision") =>
    return { prev with decisions := cap (data :: prev.decisions) maxRiskDecisions }
  | some (.str "killswitch") =>
    let active ← property data "active"
    let reason ← property data "reason"
    let tsNs ← property data "ts_ns"
    return { prev with
      killswitch := definedFields [("active", active), ("reason", reason), ("ts_ns", tsNs)] }
  | some (.str "cooldown") =>
    let symbol ← property data "symbol"
    let untilTsNs ← property data "until_ts_ns"
    let untilTsNs := (orElse untilTsNs (some (.ofU64 0))).getD .null
    return { prev with cooldowns := prev.cooldowns.insert (platform.key symbol) untilTsNs }
  | some (.str "target.reached") => return { prev with dailyTargetReached := data }
  | some (.str "pos.update") =>
    let symbol ← property data "symbol"
    return { prev with positions := prev.positions.insert (platform.key symbol) (data.getD .null) }
  | some (.str "pos.risk_state") => return { prev with portfolio := data }
  | _ => return prev

structure ExecSlice where
  orders : Map String Json
  recent : List Json
  failovers : List (Option Json)

/-- `emptyExec`. -/
def emptyExec : ExecSlice := ⟨∅, [], []⟩

/-- `reduceExec`. -/
def reduceExec (platform : Platform) (prev : ExecSlice) (ev : Json) : Option ExecSlice := do
  let recent := cap (ev :: prev.recent) maxExecOrders
  let kind ← property (some ev) "kind"
  let data := ev.get "data"
  match kind with
  | some (.str "order") | some (.str "fill") =>
    let correlationId ← property data "correlation_id"
    return { prev with orders := prev.orders.insert (platform.key correlationId) ev, recent := recent }
  | some (.str "broker.failover") =>
    return { prev with failovers := cap (data :: prev.failovers) 50, recent := recent }
  | some (.str "trade.closed") => return { prev with recent := recent }
  | _ => return prev

/-! ## News, psychology, replay and latency -/

structure NewsSlice where
  recent : List Json

/-- `reduceNews`. -/
def reduceNews (prev : NewsSlice) (n : Json) : NewsSlice := ⟨cap (n :: prev.recent) maxNews⟩

structure PsychSlice where
  stability : Option Json
  recentBehaviors : List Json
  interventions : List (Option Json)

/-- `emptyPsych`. -/
def emptyPsych : PsychSlice := ⟨none, [], []⟩

/-- `reducePsych`. -/
def reducePsych (prev : PsychSlice) (ev : Json) : Option PsychSlice := do
  let kind ← property (some ev) "kind"
  let data := ev.get "data"
  match kind with
  | some (.str "stability") =>
    let behaviors ← property data "behaviors"
    let recentBehaviors ← uniqLeft prev.recentBehaviors behaviors maxBehaviors
    return { prev with stability := data, recentBehaviors := recentBehaviors }
  | _ => return { prev with interventions := cap (data :: prev.interventions) 50 }

structure ReplaySlice where
  status : Option Json
  sessions : Option Json
  recentFrames : List (Option Json)

/-- `emptyReplay`. -/
def emptyReplay : ReplaySlice := ⟨none, some (.arr []), []⟩

/-- `reduceReplay`. -/
def reduceReplay (prev : ReplaySlice) (ev : Json) : Option ReplaySlice := do
  let kind ← property (some ev) "kind"
  let data := ev.get "data"
  match kind with
  | some (.str "status") => return { prev with status := data }
  | some (.str "list") =>
    let sessions ← property data "sessions"
    return { prev with sessions := sessions }
  | some (.str "frame") =>
    return { prev with recentFrames := cap (data :: prev.recentFrames) maxReplayFrames }
  | _ => return prev

structure LatencySlice where
  records : List (Option Json)
  aggregates : Map String Json

/-- `emptyLatency`. -/
def emptyLatency : LatencySlice := ⟨[], ∅⟩

/-- `reduceLatency`. -/
def reduceLatency (platform : Platform) (prev : LatencySlice) (ev : Json) : Option LatencySlice := do
  let kind ← property (some ev) "kind"
  let data := ev.get "data"
  match kind with
  | some (.str "record") => return { prev with records := cap (data :: prev.records) 500 }
  | _ =>
    let stage ← property data "stage"
    return { prev with
      aggregates := prev.aggregates.insert (platform.key stage) (data.getD .null) }

end Hedge.Cockpit
