import Hedge.Risk.Approval
import Hedge.Risk.State

/-!
# The evaluator

Reference: `hedge-risk/src/engine.rs` and `hedge-risk/src/decision.rs`.

`evaluateInner` runs thirteen gates in a fixed order and returns at the first one that rejects. The
condition of each gate is a definition of its own, so that the order of the gates can be stated
without repeating them (`Hedge/Risk/Gates.lean`). Everything the call reads from outside the engine
is in `EvalInput`: the signal, the entry price, the WarmCache and the clocks.
-/

namespace Hedge.Risk

open Hedge.Common Hedge.Core

/-! ## Decisions -/

/-- Per-gate diagnostic. -/
inductive GateOutcome where
  | pass
  | reject (reason : RejectionReason)
deriving DecidableEq, Repr

/-- Per-gate trace; a gate that was not reached stays `none`. -/
structure RiskRationale where
  killSwitch : Option GateOutcome := none
  sessionTime : Option GateOutcome := none
  dailyLoss : Option GateOutcome := none
  drawdown : Option GateOutcome := none
  frequency : Option GateOutcome := none
  positionSize : Option GateOutcome := none
  leverage : Option GateOutcome := none
  exposure : Option GateOutcome := none
  slippageCooldown : Option GateOutcome := none
  volatilityBlock : Option GateOutcome := none
  brokerLatencyBlock : Option GateOutcome := none
  profitTarget : Option GateOutcome := none
  adaptiveRisk : Option GateOutcome := none
deriving DecidableEq, Repr

/-- The result of an `evaluate` call. -/
inductive RiskDecision where
  | approved (token : ApprovalToken) (sizedQuantity : UInt64) (rationale : RiskRationale)
  | rejected (reason : RejectionReason) (rationale : RiskRationale)
deriving DecidableEq

/-- `is_approved`. -/
def RiskDecision.isApproved : RiskDecision → Bool
  | .approved .. => true
  | .rejected .. => false

/-- `rejection_reason`. -/
def RiskDecision.rejectionReason : RiskDecision → Option RejectionReason
  | .approved .. => none
  | .rejected reason _ => some reason

/-! ## The engine and its inputs -/

/-- The immutable half of `RiskEngine`: configuration and signing key. -/
structure RiskEngine where
  capital : CapitalConfig
  riskCfg : RiskConfig
  sessionCfg : SessionConfig
  key : Key

/-- The mutable half: Kill_Switch, state and the mint sequence. -/
structure RiskEngineState where
  killSwitch : KillSwitchState
  state : RiskState
  sequence : UInt64

/-- `RiskEngine::new`. -/
def RiskEngine.init (eng : RiskEngine) : RiskEngineState where
  killSwitch := KillSwitchState.new
  state := RiskState.new eng.capital
  sequence := 1

/-- The read contract of the WarmCache. -/
structure WarmCacheView where
  marketStability : ExactFloat
  tradeConfidence : CorrelationId → Option ExactFloat
  traderStability : ExactFloat

/-- `MockWarmCacheView::neutral`: no penalty and no ranking. -/
def WarmCacheView.neutral : WarmCacheView := ⟨.fin 1, fun _ => none, .fin 1⟩

/-- Day of the week of an IST reading. -/
inductive Weekday where
  | mon | tue | wed | thu | fri | sat | sun
deriving DecidableEq, Repr

/-- The wall clock in `Asia/Kolkata`. -/
structure IstReading where
  weekday : Weekday
  hour : ℕ
  minute : ℕ
  second : ℕ
deriving DecidableEq

/-- What one `evaluate` call reads from outside the engine. `now_ns` is read three times: at the
frequency gate, at the cooldown gate and when the token is minted. -/
structure EvalInput where
  signal : Signal
  entryPricePaise : Int64
  warmCache : WarmCacheView
  ist : IstReading
  frequencyNs : UInt64
  cooldownNs : UInt64
  mintNs : UInt64

/-- `is_within_session`: a weekday inside the closed window. -/
def isWithinSession (cfg : SessionConfig) (now : IstReading) : Bool :=
  if now.weekday = .sat ∨ now.weekday = .sun then false
  else
    let nowTime := NaiveTime.fromHms now.hour now.minute now.second
    decide (cfg.startIst ≤ nowTime ∧ nowTime ≤ cfg.endIst)

/-! ## Gate conditions -/

/-- Step 3: total PnL at or below the daily loss limit. -/
def dailyLossBreached (eng : RiskEngine) (state : RiskState) : Bool :=
  decide (state.totalPnlPaise ≤ -(Int64.fromU32 eng.riskCfg.maxDailyLossInr * 100))

/-- Step 4: drawdown at or above its limit. -/
def drawdownBreached (eng : RiskEngine) (state : RiskState) : Bool :=
  decide (Int64.fromU32 eng.riskCfg.maxDrawdownInr * 100 ≤ state.drawdownPaise)

/-- Step 5: the counters, with their refreshed caches. -/
def frequencyCheck (eng : RiskEngine) (state : RiskState) (nowNs : UInt64) :
    Bool × FrequencyCounters :=
  state.frequency.wouldBreach nowNs eng.riskCfg.maxTradesPerMinute eng.riskCfg.maxTradesPerHour
    eng.riskCfg.maxTradesPerSession

/-- The worst-case quantity the size, leverage and exposure gates use. -/
def prospectiveQty (signal : Signal) : UInt64 := max signal.riskProfile.maxSizeQty 1

/-- Units already held of the signal's symbol. -/
def currentPerSymbol (state : RiskState) (signal : Signal) : UInt64 :=
  (state.perSymbolPosition.lookup ⟨signal.symbol⟩).getD 0

/-- Notional already held of the signal's symbol. -/
def currentPerSymbolExposure (state : RiskState) (signal : Signal) : Int64 :=
  (state.perSymbolExposurePaise.lookup ⟨signal.symbol⟩).getD 0

/-- Step 6: per-symbol or portfolio position cap. -/
def positionBreached (eng : RiskEngine) (state : RiskState) (signal : Signal) : Bool :=
  decide (UInt64.fromU32 eng.riskCfg.maxPositionPerSymbol
      < (currentPerSymbol state signal).saturatingAdd (prospectiveQty signal)) ||
    decide (UInt64.fromU32 eng.riskCfg.maxPositionPortfolio
      < state.portfolioPosition.saturatingAdd (prospectiveQty signal))

/-- `entry_price × qty` for the worst-case quantity. -/
def prospectiveExposure (signal : Signal) (entryPricePaise : Int64) : Int64 :=
  entryPricePaise.saturatingMul (prospectiveQty signal).toInt64

/-- Step 7: account leverage; a zero capital base passes. -/
def leverageBreached (eng : RiskEngine) (state : RiskState) (signal : Signal)
    (entryPricePaise : Int64) : Bool :=
  let capitalPaise := Int64.fromU32 eng.capital.baseInr * 100
  let prospectiveNotional :=
    state.aggregateNotionalPaise.saturatingAdd (prospectiveExposure signal entryPricePaise)
  decide (0 < capitalPaise) &&
    ExactFloat.gt (.fin (prospectiveNotional.toInt / capitalPaise.toInt))
      eng.riskCfg.maxLeverageAccount

/-- Step 8: per-symbol notional exposure. -/
def exposureBreached (eng : RiskEngine) (state : RiskState) (signal : Signal)
    (entryPricePaise : Int64) : Bool :=
  decide (Int64.fromU32 eng.riskCfg.maxExposurePerSymbolInr * 100
    < (currentPerSymbolExposure state signal).saturatingAdd
        (prospectiveExposure signal entryPricePaise))

/-- The brokers whose latency step 11 consults. -/
def latencyBrokers : List BrokerId := [.zerodha, .dhan, .shoonya, .angelOne, .upstox]

/-- Step 11: some broker is at or below the latency threshold; one without a reading counts. -/
def anyBrokerOk (eng : RiskEngine) (state : RiskState) : Bool :=
  latencyBrokers.any fun b => match state.brokerLatency.lookup b with
    | some ms => decide (ms ≤ eng.riskCfg.brokerLatencyBlockMs)
    | none => true

/-! ## Sizing -/

/-- Clamp into `[0.0, 1.0]`; NaN becomes `0.0`. -/
def clamp01 (v : ExactFloat) : ExactFloat :=
  if v.isNan || v.lt (.fin 0) then .fin 0 else if v.gt (.fin 1) then .fin 1 else v

/-- Step 13: base risk scaled by the three clamped factors. -/
def adaptiveRiskPaise (eng : RiskEngine) (inp : EvalInput) : Int64 :=
  let baseRiskPaise := Int64.fromU32 eng.riskCfg.baseRiskPerTradeInr * 100
  let cid := CorrelationId.fromBeBytes inp.signal.correlationId
  let marketStability := clamp01 inp.warmCache.marketStability
  -- a stale or missing ranking falls back to the signal's own confidence
  let signalConfidence := clamp01 ((inp.warmCache.tradeConfidence cid).getD inp.signal.confidence)
  let traderDiscipline := clamp01 inp.warmCache.traderStability
  let base := ExactFloat.ofInt baseRiskPaise.toInt
  let scaled := ((base.mul marketStability).mul signalConfidence).mul traderDiscipline
  if scaled.isFinite && scaled.gt (.fin 0) then
    Int64.ofInt ((scaled.min base).toIntSat (-2 ^ 63) (2 ^ 63 - 1))
  else 0

/-- Step 14: the share count, halved, capped and floored at one. -/
def sizedQuantity (state : RiskState) (inp : EvalInput) (adaptiveRisk : Int64) : UInt64 :=
  let q : UInt64 := if 0 < inp.entryPricePaise then
    UInt64.ofNat (adaptiveRisk.toInt.toNat / inp.entryPricePaise.toInt.toNat) else 0
  let q := if state.target.shouldHalve then q / 2 else q
  let q := min q inp.signal.riskProfile.maxSizeQty
  if q = 0 then 1 else q

/-- Step 15: the intent the token is minted over. -/
def mintIntent (signal : Signal) (sized : UInt64) : OrderIntent where
  correlationId := signal.correlationId
  symbol := signal.symbol
  side := signal.side
  quantity := sized
  orderType := 0
  limitPaise := signal.riskProfile.takeProfitPaise
  exchange := 0

/-! ## `evaluate_inner` -/

/-- The evaluation core: the gates in order, then sizing and the mint. -/
def evaluateInner (mac : Mac) (eng : RiskEngine) (s : RiskEngineState) (inp : EvalInput) :
    RiskDecision × RiskEngineState :=
  let symbol : SymbolId := ⟨inp.signal.symbol⟩
  let rationale : RiskRationale := {}
  -- Step 1: Kill_Switch
  if s.killSwitch.active then
    (.rejected .killSwitchEngaged
      { rationale with killSwitch := some (.reject .killSwitchEngaged) }, s)
  else
  let rationale := { rationale with killSwitch := some .pass }
  -- Step 2: session window
  if !isWithinSession eng.sessionCfg inp.ist then
    (.rejected .sessionClosed { rationale with sessionTime := some (.reject .sessionClosed) }, s)
  else
  let rationale := { rationale with sessionTime := some .pass }
  -- Step 3: daily loss
  if dailyLossBreached eng s.state then
    (.rejected .maxDailyLoss { rationale with dailyLoss := some (.reject .maxDailyLoss) }, s)
  else
  let rationale := { rationale with dailyLoss := some .pass }
  -- Step 4: drawdown, which engages the switch
  if drawdownBreached eng s.state then
    (.rejected .maxDrawdown { rationale with drawdown := some (.reject .maxDrawdown) },
      { s with killSwitch := (s.killSwitch.activate .maxDrawdown).2 })
  else
  let rationale := { rationale with drawdown := some .pass }
  -- Step 5: trade frequency
  let check := frequencyCheck eng s.state inp.frequencyNs
  let s := { s with state := { s.state with frequency := check.2 } }
  if check.1 then
    (.rejected .tradeFrequency { rationale with frequency := some (.reject .tradeFrequency) }, s)
  else
  let rationale := { rationale with frequency := some .pass }
  -- Step 6: position size
  if positionBreached eng s.state inp.signal then
    (.rejected .maxPosition { rationale with positionSize := some (.reject .maxPosition) }, s)
  else
  let rationale := { rationale with positionSize := some .pass }
  -- Step 7: leverage
  if leverageBreached eng s.state inp.signal inp.entryPricePaise then
    (.rejected .maxLeverage { rationale with leverage := some (.reject .maxLeverage) }, s)
  else
  let rationale := { rationale with leverage := some .pass }
  -- Step 8: exposure
  if exposureBreached eng s.state inp.signal inp.entryPricePaise then
    (.rejected .maxExposure { rationale with exposure := some (.reject .maxExposure) }, s)
  else
  let rationale := { rationale with exposure := some .pass }
  -- Step 9: slippage cooldown
  if CooldownRegistry.isCooling s.state.cooldowns symbol inp.cooldownNs then
    (.rejected .slippageCooldown
      { rationale with slippageCooldown := some (.reject .slippageCooldown) }, s)
  else
  let rationale := { rationale with slippageCooldown := some .pass }
  -- Step 10: volatility block
  if VolatilityTable.isBlocked s.state.volatility symbol eng.riskCfg.volatilityBlockThreshold then
    (.rejected .volatilityBlock
      { rationale with volatilityBlock := some (.reject .volatilityBlock) }, s)
  else
  let rationale := { rationale with volatilityBlock := some .pass }
  -- Step 11: broker latency block
  if !anyBrokerOk eng s.state then
    (.rejected .brokerLatencyBlock
      { rationale with brokerLatencyBlock := some (.reject .brokerLatencyBlock) }, s)
  else
  let rationale := { rationale with brokerLatencyBlock := some .pass }
  -- Step 12: post-target policy
  if s.state.target.shouldReject then
    (.rejected .profitTargetReached
      { rationale with profitTarget := some (.reject .profitTargetReached) }, s)
  else
  let rationale := { rationale with profitTarget := some .pass }
  -- Step 13: Adaptive_Risk
  let adaptiveRisk := adaptiveRiskPaise eng inp
  if adaptiveRisk ≤ 0 then
    (.rejected .adaptiveRiskZero
      { rationale with adaptiveRisk := some (.reject .adaptiveRiskZero) }, s)
  else
  let rationale := { rationale with adaptiveRisk := some .pass }
  -- Steps 14 and 15: size and mint
  let sized := sizedQuantity s.state inp adaptiveRisk
  let token := sign mac eng.key ⟨mintIntent inp.signal sized, sized, inp.mintNs, s.sequence⟩
  (.approved token sized rationale, { s with sequence := s.sequence + 1 })

/-! ## The fixtures of the crate's tests -/

/-- `make_signal`, with a fixed correlation id. -/
def makeSignal (symbol : UInt32) (confidence : ExactFloat) : Signal where
  correlationId := Vector.replicate 16 7
  strategy := 0
  symbol := symbol
  side := 0
  baseProbability := .fin (7 / 10)
  confidence := confidence
  riskProfile := ⟨9900, 10500, 50, 300⟩
  tsNs := 1000

/-- `make_engine_with`: the given limits, default capital and a session of the whole day. -/
def makeEngineWith (riskCfg : RiskConfig) : RiskEngine :=
  ⟨Defaults.capital, riskCfg, ⟨.fromHms 0 0 0, .fromHms 23 59 59⟩, [1, 2, 3]⟩

/-- A call on a weekday at `nowNs` with neutral WarmCache factors. -/
def makeInput (price : Int64) (nowNs : UInt64) : EvalInput :=
  ⟨makeSignal 1 (.fin (4 / 5)), price, .neutral, ⟨.mon, 10, 0, 0⟩, nowNs, nowNs, nowNs⟩

end Hedge.Risk
