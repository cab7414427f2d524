import Hedge.Bus
import Hedge.Common.Machine
import Hedge.Features.Indicators
import Hedge.Signals.Engine

/-!
# The strategies

Reference: `hedge-signals/src/strategies`.

Every strategy first decides on a side, by a row of guards on the snapshot, and then builds its
signal through `build_signal`. `Setup` keeps the two apart. Constants of `f32` are the decimals of
the source.
-/

namespace Hedge.Signals

open Hedge Hedge.Common Hedge.Features
open Hedge.Common.ExactFloat (fin)

/-! ## Shared helpers -/

/-- `DEFAULT_MAX_SIZE_QTY`. -/
def defaultMaxSizeQty : UInt64 := 100

/-- `DEFAULT_TIME_HORIZON_SECONDS`. -/
def defaultTimeHorizonSeconds : UInt32 := 300

/-- `STOP_LOSS_ATR_MULT`. -/
def stopLossAtrMult : ℚ := 3 / 2

/-- `TAKE_PROFIT_ATR_MULT`. -/
def takeProfitAtrMult : ℚ := 5 / 2

/-- `clamp01`: NaN becomes zero. -/
def clamp01 (v : ExactFloat) : ExactFloat :=
  if v.isNan || v.lt (fin 0) then fin 0 else if v.gt (fin 1) then fin 1 else v

/-- `q.round() as i64`. -/
def roundI64 (q : ℚ) : Int64 := Int64.clamp (ExactFloat.roundRat q)

/-- `risk_profile_for`. -/
def riskProfileFor (entryPaise : Int64) (side : Side) (atrPaise : Int64) : RiskProfile :=
  let stopDist := roundI64 (f64OfI64 atrPaise * stopLossAtrMult)
  let tpDist := roundI64 (f64OfI64 atrPaise * takeProfitAtrMult)
  let levels := match side with
    | .buy => (entryPaise.saturatingSub stopDist, entryPaise.saturatingAdd tpDist)
    | .sell => (entryPaise.saturatingAdd stopDist, entryPaise.saturatingSub tpDist)
  ⟨levels.1, levels.2, defaultMaxSizeQty, defaultTimeHorizonSeconds⟩

/-- `build_signal`. -/
def buildSignal (correlationId : Vector UInt8 16) (strategyId : StrategyId) (symbol : SymbolId)
    (side : Side) (baseProbability confidence : ExactFloat) (riskProfile : RiskProfile)
    (tsNs : UInt64) : Signal where
  correlationId := correlationId
  strategy := strategyId.asU8
  symbol := symbol.raw
  side := side.asU8
  baseProbability := clamp01 baseProbability
  confidence := clamp01 confidence
  riskProfile := riskProfile
  tsNs := tsNs

/-- A strategy by its parts: the side it takes on a snapshot, if any, and what it puts into the
signal. -/
structure Setup where
  id : StrategyId
  side : FeatureSnapshot → StrategyContext → Option Side
  baseProbability : FeatureSnapshot → ExactFloat
  confidence : FeatureSnapshot → ExactFloat
  riskProfile : FeatureSnapshot → Side → RiskProfile
  enabledIn : Regime → Bool

/-- The strategy of a setup. -/
def Setup.strategy (setup : Setup) : Strategy where
  id := setup.id
  evaluate snap ctx := (setup.side snap ctx).map fun side =>
    buildSignal snap.correlationId setup.id ⟨snap.symbol⟩ side (setup.baseProbability snap)
      (setup.confidence snap) (setup.riskProfile snap side) snap.tsNs
  enabledIn := setup.enabledIn

/-- `Side::Buy if x <= 0.0` or `Side::Sell if x >= 0.0`: the value speaks against the side. -/
def opposes (side : Side) (x : ExactFloat) : Bool :=
  match side with
  | .buy => x.le (fin 0)
  | .sell => (fin 0).le x

/-- `a * x + b * y`. -/
def blend (a : ℚ) (x : ExactFloat) (b : ℚ) (y : ExactFloat) : ExactFloat :=
  ((fin a).mul x).add ((fin b).mul y)

/-- The VWAP, or the fast EMA before the first trade. -/
def vwapOrFast (snap : FeatureSnapshot) : Int64 :=
  if snap.vwap > 0 then snap.vwap else snap.emaFast

/-- The regimes of the four strategies that trade a direction. -/
def directional : Regime → Bool
  | .sideways | .liquidityCrisis | .lowParticipation => false
  | _ => true

/-! ## Opening range breakout -/

/-- The side of the breakout, with the slope and beyond the level of the previous day. -/
def orbSide (snap : FeatureSnapshot) (ctx : StrategyContext) : Option Side :=
  let pressure := snap.breakoutPressure
  let side : Side := if pressure.gt (fin 0) then .buy else .sell
  let short : Bool := match ctx.previousDay, side with
    | none, _ => false
    | some p, .buy => decide (p.highPaise > 0) && decide (snap.vwap < p.highPaise)
    | some p, .sell => decide (p.lowPaise > 0) && decide (snap.vwap > p.lowPaise)
  if pressure.abs.lt (fin (1 / 2)) then none
  else if snap.emaSlope.abs.lt (fin (1 / 10)) then none
  else if opposes side snap.emaSlope then none
  else if short then none
  else some side

def openingRangeBreakout : Setup where
  id := .openingRangeBreakout
  side := orbSide
  baseProbability snap :=
    clamp01 ((fin (1 / 2)).add ((fin (1 / 2)).mul (snap.breakoutPressure.abs.min (fin 1))))
  confidence snap := clamp01 snap.breakoutPressure.abs
  riskProfile snap side := riskProfileFor snap.vwap side snap.atr
  enabledIn := directional

/-! ## VWAP pullback -/

/-- Half the ATR, rounded toward zero. -/
def pullbackBand (snap : FeatureSnapshot) : Int64 :=
  Int64.clamp (ExactFloat.truncRat (f64OfI64 snap.atr * (1 / 2)))

/-- The distance of the fast EMA from the VWAP. -/
def pullbackDist (snap : FeatureSnapshot) : Int64 := (snap.emaFast - snap.vwap).abs

def vwapPullbackSide (snap : FeatureSnapshot) (_ : StrategyContext) : Option Side :=
  if snap.atr ≤ 0 then none
  else if pullbackBand snap ≤ 0 then none
  else if pullbackDist snap > pullbackBand snap then none
  else if snap.emaFast > snap.emaSlow then
    if snap.emaFast < snap.vwap then none else some .buy
  else if snap.emaFast < snap.emaSlow then
    if snap.emaFast > snap.vwap then none else some .sell
  else none

/-- The gap of the two EMAs in units of the ATR, at most one. -/
def normalizedGap (snap : FeatureSnapshot) : ExactFloat :=
  f32OfRat (min (f64OfI64 (snap.emaFast - snap.emaSlow).abs / max (f64OfI64 snap.atr) 1) 1)

/-- One minus the distance from the VWAP in units of the band. -/
def closeness (snap : FeatureSnapshot) : ExactFloat :=
  (fin 1).add ((fin (-1)).mul
    (f32OfRat (f64OfI64 (pullbackDist snap) / f64OfI64 (pullbackBand snap))))

def vwapPullback : Setup where
  id := .vwapPullback
  side := vwapPullbackSide
  baseProbability snap := clamp01 ((fin (1 / 2)).add ((fin (1 / 4)).mul (normalizedGap snap)))
  confidence snap := clamp01 (blend (1 / 2) (closeness snap) (1 / 2) (normalizedGap snap))
  riskProfile snap side := riskProfileFor snap.emaFast side snap.atr
  enabledIn := directional

/-! ## Momentum breakout -/

/-- Momentum, pressure, slope and the two EMAs have to agree. -/
def momentumBreakoutSide (snap : FeatureSnapshot) (_ : StrategyContext) : Option Side :=
  if snap.momentum.abs.lt (fin (5 / 1000)) then none
  else if snap.breakoutPressure.abs.lt (fin (1 / 2)) then none
  else if snap.momentum.gt (fin 0) && snap.breakoutPressure.gt (fin 0) &&
      snap.emaSlope.gt (fin 0) then
    if snap.emaFast ≤ snap.emaSlow then none else some .buy
  else if snap.momentum.lt (fin 0) && snap.breakoutPressure.lt (fin 0) &&
      snap.emaSlope.lt (fin 0) then
    if snap.emaFast ≥ snap.emaSlow then none else some .sell
  else none

/-- The momentum in units of five percent, at most one. -/
def momNorm (snap : FeatureSnapshot) : ExactFloat := (snap.momentum.abs.mul (fin 20)).min (fin 1)

def momentumBreakout : Setup where
  id := .momentumBreakout
  side := momentumBreakoutSide
  baseProbability snap := clamp01 (((fin (1 / 2)).add
    ((fin (1 / 4)).mul (snap.breakoutPressure.abs.min (fin 1)))).add
      ((fin (1 / 4)).mul (momNorm snap)))
  confidence snap :=
    clamp01 (blend (1 / 2) (snap.breakoutPressure.abs.min (fin 1)) (1 / 2) (momNorm snap))
  riskProfile snap side :=
    riskProfileFor (if snap.emaFast > 0 then snap.emaFast else snap.vwap) side snap.atr
  enabledIn := directional

/-! ## Liquidity sweep reversal -/

/-- A positive sweep is faded short, any other long; slope and order flow have to agree. -/
def liquiditySweepSide (snap : FeatureSnapshot) (_ : StrategyContext) : Option Side :=
  let side : Side := if snap.liquiditySweep.gt (fin 0) then .sell else .buy
  if snap.liquiditySweep.abs.lt (fin (1 / 2)) then none
  else if opposes side snap.emaSlope then none
  else if snap.orderflowStrength.abs.lt (fin (1 / 5)) then none
  else if opposes side snap.orderflowStrength then none
  else some side

def liquiditySweepReversal : Setup where
  id := .liquiditySweepReversal
  side := liquiditySweepSide
  baseProbability snap := clamp01 (((fin (1 / 2)).add
    ((fin (1 / 4)).mul (snap.liquiditySweep.abs.min (fin 1)))).add
      ((fin (1 / 4)).mul (snap.orderflowStrength.abs.min (fin 1))))
  confidence snap := clamp01 (blend (1 / 2) (snap.liquiditySweep.abs.min (fin 1))
    (1 / 2) (snap.orderflowStrength.abs.min (fin 1)))
  riskProfile snap side := riskProfileFor (vwapOrFast snap) side snap.atr
  enabledIn
    | .trending | .liquidityCrisis => false
    | _ => true

/-! ## Options open interest -/

/-- The `OiCache` trait. -/
abbrev OiCache := SymbolId → Side → Option Bool

/-- Without a cache the strategy is silent. -/
def optionsOiSide (cache : Option OiCache) (snap : FeatureSnapshot) (_ : StrategyContext) :
    Option Side :=
  match cache with
  | none => none
  | some freshExpansion =>
    let pressure := snap.breakoutPressure
    let side : Side := if pressure.gt (fin 0) then .buy else .sell
    if pressure.abs.lt (fin (2 / 5)) then none
    else if freshExpansion ⟨snap.symbol⟩ side = some true then some side
    else none

def optionsOiExpansionBreakout (cache : Option OiCache) : Setup where
  id := .optionsOiExpansionBreakout
  side := optionsOiSide cache
  baseProbability snap :=
    clamp01 ((fin (1 / 2)).add ((fin (1 / 2)).mul (snap.breakoutPressure.abs.min (fin 1))))
  confidence snap := clamp01 snap.breakoutPressure.abs
  riskProfile snap side := riskProfileFor (vwapOrFast snap) side snap.atr
  enabledIn := directional

/-! ## Volatility compression -/

def volatilityCompressionSide (snap : FeatureSnapshot) (_ : StrategyContext) : Option Side :=
  if snap.compressionZone.le (fin (1 / 2)) then none
  else if snap.breakoutPressure.abs.le (fin (1 / 2)) then none
  else some (if snap.breakoutPressure.gt (fin 0) then .buy else .sell)

/-- The compression, held between zero and one. -/
def compressionMag (snap : FeatureSnapshot) : ExactFloat :=
  (snap.compressionZone.min (fin 1)).max (fin 0)

def volatilityCompressionBreakout : Setup where
  id := .volatilityCompressionBreakout
  side := volatilityCompressionSide
  baseProbability snap := clamp01 (((fin (1 / 2)).add ((fin (1 / 4)).mul (compressionMag snap))).add
    ((fin (1 / 4)).mul (snap.breakoutPressure.abs.min (fin 1))))
  confidence snap := clamp01 (blend (1 / 2) (compressionMag snap)
    (1 / 2) (snap.breakoutPressure.abs.min (fin 1)))
  riskProfile snap side := riskProfileFor (vwapOrFast snap) side snap.atr
  enabledIn
    | .trending | .panic => false
    | _ => true

/-! ## Composite alpha -/

/-- `s.contains(pat)`. -/
def containsText (s pat : String) : Bool := decide (pat.toList <:+: s.toList)

def compositeAlphaSide (snap : FeatureSnapshot) (_ : StrategyContext) : Option Side :=
  let trendLong := snap.price > snap.emaFast ∧ snap.emaSlow > snap.emaTrend
  let trendShort := snap.price < snap.emaFast ∧ snap.emaSlow < snap.emaTrend
  if !containsText ((Bus.symbolForId snap.symbol).getD "") "Nifty" then none
  else if snap.atr < 100 then none
  else if snap.price ≥ snap.donchianUpper then
    if trendLong then some .buy else none
  else if snap.price ≤ snap.donchianLower then
    if trendShort then some .sell else none
  else none

/-- The stop is one and a half ATR away and the target three times as far. -/
def compositeAlphaRisk (snap : FeatureSnapshot) (side : Side) : RiskProfile :=
  let stopDistance : ℚ := 3 / 2 * (if snap.atr > 0 then f64OfI64 snap.atr else 50)
  let targetDistance := stopDistance * 3
  let rp := riskProfileFor snap.price side snap.atr
  match side with
  | .buy => { rp with
      stopLossPaise := snap.price - roundI64 stopDistance
      takeProfitPaise := snap.price + roundI64 targetDistance }
  | .sell => { rp with
      stopLossPaise := snap.price + roundI64 stopDistance
      takeProfitPaise := snap.price - roundI64 targetDistance }

def compositeAlphaBreakout : Setup where
  id := .compositeAlphaBreakout
  side := compositeAlphaSide
  baseProbability snap := clamp01 ((fin (3 / 4)).add ((fin (1 / 10)).mul snap.momentum.abs))
  confidence snap := clamp01 ((fin (4 / 5)).add ((fin (1 / 5)).mul snap.orderflowStrength.abs))
  riskProfile := compositeAlphaRisk
  enabledIn
    | .trending | .highVolatility => true
    | _ => false

/-! ## Registry -/

/-- The strategies of `SignalEngine::new_default`, in order. -/
def defaultSetups : List Setup :=
  [openingRangeBreakout, vwapPullback, momentumBreakout, liquiditySweepReversal,
    optionsOiExpansionBreakout none, volatilityCompressionBreakout, compositeAlphaBreakout]

/-! ## What a setup emits -/

section Emission

variable (setup : Setup) (snap : FeatureSnapshot) (ctx : StrategyContext)

/-- A signal carries the id of its snapshot. -/
theorem Setup.correlationId_of_evaluate {sig : Signal}
    (h : setup.strategy.evaluate snap ctx = some sig) : sig.correlationId = snap.correlationId := by
  obtain ⟨side, -, rfl⟩ := Option.map_eq_some_iff.mp h
  rfl

/-- A signal carries the side of the guards. -/
theorem Setup.side_of_evaluate {sig : Signal} (h : setup.strategy.evaluate snap ctx = some sig) :
    ∃ side, setup.side snap ctx = some side ∧ sig.side = side.asU8 := by
  obtain ⟨side, hside, rfl⟩ := Option.map_eq_some_iff.mp h
  exact ⟨side, hside, rfl⟩

/-- A signal with the side of the guards is emitted. -/
theorem Setup.evaluate_of_side {side : Side} (h : setup.side snap ctx = some side) :
    ∃ sig, setup.strategy.evaluate snap ctx = some sig ∧ sig.side = side.asU8 :=
  ⟨_, Option.map_eq_some_iff.mpr ⟨side, h, rfl⟩, rfl⟩

/-- A side is taken exactly if a signal is emitted. -/
theorem Setup.isSome_evaluate :
    (setup.strategy.evaluate snap ctx).isSome = (setup.side snap ctx).isSome :=
  Option.isSome_map ..

end Emission

end Hedge.Signals
