import Hedge.Features.Indicators

/-!
# The feature extraction engine

Reference: `hedge-features/src/engine.rs`.
-/

namespace Hedge.Features

open Hedge Hedge.Common

/-- The indicators in the order in which a tick is folded in: the state before the pointers
advance. -/
def updateIndicators (libm : Libm) (state : FeatureState) (tick : Tick) : FeatureState :=
  let state := RollingDelta.update state tick
  let state := Liquidity.update state tick
  let state := Vwap.update state tick
  let state := Atr.update state tick
  let state := Ema.update state tick
  let state := Volatility.update libm state tick
  let state := Momentum.update state tick
  let state := Candle.update state tick
  let state := Sweep.update state tick
  let state := Rsi.update state tick
  let state := Donchian.update state tick
  Adx.update state tick

/-- The pointers advance after every indicator has read the previous price. -/
def advance (state : FeatureState) (tick : Tick) : FeatureState :=
  { state with
    tickCount := state.tickCount.saturatingAdd 1
    prevLtpPaise := state.lastLtpPaise
    lastLtpPaise := tick.ltpPaise
    lastTsNs := tick.tsRecvNs }

/-- The snapshot of a state after a tick. -/
def snapshotOf (libm : Libm) (state : FeatureState) (tick : Tick) : FeatureSnapshot where
  correlationId := tick.correlationId
  symbol := tick.symbol
  price := tick.ltpPaise
  vwap := Vwap.computePaise state
  atr := Atr.computePaise state
  emaFast := Ema.computeFastPaise state
  emaSlow := Ema.computeSlowPaise state
  emaTrend := Ema.computeTrendPaise state
  emaSlope := Ema.computeSlope state
  realizedVol := Volatility.compute libm state
  momentum := Momentum.compute state
  rsi := Rsi.compute state
  adx := Adx.compute state
  donchianUpper := Donchian.computeUpper state
  donchianLower := Donchian.computeLower state
  rollingDelta := RollingDelta.computePaise state
  liquidityImbalance := Liquidity.computeImbalance state
  orderflowStrength := Liquidity.computeOrderflowStrength state
  candleStructure := (Candle.classify state).asU8
  breakoutPressure := breakoutPressure state
  compressionZone := compressionZone state
  liquiditySweep := Sweep.compute state
  tsNs := tick.tsRecvNs

/-- `process_tick_into_state`. -/
def processTickIntoState (libm : Libm) (state : FeatureState) (tick : Tick) :
    FeatureState × FeatureSnapshot :=
  let state := advance (updateIndicators libm state tick) tick
  (state, snapshotOf libm state tick)

/-! ## The engine -/

/-- The states of the symbols. -/
abbrev FeatureExtractionEngine := Map SymbolId FeatureState

namespace FeatureExtractionEngine

/-- The state of a symbol; a symbol that was never seen gets a fresh one. -/
def cell (engine : FeatureExtractionEngine) (sym : SymbolId) : FeatureState :=
  (engine.lookup sym).getD .default

/-- `process_tick`. -/
def processTick (libm : Libm) (engine : FeatureExtractionEngine) (tick : Tick) :
    FeatureExtractionEngine × FeatureSnapshot :=
  let out := processTickIntoState libm (cell engine ⟨tick.symbol⟩) tick
  (engine.insert ⟨tick.symbol⟩ out.1, out.2)

/-- `reset_symbol`. -/
def resetSymbol (engine : FeatureExtractionEngine) (sym : SymbolId) : FeatureExtractionEngine :=
  match engine.lookup sym with
  | none => engine
  | some _ => engine.insert sym .default

/-- `ingest_orderflow_pressure`. -/
def ingestOrderflowPressure (engine : FeatureExtractionEngine) (sym : SymbolId)
    (value : ExactFloat) : FeatureExtractionEngine :=
  engine.insert sym (Liquidity.updateOrderflow (cell engine sym) value)

end FeatureExtractionEngine

end Hedge.Features
