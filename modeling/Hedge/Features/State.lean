import Hedge.Common.FloatOps
import Hedge.Common.Machine
import Hedge.Core.Market
import Hedge.Core.RingWindow

/-!
# Feature state of a symbol

Reference: `hedge-features/src/state.rs`.

Accumulators in `f64` are rationals: sums, products and quotients of the recurrences are not
rounded. An `f32` is an `ExactFloat`. The 128-bit accumulators are integers, saturated where they
are written. Differences of `i64` wrap, as in the release profile.
-/

namespace Hedge.Features

open Hedge Hedge.Common Hedge.Core

/-! ## Windows -/

/-- `ATR_WINDOW`. -/
def atrWindow : ℕ := 14

/-- `EMA_FAST_PERIOD`. -/
def emaFastPeriod : ℕ := 9

/-- `EMA_SLOW_PERIOD`. -/
def emaSlowPeriod : ℕ := 21

/-- `EMA_TREND_PERIOD`. -/
def emaTrendPeriod : ℕ := 5000

/-- `RSI_WINDOW`. -/
def rsiWindow : ℕ := 1400

/-- `ADX_WINDOW`. -/
def adxWindow : ℕ := 1400

/-- `DONCHIAN_WINDOW`. -/
def donchianWindow : ℕ := 2000

/-- `EMA_SLOPE_LOOKBACK`. -/
def emaSlopeLookback : ℕ := 5

/-- `MOMENTUM_WINDOW`. -/
def momentumWindow : ℕ := 10

/-- `VOLATILITY_WINDOW`. -/
def volatilityWindow : ℕ := 30

/-- `COMPRESSION_WINDOW`. -/
def compressionWindow : ℕ := 20

/-- `SWEEP_LOOKAHEAD`. -/
def sweepLookahead : ℕ := 3

/-- `ROLLING_DELTA_WINDOW_NS`. -/
def rollingDeltaWindowNs : UInt64 := 30 * 1000000000

/-- `ROLLING_DELTA_CAPACITY`. -/
def rollingDeltaCapacity : ℕ := 256

/-! ## State -/

/-- One sample of the rolling delta. -/
structure DeltaSample where
  tsNs : UInt64
  signedQty : Int64
deriving DecidableEq

/-- The book of the last tick. -/
structure LastBook where
  bidPaise : Int64
  askPaise : Int64
  totalBuyQty : UInt64
  totalSellQty : UInt64
deriving DecidableEq

/-- Per-symbol incremental feature state. -/
structure FeatureState where
  tickCount : UInt64
  lastLtpPaise : Int64
  prevLtpPaise : Int64
  lastTsNs : UInt64
  vwapNum : ℤ
  vwapDen : ℕ
  trWindow : RingWindow Int64 atrWindow
  prevClosePaise : Int64
  barHighPaise : Int64
  barLowPaise : Int64
  emaFastPaise : Int64
  emaSlowPaise : Int64
  emaTrendPaise : Int64
  emaFastAcc : ℚ
  emaSlowAcc : ℚ
  emaTrendAcc : ℚ
  emaFastSeeded : Bool
  emaSlowSeeded : Bool
  emaTrendSeeded : Bool
  emaFastHistory : RingWindow Int64 emaSlopeLookback
  rsiAvgGain : ℚ
  rsiAvgLoss : ℚ
  rsiValue : ExactFloat
  adxSmoothedTr : ℚ
  adxSmoothedPdm : ℚ
  adxSmoothedNdm : ℚ
  adxSmoothedDx : ℚ
  adxValue : ExactFloat
  donchianPrices : RingWindow Int64 donchianWindow
  momentumPrices : RingWindow Int64 momentumWindow
  logReturns : RingWindow ℚ volatilityWindow
  deltaSamples : RingWindow DeltaSample rollingDeltaCapacity
  rollingDeltaCached : Int64
  compressionPrices : RingWindow Int64 compressionWindow
  sessionHighPaise : Int64
  sessionLowPaise : Int64
  lastHighBreakIdx : Option UInt64
  lastLowBreakIdx : Option UInt64
  lastHighBreakPaise : Int64
  lastLowBreakPaise : Int64
  sweepSignal : ExactFloat
  lastBook : LastBook
  liquidityImbalanceCached : ExactFloat
  orderflowStrengthCached : ExactFloat

/-- The state before the first tick; also what `clear_session` goes back to. -/
def FeatureState.default : FeatureState where
  tickCount := 0
  lastLtpPaise := 0
  prevLtpPaise := 0
  lastTsNs := 0
  vwapNum := 0
  vwapDen := 0
  trWindow := .new 0 (by decide)
  prevClosePaise := 0
  barHighPaise := 0
  barLowPaise := 0
  emaFastPaise := 0
  emaSlowPaise := 0
  emaTrendPaise := 0
  emaFastAcc := 0
  emaSlowAcc := 0
  emaTrendAcc := 0
  emaFastSeeded := false
  emaSlowSeeded := false
  emaTrendSeeded := false
  emaFastHistory := .new 0 (by decide)
  rsiAvgGain := 0
  rsiAvgLoss := 0
  rsiValue := .fin 0
  adxSmoothedTr := 0
  adxSmoothedPdm := 0
  adxSmoothedNdm := 0
  adxSmoothedDx := 0
  adxValue := .fin 0
  donchianPrices := .new 0 (by decide)
  momentumPrices := .new 0 (by decide)
  logReturns := .new 0 (by decide)
  deltaSamples := .new ⟨0, 0⟩ (by decide)
  rollingDeltaCached := 0
  compressionPrices := .new 0 (by decide)
  sessionHighPaise := 0
  sessionLowPaise := 0
  lastHighBreakIdx := none
  lastLowBreakIdx := none
  lastHighBreakPaise := 0
  lastLowBreakPaise := 0
  sweepSignal := .fin 0
  lastBook := ⟨0, 0, 0, 0⟩
  liquidityImbalanceCached := .fin 0
  orderflowStrengthCached := .fin 0

/-- The two functions of the math library that the indicators call. -/
structure Libm where
  ln : ℚ → ℚ
  sqrt : ℚ → ℚ

end Hedge.Features
