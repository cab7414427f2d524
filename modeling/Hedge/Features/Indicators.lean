import Hedge.Features.State

/-!
# Incremental indicators

Reference: the modules of `hedge-features/src/incremental`. Each has an `update` that folds one tick
into the state and a `compute` that reads the state. The updates of the breakout pressure and of the
compression zone do nothing and are left out, as are the `is_ready` functions, which the engine does
not call.
-/

namespace Hedge.Features

open Hedge Hedge.Common Hedge.Core

/-- `q as f32`. -/
def f32OfRat (q : ℚ) : ExactFloat := (ExactFloat.fin q).toF32

/-- `n as f64` for an `i64`. -/
def f64OfI64 (n : Int64) : ℚ := n.toInt

/-- `x.clamp(lo, hi)` on finite values. -/
def clampRat (lo hi x : ℚ) : ℚ := max lo (min x hi)

/-! ## Rolling delta -/

namespace RollingDelta

/-- `sign_volume`: the sign comes from the change of the book, else from the change of the price. -/
def signVolume (state : FeatureState) (tick : Tick) : Int64 :=
  let mag := Int64.clamp tick.ltq.toNat
  if mag = 0 then 0
  else
    let bookImbalance : ℤ :=
      ((tick.totalBuyQty.toNat : ℤ) - state.lastBook.totalBuyQty.toNat) -
        ((tick.totalSellQty.toNat : ℤ) - state.lastBook.totalSellQty.toNat)
    if bookImbalance > 0 then mag
    else if bookImbalance < 0 then -mag
    else if state.lastLtpPaise ≠ 0 ∧ tick.ltpPaise > state.lastLtpPaise then mag
    else if state.lastLtpPaise ≠ 0 ∧ tick.ltpPaise < state.lastLtpPaise then -mag
    else 0

def update (state : FeatureState) (tick : Tick) : FeatureState :=
  let deltaSamples := state.deltaSamples.push ⟨tick.tsRecvNs, signVolume state tick⟩
  let cutoff := tick.tsRecvNs.saturatingSub rollingDeltaWindowNs
  { state with
    deltaSamples := deltaSamples
    rollingDeltaCached := deltaSamples.iter.foldl
      (fun sum s => if s.tsNs ≥ cutoff then sum.saturatingAdd s.signedQty else sum) 0 }

def computePaise (state : FeatureState) : Int64 := state.rollingDeltaCached

end RollingDelta

/-! ## Liquidity -/

namespace Liquidity

def update (state : FeatureState) (tick : Tick) : FeatureState :=
  let buy : ℚ := tick.totalBuyQty.toNat
  let sell : ℚ := tick.totalSellQty.toNat
  { state with
    lastBook := ⟨tick.bidPaise, tick.askPaise, tick.totalBuyQty, tick.totalSellQty⟩
    liquidityImbalanceCached :=
      f32OfRat (clampRat (-1) 1 ((buy - sell) / max (buy + sell) 1)) }

/-- `update_orderflow`. -/
def updateOrderflow (state : FeatureState) (value : ExactFloat) : FeatureState :=
  { state with orderflowStrengthCached := value.clampTo (-1) 1 }

def computeImbalance (state : FeatureState) : ExactFloat := state.liquidityImbalanceCached

def computeOrderflowStrength (state : FeatureState) : ExactFloat := state.orderflowStrengthCached

end Liquidity

/-! ## VWAP -/

namespace Vwap

/-- A tick without a trade leaves the accumulators alone. -/
def update (state : FeatureState) (tick : Tick) : FeatureState :=
  let qty := tick.ltq.toNat
  if qty = 0 then state
  else
    { state with
      vwapNum := max (-2 ^ 127) (min (state.vwapNum + tick.ltpPaise.toInt * qty) (2 ^ 127 - 1))
      vwapDen := min (state.vwapDen + qty) (2 ^ 128 - 1) }

/-- What does not look at the accumulators is left as it is. -/
theorem view_update {α : Type*} (view : FeatureState → α)
    (hview : ∀ (s : FeatureState) num den, view { s with vwapNum := num, vwapDen := den } = view s)
    (state : FeatureState) (tick : Tick) : view (update state tick) = view state := by
  rw [update]
  split_ifs
  · rfl
  · exact hview state _ _

def computePaise (state : FeatureState) : Int64 :=
  if state.vwapDen = 0 then 0
  else Int64.clamp (state.vwapNum.tdiv ((state.vwapDen : ℤ).bmod (2 ^ 128)))

end Vwap

/-! ## ATR -/

namespace Atr

/-- Each tick is a bar whose high and low are its price. -/
def update (state : FeatureState) (tick : Tick) : FeatureState :=
  let high := tick.ltpPaise
  let low := tick.ltpPaise
  let prevClose := if state.tickCount = 0 then tick.ltpPaise else state.prevClosePaise
  let tr := max (max (high - low).abs (high - prevClose).abs) (low - prevClose).abs
  { state with
    trWindow := state.trWindow.push tr
    prevClosePaise := tick.ltpPaise
    barHighPaise := high
    barLowPaise := low }

/-- The mean of the true ranges, rounded toward zero. -/
def computePaise (state : FeatureState) : Int64 :=
  if state.trWindow.len = 0 then 0
  else Int64.ofInt
    ((state.trWindow.iter.foldl (fun (sum : ℤ) v => sum + v.toInt) 0).tdiv state.trWindow.len)

end Atr

/-! ## EMA -/

namespace Ema

/-- `2 / (period + 1)`. -/
def alpha (period : ℕ) : ℚ := 2 / (period + 1)

/-- One step of the recurrence: the accumulator and its value in paise. The first price seeds
both. -/
def fold (period : ℕ) (seeded : Bool) (prev : ℚ) (ltpPaise : Int64) : ℚ × Int64 :=
  if seeded then
    let acc := prev + alpha period * (f64OfI64 ltpPaise - prev)
    (acc, Int64.clamp (ExactFloat.roundRat acc))
  else (f64OfI64 ltpPaise, ltpPaise)

def update (state : FeatureState) (tick : Tick) : FeatureState :=
  let fast := fold emaFastPeriod state.emaFastSeeded state.emaFastAcc tick.ltpPaise
  let slow := fold emaSlowPeriod state.emaSlowSeeded state.emaSlowAcc tick.ltpPaise
  let trend := fold emaTrendPeriod state.emaTrendSeeded state.emaTrendAcc tick.ltpPaise
  { state with
    emaFastAcc := fast.1
    emaFastPaise := fast.2
    emaFastSeeded := true
    emaSlowAcc := slow.1
    emaSlowPaise := slow.2
    emaSlowSeeded := true
    emaTrendAcc := trend.1
    emaTrendPaise := trend.2
    emaTrendSeeded := true
    emaFastHistory := state.emaFastHistory.push fast.2 }

def computeFastPaise (state : FeatureState) : Int64 :=
  if state.emaFastSeeded then state.emaFastPaise else 0

def computeSlowPaise (state : FeatureState) : Int64 :=
  if state.emaSlowSeeded then state.emaSlowPaise else 0

def computeTrendPaise (state : FeatureState) : Int64 :=
  if state.emaTrendSeeded then state.emaTrendPaise else 0

/-- The slope over the last five samples, in paise per tick. -/
def computeSlope (state : FeatureState) : ExactFloat :=
  if state.emaFastHistory.len < emaSlopeLookback then .fin 0
  else match (state.emaFastHistory.iterRecent emaSlopeLookback).head? with
    | none => .fin 0
    | some oldest =>
      f32OfRat (f64OfI64 (state.emaFastPaise - oldest) / ((max (emaSlopeLookback - 1) 1 : ℕ) : ℚ))

end Ema

/-! ## Realized volatility -/

namespace Volatility

/-- The first tick has no return. -/
def update (libm : Libm) (state : FeatureState) (tick : Tick) : FeatureState :=
  if state.lastLtpPaise > 0 ∧ tick.ltpPaise > 0 then
    let cur := libm.ln (f64OfI64 tick.ltpPaise)
    let prev := libm.ln (f64OfI64 state.lastLtpPaise)
    { state with logReturns := state.logReturns.push (cur - prev) }
  else state

/-- What does not look at the returns is left as it is. -/
theorem view_update {α : Type*} (view : FeatureState → α)
    (hview : ∀ (s : FeatureState) returns, view { s with logReturns := returns } = view s)
    (libm : Libm) (state : FeatureState) (tick : Tick) :
    view (update libm state tick) = view state := by
  rw [update]
  split_ifs
  · exact hview state _
  · rfl

/-- The standard deviation of the returns. -/
def compute (libm : Libm) (state : FeatureState) : ExactFloat :=
  let n := state.logReturns.len
  if n < 2 then .fin 0
  else
    let mean : ℚ := state.logReturns.iter.foldl (· + ·) 0 / n
    let var : ℚ := state.logReturns.iter.foldl (fun var v => var + (v - mean) * (v - mean)) 0
    f32OfRat (libm.sqrt (var / ((n : ℚ) - 1)))

end Volatility

/-! ## Momentum -/

namespace Momentum

def update (state : FeatureState) (tick : Tick) : FeatureState :=
  { state with momentumPrices := state.momentumPrices.push tick.ltpPaise }

/-- The relative change over the window. -/
def compute (state : FeatureState) : ExactFloat :=
  if state.momentumPrices.len < 2 then .fin 0
  else match state.momentumPrices.oldest, state.momentumPrices.latest with
    | some oldest, some newest =>
      if oldest = 0 then .fin 0
      else f32OfRat ((f64OfI64 newest - f64OfI64 oldest) / f64OfI64 oldest)
    | _, _ => .fin 0

end Momentum

/-! ## Candle -/

inductive CandleStructure where
  | doji
  | marubozu
  | hammer
  | invertedHammer
  | longUpperShadow
  | longLowerShadow
deriving DecidableEq, Repr

def CandleStructure.asU8 : CandleStructure → UInt8
  | doji => 0
  | marubozu => 1
  | hammer => 2
  | invertedHammer => 3
  | longUpperShadow => 4
  | longLowerShadow => 5

namespace Candle

/-- Also keeps the high and the low of the session; a zero stands for none. -/
def update (state : FeatureState) (tick : Tick) : FeatureState :=
  { state with
    compressionPrices := state.compressionPrices.push tick.ltpPaise
    sessionHighPaise :=
      if state.sessionHighPaise = 0 ∨ tick.ltpPaise > state.sessionHighPaise then tick.ltpPaise
      else state.sessionHighPaise
    sessionLowPaise :=
      if state.sessionLowPaise = 0 ∨ tick.ltpPaise < state.sessionLowPaise then tick.ltpPaise
      else state.sessionLowPaise }

/-- The shape of the movement between the last two ticks. -/
def classify (state : FeatureState) : CandleStructure :=
  let close := state.lastLtpPaise
  let opening := state.prevLtpPaise
  if close = 0 ∨ opening = 0 then .doji
  else
    let high := max opening close
    let low := min opening close
    let body := (close - opening).abs
    let range := max (high - low) 1
    let bodyRatio := f64OfI64 body / f64OfI64 range
    if body = 0 then .doji
    else if bodyRatio > 95 / 100 then .marubozu
    else
      let upperWick := f64OfI64 (high - max close opening)
      let lowerWick := f64OfI64 (min close opening - low)
      let bodyF := f64OfI64 body
      if lowerWick > 2 * bodyF ∧ upperWick < bodyF then .hammer
      else if upperWick > 2 * bodyF ∧ lowerWick < bodyF then .invertedHammer
      else if upperWick > lowerWick * (3 / 2) then .longUpperShadow
      else if lowerWick > upperWick * (3 / 2) then .longLowerShadow
      else .doji

end Candle

/-! ## Liquidity sweep -/

namespace Sweep

/-- The price reaches the high of the session and is above the last tagged high. -/
def isFreshHigh (state : FeatureState) (tick : Tick) : Bool :=
  decide (state.sessionHighPaise > 0) && decide (tick.ltpPaise ≥ state.sessionHighPaise) &&
    decide (tick.ltpPaise > state.lastHighBreakPaise)

/-- The price reaches the low of the session and is below the last tagged low, if there is one. -/
def isFreshLow (state : FeatureState) (tick : Tick) : Bool :=
  decide (state.sessionLowPaise > 0) && decide (tick.ltpPaise ≤ state.sessionLowPaise) &&
    (decide (state.lastLowBreakPaise = 0) || decide (tick.ltpPaise < state.lastLowBreakPaise))

/-- What becomes of a tag and of the signal: a reversal within the lookahead sets the signal, an old
tag is dropped. -/
def decay (idx : UInt64) (tag : Option UInt64) (reversed : Bool) (raised signal : ExactFloat) :
    Option UInt64 × ExactFloat :=
  match tag with
  | none => (none, signal)
  | some bIdx =>
    let elapsed := (idx.saturatingSub bIdx).toNat
    if 0 < elapsed ∧ elapsed ≤ sweepLookahead ∧ reversed then (some bIdx, raised)
    else if elapsed > sweepLookahead then (none, signal)
    else (some bIdx, signal)

/-- Runs after the session high and low have been updated. The reversal of a low is looked at last
and overwrites that of a high. -/
def update (state : FeatureState) (tick : Tick) : FeatureState :=
  let idx := state.tickCount
  let highTag := if isFreshHigh state tick then some idx else state.lastHighBreakIdx
  let highPaise := if isFreshHigh state tick then tick.ltpPaise else state.lastHighBreakPaise
  let lowTag := if isFreshLow state tick then some idx else state.lastLowBreakIdx
  let lowPaise := if isFreshLow state tick then tick.ltpPaise else state.lastLowBreakPaise
  let high := decay idx highTag (tick.ltpPaise < highPaise) (.fin (-1)) (.fin 0)
  let low := decay idx lowTag (tick.ltpPaise > lowPaise) (.fin 1) high.2
  { state with
    lastHighBreakIdx := high.1
    lastHighBreakPaise := highPaise
    lastLowBreakIdx := low.1
    lastLowBreakPaise := lowPaise
    sweepSignal := low.2 }

def compute (state : FeatureState) : ExactFloat := state.sweepSignal

end Sweep

/-! ## RSI -/

namespace Rsi

/-- The change is taken against the price before the last one, which is what `prev_ltp_paise` still
holds here. -/
def update (state : FeatureState) (tick : Tick) : FeatureState :=
  if state.tickCount = 0 then { state with rsiValue := .fin 0 }
  else
    let change := f64OfI64 tick.ltpPaise - f64OfI64 state.prevLtpPaise
    let currentGain := if change > 0 then change else 0
    let currentLoss := if change > 0 then 0 else |change|
    let count : ℚ := if state.tickCount.toNat < rsiWindow then state.tickCount.toNat else rsiWindow
    let avgGain := (state.rsiAvgGain * (count - 1) + currentGain) / count
    let avgLoss := (state.rsiAvgLoss * (count - 1) + currentLoss) / count
    { state with
      rsiAvgGain := avgGain
      rsiAvgLoss := avgLoss
      rsiValue := if avgLoss = 0 then .fin 100
        else f32OfRat (100 - 100 / (1 + avgGain / avgLoss)) }

/-- What does not look at the fields of the RSI is left as it is. -/
theorem view_update {α : Type*} (view : FeatureState → α)
    (hview : ∀ (s : FeatureState) gain loss value,
      view { s with rsiAvgGain := gain, rsiAvgLoss := loss, rsiValue := value } = view s)
    (state : FeatureState) (tick : Tick) : view (update state tick) = view state := by
  rw [update]
  by_cases hfirst : state.tickCount = 0
  · rw [if_pos hfirst]
    exact hview state _ _ _
  · rw [if_neg hfirst]
    exact hview state _ _ _

def compute (state : FeatureState) : ExactFloat := state.rsiValue

end Rsi

/-! ## Donchian channel -/

namespace Donchian

def update (state : FeatureState) (tick : Tick) : FeatureState :=
  { state with donchianPrices := state.donchianPrices.push tick.ltpPaise }

def computeUpper (state : FeatureState) : Int64 :=
  if state.donchianPrices.len = 0 then 0
  else state.donchianPrices.iter.foldl (fun m p => if p > m then p else m) Int64.minValue

def computeLower (state : FeatureState) : Int64 :=
  if state.donchianPrices.len = 0 then 0
  else state.donchianPrices.iter.foldl (fun m p => if p < m then p else m) Int64.maxValue

end Donchian

/-! ## ADX -/

namespace Adx

/-- The average of the directional index, once the directional movements are smoothed. -/
def smoothedDx (state : FeatureState) (tr pdm ndm : ℚ) : ℚ :=
  let window : ℚ := adxWindow
  let pdi := if tr > 0 then 100 * (pdm / tr) else 0
  let ndi := if tr > 0 then 100 * (ndm / tr) else 0
  let dx := if pdi + ndi > 0 then 100 * (|pdi - ndi| / (pdi + ndi)) else 0
  if state.tickCount.toNat ≤ 2 * adxWindow then dx
  else (state.adxSmoothedDx * (window - 1) + dx) / window

/-- Runs after the bar of the tick has been stored, so that the moves are against the tick
itself. -/
def update (state : FeatureState) (tick : Tick) : FeatureState :=
  if state.tickCount = 0 then { state with adxValue := .fin 0 }
  else
    let ltp := f64OfI64 tick.ltpPaise
    let tr := |ltp - f64OfI64 state.prevLtpPaise|
    let upMove := ltp - f64OfI64 state.barHighPaise
    let downMove := f64OfI64 state.barLowPaise - ltp
    let pdm := if upMove > downMove ∧ upMove > 0 then upMove else 0
    let ndm := if downMove > upMove ∧ downMove > 0 then downMove else 0
    let window : ℚ := adxWindow
    if state.tickCount.toNat < adxWindow then
      { state with
        adxSmoothedTr := state.adxSmoothedTr + tr
        adxSmoothedPdm := state.adxSmoothedPdm + pdm
        adxSmoothedNdm := state.adxSmoothedNdm + ndm }
    else if state.tickCount.toNat = adxWindow then
      { state with
        adxSmoothedTr := state.adxSmoothedTr / window
        adxSmoothedPdm := state.adxSmoothedPdm / window
        adxSmoothedNdm := state.adxSmoothedNdm / window }
    else
      let smooth := fun (prev cur : ℚ) => prev - prev / window + cur
      let smoothedTr := smooth state.adxSmoothedTr tr
      let smoothedPdm := smooth state.adxSmoothedPdm pdm
      let smoothedNdm := smooth state.adxSmoothedNdm ndm
      let dx := smoothedDx state smoothedTr smoothedPdm smoothedNdm
      { state with
        adxSmoothedTr := smoothedTr
        adxSmoothedPdm := smoothedPdm
        adxSmoothedNdm := smoothedNdm
        adxSmoothedDx := dx
        adxValue := f32OfRat dx }

/-- What does not look at the fields of the ADX is left as it is. -/
theorem view_update {α : Type*} (view : FeatureState → α)
    (hview : ∀ (s : FeatureState) tr pdm ndm dx value,
      view { s with
        adxSmoothedTr := tr, adxSmoothedPdm := pdm, adxSmoothedNdm := ndm
        adxSmoothedDx := dx, adxValue := value } = view s)
    (state : FeatureState) (tick : Tick) : view (update state tick) = view state := by
  rw [update]
  split_ifs
  · exact hview state _ _ _ _ _
  · exact hview state _ _ _ _ _
  · exact hview state _ _ _ _ _
  · exact hview state _ _ _ _ _

def compute (state : FeatureState) : ExactFloat := state.adxValue

end Adx

/-! ## Breakout pressure and compression zone -/

/-- `breakout::compute`: how close the price is to the high or the low of the session, scaled by the
rolling delta. -/
def breakoutPressure (state : FeatureState) : ExactFloat :=
  let close := state.lastLtpPaise
  let high := state.sessionHighPaise
  let low := state.sessionLowPaise
  if close = 0 ∨ high = 0 ∨ low = 0 then .fin 0
  else
    let range := f64OfI64 (high - low)
    if range ≤ 0 then .fin 0
    else
      let proxHigh := f64OfI64 (close - low) / range
      let proxLow := f64OfI64 (high - close) / range
      let volRatio := max (min (f64OfI64 state.rollingDeltaCached.abs / 100) 1) 0
      f32OfRat (clampRat (-1) 1 ((proxHigh - proxLow) * volRatio))

/-- `compression::compute`: one minus the range of the window in units of the ATR. -/
def compressionZone (state : FeatureState) : ExactFloat :=
  if state.compressionPrices.len < compressionWindow then .fin 0
  else
    let hi := state.compressionPrices.iter.foldl (fun m p => if p > m then p else m) Int64.minValue
    let lo := state.compressionPrices.iter.foldl (fun m p => if p < m then p else m) Int64.maxValue
    let atr := f64OfI64 (Atr.computePaise state)
    if atr ≤ 0 then .fin 0
    else f32OfRat (clampRat 0 1 (1 - f64OfI64 (hi - lo) / atr))

end Hedge.Features
