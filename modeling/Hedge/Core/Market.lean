import Hedge.Core.Types

/-!
# Market records

Reference: `hedge-core/src/enums.rs`, `hedge-schemas/src/lib.rs` and the bindings
`tick_generated.rs` and `features_generated.rs` in `hedge-schemas/src/generated`.
-/

namespace Hedge

open Hedge.Common

/-- Market regime classification. -/
inductive Regime where
  | trending
  | sideways
  | panic
  | highVolatility
  | newsDriven
  | liquidityCrisis
  | lowParticipation
deriving DecidableEq, Repr

/-- Priority tier of a symbol. -/
inductive Priority where
  | p1
  | p2
  | p3
  | p4
deriving DecidableEq, Repr

/-- Configured strategies. -/
inductive StrategyId where
  | openingRangeBreakout
  | vwapPullback
  | momentumBreakout
  | liquiditySweepReversal
  | optionsOiExpansionBreakout
  | volatilityCompressionBreakout
  | compositeAlphaBreakout
deriving DecidableEq, Repr

/-- The wire byte of a strategy. -/
def StrategyId.asU8 : StrategyId → UInt8
  | .openingRangeBreakout => 0
  | .vwapPullback => 1
  | .momentumBreakout => 2
  | .liquiditySweepReversal => 3
  | .optionsOiExpansionBreakout => 4
  | .volatilityCompressionBreakout => 5
  | .compositeAlphaBreakout => 6

/-- `Tick_v1`. -/
structure Tick where
  correlationId : Vector UInt8 16
  symbol : UInt32
  exchange : Int8
  ltpPaise : Int64
  bidPaise : Int64
  askPaise : Int64
  ltq : UInt64
  totalBuyQty : UInt64
  totalSellQty : UInt64
  tsExchangeNs : UInt64
  tsRecvNs : UInt64
deriving DecidableEq

/-- `FeatureSnapshot_v1`. -/
structure FeatureSnapshot where
  correlationId : Vector UInt8 16
  symbol : UInt32
  price : Int64
  vwap : Int64
  atr : Int64
  emaFast : Int64
  emaSlow : Int64
  emaTrend : Int64
  emaSlope : ExactFloat
  realizedVol : ExactFloat
  momentum : ExactFloat
  rsi : ExactFloat
  adx : ExactFloat
  donchianUpper : Int64
  donchianLower : Int64
  rollingDelta : Int64
  liquidityImbalance : ExactFloat
  orderflowStrength : ExactFloat
  candleStructure : UInt8
  breakoutPressure : ExactFloat
  compressionZone : ExactFloat
  liquiditySweep : ExactFloat
  tsNs : UInt64
deriving DecidableEq

end Hedge
