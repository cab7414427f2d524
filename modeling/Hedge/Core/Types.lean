import Hedge.Common.Bytes
import Hedge.Common.ExactFloat
import Mathlib.Data.List.AList

/-!
# Shared identifiers, enumerations and wire records

Reference: `hedge-core/src/ids.rs`, `hedge-core/src/enums.rs`, `hedge-schemas/src/lib.rs` and the
bindings in `hedge-schemas/src/generated`.

Fixed-width integers keep their width. `u128` is `BitVec 128`, and `[u8; n]` is `Vector UInt8 n`.
A map of the standard library is a Mathlib association list with distinct keys.
-/

namespace Hedge

open Hedge.Common

/-- A finite map (`BTreeMap`, `HashMap`, `DashMap`). -/
abbrev Map (κ ν : Type*) := AList (fun _ : κ => ν)

/-- `CorrelationId(u128)`. -/
structure CorrelationId where
  val : BitVec 128
deriving DecidableEq, Repr

namespace CorrelationId

/-- `CorrelationId(u128::from_be_bytes(bytes))`. -/
def fromBeBytes (bytes : Vector UInt8 16) : CorrelationId :=
  ⟨BitVec.ofNat 128 (ofBe bytes.toList)⟩

/-- `cid.as_u128().to_be_bytes()`, as a list of sixteen bytes. -/
def toBeBytes (cid : CorrelationId) : List UInt8 := toBe 16 cid.val.toNat

@[simp] theorem length_toBeBytes (cid : CorrelationId) : cid.toBeBytes.length = 16 :=
  length_toBe _ _

/-- The 128-bit value keeps all sixteen bytes. -/
theorem toBeBytes_fromBeBytes (bytes : Vector UInt8 16) :
    (fromBeBytes bytes).toBeBytes = bytes.toList := by
  have hlen : bytes.toList.length = 16 := by simp
  have hlt : ofBe bytes.toList < 2 ^ 128 := by
    have h := ofBe_lt bytes.toList
    rw [hlen] at h
    norm_num at h ⊢
    exact h
  have hval : (fromBeBytes bytes).val.toNat = ofBe bytes.toList := by
    rw [fromBeBytes, BitVec.toNat_ofNat, Nat.mod_eq_of_lt hlt]
  have hback := toBe_ofBe bytes.toList
  rw [hlen] at hback
  rw [toBeBytes, hval, hback]

end CorrelationId

/-- `SymbolId(u32)`. -/
structure SymbolId where
  raw : UInt32
deriving DecidableEq, Repr

/-- Order direction. -/
inductive Side where
  | buy
  | sell
deriving DecidableEq, Repr

/-- The wire byte of a side. -/
def Side.asU8 : Side → UInt8
  | .buy => 0
  | .sell => 1

/-- Broker identifier. -/
inductive BrokerId where
  | zerodha
  | dhan
  | shoonya
  | angelOne
  | upstox
  | simulated
deriving DecidableEq, Repr

/-- `{:?}` of a broker id, as it appears in error texts. -/
def BrokerId.debug : BrokerId → String
  | .zerodha => "Zerodha"
  | .dhan => "Dhan"
  | .shoonya => "Shoonya"
  | .angelOne => "AngelOne"
  | .upstox => "Upstox"
  | .simulated => "Simulated"

/-- FSM states of an order in the Execution_Engine. -/
inductive OrderLifecycleState where
  | new
  | submitted
  | partiallyFilled
  | filled
  | cancelled
  | rejected
deriving DecidableEq, Repr

/-- Terminal states have no further transition. -/
def OrderLifecycleState.isTerminal : OrderLifecycleState → Bool
  | .filled | .cancelled | .rejected => true
  | _ => false

/-- Discriminant of `LatencyRecord.stage`. -/
inductive Stage where
  | tickIngest
  | featureExtraction
  | aiScoringFetch
  | riskCheck
  | executionRouting
  | brokerSubmit
deriving DecidableEq, Repr

/-- The wire byte of a stage. -/
def Stage.asU8 : Stage → UInt8
  | .tickIngest => 0
  | .featureExtraction => 1
  | .aiScoringFetch => 2
  | .riskCheck => 3
  | .executionRouting => 4
  | .brokerSubmit => 5

/-- `LatencyRecord_v1`. -/
structure LatencyRecord where
  correlationId : List UInt8
  stage : UInt8
  nanos : UInt64
  budgetNanos : UInt64
  breach : Bool
deriving DecidableEq, Repr

/-- `OrderIntent_v1`, the record the Risk_Engine signs. -/
structure OrderIntent where
  correlationId : Vector UInt8 16
  symbol : UInt32
  side : UInt8
  quantity : UInt64
  orderType : UInt8
  limitPaise : Int64
  exchange : Int8
deriving DecidableEq

/-- `RiskProfile_v1`. -/
structure RiskProfile where
  stopLossPaise : Int64
  takeProfitPaise : Int64
  maxSizeQty : UInt64
  timeHorizonSeconds : UInt32
deriving DecidableEq

/-- `Signal_v1`. -/
structure Signal where
  correlationId : Vector UInt8 16
  strategy : UInt8
  symbol : UInt32
  side : UInt8
  baseProbability : ExactFloat
  confidence : ExactFloat
  riskProfile : RiskProfile
  tsNs : UInt64
deriving DecidableEq

/-- Rejection codes the Risk_Engine's evaluator can return. -/
inductive RejectionReason where
  | sessionClosed
  | maxDailyLoss
  | maxPosition
  | maxLeverage
  | maxDrawdown
  | tradeFrequency
  | maxExposure
  | slippageCooldown
  | volatilityBlock
  | brokerLatencyBlock
  | profitTargetReached
  | killSwitchEngaged
  | adaptiveRiskZero
deriving DecidableEq, Repr

namespace RejectionReason

/-- `as_u8`: the wire discriminant. -/
def asU8 : RejectionReason → UInt8
  | sessionClosed => 1
  | maxDailyLoss => 2
  | maxPosition => 3
  | maxLeverage => 4
  | maxDrawdown => 5
  | tradeFrequency => 6
  | maxExposure => 7
  | slippageCooldown => 8
  | volatilityBlock => 9
  | brokerLatencyBlock => 10
  | profitTargetReached => 11
  | killSwitchEngaged => 12
  | adaptiveRiskZero => 16

/-- `as_str`, which `Display` writes. -/
def asStr : RejectionReason → String
  | sessionClosed => "session_closed"
  | maxDailyLoss => "max_daily_loss"
  | maxPosition => "max_position"
  | maxLeverage => "max_leverage"
  | maxDrawdown => "max_drawdown"
  | tradeFrequency => "trade_frequency"
  | maxExposure => "max_exposure"
  | slippageCooldown => "slippage_cooldown"
  | volatilityBlock => "volatility_block"
  | brokerLatencyBlock => "broker_latency_block"
  | profitTargetReached => "profit_target_reached"
  | killSwitchEngaged => "kill_switch_engaged"
  | adaptiveRiskZero => "adaptive_risk_zero"

end RejectionReason

end Hedge
