import Hedge.Common.Machine
import Hedge.Core.Types
import Hedge.Core.RingWindow
import Mathlib.Data.List.Sort

/-!
# State of the Risk_Engine

Reference: `hedge-risk/src/{kill_switch,frequency,cooldown,volatility,target,state}.rs` and the
fields of `hedge-config/src/models.rs` that the evaluator reads.

Clock readings are arguments, as they are in the source wherever a function takes `now_ns`.
-/

namespace Hedge.Risk

open Hedge.Common Hedge.Core

/-! ## Configuration -/

/-- Behaviour once the daily profit target is reached. -/
inductive PostTargetPolicy where
  | reduceSizeToZero
  | stopForSession
  | halveSize
  | continue
deriving DecidableEq, Repr

/-- `CapitalConfig`. -/
structure CapitalConfig where
  baseInr : UInt32
  dailyProfitTargetMaxInr : UInt32
  postTargetPolicy : PostTargetPolicy
deriving DecidableEq

/-- The limits of `RiskConfig` that the evaluator reads. -/
structure RiskConfig where
  maxDailyLossInr : UInt32
  maxPositionPerSymbol : UInt32
  maxPositionPortfolio : UInt32
  maxLeverageAccount : ExactFloat
  maxDrawdownInr : UInt32
  maxTradesPerMinute : UInt32
  maxTradesPerHour : UInt32
  maxTradesPerSession : UInt32
  maxExposurePerSymbolInr : UInt32
  volatilityBlockThreshold : ExactFloat
  brokerLatencyBlockMs : UInt32
  baseRiskPerTradeInr : UInt32
deriving DecidableEq

/-- `chrono::NaiveTime`: seconds since midnight, and nanoseconds (a leap second has a billion of
them and more). -/
structure NaiveTime where
  secs : ℕ
  frac : ℕ
deriving DecidableEq, Repr

/-- Times are compared by their seconds first. -/
instance : LE NaiveTime := ⟨fun a b => a.secs < b.secs ∨ a.secs = b.secs ∧ a.frac ≤ b.frac⟩

instance : LT NaiveTime := ⟨fun a b => a.secs < b.secs ∨ a.secs = b.secs ∧ a.frac < b.frac⟩

instance (a b : NaiveTime) : Decidable (a ≤ b) := inferInstanceAs (Decidable (_ ∨ _))

instance (a b : NaiveTime) : Decidable (a < b) := inferInstanceAs (Decidable (_ ∨ _))

theorem NaiveTime.le_def {a b : NaiveTime} :
    a ≤ b ↔ a.secs < b.secs ∨ a.secs = b.secs ∧ a.frac ≤ b.frac := Iff.rfl

theorem NaiveTime.lt_def {a b : NaiveTime} :
    a < b ↔ a.secs < b.secs ∨ a.secs = b.secs ∧ a.frac < b.frac := Iff.rfl

/-- `NaiveTime::from_hms_opt(h, m, s)`. -/
def NaiveTime.fromHms (hour minute second : ℕ) : NaiveTime :=
  ⟨hour * 3600 + minute * 60 + second, 0⟩

/-- `SessionConfig`: the trading window in IST. -/
structure SessionConfig where
  startIst : NaiveTime
  endIst : NaiveTime
deriving DecidableEq

namespace Defaults

/-- Capital defaults. -/
def capital : CapitalConfig := ⟨20000, 1000, .reduceSizeToZero⟩

/-- Risk defaults tuned to the default base; `0.06` is the `f32` nearest to it. -/
def risk : RiskConfig where
  maxDailyLossInr := 600
  maxPositionPerSymbol := 200
  maxPositionPortfolio := 500
  maxLeverageAccount := .fin 5
  maxDrawdownInr := 1000
  maxTradesPerMinute := 4
  maxTradesPerHour := 30
  maxTradesPerSession := 60
  maxExposurePerSymbolInr := 20000
  volatilityBlockThreshold := .fin (16106127 / 268435456)
  brokerLatencyBlockMs := 250
  baseRiskPerTradeInr := 100

/-- Session window defaults, 09:15 to 15:30. -/
def session : SessionConfig := ⟨.fromHms 9 15 0, .fromHms 15 30 0⟩

end Defaults

/-! ## Kill_Switch -/

/-- Categorical reason for a Kill_Switch activation. -/
inductive KillReason where
  | maxDrawdown
  | traderRequest
  | psychologyCritical
  | supervisorHalt
  | aiGovernanceCritical
deriving DecidableEq, Repr

/-- `KillSwitchState`. -/
structure KillSwitchState where
  active : Bool
  reason : Option KillReason
deriving DecidableEq, Repr

namespace KillSwitchState

/-- A fresh switch. -/
def new : KillSwitchState := ⟨false, none⟩

/-- Engage the switch; the result says whether this call made the transition. Only the call that
makes it records its reason. -/
def activate (k : KillSwitchState) (reason : KillReason) : Bool × KillSwitchState :=
  if k.active then (false, k) else (true, ⟨true, some reason⟩)

/-- Clear the reason and the flag. -/
def reset (_ : KillSwitchState) : KillSwitchState := ⟨false, none⟩

@[simp] theorem activate_active (k : KillSwitchState) (r : KillReason) :
    (k.activate r).2.active = true := by
  unfold activate
  split <;> simp_all

end KillSwitchState

/-! ## Trade-frequency counters -/

/-- `NS_PER_MINUTE`. -/
def nsPerMinute : ℕ := 60 * 1000000000

/-- `NS_PER_HOUR`. -/
def nsPerHour : ℕ := 60 * nsPerMinute

/-- `FrequencyCounters`: timestamps of admitted entries in three inline rings. -/
structure FrequencyCounters where
  minute : RingWindow UInt64 8
  hour : RingWindow UInt64 64
  session : RingWindow UInt64 128
  cachedMinuteCount : UInt32
  cachedHourCount : UInt32
  cachedSessionCount : UInt32

namespace FrequencyCounters

/-- Empty counters. -/
def new : FrequencyCounters where
  minute := RingWindow.new 0 (by decide)
  hour := RingWindow.new 0 (by decide)
  session := RingWindow.new 0 (by decide)
  cachedMinuteCount := 0
  cachedHourCount := 0
  cachedSessionCount := 0

/-- Entries of `ring` still within `windowNs` of `nowNs`. -/
def liveCount {N : ℕ} (ring : RingWindow UInt64 N) (nowNs : UInt64) (windowNs : ℕ) : ℕ :=
  ring.iter.countP (fun ts => decide ((nowNs.saturatingSub ts).toNat ≤ windowNs))

/-- Whether one more entry at `nowNs` would breach a limit; refreshes the cached counts. -/
def wouldBreach (f : FrequencyCounters) (nowNs : UInt64)
    (maxPerMinute maxPerHour maxPerSession : UInt32) : Bool × FrequencyCounters :=
  let m := liveCount f.minute nowNs nsPerMinute
  let h := liveCount f.hour nowNs nsPerHour
  -- the session ring is not pruned by time
  let s := f.session.len
  (decide (m + 1 > maxPerMinute.toNat ∨ h + 1 > maxPerHour.toNat ∨ s + 1 > maxPerSession.toNat),
    { f with
      cachedMinuteCount := UInt32.ofNat m
      cachedHourCount := UInt32.ofNat h
      cachedSessionCount := UInt32.ofNat s })

/-- Record an admission at `nowNs`. -/
def record (f : FrequencyCounters) (nowNs : UInt64) : FrequencyCounters :=
  let minute := f.minute.push nowNs
  let hour := f.hour.push nowNs
  let session := f.session.push nowNs
  { minute, hour, session
    cachedMinuteCount := UInt32.ofNat (liveCount minute nowNs nsPerMinute)
    cachedHourCount := UInt32.ofNat (liveCount hour nowNs nsPerHour)
    cachedSessionCount := UInt32.ofNat session.len }

/-- Clear the per-session ring. -/
def resetSession (f : FrequencyCounters) : FrequencyCounters :=
  { f with session := f.session.clear, cachedSessionCount := 0 }

end FrequencyCounters

/-! ## Cooldowns, volatility and broker latency -/

/-- Why a symbol is cooling. -/
inductive CooldownReason where
  | slippage
  | psychologyCooldown
deriving DecidableEq, Repr

/-- Outcome of an `engage` call. -/
inductive CooldownTransition where
  | engaged
  | extended
deriving DecidableEq, Repr

/-- `CooldownRegistry`: symbol to expiry and reason. -/
abbrev CooldownRegistry := Map SymbolId (UInt64 × CooldownReason)

namespace CooldownRegistry

/-- Whether `symbol` is in cooldown at `nowNs`. -/
def isCooling (r : CooldownRegistry) (symbol : SymbolId) (nowNs : UInt64) : Bool :=
  match r.lookup symbol with
  | some (expiry, _) => decide (nowNs < expiry)
  | none => false

/-- Engage `symbol` until `expiryNs`; an existing expiry is only ever moved later. -/
def engage (r : CooldownRegistry) (symbol : SymbolId) (expiryNs : UInt64)
    (reason : CooldownReason) : CooldownTransition × CooldownRegistry :=
  match r.lookup symbol with
  | some (expiry, _) =>
    (.extended, if expiry < expiryNs then r.insert symbol (expiryNs, reason) else r)
  | none => (.engaged, r.insert symbol (expiryNs, reason))

/-- Remove every expired cooldown and return the symbols removed, in key order. -/
def prune (r : CooldownRegistry) (nowNs : UInt64) : List SymbolId × CooldownRegistry :=
  let expired := (r.entries.filterMap fun e =>
    if e.2.1 ≤ nowNs then some e.1 else none).insertionSort (fun a b => a.raw ≤ b.raw)
  (expired, expired.foldl (fun r sym => r.erase sym) r)

end CooldownRegistry

/-- Outcome of a volatility update. -/
inductive VolatilityTransition where
  | steady
  | blocked
  | unblocked
deriving DecidableEq, Repr

/-- `VolatilityTable`: most recent realised volatility per symbol. -/
abbrev VolatilityTable := Map SymbolId ExactFloat

namespace VolatilityTable

/-- Store a reading and report the edge relative to `threshold`. -/
def update (t : VolatilityTable) (symbol : SymbolId) (vol threshold : ExactFloat) :
    VolatilityTransition × VolatilityTable :=
  let wasBlocked := match t.lookup symbol with
    | some prior => prior.gt threshold
    | none => false
  let transition := match wasBlocked, vol.gt threshold with
    | false, true => .blocked
    | true, false => .unblocked
    | _, _ => .steady
  (transition, t.insert symbol vol)

/-- Whether the latest reading for `symbol` is above the threshold. -/
def isBlocked (t : VolatilityTable) (symbol : SymbolId) (threshold : ExactFloat) : Bool :=
  match t.lookup symbol with
  | some v => v.gt threshold
  | none => false

end VolatilityTable

/-- `BrokerLatencyTable`: most recent round trip per broker, in milliseconds. -/
abbrev BrokerLatencyTable := Map BrokerId UInt32

/-! ## Daily profit target -/

/-- Outcome of a `record_realized` call. -/
inductive TargetTransition where
  | steady
  | crossed
deriving DecidableEq, Repr

/-- `TargetState`. -/
structure TargetState where
  realizedPnlPaise : Int64
  upperBandPaise : Int64
  crossed : Bool
  policy : PostTargetPolicy
deriving DecidableEq

namespace TargetState

/-- A tracker for an upper band given in rupees. -/
def new (upperBandInr : UInt32) (policy : PostTargetPolicy) : TargetState :=
  ⟨0, Int64.fromU32 upperBandInr * 100, false, policy⟩

/-- Reset at the start of a session. -/
def resetSession (t : TargetState) : TargetState :=
  { t with realizedPnlPaise := 0, crossed := false }

/-- Record the session's cumulative realised PnL; reports the first crossing only. -/
def recordRealized (t : TargetState) (realizedPnlPaise : Int64) : TargetTransition × TargetState :=
  if !t.crossed && decide (t.upperBandPaise ≤ realizedPnlPaise) then
    (.crossed, { t with realizedPnlPaise, crossed := true })
  else (.steady, { t with realizedPnlPaise })

/-- Whether the policy rejects a fresh entry. -/
def shouldReject (t : TargetState) : Bool :=
  t.crossed && (t.policy = .reduceSizeToZero || t.policy = .stopForSession)

/-- Whether the policy halves the sized quantity. -/
def shouldHalve (t : TargetState) : Bool :=
  t.crossed && t.policy = .halveSize

end TargetState

/-! ## Aggregate state -/

/-- `RiskState`, the mutable half of the engine. -/
structure RiskState where
  realizedPnlPaise : Int64
  unrealizedPnlPaise : Int64
  drawdownPaise : Int64
  peakEquityPaise : Int64
  portfolioPosition : UInt64
  perSymbolPosition : Map SymbolId UInt64
  perSymbolExposurePaise : Map SymbolId Int64
  perSectorExposurePaise : Map UInt32 Int64
  aggregateNotionalPaise : Int64
  frequency : FrequencyCounters
  cooldowns : CooldownRegistry
  volatility : VolatilityTable
  brokerLatency : BrokerLatencyTable
  target : TargetState

namespace RiskState

/-- Fresh state seeded from the capital base and the post-target policy. -/
def new (capital : CapitalConfig) : RiskState where
  realizedPnlPaise := 0
  unrealizedPnlPaise := 0
  drawdownPaise := 0
  peakEquityPaise := Int64.fromU32 capital.baseInr * 100
  portfolioPosition := 0
  perSymbolPosition := ∅
  perSymbolExposurePaise := ∅
  perSectorExposurePaise := ∅
  aggregateNotionalPaise := 0
  frequency := FrequencyCounters.new
  cooldowns := ∅
  volatility := ∅
  brokerLatency := ∅
  target := TargetState.new capital.dailyProfitTargetMaxInr capital.postTargetPolicy

/-- Reset the per-session counters. Cooldowns, volatility and broker latency persist. -/
def resetSession (s : RiskState) (capital : CapitalConfig) : RiskState :=
  { s with
    realizedPnlPaise := 0
    unrealizedPnlPaise := 0
    drawdownPaise := 0
    peakEquityPaise := Int64.fromU32 capital.baseInr * 100
    portfolioPosition := 0
    perSymbolPosition := ∅
    perSymbolExposurePaise := ∅
    perSectorExposurePaise := ∅
    aggregateNotionalPaise := 0
    frequency := s.frequency.resetSession
    target := s.target.resetSession }

/-- Replace the PnL aggregates and recompute peak equity and drawdown. -/
def updatePnl (s : RiskState) (realizedPaise unrealizedPaise : Int64) (capital : CapitalConfig) :
    RiskState :=
  let capitalPaise := Int64.fromU32 capital.baseInr * 100
  let currentEquity := (capitalPaise.saturatingAdd realizedPaise).saturatingAdd unrealizedPaise
  let peak := if s.peakEquityPaise < currentEquity then currentEquity else s.peakEquityPaise
  { s with
    realizedPnlPaise := realizedPaise
    unrealizedPnlPaise := unrealizedPaise
    peakEquityPaise := peak
    drawdownPaise := peak.saturatingSub currentEquity }

/-- Realised plus unrealised PnL. -/
def totalPnlPaise (s : RiskState) : Int64 :=
  s.realizedPnlPaise.saturatingAdd s.unrealizedPnlPaise

end RiskState

end Hedge.Risk
