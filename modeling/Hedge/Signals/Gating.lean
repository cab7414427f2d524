import Hedge.Common.FloatOps
import Hedge.Core.Market

/-!
# Gates of the strategies

Reference: `hedge-signals/src/context.rs`, `hedge-signals/src/strategy.rs`,
`hedge-signals/src/gating.rs`.

A strategy is its three functions: the trait asks that `evaluate` depends on nothing but its
arguments.
-/

namespace Hedge.Signals

open Hedge Hedge.Common

/-! ## Context -/

/-- Trader-controlled map of the strategies that may run. -/
structure StrategyToggles where
  enabled : Map StrategyId Bool

namespace StrategyToggles

/-- A map with six strategies enabled; the seventh is absent. -/
def allEnabled : StrategyToggles :=
  ⟨[.openingRangeBreakout, .vwapPullback, .momentumBreakout, .liquiditySweepReversal,
    .optionsOiExpansionBreakout, .volatilityCompressionBreakout].foldl
      (fun m id => m.insert id true) ∅⟩

/-- A missing entry is enabled. -/
def isEnabled (toggles : StrategyToggles) (id : StrategyId) : Bool :=
  (toggles.enabled.lookup id).getD true

end StrategyToggles

/-- `SectorId(u32)`. -/
structure SectorId where
  raw : UInt32
deriving DecidableEq, Repr

/-- Sectors and symbols suppressed by news. -/
structure NewsGates where
  blockedSectors : List SectorId
  blockedSymbols : List SymbolId

namespace NewsGates

def empty : NewsGates := ⟨[], []⟩

def isSymbolBlocked (gates : NewsGates) (symbol : SymbolId) : Bool :=
  gates.blockedSymbols.any (· == symbol)

def isSectorBlocked (gates : NewsGates) (sector : SectorId) : Bool :=
  gates.blockedSectors.any (· == sector)

end NewsGates

/-- Structure of the previous day. -/
structure PreviousDayMemory where
  symbol : SymbolId
  openPaise : Int64
  highPaise : Int64
  lowPaise : Int64
  closePaise : Int64
  vwapPaise : Int64

/-- What a strategy sees beside the snapshot. -/
structure StrategyContext where
  regime : Regime
  traderConfig : StrategyToggles
  warMode : Bool
  warModeMinConfidence : ExactFloat
  previousDay : Option PreviousDayMemory
  newsGates : NewsGates

/-- The `Strategy` trait. -/
structure Strategy where
  id : StrategyId
  evaluate : FeatureSnapshot → StrategyContext → Option Signal
  enabledIn : Regime → Bool

/-! ## Gates -/

/-- Why a gate blocks a strategy. -/
inductive GateReason where
  | traderToggle
  | regimeBlocked
  | newsBlocked
  | warModeConfidenceTooLow
deriving DecidableEq, Repr

inductive GateOutcome where
  | allowed
  | blocked (reason : GateReason)
deriving DecidableEq, Repr

def GateOutcome.isAllowed : GateOutcome → Bool
  | allowed => true
  | blocked _ => false

def checkTraderToggle (id : StrategyId) (ctx : StrategyContext) : GateOutcome :=
  if ctx.traderConfig.isEnabled id then .allowed else .blocked .traderToggle

def checkRegime (strategy : Strategy) (ctx : StrategyContext) : GateOutcome :=
  if strategy.enabledIn ctx.regime then .allowed else .blocked .regimeBlocked

def checkNews (symbol : SymbolId) (sector : Option SectorId) (ctx : StrategyContext) :
    GateOutcome :=
  if ctx.newsGates.isSymbolBlocked symbol then .blocked .newsBlocked
  else match sector with
    | some sec => if ctx.newsGates.isSectorBlocked sec then .blocked .newsBlocked else .allowed
    | none => .allowed

/-- `check_gates`: the first gate that blocks. -/
def checkGates (strategy : Strategy) (ctx : StrategyContext) (symbol : SymbolId)
    (sector : Option SectorId) : GateOutcome :=
  match checkTraderToggle strategy.id ctx with
  | .blocked r => .blocked r
  | .allowed => match checkRegime strategy ctx with
    | .blocked r => .blocked r
    | .allowed => match checkNews symbol sector ctx with
      | .blocked r => .blocked r
      | .allowed => .allowed

/-- `check_war_mode`, asked of a signal. -/
def checkWarMode (signal : Signal) (ctx : StrategyContext) : GateOutcome :=
  if !ctx.warMode then .allowed
  else if (signal.confidence.add ExactFloat.f32Epsilon).lt ctx.warModeMinConfidence then
    .blocked .warModeConfidenceTooLow
  else .allowed

/-! ## What passes -/

/-- The sector of a symbol is blocked. -/
def sectorBlocked (gates : NewsGates) (sector : Option SectorId) : Bool :=
  sector.any gates.isSectorBlocked

theorem checkNews_isAllowed (symbol : SymbolId) (sector : Option SectorId) (ctx : StrategyContext) :
    (checkNews symbol sector ctx).isAllowed =
      (!ctx.newsGates.isSymbolBlocked symbol && !sectorBlocked ctx.newsGates sector) := by
  unfold checkNews sectorBlocked
  cases ctx.newsGates.isSymbolBlocked symbol with
  | true => rfl
  | false =>
    cases sector with
    | none => rfl
    | some sec =>
      simp only [Option.any_some, Bool.false_eq_true, if_false]
      cases ctx.newsGates.isSectorBlocked sec <;> rfl

/-- The gates before the evaluation, as one condition. -/
theorem checkGates_isAllowed (strategy : Strategy) (ctx : StrategyContext) (symbol : SymbolId)
    (sector : Option SectorId) :
    (checkGates strategy ctx symbol sector).isAllowed =
      (ctx.traderConfig.isEnabled strategy.id && strategy.enabledIn ctx.regime &&
        (!ctx.newsGates.isSymbolBlocked symbol && !sectorBlocked ctx.newsGates sector)) := by
  rw [← checkNews_isAllowed]
  unfold checkGates checkTraderToggle checkRegime
  cases ctx.traderConfig.isEnabled strategy.id with
  | false => rfl
  | true =>
    cases strategy.enabledIn ctx.regime with
    | false => rfl
    | true => cases checkNews symbol sector ctx <;> rfl

theorem checkWarMode_isAllowed (signal : Signal) (ctx : StrategyContext) :
    (checkWarMode signal ctx).isAllowed =
      (!ctx.warMode ||
        !(signal.confidence.add ExactFloat.f32Epsilon).lt ctx.warModeMinConfidence) := by
  unfold checkWarMode
  cases ctx.warMode with
  | false => rfl
  | true =>
    cases (signal.confidence.add ExactFloat.f32Epsilon).lt ctx.warModeMinConfidence with
    | false => rfl
    | true => rfl

end Hedge.Signals
