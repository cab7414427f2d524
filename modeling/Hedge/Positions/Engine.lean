import Hedge.Positions.Pnl

/-!
# The position engine

Reference: `hedge-position/src/engine.rs`, `hedge-position/src/risk_state.rs`.

The engine holds one position per symbol and the aggregate risk state. An entry point is one step of
a sequential machine: it returns the events to publish and the next engine. The `DashMap` of
positions is a finite map; the aggregate is a sum over it, so the iteration order does not matter.
-/

namespace Hedge.Positions

open Hedge

/-! ## Aggregate risk state -/

/-- Aggregate risk surface of the account. -/
structure TraderRiskState where
  aggregateExposurePaise : Int64
  drawdownPaise : Int64
  availableMarginPaise : Int64
  peakEquityPaise : Int64
deriving DecidableEq, Repr

/-- The state of a fresh session. -/
def TraderRiskState.fresh (baseCapitalPaise : Int64) : TraderRiskState :=
  ⟨0, 0, baseCapitalPaise, baseCapitalPaise⟩

/-- `aggregate_state`. -/
def aggregateState (positions : List Position) (baseCapitalPaise previousPeakEquityPaise : Int64) :
    TraderRiskState :=
  let aggregateExposure := (positions.map (·.exposurePaise.toInt)).sum
  let realized := (positions.map (·.realizedPnlPaise.toInt)).sum
  let unrealized := (positions.map (·.unrealizedPnlPaise.toInt)).sum
  let equity := baseCapitalPaise.toInt + (realized + unrealized)
  let newPeak := max equity previousPeakEquityPaise.toInt
  let drawdown := max (newPeak - equity) 0
  -- Unrealised PnL is left out: brokers extend no margin against it.
  let availableMargin := baseCapitalPaise.toInt + realized - aggregateExposure
  { aggregateExposurePaise := Int64.clamp aggregateExposure
    drawdownPaise := Int64.clamp drawdown
    availableMarginPaise := Int64.clamp availableMargin
    peakEquityPaise := Int64.clamp newPeak }

/-! ## Engine -/

/-- An event the engine asks the network layer to publish. -/
inductive PositionEvent where
  | positionUpdate (symbol : SymbolId) (snapshot : Position)
  | riskState (state : TraderRiskState)
deriving DecidableEq, Repr

/-- `PositionEngine`. -/
structure PositionEngine where
  baseCapitalPaise : Int64
  posUpdateThrottleNs : UInt64
  positions : Map SymbolId Position
  aggregate : TraderRiskState
  lastEmitNs : Map SymbolId UInt64
  lastPublishedAggregate : Option TraderRiskState

namespace PositionEngine

/-- `DEFAULT_POS_UPDATE_THROTTLE_NS`: ten updates a second. -/
def defaultPosUpdateThrottleNs : UInt64 := 100000000

/-- `with_throttle`. -/
def withThrottle (baseCapitalPaise : Int64) (posUpdateThrottleNs : UInt64) : PositionEngine where
  baseCapitalPaise := baseCapitalPaise
  posUpdateThrottleNs := posUpdateThrottleNs
  positions := ∅
  aggregate := .fresh baseCapitalPaise
  lastEmitNs := ∅
  lastPublishedAggregate := none

/-- `PositionEngine::new`. -/
def new (baseCapitalPaise : Int64) : PositionEngine :=
  withThrottle baseCapitalPaise defaultPosUpdateThrottleNs

/-- `position_of`. -/
def positionOf (engine : PositionEngine) (symbol : SymbolId) : Option Position :=
  engine.positions.lookup symbol

/-- `snapshot_risk_state`. -/
def snapshotRiskState (engine : PositionEngine) : TraderRiskState := engine.aggregate

/-- `recompute_aggregate`: the new aggregate is stored and returned. -/
def recomputeAggregate (engine : PositionEngine) : TraderRiskState × PositionEngine :=
  let newState := aggregateState (engine.positions.entries.map (·.2)) engine.baseCapitalPaise
    engine.aggregate.peakEquityPaise
  (newState, { engine with aggregate := newState })

/-- `on_fill`. -/
def onFill (engine : PositionEngine) (symbol : SymbolId) (fill : Fill) (nowNs : UInt64) :
    List PositionEvent × PositionEngine :=
  let position := ((engine.positionOf symbol).getD (.flat symbol)).applyFill fill
  let engine := { engine with positions := engine.positions.insert symbol position }
  let (newState, engine) := engine.recomputeAggregate
  ([.positionUpdate symbol position, .riskState newState],
    { engine with
      lastEmitNs := engine.lastEmitNs.insert symbol nowNs
      lastPublishedAggregate := some newState })

/-- `on_tick`. -/
def onTick (engine : PositionEngine) (symbol : SymbolId) (markPx : Int64) (nowNs : UInt64) :
    List PositionEvent × PositionEngine :=
  match engine.positionOf symbol with
  | none => ([], engine)
  | some position =>
    if position.quantity = 0 then
      let position := { position with lastMarkPx := markPx, unrealizedPnlPaise := 0 }
      ([], { engine with positions := engine.positions.insert symbol position })
    else
      let position := position.applyMark markPx
      let engine := { engine with positions := engine.positions.insert symbol position }
      let elapsed := nowNs.saturatingSub ((engine.lastEmitNs.lookup symbol).getD 0)
      let due := decide (engine.posUpdateThrottleNs ≤ elapsed)
      let engine :=
        if due then { engine with lastEmitNs := engine.lastEmitNs.insert symbol nowNs } else engine
      let (newState, engine) := engine.recomputeAggregate
      let changed := engine.lastPublishedAggregate != some newState
      let engine :=
        if changed then { engine with lastPublishedAggregate := some newState } else engine
      ((if due then [.positionUpdate symbol position] else [])
        ++ (if changed then [.riskState newState] else []), engine)

/-- `set_strategy_allocations`. -/
def setStrategyAllocations (engine : PositionEngine) (symbol : SymbolId)
    (allocs : List StrategyAllocation) : PositionEngine :=
  let position := (engine.positionOf symbol).getD (.flat symbol)
  { engine with
    positions := engine.positions.insert symbol { position with strategyAllocations := allocs } }

/-! ## The book of an engine -/

/-- The ledger of a symbol; an untracked symbol has an empty one. -/
def ledgerOf (engine : PositionEngine) (symbol : SymbolId) : Ledger :=
  ((engine.positionOf symbol).map Position.ledger).getD .empty

/-- Replacing a position replaces the ledger of its symbol only. -/
theorem ledgerOf_of_insert {engine engine' : PositionEngine} {symbol : SymbolId}
    {position : Position} (h : engine'.positions = engine.positions.insert symbol position)
    (s : SymbolId) :
    engine'.ledgerOf s = if s = symbol then position.ledger else engine.ledgerOf s := by
  by_cases hs : s = symbol
  · subst hs
    simp [ledgerOf, positionOf, h, AList.lookup_insert]
  · simp [ledgerOf, positionOf, h, AList.lookup_insert_ne hs, hs]

/-- A fill is booked in the ledger of its symbol. -/
theorem ledgerOf_onFill (engine : PositionEngine) (symbol s : SymbolId) (fill : Fill)
    (nowNs : UInt64) :
    (engine.onFill symbol fill nowNs).2.ledgerOf s
      = if s = symbol then (engine.ledgerOf s).book fill else engine.ledgerOf s := by
  have hinsert : (engine.onFill symbol fill nowNs).2.positions = engine.positions.insert symbol
      (((engine.positionOf symbol).getD (.flat symbol)).applyFill fill) := rfl
  have hposition : (((engine.positionOf symbol).getD (.flat symbol)).applyFill fill).ledger
      = (engine.ledgerOf symbol).book fill := by
    cases h : engine.positionOf symbol <;> simp [ledgerOf, h]
  rw [ledgerOf_of_insert hinsert, hposition]
  split_ifs with hs
  · rw [hs]
  · rfl

/-- A tick books nothing. -/
theorem ledgerOf_onTick (engine : PositionEngine) (symbol s : SymbolId) (markPx : Int64)
    (nowNs : UInt64) :
    (engine.onTick symbol markPx nowNs).2.ledgerOf s = engine.ledgerOf s := by
  unfold onTick
  cases hpos : engine.positionOf symbol with
  | none => rfl
  | some position =>
    -- Both branches put back a position that differs in the mark fields only.
    have hsame : ∀ (engine' : PositionEngine) (position' : Position),
        engine'.positions = engine.positions.insert symbol position' →
        position'.ledger = position.ledger → engine'.ledgerOf s = engine.ledgerOf s := by
      intro engine' position' hinsert hledger
      rw [ledgerOf_of_insert hinsert]
      split_ifs with hs
      · rw [hledger, hs]
        simp [ledgerOf, hpos]
      · rfl
    dsimp only
    split
    · exact hsame _ _ rfl rfl
    · refine hsame _ (position.applyMark markPx) ?_ rfl
      simp only [recomputeAggregate]
      split <;> split <;> rfl

end PositionEngine

end Hedge.Positions
