import Hedge.Common.FloatOps
import Hedge.Common.Machine
import Hedge.Common.Run
import Hedge.Core.Market
import Hedge.Core.RingWindow

/-!
# Breadth

Reference: `hedge-market-data/src/breadth.rs`.

The aggregator keeps the last price and a window of returns for each symbol, and computes the breadth
of the sectors and of the volatility at the end of each batch of ticks. A return is finite as an
`f32`: it is a difference of two prices over a price. Sums are exact, so the order in which a hash
map yields its entries does not matter.
-/

namespace Hedge.MarketData

open Hedge Hedge.Common Hedge.Core

/-! ## Payloads -/

/-- `SectorBreadth`. -/
structure SectorBreadth where
  sectors : Map String ExactFloat
  tsNs : UInt64

/-- `VolatilityBreadth`. -/
structure VolatilityBreadth where
  stdev : ExactFloat
  sampleCount : UInt32
  tsNs : UInt64
deriving DecidableEq

/-- The payload of `md.breadth.volatility`. -/
def VolatilityBreadth.toJson (v : VolatilityBreadth) : Json :=
  .obj [("stdev", .ofF32 v.stdev), ("sample_count", .ofU32 v.sampleCount), ("ts_ns", .ofU64 v.tsNs)]

/-- `BreadthSnapshot`; both payloads are empty between batches. -/
structure BreadthSnapshot where
  sector : Option SectorBreadth
  volatility : Option VolatilityBreadth

/-! ## State -/

/-- `VOLATILITY_WINDOW`. -/
def volatilityWindow : ℕ := 60

/-- Per-symbol state. -/
structure SymbolState where
  lastLtpPaise : Int64
  prevClosePaise : Int64
  returns : RingWindow ℚ volatilityWindow
  prevLtpPaise : Option Int64

/-- `SymbolState::new`. -/
def SymbolState.new (prevClosePaise : Int64) : SymbolState :=
  ⟨0, prevClosePaise, RingWindow.new 0 (by decide), none⟩

/-- Sector and volatility breadth aggregator; instants are in nanoseconds. -/
structure BreadthAggregator where
  sectors : Map SymbolId String
  state : Map SymbolId SymbolState
  prevClose : Map SymbolId Int64
  ticksSincePublish : UInt32
  lastPublish : ℕ
  batchTicks : UInt32
  batchInterval : ℕ

/-- A tick, with the instant of `should_publish`, the reading of `now_ns` and the instant that is
kept after a publish. -/
structure BreadthTick where
  tick : Tick
  checkedAt : ℕ
  nowNs : UInt64
  publishedAt : ℕ

namespace BreadthAggregator

/-- `with_batch_thresholds`. -/
def withBatchThresholds (sectors : Map SymbolId String) (prevClose : Map SymbolId Int64)
    (batchTicks : UInt32) (batchInterval createdAt : ℕ) : BreadthAggregator :=
  ⟨sectors, ∅, prevClose, 0, createdAt, batchTicks, batchInterval⟩

/-- `new`: a hundred ticks or 250 ms. -/
def new (sectors : Map SymbolId String) (prevClose : Map SymbolId Int64) (createdAt : ℕ) :
    BreadthAggregator :=
  withBatchThresholds sectors prevClose 100 250000000 createdAt

/-- `symbol_state_mut`. -/
def symbolState (agg : BreadthAggregator) (sym : SymbolId) : SymbolState :=
  (agg.state.lookup sym).getD (.new ((agg.prevClose.lookup sym).getD 0))

/-- The part of `on_tick` that is about the symbol. -/
def observe (s : SymbolState) (ltpPaise : Int64) : SymbolState :=
  let returns := match s.prevLtpPaise with
    | none => s.returns
    | some prev =>
      if prev = 0 then s.returns
      else s.returns.push ((ltpPaise.toInt - prev.toInt) / prev.toInt : ℚ)
  { s with returns, lastLtpPaise := ltpPaise, prevLtpPaise := some ltpPaise }

/-- `should_publish`. -/
def shouldPublish (agg : BreadthAggregator) (instant : ℕ) : Bool :=
  agg.batchTicks ≤ agg.ticksSincePublish || agg.batchInterval ≤ instant - agg.lastPublish

/-- Advancers, decliners and all symbols of a sector. -/
structure SectorCounts where
  advancers : ℕ
  decliners : ℕ
  total : ℕ

/-- One symbol more. -/
def SectorCounts.add (c : SectorCounts) (s : SymbolState) : SectorCounts where
  advancers := c.advancers + if s.prevClosePaise < s.lastLtpPaise then 1 else 0
  decliners := c.decliners + if s.lastLtpPaise < s.prevClosePaise then 1 else 0
  total := c.total + 1

/-- The counts of the sectors; symbols without a sector or a previous close are skipped. -/
def sectorCounts (agg : BreadthAggregator) : Map String SectorCounts :=
  agg.state.entries.foldl (fun counts entry =>
    match agg.sectors.lookup entry.1 with
    | none => counts
    | some sector =>
      if entry.2.prevClosePaise = (0 : Int64) then counts
      else counts.insert sector (((counts.lookup sector).getD ⟨0, 0, 0⟩).add entry.2)) ∅

/-- `compute_sector`. -/
def computeSector (agg : BreadthAggregator) (nowNs : UInt64) : SectorBreadth where
  sectors := agg.sectorCounts.entries.foldl (fun sectors entry =>
    sectors.insert entry.1 (.fin (if entry.2.total = 0 then 0
      else (entry.2.advancers - entry.2.decliners : ℚ) / entry.2.total))) ∅
  tsNs := nowNs

/-- The returns of every symbol. -/
def pool (agg : BreadthAggregator) : List ℚ := agg.state.entries.flatMap (·.2.returns.iter)

/-- `compute_volatility`, for the square root of the math library. -/
def computeVolatility (agg : BreadthAggregator) (sqrt : ℚ → ℚ) (nowNs : UInt64) :
    VolatilityBreadth :=
  let n := agg.pool.length
  let mean := agg.pool.sum / n
  let variance := (agg.pool.map fun x => x * x).sum / n - mean * mean
  { stdev := if 2 ≤ n then (ExactFloat.fin (sqrt (max variance 0))).toF32 else .fin 0
    sampleCount := UInt32.ofNat (min n (2 ^ 32 - 1))
    tsNs := nowNs }

/-- `on_tick` up to the check for a publish. -/
def countTick (agg : BreadthAggregator) (tick : Tick) : BreadthAggregator :=
  { agg with
    state := agg.state.insert ⟨tick.symbol⟩ (observe (agg.symbolState ⟨tick.symbol⟩) tick.ltpPaise)
    ticksSincePublish := UInt32.ofNat (min (agg.ticksSincePublish.toNat + 1) (2 ^ 32 - 1)) }

/-- The aggregator after a publish. -/
def startBatch (agg : BreadthAggregator) (instant : ℕ) : BreadthAggregator :=
  { agg with ticksSincePublish := 0, lastPublish := instant }

/-- `on_tick`. -/
def onTick (sqrt : ℚ → ℚ) (agg : BreadthAggregator) (t : BreadthTick) :
    BreadthSnapshot × BreadthAggregator :=
  if (agg.countTick t.tick).shouldPublish t.checkedAt then
    (⟨some ((agg.countTick t.tick).computeSector t.nowNs),
      some ((agg.countTick t.tick).computeVolatility sqrt t.nowNs)⟩,
      (agg.countTick t.tick).startBatch t.publishedAt)
  else (⟨none, none⟩, agg.countTick t.tick)

/-- The values published over a run. -/
def published (sqrt : ℚ → ℚ) (agg : BreadthAggregator) (ticks : List BreadthTick) :
    List VolatilityBreadth :=
  (runOutputs (onTick sqrt) agg ticks).filterMap (·.volatility)

end BreadthAggregator

/-- `make_tick`. -/
def makeTick (symbol : UInt32) (ltpPaise : Int64) : Tick where
  correlationId := Vector.replicate 16 0
  symbol := symbol
  exchange := 0
  ltpPaise := ltpPaise
  bidPaise := ltpPaise - 50
  askPaise := ltpPaise + 50
  ltq := 1
  totalBuyQty := 0
  totalSellQty := 0
  tsExchangeNs := 0
  tsRecvNs := 0

end Hedge.MarketData
