import Hedge.Common.FloatOps
import Hedge.Common.Run
import Hedge.MarketData.Ticks
import Hedge.Orderflow.RollingDelta
import Hedge.Warm.Staleness

/-!
# The orderflow service

Reference: `hedge-orderflow/src/engine.rs`, `hedge-orderflow/src/book.rs`,
`hedge-orderflow/src/metrics.rs`, `hedge-orderflow/src/bin/main.rs`.

Two loops drive one engine: the ticks pass their receive time, in nanoseconds since the Unix epoch,
and the books pass the clock of the service, in nanoseconds since its start. The rolling window of a
symbol is filled on the first clock and read on both. The detector and the events of a snapshot have
modules of their own; the heatmap is left out.
-/

namespace Hedge.Orderflow

open Hedge Hedge.Common Hedge.Bus Hedge.Core
open Hedge.Warm (clockNs)

/-! ## The live book -/

/-- `BookLevel`. -/
structure BookLevel where
  pricePaise : Int64
  qty : UInt64
  orders : UInt32
deriving DecidableEq

/-- `OrderBook_v1`, without the fields that nothing reads. -/
structure OrderBook where
  symbol : UInt32
  bidLevels : List BookLevel
  askLevels : List BookLevel
  tsNs : UInt64

/-- `MAX_BOOK_LEVELS`. -/
def maxBookLevels : ℕ := 20

/-- In-memory live orderbook for one symbol. -/
structure LiveBook where
  bids : List BookLevel
  asks : List BookLevel
  lastSeq : UInt64

namespace LiveBook

/-- An empty book. -/
def new : LiveBook := ⟨[], [], 0⟩

/-- `top_bid`. -/
def topBid (live : LiveBook) : Option BookLevel := live.bids.head?

/-- `top_ask`. -/
def topAsk (live : LiveBook) : Option BookLevel := live.asks.head?

/-- `apply`: an update that is not newer is dropped; the first one never is. -/
def apply (live : LiveBook) (book : OrderBook) : Bool × LiveBook :=
  if book.tsNs ≤ live.lastSeq ∧ live.lastSeq ≠ 0 then (false, live)
  else
    (true, ⟨book.bidLevels.take maxBookLevels, book.askLevels.take maxBookLevels, book.tsNs⟩)

end LiveBook

/-- The share of the difference of two quantities in their sum. -/
def imbalance (bidQty askQty : ℕ) : ExactFloat :=
  if bidQty + askQty = 0 then .fin 0
  else (ExactFloat.fin ((bidQty - askQty : ℚ) / (bidQty + askQty : ℕ))).toF32.clampTo (-1) 1

/-- `bid_ask_imbalance`. -/
def bidAskImbalance (live : LiveBook) : ExactFloat :=
  imbalance ((live.topBid.map BookLevel.qty).getD 0).toNat
    ((live.topAsk.map BookLevel.qty).getD 0).toNat

/-- `LIQUIDITY_PRESSURE_DEPTH`. -/
def liquidityPressureDepth : ℕ := 5

/-- `liquidity_pressure`. -/
def liquidityPressure (live : LiveBook) : ExactFloat :=
  imbalance ((live.bids.take liquidityPressureDepth).map (·.qty.toNat)).sum
    ((live.asks.take liquidityPressureDepth).map (·.qty.toNat)).sum

/-! ## The engine -/

/-- `OrderflowSnapshot`, without its events. -/
structure OrderflowSnapshot where
  symbol : SymbolId
  bidAskImbalance : ExactFloat
  aggressiveBuyerVolume : UInt64
  aggressiveSellerVolume : UInt64
  rollingDelta : Int64
  liquidityPressure : ExactFloat

/-- Per-symbol state. -/
structure OrderflowState where
  symbol : SymbolId
  book : LiveBook
  delta : RollingDelta

namespace OrderflowState

/-- `with_window`. -/
def withWindow (symbol : SymbolId) (rollingDeltaWindowNs : UInt64) : OrderflowState :=
  ⟨symbol, .new, .withWindow rollingDeltaWindowNs⟩

/-- The snapshot both kinds of message return. -/
def snapshot (s : OrderflowState) (nowNs : UInt64) : OrderflowSnapshot where
  symbol := s.symbol
  bidAskImbalance := Orderflow.bidAskImbalance s.book
  aggressiveBuyerVolume := s.delta.buyerVolume nowNs
  aggressiveSellerVolume := s.delta.sellerVolume nowNs
  rollingDelta := s.delta.signedDelta nowNs
  liquidityPressure := Orderflow.liquidityPressure s.book

/-- `ingest_book`. -/
def ingestBook (s : OrderflowState) (book : OrderBook) (nowNs : UInt64) :
    Option OrderflowSnapshot × OrderflowState :=
  let (accepted, live) := s.book.apply book
  if accepted then (some (snapshot { s with book := live } nowNs), { s with book := live })
  else (none, s)

/-- The buyer and the seller volume of a trade at the top of the book. -/
def aggressor (live : LiveBook) (tick : Tick) : UInt64 × UInt64 :=
  (match live.topAsk with
    | some ask => if ask.pricePaise ≤ tick.ltpPaise then tick.ltq else 0
    | none => 0,
  match live.topBid with
    | some bid => if tick.ltpPaise ≤ bid.pricePaise then tick.ltq else 0
    | none => 0)

/-- `ingest_tick` up to its snapshot. -/
def recordTick (s : OrderflowState) (tick : Tick) (nowNs : UInt64) : OrderflowState :=
  let (buyerV, sellerV) := aggressor s.book tick
  if buyerV ≠ 0 ∨ sellerV ≠ 0 then { s with delta := s.delta.record nowNs buyerV sellerV } else s

/-- `ingest_tick`. -/
def ingestTick (s : OrderflowState) (tick : Tick) (nowNs : UInt64) :
    OrderflowSnapshot × OrderflowState :=
  ((s.recordTick tick nowNs).snapshot nowNs, s.recordTick tick nowNs)

end OrderflowState

/-- The engine. -/
structure OrderflowEngine where
  inner : Map SymbolId OrderflowState
  rollingDeltaWindowNs : UInt64

namespace OrderflowEngine

/-- `new`. -/
def new : OrderflowEngine := ⟨∅, defaultRollingDeltaWindowNs⟩

/-- The state of a symbol; a fresh one on its first message. -/
def stateOf (engine : OrderflowEngine) (symbol : SymbolId) : OrderflowState :=
  (engine.inner.lookup symbol).getD (.withWindow symbol engine.rollingDeltaWindowNs)

/-- The engine with another state of a symbol. -/
def put (engine : OrderflowEngine) (symbol : SymbolId) (s : OrderflowState) : OrderflowEngine :=
  { engine with inner := engine.inner.insert symbol s }

/-- `ingest_book`. -/
def ingestBook (engine : OrderflowEngine) (book : OrderBook) (nowNs : UInt64) :
    Option OrderflowSnapshot × OrderflowEngine :=
  let out := (engine.stateOf ⟨book.symbol⟩).ingestBook book nowNs
  (out.1, engine.put ⟨book.symbol⟩ out.2)

/-- `ingest_tick`. -/
def ingestTick (engine : OrderflowEngine) (tick : Tick) (nowNs : UInt64) :
    OrderflowSnapshot × OrderflowEngine :=
  let out := (engine.stateOf ⟨tick.symbol⟩).ingestTick tick nowNs
  (out.1, engine.put ⟨tick.symbol⟩ out.2)

theorem stateOf_put (engine : OrderflowEngine) (symbol sym : SymbolId) (s : OrderflowState) :
    (engine.put symbol s).stateOf sym = if sym = symbol then s else engine.stateOf sym := by
  rw [stateOf, put]
  split_ifs with h
  · rw [h, AList.lookup_insert, Option.getD_some]
  · rw [AList.lookup_insert_ne h, stateOf]

end OrderflowEngine

/-! ## The two loops -/

/-- What `run_book_loop` makes of a message. -/
def readBook (envelope : Json) (engineNowNs : UInt64) : Option OrderBook :=
  (envelope.get "data").bind fun data =>
    ((data.get "symbol").bind Json.asStr).bind fun symbol =>
      if symbolIdFor symbol = 0 then none
      else
        let bidPaise := ((data.get "bid_paise").bind Json.asI64).getD 0
        let bidQty := ((data.get "bid_qty").bind Json.asU64).getD 0
        let askPaise := ((data.get "ask_paise").bind Json.asI64).getD 0
        let askQty := ((data.get "ask_qty").bind Json.asU64).getD 0
        some
          { symbol := symbolIdFor symbol
            bidLevels := if 0 < bidQty then [⟨bidPaise, bidQty, 1⟩] else []
            askLevels := if 0 < askQty then [⟨askPaise, askQty, 1⟩] else []
            tsNs := ((data.get "ts_ns").bind Json.asU64).getD engineNowNs }

/-- A message of one of the loops: a book at a real time, or a tick that was decoded, at the time it
was received. -/
inductive FlowEvent where
  | book (envelope : Json) (atNs : ℕ)
  | tick (tick : Tick)

/-- The real time of a message, in nanoseconds since the Unix epoch. -/
def FlowEvent.atNs : FlowEvent → ℕ
  | book _ atNs => atNs
  | tick t => t.tsRecvNs.toNat

/-- One message, in a process with the given start. -/
def flowStep (startNs : ℕ) (engine : OrderflowEngine) :
    FlowEvent → Option OrderflowSnapshot × OrderflowEngine
  | .book envelope atNs =>
    match readBook envelope (clockNs startNs atNs) with
    | none => (none, engine)
    | some book => engine.ingestBook book (clockNs startNs atNs)
  | .tick tick =>
    let out := engine.ingestTick tick tick.tsRecvNs
    (some out.1, out.2)

/-- The engine of the service after some messages. -/
abbrev flowRun (startNs : ℕ) (events : List FlowEvent) : OrderflowEngine :=
  runState (flowStep startNs) .new events

end Hedge.Orderflow
