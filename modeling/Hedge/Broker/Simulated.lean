import Hedge.Common.Ladder
import Hedge.Common.Run
import Hedge.Exec.Error

/-!
# The simulated broker

Reference: `hedge-broker-simulated/src/orderbook.rs`, `hedge-broker-simulated/src/lifecycle.rs`,
`hedge-broker-simulated/src/lib.rs`.

The broker keeps a book for each symbol and a record for each order. A request holds the lock of the
whole state, so it is one step of a sequential machine; the clock reading of a request is an
argument. The metrics published after a request are left out.

The two sides of a book are ordered maps, with the bids keyed by the negated price. A release build
negates with wrap-around.
-/

namespace Hedge.Broker.Simulated

open Hedge Hedge.Common Hedge.BrokerApi

/-! ## Order book -/

/-- One level of the limit-order book. -/
structure BookLevel where
  pricePaise : Int64
  qty : UInt64
deriving DecidableEq, Repr

/-- In-memory order book of one symbol. -/
structure OrderBook where
  /-- Keyed by negated price. -/
  bids : Ladder Int64
  asks : Ladder Int64

namespace OrderBook

/-- `OrderBook::new`. -/
def new : OrderBook := ⟨∅, ∅⟩

/-- `add_bid`. -/
def addBid (book : OrderBook) (pricePaise : Int64) (qty : UInt64) : OrderBook :=
  { book with bids := book.bids.topUp (-pricePaise) qty }

/-- `add_ask`. -/
def addAsk (book : OrderBook) (pricePaise : Int64) (qty : UInt64) : OrderBook :=
  { book with asks := book.asks.topUp pricePaise qty }

/-- `from_levels`: the quantities of a price that comes twice are added. -/
def fromLevels (bids asks : List BookLevel) : OrderBook :=
  let book := bids.foldl (fun book level => book.addBid level.pricePaise level.qty) new
  asks.foldl (fun book level => book.addAsk level.pricePaise level.qty) book

/-- `consume_asks`: take from the ask side at or below the limit. -/
def consumeAsks (book : OrderBook) (requestedQty : UInt64) (limitPaise : Option Int64) :
    List BookLevel × OrderBook :=
  let (fills, asks) := Ladder.consume (fun price => limitPaise.all fun limit => price ≤ limit)
    book.asks.keys requestedQty book.asks
  (fills.map fun fill => ⟨fill.1, fill.2⟩, { book with asks })

/-- `consume_bids`: take from the bid side at or above the limit. -/
def consumeBids (book : OrderBook) (requestedQty : UInt64) (limitPaise : Option Int64) :
    List BookLevel × OrderBook :=
  let (fills, bids) := Ladder.consume
    (fun negPrice => limitPaise.all fun limit => limit ≤ -negPrice)
    book.bids.keys requestedQty book.bids
  (fills.map fun fill => ⟨-fill.1, fill.2⟩, { book with bids })

end OrderBook

/-! ## Order records -/

/-- Lifecycle record of one simulated order. -/
structure OrderRecord where
  brokerOrderId : String
  correlationId : CorrelationId
  intent : BrokerApi.OrderIntent
  filledQty : UInt64
  avgFillPaise : Int64
  state : OrderLifecycleState
  lastTsNs : UInt64
  fills : List BookLevel
deriving DecidableEq, Repr

/-- The `i128` nearest to `z`. -/
def clampI128 (z : ℤ) : ℤ := max (-2 ^ 127) (min z (2 ^ 127 - 1))

namespace OrderRecord

/-- `OrderRecord::new`. -/
def new (brokerOrderId : String) (intent : BrokerApi.OrderIntent) (tsNs : UInt64) :
    OrderRecord where
  brokerOrderId := brokerOrderId
  correlationId := intent.correlationId
  intent := intent
  filledQty := 0
  avgFillPaise := 0
  state := .new
  lastTsNs := tsNs
  fills := []

/-- `apply_fills`. -/
def applyFills (record : OrderRecord) (fills : List BookLevel) (tsNs : UInt64) : OrderRecord :=
  let record := { record with lastTsNs := tsNs }
  if fills = [] then
    if record.state = .new then { record with state := .submitted } else record
  else
    let priorQty : ℤ := record.filledQty.toNat
    let priorNotional := clampI128 (record.avgFillPaise.toInt * priorQty)
    let notional := fills.foldl (fun notional f =>
      clampI128 (notional + clampI128 (f.pricePaise.toInt * f.qty.toNat))) priorNotional
    let qty := fills.foldl (fun qty f => clampI128 (qty + f.qty.toNat)) priorQty
    let newQty := if 2 ^ 64 - 1 < qty then UInt64.ofNat (2 ^ 64 - 1) else UInt64.ofNat qty.toNat
    let newAvg := if newQty = 0 then 0 else Int64.clamp (notional.tdiv qty)
    { record with
      fills := record.fills ++ fills
      filledQty := newQty
      avgFillPaise := newAvg
      state := if record.intent.quantity ≤ newQty then .filled
        else if newQty = 0 then .submitted
        else .partiallyFilled }

/-- `apply_modification`: a terminal order and a quantity below the filled one are refused. -/
def applyModification (record : OrderRecord) (m : OrderModification) (tsNs : UInt64) :
    Except BrokerError Unit × OrderRecord :=
  if record.state.isTerminal then
    (.error (.rejected ("cannot modify terminal order in state "
      ++ Exec.debugState record.state)), record)
  else if m.newQuantity.any (· < record.filledQty) then
    (.error (.rejected ("new quantity " ++ toString (m.newQuantity.getD 0).toNat
      ++ " is below already-filled " ++ toString record.filledQty.toNat)), record)
  else
    (.ok (), { record with
      intent := { record.intent with
        quantity := m.newQuantity.getD record.intent.quantity
        limitPaise := m.newLimitPaise.getD record.intent.limitPaise }
      lastTsNs := tsNs })

/-- `apply_cancel`. -/
def applyCancel (record : OrderRecord) (tsNs : UInt64) : Except BrokerError Unit × OrderRecord :=
  if record.state.isTerminal then
    (.error (.rejected ("cannot cancel terminal order in state "
      ++ Exec.debugState record.state)), record)
  else (.ok (), { record with state := .cancelled, lastTsNs := tsNs })

/-- `to_status`. -/
def toStatus (record : OrderRecord) : OrderStatus where
  brokerOrderId := record.brokerOrderId
  state := record.state
  filledQty := record.filledQty
  avgFillPaise := record.avgFillPaise
  brokerTsNs := some record.lastTsNs

end OrderRecord

/-! ## Requests -/

/-- The broker's bookkeeping. -/
structure State where
  books : Map UInt32 OrderBook
  orders : Map String OrderRecord
  nextId : UInt64
  ready : ReadyState

namespace State

/-- `SimulatedBroker::new`. -/
def new (readyAtConstruction : Bool) : State where
  books := ∅
  orders := ∅
  nextId := 0
  ready := if readyAtConstruction then .ready else .configError "ready_at_construction = false"

/-- The limit an intent consumes up to; a market order has none. -/
def limitOf (intent : BrokerApi.OrderIntent) : Option Int64 :=
  match intent.orderType with
  | .market => none
  | .limit => some intent.limitPaise

/-- The fills an intent gets from a book. -/
def consumeFor (book : OrderBook) (intent : BrokerApi.OrderIntent) : List BookLevel × OrderBook :=
  match intent.side with
  | .buy => book.consumeAsks intent.quantity (limitOf intent)
  | .sell => book.consumeBids intent.quantity (limitOf intent)

/-- `do_submit`: the id is allocated before the book is looked up. -/
def doSubmit (st : State) (intent : BrokerApi.OrderIntent) (tsNs : UInt64) :
    Except BrokerError SubmitAck × State :=
  if !st.ready.isReady then (.error (.notReady st.ready.display), st)
  else
    let st := { st with nextId := st.nextId.saturatingAdd 1 }
    let id := "SIM-" ++ toString st.nextId.toNat
    match st.books.lookup intent.symbolRaw with
    | none => (.error (.rejected ("no orderbook seeded for symbol "
        ++ toString intent.symbolRaw.toNat)), st)
    | some book =>
      let (fills, book) := consumeFor book intent
      let record := (OrderRecord.new id intent tsNs).applyFills fills tsNs
      (.ok ⟨id, some tsNs⟩, { st with
        books := st.books.insert intent.symbolRaw book
        orders := st.orders.insert id record })

/-- Change the record of an order under the lock. -/
def withOrder (st : State) (id : String)
    (f : OrderRecord → Except BrokerError Unit × OrderRecord) : Except BrokerError Unit × State :=
  if !st.ready.isReady then (.error (.notReady st.ready.display), st)
  else match st.orders.lookup id with
    | none => (.error (.unknownOrderId id), st)
    | some record => ((f record).1, { st with orders := st.orders.insert id (f record).2 })

/-- `do_modify`. -/
def doModify (st : State) (m : OrderModification) (tsNs : UInt64) :
    Except BrokerError Unit × State :=
  st.withOrder m.brokerOrderId (·.applyModification m tsNs)

/-- `do_cancel`. -/
def doCancel (st : State) (brokerOrderId : String) (tsNs : UInt64) :
    Except BrokerError Unit × State :=
  st.withOrder brokerOrderId (·.applyCancel tsNs)

/-- `do_status`: refused only when the adapter is misconfigured. -/
def doStatus (st : State) (brokerOrderId : String) : Except BrokerError OrderStatus :=
  match st.ready with
  | .configError r => .error (.notReady (ReadyState.configError r).display)
  | _ => match st.orders.lookup brokerOrderId with
    | none => .error (.unknownOrderId brokerOrderId)
    | some record => .ok record.toStatus

end State

/-- A call on the broker. -/
inductive Call where
  | setBook (symbolRaw : UInt32) (bids asks : List BookLevel)
  | setReady (state : ReadyState)
  | submit (intent : BrokerApi.OrderIntent) (tsNs : UInt64)
  | modify (m : OrderModification) (tsNs : UInt64)
  | cancel (brokerOrderId : String) (tsNs : UInt64)
  | status (brokerOrderId : String)

/-- What a call returns. -/
inductive Reply where
  | done
  | ack (result : Except BrokerError SubmitAck)
  | unit (result : Except BrokerError Unit)
  | status (result : Except BrokerError OrderStatus)

/-- One call: its reply and the next state. -/
def step (st : State) : Call → Reply × State
  | .setBook symbolRaw bids asks =>
    (.done, { st with books := st.books.insert symbolRaw (.fromLevels bids asks) })
  | .setReady state => (.done, { st with ready := state })
  | .submit intent tsNs => (.ack (st.doSubmit intent tsNs).1, (st.doSubmit intent tsNs).2)
  | .modify m tsNs => (.unit (st.doModify m tsNs).1, (st.doModify m tsNs).2)
  | .cancel id tsNs => (.unit (st.doCancel id tsNs).1, (st.doCancel id tsNs).2)
  | .status id => (.status (st.doStatus id), st)

/-! ## Fills of a book -/

/-- The total of a list of fills. -/
def totalQty (fills : List BookLevel) : ℕ := (fills.map (·.qty.toNat)).sum

theorem totalQty_map (f : Int64 → Int64) (fills : List (Int64 × UInt64)) :
    totalQty (fills.map fun fill => ⟨f fill.1, fill.2⟩) = Ladder.totalOf fills := by
  simp only [totalQty, Ladder.totalOf, List.map_map]
  rfl

/-- A book fills at most what is asked for, and no fill is empty. -/
theorem totalQty_consumeFor_le (book : OrderBook) (intent : BrokerApi.OrderIntent) :
    totalQty (State.consumeFor book intent).1 ≤ intent.quantity.toNat ∧
      ∀ fill ∈ (State.consumeFor book intent).1, fill.qty ≠ 0 := by
  unfold State.consumeFor
  cases intent.side with
  | buy =>
    have hwalked := Ladder.walked_consume
      (fun price => (State.limitOf intent).all fun limit => price ≤ limit) book.asks.keys
      intent.quantity book.asks book.asks.keys_nodup
    refine ⟨?_, List.forall_mem_map.mpr hwalked.positive⟩
    exact (totalQty_map id _).trans_le (hwalked.total.trans_le (Nat.min_le_left _ _))
  | sell =>
    have hwalked := Ladder.walked_consume
      (fun negPrice => (State.limitOf intent).all fun limit => limit ≤ -negPrice) book.bids.keys
      intent.quantity book.bids book.bids.keys_nodup
    refine ⟨?_, List.forall_mem_map.mpr hwalked.positive⟩
    exact (totalQty_map (-·) _).trans_le (hwalked.total.trans_le (Nat.min_le_left _ _))

end Hedge.Broker.Simulated
