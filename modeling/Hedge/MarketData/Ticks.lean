import Hedge.Bus
import Hedge.Common.FloatOps
import Hedge.Common.Json
import Hedge.Common.Layout
import Hedge.Common.Machine
import Hedge.Common.Subject
import Hedge.Core.Market

/-!
# Ticks on the wire

Reference: `hedge-market-data/src/engine.rs`, `hedge-market-data/src/bin/upstox_feed.rs`,
`hedge-features/src/bin/main.rs`, `hedge-orderflow/src/bin/main.rs`.

Two producers write the same record of 85 bytes, the market data engine and the Upstox bridge. Two
services read ticks: one by that layout, the other by a layout of 77 bytes. The writer of JSON texts
is an argument; prices of the bridge are converted to paise without rounding the product.
-/

namespace Hedge.MarketData

open Hedge Hedge.Common Hedge.Bus

/-! ## The record -/

/-- `TICK_WIRE_SIZE`. -/
def tickWireSize : ℕ := 16 + 4 + 1 + 8 * 8

/-- The fields of a tick in the order of the schema. -/
def tickFields (tick : Tick) : List (List UInt8) :=
  [tick.correlationId.toList, leU32 tick.symbol, [tick.exchange.toUInt8], leI64 tick.ltpPaise,
    leI64 tick.bidPaise, leI64 tick.askPaise, leU64 tick.ltq, leU64 tick.totalBuyQty,
    leU64 tick.totalSellQty, leU64 tick.tsExchangeNs, leU64 tick.tsRecvNs]

/-- `tick_to_raw_bytes`. -/
def tickToRawBytes (tick : Tick) : List UInt8 := (tickFields tick).flatten

/-- `decode_tick` of the features service. -/
def decodeTick (bytes : List UInt8) : Option Tick :=
  if bytes.length ≠ tickWireSize then none
  else some
    { correlationId := Vector.ofFn fun i => (slice bytes 0 16).getD i.val 0
      symbol := readU32 (slice bytes 16 4)
      exchange := (bytes.getD 20 0).toInt8
      ltpPaise := readI64 (slice bytes 21 8)
      bidPaise := readI64 (slice bytes 29 8)
      askPaise := readI64 (slice bytes 37 8)
      ltq := readU64 (slice bytes 45 8)
      totalBuyQty := readU64 (slice bytes 53 8)
      totalSellQty := readU64 (slice bytes 61 8)
      tsExchangeNs := readU64 (slice bytes 69 8)
      tsRecvNs := readU64 (slice bytes 77 8) }

/-- The tick that `run_tick_loop` of the orderflow service decodes. -/
def decodeOrderflowTick (bytes : List UInt8) : Option Tick :=
  if bytes.length ≠ 77 then none
  else
    let tsRecvNs := readU64 (slice bytes 69 8)
    some
      { correlationId := Vector.replicate 16 0
        symbol := readU32 (slice bytes 16 4)
        exchange := (bytes.getD 20 0).toInt8
        ltpPaise := readI64 (slice bytes 21 8)
        bidPaise := readI64 (slice bytes 29 8)
        askPaise := readI64 (slice bytes 37 8)
        ltq := readU64 (slice bytes 45 8)
        totalBuyQty := readU64 (slice bytes 53 8)
        totalSellQty := readU64 (slice bytes 61 8)
        tsExchangeNs := tsRecvNs
        tsRecvNs := tsRecvNs }

/-! ## Producers -/

/-- What `MarketDataEngine::ingest_tick` publishes of a tick. -/
def ingestTick (tick : Tick) : List BusMessage :=
  [⟨"md.tick" ++ "." ++ toString tick.symbol.toNat, tickToRawBytes tick⟩]

/-- The part of a text after the first `sep`, if it has one. -/
def afterFirst (sep : Char) (s : String) : Option String :=
  match s.toList.dropWhile (· ≠ sep) with
  | [] => none
  | _ :: rest => some (String.ofList rest)

/-- `extract_trading_symbol`. -/
def extractTradingSymbol (item : Json) : String :=
  match (item.get "symbol").bind Json.asStr with
  | some s => s
  | none => match (item.get "trading_symbol").bind Json.asStr with
    | some s => s
    | none => ((item.get "_data_key").bind Json.asStr |>.bind (afterFirst ':')).getD "UNKNOWN"

/-- The last price of an item in paise. -/
def lastPricePaise (item : Json) : Int64 :=
  let ltp := (((item.get "last_price").or (item.get "ltp")).bind Json.asF64).getD 0
  Int64.clamp (ExactFloat.roundRat (ltp * 100))

/-- `encode_tick_v1`: `none` for a symbol that is not in the table. -/
def encodeTickV1 (symbol : String) (ltpPaise bidPaise askPaise tsNs : Int64) :
    Option (List UInt8) :=
  let symbolId := symbolIdFor symbol
  if symbolId = 0 then none
  else some (List.flatten [List.replicate 16 0, leU32 symbolId, [(0 : Int8).toUInt8],
    leI64 ltpPaise, leI64 bidPaise, leI64 askPaise, leU64 0, leU64 0, leU64 0,
    leU64 tsNs.toUInt64, leU64 tsNs.toUInt64])

/-- The cockpit envelope of a tick of the bridge. -/
def tickEnvelope (symbol : String) (ltpPaise tsNs : Int64) : Json :=
  .obj [("kind", .str "tick"),
    ("data", .obj [("symbol", .str symbol), ("ltp_paise", .ofI64 ltpPaise),
      ("bid_paise", .ofI64 ltpPaise), ("ask_paise", .ofI64 ltpPaise),
      ("ts_recv_ns", .ofI64 tsNs)])]

/-- What `publish_tick` of the bridge publishes of an item at a time. -/
def publishTick (toVec : Json → Option (List UInt8)) (instrumentKey : String) (item : Json)
    (tsNs : Int64) : List BusMessage :=
  let symbol := extractTradingSymbol item
  let ltpPaise := lastPricePaise item
  match toVec (tickEnvelope symbol ltpPaise tsNs) with
  | none => []
  | some bytes =>
    [⟨"md.tick" ++ "." ++ symbol, bytes⟩,
      ⟨"md.tick" ++ "." ++ instrumentKey.map (fun c => if c = '|' then '.' else c), bytes⟩]
    ++ match encodeTickV1 symbol ltpPaise ltpPaise ltpPaise tsNs with
      | none => []
      | some bin => [⟨"md.tick.bin" ++ "." ++ symbol, bin⟩]

/-! ## Consumers -/

/-- The ticks that the features service ingests of some messages. -/
def featuresTicks (messages : List BusMessage) : List Tick :=
  (delivered "md.tick.bin.>" messages).filterMap decodeTick

/-- The ticks that the orderflow service ingests of some messages. -/
def orderflowTicks (messages : List BusMessage) : List Tick :=
  (delivered "md.tick.*" messages).filterMap decodeOrderflowTick

/-! ## The layout -/

theorem length_tickFields (tick : Tick) :
    (tickFields tick).map List.length = [16, 4, 1, 8, 8, 8, 8, 8, 8, 8, 8] := by
  simp [tickFields]

@[simp] theorem length_tickToRawBytes (tick : Tick) :
    (tickToRawBytes tick).length = tickWireSize := by
  rw [tickToRawBytes, List.length_flatten, length_tickFields]
  rfl

/-- A field of a tick is found at its offset. -/
theorem slice_tickToRawBytes (tick : Tick) {k : ℕ} {field : List UInt8}
    (h : (tickFields tick)[k]? = some field) :
    slice (tickToRawBytes tick) (([16, 4, 1, 8, 8, 8, 8, 8, 8, 8, 8] : List ℕ).take k).sum
      (([16, 4, 1, 8, 8, 8, 8, 8, 8, 8, 8] : List ℕ).getD k 0) = field :=
  slice_flatten (length_tickFields tick) h

/-- What the features service reads is what was written. -/
theorem decodeTick_tickToRawBytes (tick : Tick) : decodeTick (tickToRawBytes tick) = some tick := by
  have hslice := fun k field => @slice_tickToRawBytes tick k field
  have hcid : slice (tickToRawBytes tick) 0 16 = tick.correlationId.toList := hslice 0 _ rfl
  have hsymbol : slice (tickToRawBytes tick) 16 4 = leU32 tick.symbol := hslice 1 _ rfl
  have hexchange : (tickToRawBytes tick).getD 20 0 = tick.exchange.toUInt8 := by
    have hbyte : slice (tickToRawBytes tick) 20 1 = [tick.exchange.toUInt8] := hslice 2 _ rfl
    have hget := congrArg (fun bytes => bytes.getD 0 0) hbyte
    simpa [slice, List.getD_eq_getElem?_getD, List.getElem?_take] using hget
  have hltp : slice (tickToRawBytes tick) 21 8 = leI64 tick.ltpPaise := hslice 3 _ rfl
  have hbid : slice (tickToRawBytes tick) 29 8 = leI64 tick.bidPaise := hslice 4 _ rfl
  have hask : slice (tickToRawBytes tick) 37 8 = leI64 tick.askPaise := hslice 5 _ rfl
  have hltq : slice (tickToRawBytes tick) 45 8 = leU64 tick.ltq := hslice 6 _ rfl
  have hbuy : slice (tickToRawBytes tick) 53 8 = leU64 tick.totalBuyQty := hslice 7 _ rfl
  have hsell : slice (tickToRawBytes tick) 61 8 = leU64 tick.totalSellQty := hslice 8 _ rfl
  have hexch : slice (tickToRawBytes tick) 69 8 = leU64 tick.tsExchangeNs := hslice 9 _ rfl
  have hrecv : slice (tickToRawBytes tick) 77 8 = leU64 tick.tsRecvNs := hslice 10 _ rfl
  rw [decodeTick, if_neg (not_not.mpr (length_tickToRawBytes tick)), hcid, hsymbol, hexchange,
    hltp, hbid, hask, hltq, hbuy, hsell, hexch, hrecv]
  simp only [readU32_leU32, readI64_leI64, readU64_leU64, Int8.toInt8_toUInt8]
  have hvec : (Vector.ofFn fun i : Fin 16 => tick.correlationId.toList.getD i.val 0)
      = tick.correlationId := by
    ext i hi
    simp [List.getD_eq_getElem?_getD]
  rw [hvec]

end Hedge.MarketData
