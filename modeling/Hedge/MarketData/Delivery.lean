import Hedge.Common.JsonText
import Hedge.MarketData.Ticks

/-!
# Which ticks reach which service

Reference: `MarketDataEngine::ingest_tick`, `publish_tick` of the Upstox bridge, the subscriptions of
`hedge-features` and `hedge-orderflow`.

The features service listens below `md.tick.bin` only, where the market data engine publishes
nothing. The orderflow service drops every payload that is not 77 bytes long, and neither producer
writes one: a record has 85 bytes and a JSON envelope has more.
-/

namespace Hedge.MarketData

open Hedge Hedge.Common Hedge.Bus
open JsonText (size IsPlain plainObj plainStr plainI64 strText_plainStr valueText_plainI64
  valueText_plainObj)

/-! ## Publications -/

/-- A tick of the Upstox bridge for a known symbol, with the text that is written of its
envelope. -/
structure BridgeTick where
  toVec : Json → Option (List UInt8)
  instrumentKey : String
  item : Json
  tsNs : Int64
  text : List UInt8
  known : symbolIdFor (extractTradingSymbol item) ≠ 0
  written : toVec (tickEnvelope (extractTradingSymbol item) (lastPricePaise item) tsNs) = some text
  isText : IsText text (tickEnvelope (extractTradingSymbol item) (lastPricePaise item) tsNs)

/-- The tick that the bridge publishes. -/
def BridgeTick.tick (b : BridgeTick) : Tick where
  correlationId := Vector.replicate 16 0
  symbol := symbolIdFor (extractTradingSymbol b.item)
  exchange := 0
  ltpPaise := lastPricePaise b.item
  bidPaise := lastPricePaise b.item
  askPaise := lastPricePaise b.item
  ltq := 0
  totalBuyQty := 0
  totalSellQty := 0
  tsExchangeNs := b.tsNs.toUInt64
  tsRecvNs := b.tsNs.toUInt64

/-- The envelope in compact form. -/
def envelopeText (symbol : String) (ltpPaise tsNs : Int64) : List UInt8 :=
  plainObj [("kind", plainStr "tick"),
    ("data", plainObj [("symbol", plainStr symbol), ("ltp_paise", plainI64 ltpPaise),
      ("bid_paise", plainI64 ltpPaise), ("ask_paise", plainI64 ltpPaise),
      ("ts_recv_ns", plainI64 tsNs)])]

theorem isPlain_of_known {symbol : String} (h : symbolIdFor symbol ≠ 0) : IsPlain symbol := by
  unfold symbolIdFor at h
  split at h <;> first | exact absurd rfl h | decide

theorem isText_envelopeText {symbol : String} (h : IsPlain symbol) (ltpPaise tsNs : Int64) :
    IsText (envelopeText symbol ltpPaise tsNs) (tickEnvelope symbol ltpPaise tsNs) := by
  have hltp := valueText_plainI64 ltpPaise
  have hdata := @valueText_plainObj [("symbol", plainStr symbol, .str symbol),
    ("ltp_paise", plainI64 ltpPaise, .ofI64 ltpPaise),
    ("bid_paise", plainI64 ltpPaise, .ofI64 ltpPaise),
    ("ask_paise", plainI64 ltpPaise, .ofI64 ltpPaise),
    ("ts_recv_ns", plainI64 tsNs, .ofI64 tsNs)] (by simp)
    (by
      simp only [List.forall_mem_cons, List.not_mem_nil, false_implies, implies_true, and_true]
      exact ⟨⟨by decide, .str (strText_plainStr h)⟩, ⟨by decide, hltp⟩, ⟨by decide, hltp⟩,
        ⟨by decide, hltp⟩, by decide, valueText_plainI64 tsNs⟩)
    (by simp)
  have henvelope := @valueText_plainObj [("kind", plainStr "tick", .str "tick"), ("data", _, _)]
    (by simp)
    (by
      simp only [List.forall_mem_cons, List.not_mem_nil, false_implies, implies_true, and_true]
      exact ⟨⟨by decide, .str (strText_plainStr (by decide))⟩, by decide, hdata⟩)
    (by simp)
  exact isText_of_valueText henvelope

/-- What the bridge publishes of an item with a known symbol, with a compact writer. -/
def BridgeTick.ofItem (instrumentKey : String) (item : Json) (tsNs : Int64)
    (known : symbolIdFor (extractTradingSymbol item) ≠ 0) : BridgeTick where
  toVec _ := some (envelopeText (extractTradingSymbol item) (lastPricePaise item) tsNs)
  instrumentKey := instrumentKey
  item := item
  tsNs := tsNs
  text := envelopeText (extractTradingSymbol item) (lastPricePaise item) tsNs
  known := known
  written := rfl
  isText := isText_envelopeText (isPlain_of_known known) _ _

/-- A tick published by one of the two producers. -/
inductive Publication where
  | engine (tick : Tick)
  | bridge (b : BridgeTick)

namespace Publication

/-- The tick that is published. -/
def tick : Publication → Tick
  | engine tick => tick
  | bridge b => b.tick

/-- The messages on the bus. -/
def messages : Publication → List BusMessage
  | engine tick => ingestTick tick
  | bridge b => publishTick b.toVec b.instrumentKey b.item b.tsNs

/-- The ingested ticks are one tick, with the market data of the published one. -/
def Received (pub : Publication) (ingested : List Tick) : Prop :=
  ∃ t, ingested = [t] ∧ t.symbol = pub.tick.symbol ∧ t.exchange = pub.tick.exchange ∧
    t.ltpPaise = pub.tick.ltpPaise ∧ t.bidPaise = pub.tick.bidPaise ∧
    t.askPaise = pub.tick.askPaise ∧ t.ltq = pub.tick.ltq ∧
    t.totalBuyQty = pub.tick.totalBuyQty ∧ t.totalSellQty = pub.tick.totalSellQty ∧
    t.tsRecvNs = pub.tick.tsRecvNs

/-- The tick reaches the features service and the orderflow service. -/
def Reaches (pub : Publication) : Prop :=
  pub.Received (featuresTicks pub.messages) ∧ pub.Received (orderflowTicks pub.messages)

end Publication

/-! ## What is delivered -/

/-- The envelope of a tick takes more bytes than a record. -/
theorem size_tickEnvelope (symbol : String) (ltpPaise tsNs : Int64) :
    tickWireSize < size (tickEnvelope symbol ltpPaise tsNs) := by
  have hnum : ∀ n : Int64, 1 ≤ size (.ofI64 n) := by
    intro n
    rw [Json.ofI64, JsonNumber.ofI64]
    split_ifs <;> exact Nat.length_toDigits_pos
  have hltp := hnum ltpPaise
  have hts := hnum tsNs
  have hnames : "kind".length = 4 ∧ "tick".length = 4 ∧ "data".length = 4 ∧ "symbol".length = 6 ∧
      "ltp_paise".length = 9 ∧ "bid_paise".length = 9 ∧ "ask_paise".length = 9 ∧
      "ts_recv_ns".length = 10 := by decide
  obtain ⟨h1, h2, h3, h4, h5, h6, h7, h8⟩ := hnames
  simp only [tickEnvelope, size, JsonText.sizeFields, h1, h2, h3, h4, h5, h6, h7, h8, tickWireSize]
  omega

theorem BridgeTick.length_text (b : BridgeTick) : tickWireSize < b.text.length :=
  Nat.lt_of_lt_of_le (size_tickEnvelope _ _ _) (size_le_of_isText b.isText)

/-- The record of the bridge is that of its tick. -/
theorem BridgeTick.encodeTickV1_eq (b : BridgeTick) :
    encodeTickV1 (extractTradingSymbol b.item) (lastPricePaise b.item) (lastPricePaise b.item)
      (lastPricePaise b.item) b.tsNs = some (tickToRawBytes b.tick) := by
  simp only [encodeTickV1, if_neg b.known]
  rfl

/-- The bridge publishes its envelope twice and its record once. -/
theorem BridgeTick.messages_eq (b : BridgeTick) :
    (Publication.bridge b).messages =
      [⟨"md.tick" ++ "." ++ extractTradingSymbol b.item, b.text⟩,
        ⟨"md.tick" ++ "." ++ b.instrumentKey.map (fun c => if c = '|' then '.' else c), b.text⟩,
        ⟨"md.tick.bin" ++ "." ++ extractTradingSymbol b.item, tickToRawBytes b.tick⟩] := by
  simp only [Publication.messages, publishTick, b.written, b.encodeTickV1_eq]
  rfl

/-- No payload has the length that the orderflow service asks for. -/
theorem orderflowTicks_messages (pub : Publication) : orderflowTicks pub.messages = [] := by
  have hdrop : ∀ bytes : List UInt8, bytes.length ≠ 77 → decodeOrderflowTick bytes = none :=
    fun _ h => if_pos h
  refine List.filterMap_eq_nil_iff.mpr fun bytes hbytes => hdrop bytes ?_
  obtain ⟨message, hmessage, rfl⟩ := List.mem_map.mp hbytes
  have hmem := (List.mem_filter.mp hmessage).1
  cases pub with
  | engine tick =>
    rw [List.mem_singleton.mp hmem, length_tickToRawBytes]
    decide
  | bridge b =>
    have htext := b.length_text
    rw [b.messages_eq] at hmem
    simp only [List.mem_cons, List.not_mem_nil, or_false] at hmem
    rcases hmem with rfl | rfl | rfl
    · exact Nat.ne_of_gt (Nat.lt_trans (by decide) htext)
    · exact Nat.ne_of_gt (Nat.lt_trans (by decide) htext)
    · rw [length_tickToRawBytes]
      decide

theorem featuresTicks_ingestTick (tick : Tick) : featuresTicks (ingestTick tick) = [] := by
  have hdigits : '.' ∉ (toString tick.symbol.toNat).toList := by
    intro h
    rw [Nat.toString_eq_ofList_toDigits, String.toList_ofList] at h
    exact absurd (Nat.isDigit_of_mem_toDigits (by decide) (by decide) h) (by decide)
  have htokens : tokensOf ("md.tick" ++ "." ++ toString tick.symbol.toNat)
      = ["md", "tick", toString tick.symbol.toNat] := by
    rw [tokensOf_append_dot, tokensOf_of_no_dot hdigits]
    rfl
  have hpattern : tokensOf "md.tick.bin.>" = ["md", "tick", "bin", ">"] := by decide
  have hmiss : tokensMatch ["md", "tick", "bin", ">"] ["md", "tick", toString tick.symbol.toNat]
      = false := by
    simp [tokensMatch]
  rw [featuresTicks, delivered, ingestTick, hpattern]
  simp only [List.filter_cons, htokens, hmiss]
  rfl

/-- The features service takes the record of the bridge and drops its envelopes. -/
theorem featuresTicks_bridge (b : BridgeTick) :
    featuresTicks (Publication.bridge b).messages = [b.tick] := by
  have htext : decodeTick b.text = none := if_pos (Nat.ne_of_gt b.length_text)
  have hpattern : tokensOf "md.tick.bin.>" = ["md", "tick", "bin", ">"] := by decide
  have hrecord : tokensMatch ["md", "tick", "bin", ">"]
      (tokensOf ("md.tick.bin" ++ "." ++ extractTradingSymbol b.item)) = true := by
    have hstem : tokensOf "md.tick.bin" = ["md", "tick", "bin"] := by decide
    obtain ⟨t, ts, ht⟩ := List.exists_cons_of_ne_nil (tokensOf_ne_nil (extractTradingSymbol b.item))
    rw [tokensOf_append_dot, hstem, ht]
    rfl
  rw [featuresTicks, delivered, b.messages_eq, hpattern]
  simp only [List.filter_cons, hrecord]
  split_ifs <;> simp [htext, decodeTick_tickToRawBytes]

/-- The features service receives what the bridge publishes and nothing of the engine. -/
theorem received_featuresTicks_iff (pub : Publication) :
    pub.Received (featuresTicks pub.messages) ↔ ∃ b, pub = .bridge b := by
  cases pub with
  | engine tick =>
    refine iff_of_false ?_ (by simp)
    rintro ⟨t, ht, -⟩
    rw [Publication.messages, featuresTicks_ingestTick] at ht
    cases ht
  | bridge b =>
    refine iff_of_true ⟨b.tick, featuresTicks_bridge b, ?_⟩ ⟨b, rfl⟩
    exact ⟨rfl, rfl, rfl, rfl, rfl, rfl, rfl, rfl, rfl⟩

theorem not_received_orderflowTicks (pub : Publication) :
    ¬ pub.Received (orderflowTicks pub.messages) := by
  rintro ⟨t, ht, -⟩
  rw [orderflowTicks_messages] at ht
  cases ht

/-- No tick reaches both services: those of the bridge reach the features service only, those of
the engine none of the two. -/
theorem ticks_never_reach (pub : Publication) :
    ¬ pub.Reaches ∧ orderflowTicks pub.messages = [] ∧
      (pub.Received (featuresTicks pub.messages) ↔ ∃ b, pub = .bridge b) :=
  ⟨fun h => not_received_orderflowTicks pub h.2, orderflowTicks_messages pub,
    received_featuresTicks_iff pub⟩

/-- A tick of the engine. -/
def sampleTick : Tick :=
  ⟨Vector.replicate 16 7, 1, 0, 250000, 249950, 250050, 10, 5000, 4500, 1, 2⟩

/-- An item of the bridge. -/
def sampleItem : Json := .obj [("symbol", .str "RELIANCE"), ("last_price", .ofI64 2500)]

/-- A tick of the engine reaches neither service, one of the bridge not the orderflow service. -/
theorem not_reaches_samples :
    featuresTicks (ingestTick sampleTick) = [] ∧ orderflowTicks (ingestTick sampleTick) = [] ∧
      orderflowTicks (Publication.bridge
        (.ofItem "NSE_EQ|INE002A01018" sampleItem 1700000000000000000 (by decide))).messages = [] ∧
      ¬ ∀ pub : Publication, pub.Reaches :=
  ⟨featuresTicks_ingestTick _, orderflowTicks_messages (.engine sampleTick),
    orderflowTicks_messages _, fun h => not_received_orderflowTicks _ (h (.engine sampleTick)).2⟩

end Hedge.MarketData
