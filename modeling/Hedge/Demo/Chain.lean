import Hedge.Common.Machine
import Hedge.Demo.Suppression

/-!
# A synthetic trade

Reference: `hedge-demo-synth/src/generators/signal.rs`, `generators/trade_chain.rs`, `rng.rs`,
`symbols.rs`, `signal_bus.rs`.

A signal is drawn at random, and the chain makes a whole trade of it: a rank, a risk decision, an
order, up to three fills, an update of a position. Random words and readings of the clock are
arguments. A float is drawn in a range, and only its value is used. The explanation of a rank, and
the price board from which a signal takes its price, are left out.
-/

namespace Hedge.Demo

open Hedge.Common

/-! ## Random draws -/

/-- `Mulberry32::range_i64` for the word that `next_u32` gives. -/
def rangeI64 (word : UInt32) (lo hi : ℤ) : ℤ := if hi ≤ lo then lo else lo + word.toNat % (hi - lo)

theorem rangeI64_mem (word : UInt32) {lo hi : ℤ} (h : lo < hi) :
    lo ≤ rangeI64 word lo hi ∧ rangeI64 word lo hi < hi := by
  rw [rangeI64, if_neg (not_le.mpr h)]
  have hpos : 0 < hi - lo := by omega
  have hlow := Int.emod_nonneg (word.toNat : ℤ) hpos.ne'
  have hhigh := Int.emod_lt_of_pos (word.toNat : ℤ) hpos
  omega

/-- The trading symbols of `DEMO_BASKET`. -/
inductive DemoSymbol where
  | reliance | infy | sbin | hdfcbank | icicibank
deriving DecidableEq

def DemoSymbol.tradingSymbol : DemoSymbol → String
  | reliance => "RELIANCE"
  | infy => "INFY"
  | sbin => "SBIN"
  | hdfcbank => "HDFCBANK"
  | icicibank => "ICICIBANK"

/-- `STRATEGIES`. -/
def strategies : List String :=
  ["OpeningRangeBreakout", "VwapPullback", "MomentumBreakout", "LiquiditySweepReversal",
    "OptionsOiExpansionBreakout", "VolatilityCompressionBreakout"]

/-! ## Signals -/

structure SignalEvent where
  correlationId : String
  symbol : DemoSymbol
  side : String
  strategy : String
  ltpPaise : Int64
  baseProbability : ℚ
  confidence : ℚ

/-- What is drawn for a signal, and the price of its symbol on the board. -/
structure SignalDraws where
  symbol : DemoSymbol
  strategyWord : UInt32
  sideDraw : ℚ
  /-- The number in the correlation id, made of a word and of the clock. -/
  idNumber : UInt64
  baseProbability : ℚ
  confidence : ℚ
  ltpPaise : Int64
  tsNs : Int64

/-- `{:016x}`. -/
def hex16 (n : UInt64) : String :=
  String.ofList ((List.range 16).map fun i =>
    "0123456789abcdef".toList.getD (n.toNat / 16 ^ (15 - i) % 16) '0')

/-- The signal that is made of some draws. -/
def SignalDraws.event (draws : SignalDraws) : SignalEvent where
  correlationId := "synth-" ++ hex16 draws.idNumber
  symbol := draws.symbol
  side := if 1 / 2 < draws.sideDraw then "buy" else "sell"
  strategy := strategies.getD (rangeI64 draws.strategyWord 0 6).toNat ""
  ltpPaise := draws.ltpPaise
  baseProbability := draws.baseProbability
  confidence := draws.confidence

/-- The payload on `sig.emitted`. -/
def SignalDraws.payload (draws : SignalDraws) : Json :=
  synthTag (.obj
    [("correlation_id", .str draws.event.correlationId),
      ("strategy", .str draws.event.strategy),
      ("symbol", .str draws.symbol.tradingSymbol),
      ("side", .str draws.event.side),
      ("base_probability", .num (.float draws.baseProbability)),
      ("confidence", .num (.float draws.confidence)),
      ("ts_ns", .ofI64 draws.tsNs)])

/-! ## The draws of a trade -/

/-- What is drawn while a trade is made, and what the clock reads for its messages. -/
structure TradeDraws where
  confidence : ℚ
  approveDraw : ℚ
  qtyWord : UInt32
  rationaleWord : UInt32
  rationaleCodeWord : UInt32
  cooldownDraw : ℚ
  brokerWord : UInt32
  fillsWord : UInt32
  priceWord : ℕ → UInt32
  orderflow : ℚ
  technicalStrength : ℚ
  newsSentiment : ℚ
  marketRegime : ℚ
  traderDiscipline : ℚ
  rankNs : Int64
  decisionNs : Int64
  cooldownNs : Int64
  submittedNs : Int64
  fillNs : ℕ → Int64
  closedNs : Int64
  updateNs : Int64

namespace TradeDraws

variable (draws : TradeDraws)

/-- `confidence > 0.55 && rng.next_f64() < 0.7`, with the values of the two constants as floats. -/
def approved : Bool :=
  2476979795053773 / 2 ^ 52 < draws.confidence && draws.approveDraw < 3152519739159347 / 2 ^ 52

/-- The quantity of an approved signal. -/
def quantity : ℕ := (rangeI64 draws.qtyWord 10 100).toNat

/-- The number of fills. -/
def fillCount : ℕ := (rangeI64 draws.fillsWord 1 4).toNat

theorem quantity_mem : 10 ≤ draws.quantity ∧ draws.quantity < 100 := by
  have h := rangeI64_mem draws.qtyWord (show (10 : ℤ) < 100 by decide)
  unfold quantity
  omega

theorem fillCount_mem : 1 ≤ draws.fillCount ∧ draws.fillCount ≤ 3 := by
  have h := rangeI64_mem draws.fillsWord (show (1 : ℤ) < 4 by decide)
  unfold fillCount
  omega

/-- `UPSTOX-{:08x}`. -/
def brokerOrderId : String :=
  "UPSTOX-" ++ String.ofList ((hex16 draws.brokerWord.toUInt64).toList.drop 8)

end TradeDraws

/-! ## Fills -/

/-- A fill, as it is reported: the quantity filled so far and its average price. -/
structure FillReport where
  filledQty : ℕ
  avgFillPaise : Int64
deriving DecidableEq

/-- The loop over the fills, from fill `i` on with `more` left. The last one is for the rest. -/
def fillsFrom (ltpPaise : Int64) (priceWord : ℕ → UInt32) (qty count : ℕ) :
    (more i filled : ℕ) → (weightedPricePaise : Int64) → List FillReport
  | 0, _, _, _ => []
  | more + 1, i, filled, weightedPricePaise =>
    let chunk := if more = 0 then qty - filled else max (qty / count) 1
    if chunk = 0 then []
    else
      let fillPrice := ltpPaise + Int64.ofInt (rangeI64 (priceWord i) (-15) 15)
      let weightedPricePaise := weightedPricePaise + fillPrice * Int64.ofNat chunk
      let filled := filled + chunk
      ⟨filled, weightedPricePaise / Int64.ofNat (max filled 1)⟩ ::
        fillsFrom ltpPaise priceWord qty count more (i + 1) filled weightedPricePaise

/-- The fills of an approved signal. -/
def TradeDraws.fills (draws : TradeDraws) (signal : SignalEvent) : List FillReport :=
  fillsFrom signal.ltpPaise draws.priceWord draws.quantity draws.fillCount draws.fillCount 0 0 0

/-! ## Positions -/

structure OpenPosition where
  qtySigned : Int64
  avgPricePaise : Int64
deriving DecidableEq

abbrev Positions := AList fun _ : String => OpenPosition

/-- `i64::signum`. -/
def signum (n : Int64) : Int64 := if 0 < n then 1 else if n < 0 then -1 else 0

/-- What an order changes about a position, and the profit of the trade that it closes. Opening a
position from nothing counts as a reversal. -/
def OpenPosition.book (pos : OpenPosition) (signedQty avgFill : Int64) :
    OpenPosition × Option Int64 :=
  let newQty := pos.qtySigned + signedQty
  if newQty ≠ 0 ∧ signum pos.qtySigned = signum newQty then
    let prevNotional := pos.qtySigned.abs * pos.avgPricePaise
    let addedNotional := signedQty.abs * avgFill
    (⟨newQty, (prevNotional + addedNotional) / max newQty.abs 1⟩, none)
  else if newQty = 0 ∨ signum newQty ≠ signum pos.qtySigned then
    (⟨newQty, avgFill⟩,
      some ((avgFill - pos.avgPricePaise) * signum pos.qtySigned * pos.qtySigned.abs))
  else (⟨newQty, pos.avgPricePaise⟩, none)

/-- The quantity of an order with the sign of its side. -/
def signedQuantity (signal : SignalEvent) (filled : ℕ) : Int64 :=
  if signal.side = "buy" then Int64.ofNat filled else -Int64.ofNat filled

/-! ## The messages of a trade -/

section Messages

variable (draws : TradeDraws) (signal : SignalEvent)

/-- `ai.rank.<corr_id>`. -/
def rankMessage : String × Json :=
  ("ai.rank" ++ "." ++ signal.correlationId, synthTag (.obj
    [("correlation_id", .str signal.correlationId),
      ("strategy", .str signal.strategy),
      ("symbol", .str signal.symbol.tradingSymbol),
      ("side", .str signal.side),
      ("base_probability", .num (.float signal.baseProbability)),
      ("confidence", .num (.float signal.confidence)),
      ("trade_confidence_score", .num (.float draws.confidence)),
      ("factors", .obj
        [("orderflow", .num (.float draws.orderflow)),
          ("technical_strength", .num (.float draws.technicalStrength)),
          ("news_sentiment", .num (.float draws.newsSentiment)),
          ("market_regime", .num (.float draws.marketRegime)),
          ("trader_discipline", .num (.float draws.traderDiscipline))]),
      ("shadow", .bool false),
      ("ts_ns", .ofI64 draws.rankNs)]))

/-- The text of the rationale. -/
def TradeDraws.rationale : String :=
  if draws.approved then "approved"
  else ["below_priority_floor", "cooldown_active", "size_zero"].getD
    (rangeI64 draws.rationaleWord 0 3).toNat ""

/-- `risk.decision.approved` or `risk.decision.rejected`. It names neither symbol nor side. -/
def decisionMessage : String × Json :=
  (if draws.approved then "risk.decision.approved" else "risk.decision.rejected",
    synthTag (.obj
      [("kind", .str "decision"),
        ("data", .obj
          [("correlation_id", .str signal.correlationId),
            ("approved", .bool draws.approved),
            ("rationale_code", .ofI64 (if draws.approved then 0
              else Int64.ofInt (1 + rangeI64 draws.rationaleCodeWord 0 5))),
            ("rationale", .str draws.rationale),
            ("sized_quantity", .ofI64 (if draws.approved then Int64.ofNat draws.quantity else 0)),
            ("ts_ns", .ofI64 draws.decisionNs)])]))

/-- `risk.cooldown.<sym>`, for half a minute. -/
def cooldownMessage : String × Json :=
  ("risk.cooldown" ++ "." ++ signal.symbol.tradingSymbol, synthTag (.obj
    [("kind", .str "cooldown"),
      ("data", .obj
        [("symbol", .str signal.symbol.tradingSymbol),
          ("until_ts_ns", .ofI64 (draws.cooldownNs + 30000000000))])]))

/-- `exec.order.submitted`. -/
def submittedMessage : String × Json :=
  ("exec.order.submitted", synthTag (.obj
    [("kind", .str "order"),
      ("data", .obj
        [("correlation_id", .str signal.correlationId),
          ("broker_order_id", .str draws.brokerOrderId),
          ("symbol", .str signal.symbol.tradingSymbol),
          ("state", .str "Submitted"),
          ("filled_qty", .ofI64 0),
          ("ts_ns", .ofI64 draws.submittedNs)])]))

/-- `exec.fill.<sym>`. It names no side. -/
def fillMessage (i : ℕ) (fill : FillReport) : String × Json :=
  ("exec.fill" ++ "." ++ signal.symbol.tradingSymbol, synthTag (.obj
    [("kind", .str "fill"),
      ("data", .obj
        [("correlation_id", .str signal.correlationId),
          ("broker_order_id", .str draws.brokerOrderId),
          ("symbol", .str signal.symbol.tradingSymbol),
          ("state", .str (if draws.quantity ≤ fill.filledQty then "Filled" else "PartiallyFilled")),
          ("filled_qty", .ofI64 (Int64.ofNat fill.filledQty)),
          ("avg_fill_paise", .ofI64 fill.avgFillPaise),
          ("ts_ns", .ofI64 (draws.fillNs i))])]))

/-- `exec.trade.closed`. -/
def closedMessage (pnlPaise : Int64) : String × Json :=
  ("exec.trade.closed", synthTag (.obj
    [("kind", .str "trade.closed"),
      ("data", .obj
        [("correlation_id", .str signal.correlationId),
          ("symbol", .str signal.symbol.tradingSymbol),
          ("pnl_inr", .num (.float (pnlPaise.toInt / 100))),
          ("ts_ns", .ofI64 draws.closedNs)])]))

/-- `pos.update.<sym>`. -/
def updateMessage (pos : OpenPosition) : String × Json :=
  ("pos.update" ++ "." ++ signal.symbol.tradingSymbol, synthTag (.obj
    [("kind", .str "pos.update"),
      ("data", .obj
        [("symbol", .str signal.symbol.tradingSymbol),
          ("quantity", .ofI64 pos.qtySigned),
          ("avg_price_paise", .ofI64 pos.avgPricePaise),
          ("realised_pnl_inr", .ofI64 0),
          ("unrealised_pnl_inr", .ofI64 0),
          ("ts_ns", .ofI64 draws.updateNs)])]))

/-- The messages up to the decision, and a cooldown if the draw is below the float for `0.4`. -/
def openingMessages : List (String × Json) :=
  [rankMessage draws signal, decisionMessage draws signal] ++
    if draws.cooldownDraw < 3602879701896397 / 2 ^ 53 then [cooldownMessage draws signal] else []

/-- The messages about the fills. -/
def fillMessages : List (String × Json) :=
  (draws.fills signal).mapIdx (fillMessage draws signal)

/-- The average price at which an order is booked. -/
def TradeDraws.avgFill : Int64 := ((draws.fills signal).getLast?.map (·.avgFillPaise)).getD 0

/-- The quantity at which an order is booked. -/
def TradeDraws.filled : ℕ := ((draws.fills signal).getLast?.map (·.filledQty)).getD 0

/-- The position before an order. -/
def positionBefore (positions : Positions) : OpenPosition :=
  (positions.lookup signal.symbol.tradingSymbol).getD ⟨0, draws.avgFill signal⟩

/-- `process_signal`: the messages in the order in which they come up to be published, and the
positions after them. -/
def processSignal (positions : Positions) : List (String × Json) × Positions :=
  if draws.approved then
    let booked := (positionBefore draws signal positions).book
      (signedQuantity signal (draws.filled signal)) (draws.avgFill signal)
    (openingMessages draws signal ++ submittedMessage draws signal :: fillMessages draws signal ++
        (booked.2.map (closedMessage draws signal)).toList ++ [updateMessage draws signal booked.1],
      positions.insert signal.symbol.tradingSymbol booked.1)
  else (openingMessages draws signal, positions)

variable {draws signal} {message : String × Json}

theorem mem_openingMessages (hmem : message ∈ openingMessages draws signal) :
    message = rankMessage draws signal ∨ message = decisionMessage draws signal ∨
      message = cooldownMessage draws signal := by
  rcases List.mem_append.mp hmem with hpair | hcooldown
  · rcases List.mem_pair.mp hpair with rfl | rfl
    · exact .inl rfl
    · exact .inr (.inl rfl)
  · split_ifs at hcooldown
    · exact .inr (.inr (List.mem_singleton.mp hcooldown))
    · cases hcooldown

/-- The messages of a trade, one kind after the other. -/
theorem mem_processSignal {positions : Positions}
    (hmem : message ∈ (processSignal draws signal positions).1) :
    message ∈ openingMessages draws signal ∨ message = submittedMessage draws signal ∨
      (∃ i fill, fill ∈ draws.fills signal ∧ message = fillMessage draws signal i fill) ∨
      (∃ pnlPaise, message = closedMessage draws signal pnlPaise) ∨
      ∃ pos, message = updateMessage draws signal pos := by
  unfold processSignal at hmem
  split_ifs at hmem
  · simp only [List.append_assoc, List.cons_append, List.mem_append, List.mem_cons,
      List.not_mem_nil, or_false] at hmem
    rcases hmem with hopening | hsubmitted | hfill | hclosed | hupdate
    · exact .inl hopening
    · exact .inr (.inl hsubmitted)
    · obtain ⟨i, hi, hfill⟩ := List.mem_mapIdx.mp hfill
      exact .inr (.inr (.inl ⟨i, _, List.getElem_mem hi, hfill.symm⟩))
    · obtain ⟨pnlPaise, -, hpnl⟩ := Option.map_eq_some_iff.mp (Option.mem_toList.mp hclosed)
      exact .inr (.inr (.inr (.inl ⟨pnlPaise, hpnl.symm⟩)))
    · exact .inr (.inr (.inr (.inr ⟨_, hupdate⟩)))
  · exact .inl hmem

/-- Everything about a trade carries the mark. -/
theorem isSynth_processSignal {positions : Positions}
    (hmem : message ∈ (processSignal draws signal positions).1) : isSynth message.2 = true := by
  rcases mem_processSignal hmem with hopening | rfl | ⟨i, fill, -, rfl⟩ | ⟨_, rfl⟩ | ⟨_, rfl⟩
  · rcases mem_openingMessages hopening with rfl | rfl | rfl
    · exact isSynth_synthTag (by simp)
    · exact isSynth_synthTag (by simp)
    · exact isSynth_synthTag (by simp)
  · exact isSynth_synthTag (by simp)
  · exact isSynth_synthTag (by simp)
  · exact isSynth_synthTag (by simp)
  · exact isSynth_synthTag (by simp)

end Messages

end Hedge.Demo
