import Hedge.Common.Layout

/-!
# The Binance risk guard

Reference: `hedge_binance/risk/service.py`.

`RiskState` gates signals, opens a position when the fill of an order is acknowledged, and closes it
when a tick reaches the stop-loss or the take-profit. Numbers that the source keeps as floats are
rational here, and times are in seconds.
-/

namespace Hedge.Binance

open Hedge.Common

/-- `round(x, digits)`. -/
def pyRound (digits : ℕ) (x : ℚ) : ℚ := roundTiesEven (x * 10 ^ digits) / 10 ^ digits

/-- What the services read of a signal; a field that is missing is `none`. -/
structure Signal where
  symbol : Option String
  side : Option String
  qtyUsdt : Option ℚ
  executedQty : Option ℚ
  stopLossPrice : Option ℚ
  takeProfitPrice : Option ℚ
  signalScore : Option ℤ

/-- What the risk guard reads of an acknowledgement. -/
structure Ack where
  symbol : String
  side : String
  qtyUsdt : ℚ
  ok : Bool
  executedQty : ℚ
  avgPrice : ℚ
  stopLossPrice : ℚ
  takeProfitPrice : ℚ

/-! ## Positions -/

/-- `OpenPosition`. -/
structure OpenPosition where
  symbol : String
  side : String
  entryPrice : ℚ
  qtyUsdt : ℚ
  executedQty : ℚ
  stopLossPrice : ℚ
  takeProfitPrice : ℚ

namespace OpenPosition

/-- `pnl_usdt`. -/
def pnlUsdt (p : OpenPosition) (currentPrice : ℚ) : ℚ :=
  if p.entryPrice ≤ 0 then 0
  else
    let pct := (currentPrice - p.entryPrice) / p.entryPrice
    pyRound 4 (p.qtyUsdt * if p.side = "sell" then -pct else pct)

/-- `sl_hit`. -/
def slHit (p : OpenPosition) (price : ℚ) : Bool :=
  if p.side = "buy" then price ≤ p.stopLossPrice else p.stopLossPrice ≤ price

/-- `tp_hit`. -/
def tpHit (p : OpenPosition) (price : ℚ) : Bool :=
  if p.side = "buy" then p.takeProfitPrice ≤ price else price ≤ p.takeProfitPrice

/-- The side of the order that closes the position. -/
def closeSide (p : OpenPosition) : String := if p.side = "buy" then "sell" else "buy"

/-- The signal that closes the position. -/
def exitSignal (p : OpenPosition) (symbol : String) : Signal where
  symbol := some symbol
  side := some p.closeSide
  qtyUsdt := some p.qtyUsdt
  executedQty := some p.executedQty
  stopLossPrice := some 0
  takeProfitPrice := some 0
  signalScore := some 100

end OpenPosition

/-! ## The ledger -/

/-- The limits, from the environment. -/
structure RiskLimits where
  maxPositionUsdt : ℚ
  dailyLossLimit : ℚ
  maxOpenOrders : ℤ
  maxDailyTrades : ℤ
  maxConsecLosses : ℤ
  minSignalScore : ℤ

/-- The defaults of the limits. -/
def RiskLimits.standard : RiskLimits := ⟨500, 100, 5, 20, 3, 30⟩

/-- `RiskState`. -/
structure RiskState where
  openOrders : ℕ
  dailyPnl : ℚ
  dailyTrades : ℕ
  consecLosses : ℕ
  dayEpoch : ℤ
  positions : String → Option OpenPosition
  pausedUntil : ℚ

/-- The texts of a rejection. -/
inductive RejectReason where
  | circuitBreaker (remaining : ℤ)
  | dailyLossLimitHit
  | dailyTradeLimitHit
  | maxOpenOrdersReached
  | signalScoreTooLow (score : ℤ)
  | positionAlreadyOpen (symbol : String)
  | notionalTooLarge (qtyUsdt : ℚ)

/-- `time.time()` and the ordinal of `date.today()`. -/
structure Clock where
  now : ℚ
  today : ℤ

namespace RiskState

/-- A fresh ledger. -/
def init (today : ℤ) : RiskState := ⟨0, 0, 0, 0, today, fun _ => none, 0⟩

/-- `_reset_day_if_needed`. -/
def resetDayIfNeeded (s : RiskState) (today : ℤ) : RiskState :=
  if today = s.dayEpoch then s
  else { s with
    dailyPnl := 0, dailyTrades := 0, consecLosses := 0, pausedUntil := 0, dayEpoch := today }

/-- The gates of `check`, in their order. -/
def gate (limits : RiskLimits) (s : RiskState) (now : ℚ) (sig : Signal) : Option RejectReason :=
  let symbol := sig.symbol.getD ""
  let qtyUsdt := sig.qtyUsdt.getD 0
  let score := sig.signalScore.getD 100
  if now < s.pausedUntil then some (.circuitBreaker ⌊s.pausedUntil - now⌋)
  else if s.dailyPnl ≤ -limits.dailyLossLimit then some .dailyLossLimitHit
  else if limits.maxDailyTrades ≤ s.dailyTrades then some .dailyTradeLimitHit
  else if limits.maxOpenOrders ≤ s.openOrders then some .maxOpenOrdersReached
  else if score < limits.minSignalScore then some (.signalScoreTooLow score)
  else if (s.positions symbol).isSome then some (.positionAlreadyOpen symbol)
  else if limits.maxPositionUsdt < qtyUsdt then some (.notionalTooLarge qtyUsdt)
  else none

/-- `check`: why the signal is rejected, if it is, after the daily reset. -/
def check (limits : RiskLimits) (s : RiskState) (clock : Clock) (sig : Signal) :
    Option RejectReason × RiskState :=
  let s := s.resetDayIfNeeded clock.today
  (s.gate limits clock.now sig, s)

/-- `on_approved`. -/
def onApproved (s : RiskState) : RiskState := { s with openOrders := s.openOrders + 1 }

/-- The position that `on_fill` opens. -/
def opened (ack : Ack) : OpenPosition where
  symbol := ack.symbol
  side := ack.side
  entryPrice := ack.avgPrice
  qtyUsdt := ack.qtyUsdt
  executedQty := ack.executedQty
  stopLossPrice := ack.stopLossPrice
  takeProfitPrice := ack.takeProfitPrice

/-- `on_fill`. -/
def onFill (s : RiskState) (today : ℤ) (ack : Ack) : RiskState :=
  let s := s.resetDayIfNeeded today
  let s := { s with openOrders := s.openOrders - 1, dailyTrades := s.dailyTrades + 1 }
  if ack.ok = false then s
  else if 0 < ack.avgPrice ∧ 0 < ack.stopLossPrice ∧ 0 < ack.takeProfitPrice then
    { s with positions := Function.update s.positions ack.symbol (some (opened ack)) }
  else s

/-- `on_position_closed`. -/
def onPositionClosed (limits : RiskLimits) (s : RiskState) (now : ℚ) (symbol : String)
    (realisedPnl : ℚ) : RiskState :=
  match s.positions symbol with
  | none => s
  | some _ =>
    let s := { s with
      positions := Function.update s.positions symbol none
      dailyPnl := pyRound 4 (s.dailyPnl + realisedPnl) }
    if 0 ≤ realisedPnl then { s with consecLosses := 0 }
    else
      let s := { s with consecLosses := s.consecLosses + 1 }
      if limits.maxConsecLosses ≤ s.consecLosses then { s with pausedUntil := now + 900 } else s

/-- `check_sltp`. -/
def checkSltp (limits : RiskLimits) (s : RiskState) (now : ℚ) (symbol : String) (price : ℚ) :
    Option Signal × RiskState :=
  match s.positions symbol with
  | none => (none, s)
  | some pos =>
    if pos.slHit price || pos.tpHit price then
      (some (pos.exitSignal symbol),
        s.onPositionClosed limits now symbol (pos.pnlUsdt price))
    else (none, s)

/-- `on_tick`: the exit signal that is published on `crypto.signal.approved`, if any. -/
def onTick (limits : RiskLimits) (s : RiskState) (now : ℚ) (symbol : String) (price : ℚ) :
    Option Signal × RiskState :=
  if price ≤ 0 ∨ s.positions symbol = none then (none, s) else s.checkSltp limits now symbol price

end RiskState

/-! ## What each operation leaves -/

section Operations

variable {limits : RiskLimits} {s : RiskState} {clock : Clock} {sig : Signal}

@[simp] theorem positions_resetDayIfNeeded (s : RiskState) (today : ℤ) :
    (s.resetDayIfNeeded today).positions = s.positions := by
  rw [RiskState.resetDayIfNeeded]
  split <;> rfl

@[simp] theorem openOrders_resetDayIfNeeded (s : RiskState) (today : ℤ) :
    (s.resetDayIfNeeded today).openOrders = s.openOrders := by
  rw [RiskState.resetDayIfNeeded]
  split <;> rfl

/-- Within a day nothing is reset. -/
theorem resetDayIfNeeded_self (s : RiskState) : s.resetDayIfNeeded s.dayEpoch = s := if_pos rfl

/-- What an approved signal has met. -/
theorem gate_eq_none {now : ℚ} (h : s.gate limits now sig = none) :
    (s.openOrders : ℤ) < limits.maxOpenOrders ∧ s.positions (sig.symbol.getD "") = none ∧
      sig.qtyUsdt.getD 0 ≤ limits.maxPositionUsdt := by
  rw [RiskState.gate] at h
  split_ifs at h with hpaused hloss htrades horders hscore hopen hnotional
  refine ⟨not_le.mp horders, ?_, not_lt.mp hnotional⟩
  rwa [Option.not_isSome_iff_eq_none] at hopen

@[simp] theorem openOrders_onFill (s : RiskState) (today : ℤ) (ack : Ack) :
    (s.onFill today ack).openOrders = s.openOrders - 1 := by
  rw [RiskState.onFill]
  dsimp only
  split_ifs
  · rw [openOrders_resetDayIfNeeded]
  · rw [openOrders_resetDayIfNeeded]
  · rw [openOrders_resetDayIfNeeded]

@[simp] theorem dailyTrades_onFill (s : RiskState) (today : ℤ) (ack : Ack) :
    (s.onFill today ack).dailyTrades = (s.resetDayIfNeeded today).dailyTrades + 1 := by
  rw [RiskState.onFill]
  dsimp only
  split_ifs <;> rfl

@[simp] theorem dayEpoch_onFill (s : RiskState) (ack : Ack) :
    (s.onFill s.dayEpoch ack).dayEpoch = s.dayEpoch := by
  rw [RiskState.onFill, resetDayIfNeeded_self]
  dsimp only
  split_ifs <;> rfl

/-- An acknowledgement opens a position. -/
def Ack.Opens (ack : Ack) : Prop :=
  ack.ok = true ∧ 0 < ack.avgPrice ∧ 0 < ack.stopLossPrice ∧ 0 < ack.takeProfitPrice

instance (ack : Ack) : Decidable ack.Opens := inferInstanceAs (Decidable (_ ∧ _))

theorem positions_onFill (s : RiskState) (today : ℤ) (ack : Ack) :
    (s.onFill today ack).positions =
      if ack.Opens then Function.update s.positions ack.symbol (some (RiskState.opened ack))
      else s.positions := by
  rw [RiskState.onFill]
  dsimp only
  by_cases hok : ack.ok = true
  · rw [if_neg (by rw [hok]; exact Bool.noConfusion)]
    by_cases hprices : 0 < ack.avgPrice ∧ 0 < ack.stopLossPrice ∧ 0 < ack.takeProfitPrice
    · rw [if_pos hprices, if_pos ⟨hok, hprices⟩]
      rw [positions_resetDayIfNeeded]
    · rw [if_neg hprices, if_neg fun h => hprices h.2]
      exact positions_resetDayIfNeeded s today
  · rw [if_pos (Bool.eq_false_iff.mpr hok), if_neg fun h => hok h.1]
    exact positions_resetDayIfNeeded s today

/-- Closing takes the position out of the book and leaves the others. -/
theorem positions_onPositionClosed (limits : RiskLimits) (s : RiskState) (now : ℚ)
    (symbol : String) (pnl : ℚ) :
    (s.onPositionClosed limits now symbol pnl).positions =
      Function.update s.positions symbol none := by
  rw [RiskState.onPositionClosed]
  split
  · rename_i hnone
    rw [← hnone, Function.update_eq_self]
  · dsimp only
    split_ifs <;> rfl

/-- Closing a position leaves the counters of orders and trades. -/
theorem counters_onPositionClosed (limits : RiskLimits) (s : RiskState) (now : ℚ)
    (symbol : String) (pnl : ℚ) :
    (s.onPositionClosed limits now symbol pnl).openOrders = s.openOrders ∧
      (s.onPositionClosed limits now symbol pnl).dailyTrades = s.dailyTrades ∧
      (s.onPositionClosed limits now symbol pnl).dayEpoch = s.dayEpoch := by
  rw [RiskState.onPositionClosed]
  split
  · exact ⟨rfl, rfl, rfl⟩
  · dsimp only
    split_ifs <;> exact ⟨rfl, rfl, rfl⟩

/-- **What a tick does**: nothing, or it takes a position out of the book and asks for its exit. -/
theorem onTick_cases (limits : RiskLimits) (s : RiskState) (now : ℚ) (symbol : String) (price : ℚ) :
    s.onTick limits now symbol price = (none, s) ∨
      ∃ pos pnl, s.positions symbol = some pos ∧ s.onTick limits now symbol price =
        (some (pos.exitSignal symbol), s.onPositionClosed limits now symbol pnl) := by
  rw [RiskState.onTick]
  split_ifs with hidle
  · exact .inl rfl
  · rw [RiskState.checkSltp]
    split
    · exact .inl rfl
    · rename_i pos hpos
      split_ifs
      · exact .inr ⟨pos, _, hpos, rfl⟩
      · exact .inl rfl

end Operations

end Hedge.Binance
