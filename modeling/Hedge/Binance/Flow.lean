import Hedge.Binance.Execution
import Hedge.Common.Run
import Mathlib.Algebra.BigOperators.Group.List.Basic

/-!
# The Binance services together

The risk guard publishes approved signals, the execution engine takes them one at a time and
publishes one acknowledgement each, and the risk guard takes these. `Flow` is the state of both with
the messages in flight, and the net quantity of each symbol at the exchange.

A position leaves the book when its exit is only asked for, and an acknowledgement puts one in the
book whatever is there, so the book and the exchange come apart when an exit fails or when two
entries of a symbol are in flight. `Event.InTurn` rules this out, step by step.
-/

namespace Hedge.Binance

open Hedge.Common

/-! ## The exchange -/

/-- What the exchange does with an order: it fills it in full at a price, or nothing. -/
inductive Outcome where
  | filled (orderId : ℕ) (price : ℚ)
  | error

/-- A filled order. The direction is 1 for a buy and -1 for a sell. -/
structure Fill where
  orderId : ℕ
  price : ℚ
  quantity : ℚ
  direction : ℚ
deriving DecidableEq

/-- The direction of an order, by the name that the exchange has for it. -/
def direction? (side : String) : Option ℚ :=
  if side = "BUY" then some 1 else if side = "SELL" then some (-1) else none

/-- The quantity of the base asset at a price. -/
def OrderQuantity.baseAt (price : ℚ) : OrderQuantity → ℚ
  | .base quantity => quantity
  | .quote quoteOrderQty => quoteOrderQty / price

/-- The fill of an order, which the exchange refuses when it is not for a positive quantity. Ids of
orders and prices are positive. -/
def fillOf (params : OrderParams) : Outcome → Option Fill
  | .error => none
  | .filled orderId price =>
    match direction? params.side with
    | some direction =>
      if 0 < orderId ∧ 0 < price ∧ 0 < params.quantity.baseAt price then
        some ⟨orderId, price, params.quantity.baseAt price, direction⟩
      else none
    | none => none

/-- What `place_market_order` returns. -/
def resultOf : Option Fill → PlaceResult
  | some fill => .order ⟨fill.orderId, fill.quantity, fill.price * fill.quantity⟩
  | none => .error "" none

/-! ## The two services -/

/-- The parameters of the order that `on_approved` places for a message. -/
def Signal.orderParams (sig : Signal) : OrderParams :=
  PlaceCall.params ⟨sig.symbol.getD "", sig.side.getD "buy", sig.qtyUsdt.getD 50,
    sig.executedQty.getD 0, 0, 0, none⟩

/-- A message on `crypto.signal.approved`, and whether it came through the gate. -/
structure Order where
  entry : Bool
  sig : Signal

/-- A message on `crypto.order.ack`, and whether its order came through the gate. -/
structure Report where
  entry : Bool
  ack : Ack

/-- The risk guard, the messages in flight, oldest first, the net quantities at the exchange, and
how many fills the risk guard has heard of. -/
structure Flow where
  risk : RiskState
  approved : List Order
  acks : List Report
  net : String → ℚ
  fills : ℕ

/-- What can happen next. -/
inductive Event where
  | signal (sig : Signal) (clock : Clock)
  | tick (symbol : String) (price now : ℚ)
  | execute (outcome : Outcome)
  | ack (today : ℤ)

namespace Flow

/-- Both services at their start. -/
def init (today : ℤ) : Flow := ⟨.init today, [], [], fun _ => 0, 0⟩

/-- `on_signal`. -/
def onSignal (limits : RiskLimits) (f : Flow) (clock : Clock) (sig : Signal) :
    Option RejectReason × Flow :=
  match f.risk.check limits clock sig with
  | (none, risk) =>
    (none, { f with risk := risk.onApproved, approved := f.approved ++ [⟨true, sig⟩] })
  | (some reason, risk) => (some reason, { f with risk := risk })

/-- `on_tick`. -/
def onTick (limits : RiskLimits) (f : Flow) (symbol : String) (price now : ℚ) : Flow :=
  match f.risk.onTick limits now symbol price with
  | (some sig, risk) => { f with risk := risk, approved := f.approved ++ [⟨false, sig⟩] }
  | (none, risk) => { f with risk := risk }

/-- The execution engine takes the oldest message. -/
def execute (f : Flow) (outcome : Outcome) : Flow :=
  match f.approved with
  | [] => f
  | order :: rest =>
    let fill := fillOf order.sig.orderParams outcome
    let symbol := order.sig.symbol.getD ""
    { f with
      approved := rest
      acks := f.acks ++ [⟨order.entry, Hedge.Binance.onApproved order.sig (resultOf fill) 0⟩]
      net := Function.update f.net symbol
        (f.net symbol + (fill.map fun fill => fill.direction * fill.quantity).getD 0) }

/-- `on_order_ack` of the oldest acknowledgement. -/
def onOrderAck (f : Flow) (today : ℤ) : Flow :=
  match f.acks with
  | [] => f
  | report :: rest =>
    { f with
      risk := f.risk.onFill today report.ack
      acks := rest
      fills := f.fills + if report.ack.ok then 1 else 0 }

/-- One step, with the reason if a signal is rejected. -/
def step (limits : RiskLimits) (f : Flow) : Event → Option RejectReason × Flow
  | .signal sig clock => f.onSignal limits clock sig
  | .tick symbol price now => (none, f.onTick limits symbol price now)
  | .execute outcome => (none, f.execute outcome)
  | .ack today => (none, f.onOrderAck today)

/-- The state after the events. -/
def run (limits : RiskLimits) (today : ℤ) (events : List Event) : Flow :=
  runState (step limits) (init today) events

/-- No message is in flight. -/
def Quiet (f : Flow) : Prop := f.approved = [] ∧ f.acks = []

end Flow

/-! ## The book and the exchange -/

/-- The quantity that a position stands for: a short one is negative, as in `pnl_usdt`. -/
def OpenPosition.netQty (p : OpenPosition) : ℚ :=
  if p.side = "buy" then p.executedQty else -p.executedQty

/-- The book has an entry exactly for the symbols with a net quantity, and with this quantity. -/
def Flow.Agrees (f : Flow) : Prop :=
  ∀ symbol, ((f.risk.positions symbol).isSome = true ↔ f.net symbol ≠ 0) ∧
    ∀ p, f.risk.positions symbol = some p → p.netQty = f.net symbol

/-- An entry comes with a stop-loss and a take-profit. -/
def Event.Protected : Event → Prop
  | .signal sig _ => 0 < sig.stopLossPrice.getD 0 ∧ 0 < sig.takeProfitPrice.getD 0
  | _ => True

/-- The side is spelled as the risk guard spells it. -/
def PlainSide (side : String) : Prop := side = "buy" ∨ side = "sell"

/-- The steps that keep the book and the exchange together: the order of an exit is filled, the
order of an entry is filled under a plain side and at a price that does not round to zero, and no
position is open when the fill of an entry is acknowledged. -/
def Event.InTurn (f : Flow) : Event → Prop
  | .execute outcome => ∀ order rest, f.approved = order :: rest →
      (order.entry = false → fillOf order.sig.orderParams outcome ≠ none) ∧
      (order.entry = true → ∀ fill, fillOf order.sig.orderParams outcome = some fill →
        PlainSide (order.sig.side.getD "buy") ∧ 0 < pyRound 8 fill.price)
  | .ack _ => ∀ report rest, f.acks = report :: rest → report.entry = true →
      report.ack.ok = true → f.risk.positions report.ack.symbol = none
  | _ => True

/-! ## Orders and their fills -/

/-- The direction of a plain side. -/
def sideSign (side : String) : ℚ := if side = "buy" then 1 else -1

theorem direction?_upper {side : String} (h : PlainSide side) :
    direction? (upper side) = some (sideSign side) := by
  rcases h with rfl | rfl
  · decide +kernel
  · decide +kernel

theorem OpenPosition.netQty_eq (p : OpenPosition) :
    p.netQty = sideSign p.side * p.executedQty := by
  rw [netQty, sideSign]
  split_ifs
  · rw [one_mul]
  · rw [neg_one_mul]

/-- The order that closes a position has the opposite direction. -/
theorem OpenPosition.sideSign_closeSide {p : OpenPosition} (h : PlainSide p.side) :
    PlainSide p.closeSide ∧ sideSign p.closeSide = -sideSign p.side := by
  rcases h with h | h
  · rw [closeSide, h, if_pos rfl]
    exact ⟨.inr rfl, rfl⟩
  · rw [closeSide, h, if_neg (by decide)]
    exact ⟨.inl rfl, (neg_neg 1).symm⟩

/-- A position that an exit can close. -/
structure OpenPosition.Tracked (p : OpenPosition) : Prop where
  side : PlainSide p.side
  qty : 0 < p.executedQty

theorem OpenPosition.Tracked.netQty_ne_zero {p : OpenPosition} (h : p.Tracked) : p.netQty ≠ 0 := by
  rw [p.netQty_eq, sideSign]
  split_ifs
  · rw [one_mul]
    exact h.qty.ne'
  · rw [neg_one_mul]
    exact neg_ne_zero.mpr h.qty.ne'

/-- What a fill says about its order. -/
theorem fillOf_eq_some {params : OrderParams} {outcome : Outcome} {fill : Fill}
    (h : fillOf params outcome = some fill) :
    direction? params.side = some fill.direction ∧ 0 < fill.orderId ∧ 0 < fill.price ∧
      0 < fill.quantity ∧ fill.quantity = params.quantity.baseAt fill.price := by
  cases outcome with
  | error => cases h
  | filled orderId price =>
    rw [fillOf] at h
    split at h
    · rename_i direction hdirection
      split_ifs at h with hpos
      cases h
      exact ⟨hdirection, hpos.1, hpos.2.1, hpos.2.2, rfl⟩
    · cases h

/-- What the acknowledgement of a fill says. -/
theorem onApproved_fill (sig : Signal) {fill : Fill} (hid : 0 < fill.orderId)
    (hprice : 0 < fill.price) (hqty : 0 < fill.quantity) (queried : ℚ) :
    onApproved sig (resultOf (some fill)) queried =
      ⟨sig.symbol.getD "", sig.side.getD "buy", sig.qtyUsdt.getD 50, true, fill.quantity,
        pyRound 8 fill.price, sig.stopLossPrice.getD 0, sig.takeProfitPrice.getD 0⟩ := by
  rw [resultOf, onApproved]
  dsimp only
  rw [if_neg hid.ne', if_pos hqty, mul_div_cancel_right₀ _ hqty.ne', if_neg hprice.ne']
  rfl

/-- The acknowledgement of an order that failed. -/
theorem onApproved_none (sig : Signal) (queried : ℚ) :
    onApproved sig (resultOf none) queried =
      ⟨sig.symbol.getD "", sig.side.getD "buy", sig.qtyUsdt.getD 50, false, 0, pyRound 8 0,
        sig.stopLossPrice.getD 0, sig.takeProfitPrice.getD 0⟩ := rfl

/-- The exit of a tracked position fills with its quantity. -/
theorem fill_exitSignal {p : OpenPosition} {symbol : String} {outcome : Outcome} {fill : Fill}
    (hp : p.Tracked) (h : fillOf (p.exitSignal symbol).orderParams outcome = some fill) :
    fill.direction * fill.quantity = -p.netQty := by
  obtain ⟨hdirection, -, -, -, hqty⟩ := fillOf_eq_some h
  obtain ⟨hplain, hsign⟩ := OpenPosition.sideSign_closeSide hp.side
  have hside : (p.exitSignal symbol).orderParams.side = upper p.closeSide := rfl
  have hbase : (p.exitSignal symbol).orderParams.quantity = .base p.executedQty := if_pos hp.qty
  rw [hside, direction?_upper hplain] at hdirection
  rw [hqty, hbase, ← Option.some.inj hdirection, hsign, p.netQty_eq, neg_mul]
  rfl

/-! ## What is in flight -/

/-- What the exit among the approved messages still takes from the exchange. -/
def Order.closing (symbol : String) (order : Order) : ℚ :=
  if order.entry = false ∧ order.sig.symbol.getD "" = symbol then
    sideSign (order.sig.side.getD "buy") * order.sig.executedQty.getD 0
  else 0

/-- What the fill of an entry still brings to the book. -/
def Report.opening (symbol : String) (report : Report) : ℚ :=
  if report.entry = true ∧ report.ack.ok = true ∧ report.ack.symbol = symbol then
    (RiskState.opened report.ack).netQty
  else 0

/-- The quantity in the book. -/
def Flow.booked (f : Flow) (symbol : String) : ℚ :=
  ((f.risk.positions symbol).map OpenPosition.netQty).getD 0

/-- Entries are protected, and exits close a tracked position. -/
structure Order.WellFormed (order : Order) : Prop where
  entry : order.entry = true →
    0 < order.sig.stopLossPrice.getD 0 ∧ 0 < order.sig.takeProfitPrice.getD 0
  exit : order.entry = false →
    ∃ p symbol, OpenPosition.Tracked p ∧ order.sig = p.exitSignal symbol

/-- The fill of an entry opens a tracked position, and no exit opens one. -/
structure Report.WellFormed (report : Report) : Prop where
  entry : report.entry = true → report.ack.ok = true →
    report.ack.Opens ∧ (RiskState.opened report.ack).Tracked
  exit : report.entry = false → ¬report.ack.Opens

/-- The book with the fills on their way to it is the exchange with the exits on their way there. -/
structure Flow.Sound (f : Flow) : Prop where
  balanced : ∀ symbol, f.net symbol + (f.approved.map (Order.closing symbol)).sum =
    f.booked symbol + (f.acks.map (Report.opening symbol)).sum
  tracked : ∀ symbol p, f.risk.positions symbol = some p → p.Tracked
  orders : ∀ order ∈ f.approved, order.WellFormed
  reports : ∀ report ∈ f.acks, report.WellFormed

theorem Flow.Sound.agrees {f : Flow} (h : f.Sound) (hquiet : f.Quiet) : f.Agrees := by
  intro symbol
  have hnet : f.net symbol = f.booked symbol := by
    have hbalanced := h.balanced symbol
    rwa [hquiet.1, hquiet.2, List.map_nil, List.map_nil, List.sum_nil, add_zero, add_zero]
      at hbalanced
  rw [hnet, Flow.booked]
  cases hp : f.risk.positions symbol with
  | none =>
    refine ⟨⟨fun h => absurd h Bool.false_ne_true, fun h => absurd rfl h⟩, fun p h => ?_⟩
    cases h
  | some p =>
    refine ⟨⟨fun _ => (h.tracked symbol p hp).netQty_ne_zero, fun _ => rfl⟩, fun p' h' => ?_⟩
    cases h'
    rfl

section Steps

variable {limits : RiskLimits} {f g : Flow}

/-- Messages of entries, and what else leaves the book and the exchange as they are. -/
theorem Flow.Sound.approve (h : f.Sound) (new : List Order)
    (hpositions : g.risk.positions = f.risk.positions) (hnet : g.net = f.net)
    (hacks : g.acks = f.acks) (happroved : g.approved = f.approved ++ new)
    (hnew : ∀ order ∈ new, order.entry = true ∧ order.WellFormed) : g.Sound := by
  refine ⟨fun symbol => ?_, fun symbol p hp => ?_, ?_, ?_⟩
  · have hzero : (new.map (Order.closing symbol)).sum = 0 := by
      apply List.sum_eq_zero
      intro q hq
      obtain ⟨order, hmem, rfl⟩ := List.mem_map.mp hq
      apply if_neg
      rintro ⟨hexit, -⟩
      rw [(hnew order hmem).1] at hexit
      cases hexit
    rw [hnet, hacks, happroved, Flow.booked, hpositions, List.map_append, List.sum_append, hzero,
      add_zero]
    exact h.balanced symbol
  · rw [hpositions] at hp
    exact h.tracked symbol p hp
  · rw [happroved]
    exact List.forall_mem_append.mpr ⟨h.orders, fun order hmem => (hnew order hmem).2⟩
  · rw [hacks]
    exact h.reports

theorem Flow.Sound.onSignal (h : f.Sound) {clock : Clock} {sig : Signal}
    (hsig : 0 < sig.stopLossPrice.getD 0 ∧ 0 < sig.takeProfitPrice.getD 0) :
    (f.onSignal limits clock sig).2.Sound := by
  rw [Flow.onSignal, RiskState.check]
  split
  · rename_i risk heq
    obtain ⟨-, rfl⟩ := Prod.mk.inj heq
    apply h.approve [⟨true, sig⟩]
    · exact positions_resetDayIfNeeded f.risk clock.today
    · rfl
    · rfl
    · rfl
    · intro order horder
      obtain rfl := List.mem_singleton.mp horder
      exact ⟨rfl, fun _ => hsig, fun hexit => absurd hexit Bool.noConfusion⟩
  · rename_i reason risk heq
    obtain ⟨-, rfl⟩ := Prod.mk.inj heq
    apply h.approve []
    · exact positions_resetDayIfNeeded f.risk clock.today
    · rfl
    · rfl
    · exact (List.append_nil _).symm
    · intro order horder
      cases horder

/-- The exit of a position takes out of the exchange what the position stands for. -/
theorem Order.closing_exitSignal {pos : OpenPosition} (hpos : pos.Tracked) (symbol sym : String) :
    Order.closing sym ⟨false, pos.exitSignal symbol⟩ =
      if symbol = sym then -pos.netQty else 0 := by
  rw [Order.closing]
  by_cases hsym : symbol = sym
  · rw [if_pos ⟨rfl, hsym⟩, if_pos hsym, pos.netQty_eq, ← neg_mul,
      ← (OpenPosition.sideSign_closeSide hpos.side).2]
    rfl
  · rw [if_neg fun hboth => hsym hboth.2, if_neg hsym]

/-- A position that leaves the book is on its way as an exit. -/
theorem Flow.booked_onPositionClosed {symbol : String} {pos : OpenPosition}
    (hpos : f.risk.positions symbol = some pos) (htracked : pos.Tracked) (now pnl : ℚ)
    (sym : String) :
    (((f.risk.onPositionClosed limits now symbol pnl).positions sym).map
      OpenPosition.netQty).getD 0 =
        f.booked sym + Order.closing sym ⟨false, pos.exitSignal symbol⟩ := by
  rw [positions_onPositionClosed, Order.closing_exitSignal htracked, Flow.booked]
  by_cases hsym : symbol = sym
  · subst hsym
    rw [Function.update_self, hpos, if_pos rfl]
    exact (add_neg_cancel _).symm
  · rw [Function.update_of_ne (Ne.symm hsym), if_neg hsym, add_zero]

/-- A tick moves a position from the book to the exits in flight. -/
theorem Flow.Sound.onTick (h : f.Sound) (symbol : String) (price now : ℚ) :
    (f.onTick limits symbol price now).Sound := by
  rw [Flow.onTick]
  rcases onTick_cases limits f.risk now symbol price with heq | ⟨pos, pnl, hpos, heq⟩
  · rw [heq]
    exact h
  · rw [heq]
    dsimp only
    have htracked := h.tracked symbol pos hpos
    refine ⟨fun sym => ?_, fun sym p hp => ?_, ?_, h.reports⟩
    · show f.net sym + ((f.approved ++ [(⟨false, pos.exitSignal symbol⟩ : Order)]).map
        (Order.closing sym)).sum = (((f.risk.onPositionClosed limits now symbol pnl).positions
          sym).map OpenPosition.netQty).getD 0 + _
      have hbalanced := h.balanced sym
      rw [List.map_append, List.sum_append, List.map_singleton, List.sum_singleton,
        Flow.booked_onPositionClosed hpos htracked]
      linarith
    · replace hp : (f.risk.onPositionClosed limits now symbol pnl).positions sym = some p := hp
      rw [positions_onPositionClosed] at hp
      by_cases hsym : sym = symbol
      · rw [hsym, Function.update_self] at hp
        cases hp
      · rw [Function.update_of_ne hsym] at hp
        exact h.tracked sym p hp
    · refine List.forall_mem_append.mpr ⟨h.orders, List.forall_mem_singleton.mpr ?_⟩
      exact ⟨fun hentry => absurd hentry Bool.noConfusion, fun _ => ⟨pos, symbol, htracked, rfl⟩⟩

/-- The report that the execution engine sends for an order. -/
def Order.report (order : Order) (fill : Option Fill) : Report :=
  ⟨order.entry, Hedge.Binance.onApproved order.sig (resultOf fill) 0⟩

/-- The quantity that a fill moves at the exchange. -/
def tradedQty (fill : Option Fill) : ℚ :=
  (fill.map fun fill => fill.direction * fill.quantity).getD 0

/-- **An entry**: what it moves at the exchange is on its way to the book. -/
theorem Order.WellFormed.report_entry {order : Order} (h : order.WellFormed)
    (hentry : order.entry = true) {outcome : Outcome}
    (hturn : ∀ fill, fillOf order.sig.orderParams outcome = some fill →
      PlainSide (order.sig.side.getD "buy") ∧ 0 < pyRound 8 fill.price) :
    (order.report (fillOf order.sig.orderParams outcome)).WellFormed ∧
      (order.report (fillOf order.sig.orderParams outcome)).opening (order.sig.symbol.getD "") =
        tradedQty (fillOf order.sig.orderParams outcome) := by
  cases hfill : fillOf order.sig.orderParams outcome with
  | none =>
    refine ⟨⟨fun _ hok => ?_, fun hexit => ?_⟩, ?_⟩
    · rw [Order.report, onApproved_none] at hok
      cases hok
    · rw [Order.report, hentry] at hexit
      cases hexit
    · apply if_neg
      rintro ⟨-, hok, -⟩
      rw [Order.report, onApproved_none] at hok
      cases hok
  | some fill =>
    obtain ⟨hdirection, hid, hprice, hqty, -⟩ := fillOf_eq_some hfill
    obtain ⟨hplain, havg⟩ := hturn fill hfill
    have hack := onApproved_fill order.sig hid hprice hqty 0
    have hopened : (RiskState.opened (onApproved order.sig (resultOf (some fill)) 0)).Tracked := by
      rw [hack]
      exact ⟨hplain, hqty⟩
    refine ⟨⟨fun _ _ => ⟨?_, hopened⟩, fun hexit => ?_⟩, ?_⟩
    · rw [Order.report, hack]
      exact ⟨rfl, havg, (h.entry hentry).1, (h.entry hentry).2⟩
    · rw [Order.report, hentry] at hexit
      cases hexit
    · have hname : order.sig.orderParams.side = upper (order.sig.side.getD "buy") := rfl
      rw [hname, direction?_upper hplain] at hdirection
      rw [Report.opening, Order.report, hack, if_pos ⟨hentry, rfl, rfl⟩, OpenPosition.netQty_eq]
      show _ = fill.direction * fill.quantity
      rw [← Option.some.inj hdirection]
      rfl

/-- **An exit that is filled**: it moves what was on its way from the book. -/
theorem Order.WellFormed.report_exit {order : Order} (h : order.WellFormed)
    (hexit : order.entry = false) {outcome : Outcome} {fill : Fill}
    (hfill : fillOf order.sig.orderParams outcome = some fill) :
    (order.report (some fill)).WellFormed ∧
      order.closing (order.sig.symbol.getD "") = tradedQty (some fill) := by
  obtain ⟨p, symbol, hp, hsig⟩ := h.exit hexit
  rw [hsig] at hfill
  refine ⟨⟨fun hentry => ?_, fun _ hopens => ?_⟩, ?_⟩
  · rw [Order.report, hexit] at hentry
    cases hentry
  · rw [Order.report, hsig] at hopens
    exact absurd hopens.2.2.1 (lt_irrefl 0)
  · rw [Order.closing, if_pos ⟨hexit, rfl⟩, hsig]
    show _ = fill.direction * fill.quantity
    rw [fill_exitSignal hp hfill, p.netQty_eq, ← neg_mul,
      ← (OpenPosition.sideSign_closeSide hp.side).2]
    rfl

/-- An order and its report are about one symbol. -/
theorem Order.closing_of_ne {order : Order} {symbol : String}
    (h : symbol ≠ order.sig.symbol.getD "") (fill : Option Fill) :
    order.closing symbol = 0 ∧ (order.report fill).opening symbol = 0 :=
  ⟨if_neg fun hboth => h hboth.2.symm, if_neg fun hboth => h hboth.2.2.symm⟩

/-- **An order that is executed in turn**: what it moves at the exchange is what was on its way
there, with what is on its way to the book now. -/
theorem Order.WellFormed.executed {order : Order} (h : order.WellFormed) {outcome : Outcome}
    (hexits : order.entry = false → fillOf order.sig.orderParams outcome ≠ none)
    (hentries : order.entry = true → ∀ fill, fillOf order.sig.orderParams outcome = some fill →
      PlainSide (order.sig.side.getD "buy") ∧ 0 < pyRound 8 fill.price) :
    (order.report (fillOf order.sig.orderParams outcome)).WellFormed ∧
      tradedQty (fillOf order.sig.orderParams outcome) =
        order.closing (order.sig.symbol.getD "") +
          (order.report (fillOf order.sig.orderParams outcome)).opening
            (order.sig.symbol.getD "") := by
  cases hentry : order.entry with
  | true =>
    obtain ⟨hreport, hopening⟩ := h.report_entry hentry (hentries hentry)
    have hclosing : order.closing (order.sig.symbol.getD "") = 0 := by
      apply if_neg
      rw [hentry]
      exact fun hboth => absurd hboth.1 Bool.noConfusion
    exact ⟨hreport, by rw [hopening, hclosing, zero_add]⟩
  | false =>
    obtain ⟨fill, hfill⟩ := Option.ne_none_iff_exists'.mp (hexits hentry)
    obtain ⟨hreport, hclosing⟩ := h.report_exit hentry hfill
    have hopening : (order.report (some fill)).opening (order.sig.symbol.getD "") = 0 := by
      apply if_neg
      rw [Order.report, hentry]
      exact fun hboth => absurd hboth.1 Bool.noConfusion
    rw [hfill]
    exact ⟨hreport, by rw [hopening, hclosing, add_zero]⟩

/-- The exchange fills or fails the oldest order. -/
theorem Flow.Sound.execute (h : f.Sound) {outcome : Outcome}
    (hturn : Event.InTurn f (.execute outcome)) : (f.execute outcome).Sound := by
  rw [Flow.execute]
  cases happroved : f.approved with
  | nil => exact h
  | cons order rest =>
    have horders := h.orders
    rw [happroved, List.forall_mem_cons] at horders
    obtain ⟨hwell, hrest⟩ := horders
    obtain ⟨hexits, hentries⟩ := hturn order rest happroved
    obtain ⟨hreport, hown⟩ := hwell.executed hexits hentries
    refine ⟨fun sym => ?_, h.tracked, hrest, ?_⟩
    · have hbalanced := h.balanced sym
      rw [happroved, List.map_cons, List.sum_cons] at hbalanced
      show Function.update f.net (order.sig.symbol.getD "") (f.net (order.sig.symbol.getD "") +
          tradedQty (fillOf order.sig.orderParams outcome)) sym +
        (rest.map (Order.closing sym)).sum = f.booked sym +
          ((f.acks ++ [order.report (fillOf order.sig.orderParams outcome)]).map _).sum
      rw [List.map_append, List.sum_append, List.map_singleton, List.sum_singleton]
      by_cases hsym : sym = order.sig.symbol.getD ""
      · subst hsym
        rw [Function.update_self, hown]
        linarith
      · obtain ⟨hclosing, hopening⟩ := Order.closing_of_ne hsym
          (fillOf order.sig.orderParams outcome)
        rw [Function.update_of_ne hsym, hopening]
        rw [hclosing] at hbalanced
        linarith
    · exact List.forall_mem_append.mpr ⟨h.reports, List.forall_mem_singleton.mpr hreport⟩

/-- What opens a position is the fill of an entry. -/
theorem Report.WellFormed.of_opens {report : Report} (h : report.WellFormed)
    (hopens : report.ack.Opens) :
    report.entry = true ∧ (RiskState.opened report.ack).Tracked := by
  have hentry : report.entry = true := by
    by_contra hexit
    exact h.exit (Bool.eq_false_iff.mpr hexit) hopens
  exact ⟨hentry, (h.entry hentry hopens.1).2⟩

theorem Report.WellFormed.opening_eq {report : Report} (h : report.WellFormed) (symbol : String) :
    report.opening symbol = if report.ack.Opens ∧ report.ack.symbol = symbol then
      (RiskState.opened report.ack).netQty else 0 := by
  refine if_congr ⟨?_, ?_⟩ rfl rfl
  · rintro ⟨hentry, hok, hsym⟩
    exact ⟨(h.entry hentry hok).1, hsym⟩
  · rintro ⟨hopens, hsym⟩
    exact ⟨(h.of_opens hopens).1, hopens.1, hsym⟩

/-- An acknowledgement brings what its fill was to bring, if there is no position yet. -/
theorem Flow.booked_onFill {report : Report} (hwell : report.WellFormed)
    (hnone : report.ack.Opens → f.risk.positions report.ack.symbol = none) (today : ℤ)
    (sym : String) :
    (((f.risk.onFill today report.ack).positions sym).map OpenPosition.netQty).getD 0 =
      f.booked sym + report.opening sym := by
  rw [hwell.opening_eq, positions_onFill, Flow.booked]
  by_cases hopens : report.ack.Opens
  · rw [if_pos hopens]
    by_cases hsym : report.ack.symbol = sym
    · subst hsym
      rw [Function.update_self, hnone hopens, if_pos ⟨hopens, rfl⟩]
      exact (zero_add _).symm
    · rw [Function.update_of_ne (Ne.symm hsym), if_neg fun hboth => hsym hboth.2, add_zero]
  · rw [if_neg hopens, if_neg fun hboth => hopens hboth.1, add_zero]

/-- The oldest acknowledgement reaches the book. -/
theorem Flow.Sound.onOrderAck (h : f.Sound) {today : ℤ} (hturn : Event.InTurn f (.ack today)) :
    (f.onOrderAck today).Sound := by
  rw [Flow.onOrderAck]
  cases hacks : f.acks with
  | nil => exact h
  | cons report rest =>
    have hreports := h.reports
    rw [hacks, List.forall_mem_cons] at hreports
    obtain ⟨hwell, hrest⟩ := hreports
    have hnone : report.ack.Opens → f.risk.positions report.ack.symbol = none :=
      fun hopens => hturn report rest hacks (hwell.of_opens hopens).1 hopens.1
    refine ⟨fun sym => ?_, fun sym p hp => ?_, h.orders, hrest⟩
    · have hbalanced := h.balanced sym
      rw [hacks, List.map_cons, List.sum_cons, ← add_assoc,
        ← Flow.booked_onFill hwell hnone today] at hbalanced
      exact hbalanced
    · replace hp : (f.risk.onFill today report.ack).positions sym = some p := hp
      rw [positions_onFill] at hp
      split_ifs at hp with hopens
      · by_cases hsym : sym = report.ack.symbol
        · rw [hsym, Function.update_self] at hp
          rw [← Option.some.inj hp]
          exact (hwell.of_opens hopens).2
        · rw [Function.update_of_ne hsym] at hp
          exact h.tracked sym p hp
      · exact h.tracked sym p hp

end Steps

/-- **One step in turn** keeps what is booked, filled and in flight balanced. -/
theorem Flow.Sound.step {f : Flow} (h : f.Sound) {limits : RiskLimits} {event : Event}
    (hprotected : event.Protected) (hturn : event.InTurn f) : (f.step limits event).2.Sound := by
  cases event with
  | signal sig clock => exact h.onSignal hprotected
  | tick symbol price now => exact h.onTick symbol price now
  | execute outcome => exact h.execute hturn
  | ack today => exact h.onOrderAck hturn

/-- **The book is the exchange whenever nothing is in flight**, in every run of protected entries
whose steps are in turn. -/
theorem book_agrees (limits : RiskLimits) (today : ℤ) (events : List Event)
    (hprotected : ∀ event ∈ events, event.Protected)
    (hturn : ∀ pre event post, events = pre ++ event :: post →
      event.InTurn (Flow.run limits today pre)) :
    ∀ pre post, events = pre ++ post → (Flow.run limits today pre).Quiet →
      (Flow.run limits today pre).Agrees := by
  intro pre post hsplit
  apply Flow.Sound.agrees
  refine runState_invariant_split (Flow.step limits) Flow.Sound
    (C := fun f event => event.Protected ∧ event.InTurn f)
    (fun f event h hevent => h.step hevent.1 hevent.2) ⟨?_, ?_, ?_, ?_⟩ ?_ pre post hsplit
  · intro symbol
    rfl
  · intro symbol p hp
    cases hp
  · intro order horder
    cases horder
  · intro report hreport
    cases hreport
  · intro pre event post hsplit
    exact ⟨hprotected event (by rw [hsplit]; simp), hturn pre event post hsplit⟩

/-- A signal to buy for 50 USDT. -/
def buySignal : Signal :=
  ⟨some "BTCUSDT", some "buy", some 50, none, some 90, some 110, some 80⟩

/-- A signal that is approved and filled at 100. -/
def openedAtHundred : List Event :=
  [.signal buySignal ⟨0, 0⟩, .execute (.filled 1 100), .ack 0]

theorem book_agrees_openedAtHundred : (Flow.run .standard 0 openedAtHundred).Agrees := by
  refine book_agrees .standard 0 openedAtHundred ?_ ?_ openedAtHundred [] rfl ⟨rfl, rfl⟩
  · intro event hmem
    simp only [openedAtHundred, List.mem_cons, List.not_mem_nil, or_false] at hmem
    rcases hmem with rfl | rfl | rfl
    · exact ⟨by decide +kernel, by decide +kernel⟩
    · exact trivial
    · exact trivial
  · refine forall_split_cons trivial (forall_split_cons ?_ (forall_split_cons ?_ forall_split_nil))
    · intro order rest h
      have happroved : (Flow.run .standard 0 [.signal buySignal ⟨0, 0⟩]).approved =
          [⟨true, buySignal⟩] := rfl
      rw [happroved] at h
      cases h
      refine ⟨fun hexit => absurd hexit Bool.noConfusion, fun _ fill hfill => ⟨.inl rfl, ?_⟩⟩
      have hsome : fillOf buySignal.orderParams (.filled 1 100) = some ⟨1, 100, 1 / 2, 1⟩ := by
        decide +kernel
      obtain rfl := Option.some.inj (hsome.symm.trans hfill)
      decide +kernel
    · intro report rest _ _ _
      rfl

/-- The stop-loss is hit and the exchange fails the exit: half a coin is left without a position
that any tick would close. -/
theorem failed_exit_unmonitored : ¬ ∀ events : List Event, (∀ event ∈ events, event.Protected) →
    ∀ pre post, events = pre ++ post → (Flow.run .standard 0 pre).Quiet →
      (Flow.run .standard 0 pre).Agrees := by
  intro h
  have hagrees := h (openedAtHundred ++ [.tick "BTCUSDT" 80 1, .execute .error, .ack 0]) ?_ _ []
    (List.append_nil _).symm ⟨by decide +kernel, by decide +kernel⟩
  · exact absurd (hagrees "BTCUSDT").1 (by decide +kernel)
  · intro event hmem
    simp only [openedAtHundred, List.cons_append, List.nil_append, List.mem_cons,
      List.not_mem_nil, or_false] at hmem
    rcases hmem with rfl | rfl | rfl | rfl | rfl | rfl
    · exact ⟨by decide +kernel, by decide +kernel⟩
    · exact trivial
    · exact trivial
    · exact trivial
    · exact trivial
    · exact trivial

end Hedge.Binance
