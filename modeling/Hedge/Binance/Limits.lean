import Hedge.Binance.Flow

/-!
# The order limits of the Binance risk guard

Reference: `hedge_binance/risk/service.py`.

The acknowledgements of entries and of exits move the same two counters, and only entries are
counted when they are approved. `Flow.Counted` is what the limits are meant to count, and
`limits_count_iff` says which steps keep it within one day.
-/

namespace Hedge.Binance

open Hedge.Common

/-! ## Entries in flight -/

/-- The symbol and the size of an entry among the approved messages. -/
def Order.asEntry (order : Order) : Option (String × ℚ) :=
  if order.entry then some (order.sig.symbol.getD "", order.sig.qtyUsdt.getD 50) else none

/-- The symbol and the size of an entry among the acknowledgements. -/
def Report.asEntry (report : Report) : Option (String × ℚ) :=
  if report.entry then some (report.ack.symbol, report.ack.qtyUsdt) else none

namespace Flow

/-- The approved entries whose acknowledgement has not arrived, oldest first. -/
def entries (f : Flow) : List (String × ℚ) :=
  f.acks.filterMap Report.asEntry ++ f.approved.filterMap Order.asEntry

/-- The sizes of the entries of a symbol. -/
def sizesOf (symbol : String) (entries : List (String × ℚ)) : List ℚ :=
  (entries.filter fun entry => entry.1 = symbol).map Prod.snd

/-- The size of the position of a symbol, none or one. -/
def openSize (f : Flow) (symbol : String) : List ℚ :=
  ((f.risk.positions symbol).map OpenPosition.qtyUsdt).toList

/-- What the limits count: the entries in flight, at most so many of them, at most one entry of a
symbol in flight or open and not for more than the limit, and the fills of the day. -/
structure Counted (limits : RiskLimits) (f : Flow) : Prop where
  openOrders : f.risk.openOrders = f.entries.length
  within : (f.entries.length : ℤ) ≤ max 0 limits.maxOpenOrders
  alone : ∀ symbol, (sizesOf symbol f.entries ++ f.openSize symbol).length ≤ 1
  notional : ∀ symbol,
    (sizesOf symbol f.entries ++ f.openSize symbol).sum ≤ max 0 limits.maxPositionUsdt
  dailyTrades : f.risk.dailyTrades = f.fills

/-- An event on a day. -/
def onDay (day : ℤ) : Event → Event
  | .signal sig clock => .signal sig { clock with today := day }
  | .tick symbol price now => .tick symbol price now
  | .execute outcome => .execute outcome
  | .ack _ => .ack day

/-- One step on a day. -/
def dayStep (limits : RiskLimits) (day : ℤ) (f : Flow) (event : Event) :
    Option RejectReason × Flow :=
  f.step limits (onDay day event)

/-- The state after the events of a day. -/
def dayRun (limits : RiskLimits) (day : ℤ) (events : List Event) : Flow :=
  runState (dayStep limits day) (init day) events

end Flow

/-- The steps that the counters count right: a signal is approved only while no entry of its symbol
is in flight, and with its size or with a default size within the limit, and the acknowledgement
that arrives is the one of a fill, and of an entry unless no entry is in flight. -/
def Event.CountsRight (limits : RiskLimits) (f : Flow) : Event → Prop
  | .signal sig clock => (f.risk.check limits clock sig).1 = none →
      (∀ entry ∈ f.entries, entry.1 ≠ sig.symbol.getD "") ∧
      (sig.qtyUsdt = none → 50 ≤ max 0 limits.maxPositionUsdt)
  | .ack _ => ∀ report rest, f.acks = report :: rest →
      report.ack.ok = true ∧ (report.entry = false → f.entries = [])
  | _ => True

/-! ## The steps -/

section Steps

variable {limits : RiskLimits} {day : ℤ} {f g : Flow}

/-- What holds in every run: the day, and that no exit opens a position. -/
structure Flow.OfDay (day : ℤ) (f : Flow) : Prop where
  dayEpoch : f.risk.dayEpoch = day
  orders : ∀ order ∈ f.approved, order.entry = false → order.sig.stopLossPrice.getD 0 = 0
  reports : ∀ report ∈ f.acks, report.entry = false → report.ack.stopLossPrice = 0

theorem Flow.OfDay.not_opens (h : f.OfDay day) {report : Report} (hmem : report ∈ f.acks)
    (hexit : report.entry = false) : ¬report.ack.Opens := by
  rintro ⟨-, -, hstop, -⟩
  rw [h.reports report hmem hexit] at hstop
  exact absurd hstop (lt_irrefl 0)

theorem Flow.sizesOf_concat (symbol : String) (entries : List (String × ℚ)) (entry : String × ℚ) :
    Flow.sizesOf symbol (entries ++ [entry]) =
      Flow.sizesOf symbol entries ++ if entry.1 = symbol then [entry.2] else [] := by
  rw [Flow.sizesOf, Flow.sizesOf, List.filter_append, List.map_append]
  split_ifs with h
  · rw [List.filter_cons_of_pos (by simpa using h)]
    rfl
  · rw [List.filter_cons_of_neg (by simpa using h)]
    rfl

theorem Flow.sizesOf_cons (symbol : String) (entry : String × ℚ) (entries : List (String × ℚ)) :
    Flow.sizesOf symbol (entry :: entries) =
      (if entry.1 = symbol then [entry.2] else []) ++ Flow.sizesOf symbol entries := by
  rw [Flow.sizesOf, Flow.sizesOf]
  split_ifs with h
  · rw [List.filter_cons_of_pos (by simpa using h)]
    rfl
  · rw [List.filter_cons_of_neg (by simpa using h)]
    rfl

theorem Flow.sizesOf_eq_nil_iff {symbol : String} {entries : List (String × ℚ)} :
    Flow.sizesOf symbol entries = [] ↔ ∀ entry ∈ entries, entry.1 ≠ symbol := by
  rw [Flow.sizesOf, List.map_eq_nil_iff, List.filter_eq_nil_iff]
  simp

/-- The counters see the entries, the book and themselves. -/
theorem Flow.Counted.congr (h : f.Counted limits) (hentries : g.entries = f.entries)
    (hpositions : g.risk.positions = f.risk.positions)
    (hopen : g.risk.openOrders = f.risk.openOrders)
    (htrades : g.risk.dailyTrades = g.fills) : g.Counted limits := by
  have hsize : ∀ symbol, g.openSize symbol = f.openSize symbol := by
    intro symbol
    rw [Flow.openSize, hpositions]
    rfl
  refine ⟨?_, ?_, fun symbol => ?_, fun symbol => ?_, htrades⟩
  · rw [hopen, hentries]
    exact h.openOrders
  · rw [hentries]
    exact h.within
  · rw [hentries, hsize]
    exact h.alone symbol
  · rw [hentries, hsize]
    exact h.notional symbol

/-- The counters after a step that touches what is in flight or open of one symbol. -/
theorem Flow.Counted.update (h : f.Counted limits) {symbol : String} {own : List ℚ}
    (hopen : g.risk.openOrders = g.entries.length)
    (hwithin : (g.entries.length : ℤ) ≤ max 0 limits.maxOpenOrders)
    (htrades : g.risk.dailyTrades = g.fills)
    (hother : ∀ sym, sym ≠ symbol → Flow.sizesOf sym g.entries ++ g.openSize sym =
      Flow.sizesOf sym f.entries ++ f.openSize sym)
    (hown : Flow.sizesOf symbol g.entries ++ g.openSize symbol = own)
    (halone : own.length ≤ 1) (hnotional : own.sum ≤ max 0 limits.maxPositionUsdt) :
    g.Counted limits := by
  refine ⟨hopen, hwithin, fun sym => ?_, fun sym => ?_, htrades⟩
  · by_cases hsym : sym = symbol
    · rw [hsym, hown]
      exact halone
    · rw [hother sym hsym]
      exact h.alone sym
  · by_cases hsym : sym = symbol
    · rw [hsym, hown]
      exact hnotional
    · rw [hother sym hsym]
      exact h.notional sym

/-- A report is about the symbol and the size of its order. -/
theorem Order.asEntry_report (order : Order) (fill : Option Fill) :
    (order.report fill).asEntry = order.asEntry := rfl

/-- An order stays in flight as its report. -/
theorem Flow.entries_execute (f : Flow) (outcome : Outcome) :
    (f.execute outcome).entries = f.entries := by
  rw [Flow.execute]
  split
  · rfl
  · rename_i order rest happroved
    show (f.acks ++ [order.report _]).filterMap Report.asEntry ++ rest.filterMap Order.asEntry = _
    rw [Flow.entries, happroved, List.filterMap_append, List.append_assoc]
    congr 1
    cases hentry : order.asEntry with
    | none =>
      rw [List.filterMap_cons_none (order.asEntry_report _ ▸ hentry),
        List.filterMap_cons_none hentry]
      rfl
    | some entry =>
      rw [List.filterMap_cons_some (order.asEntry_report _ ▸ hentry),
        List.filterMap_cons_some hentry]
      rfl

theorem Flow.Counted.execute (h : f.Counted limits) (outcome : Outcome) :
    (f.execute outcome).Counted limits := by
  have hkeeps : (f.execute outcome).risk = f.risk ∧ (f.execute outcome).fills = f.fills := by
    rw [Flow.execute]
    split <;> exact ⟨rfl, rfl⟩
  obtain ⟨hrisk, hfills⟩ := hkeeps
  apply h.congr (f.entries_execute outcome)
  · rw [hrisk]
  · rw [hrisk]
  · rw [hrisk, hfills]
    exact h.dailyTrades

/-- A tick may close a position, which is no entry. -/
theorem Flow.Counted.onTick (h : f.Counted limits) (symbol : String) (price now : ℚ) :
    (f.onTick limits symbol price now).Counted limits := by
  rw [Flow.onTick]
  rcases onTick_cases limits f.risk now symbol price with heq | ⟨pos, pnl, hpos, heq⟩
  · rw [heq]
    exact h
  · have hentries : (f.acks.filterMap Report.asEntry ++
        (f.approved ++ [(⟨false, pos.exitSignal symbol⟩ : Order)]).filterMap Order.asEntry) =
        f.entries := by
      rw [List.filterMap_append]
      exact congrArg _ (List.append_nil _)
    obtain ⟨hopen, htrades, -⟩ := counters_onPositionClosed limits f.risk now symbol pnl
    have hpositions := positions_onPositionClosed limits f.risk now symbol pnl
    rw [heq]
    dsimp only
    set g : Flow := { f with
      risk := f.risk.onPositionClosed limits now symbol pnl
      approved := f.approved ++ [⟨false, pos.exitSignal symbol⟩] }
    have hg : g.entries = f.entries := hentries
    have hown : Flow.sizesOf symbol g.entries ++ g.openSize symbol = [] := by
      have halone := h.alone symbol
      rw [Flow.openSize, hpos, List.length_append] at halone
      have hnil : Flow.sizesOf symbol f.entries = [] := by
        apply List.eq_nil_of_length_eq_zero
        exact Nat.eq_zero_of_le_zero (Nat.le_of_succ_le_succ halone)
      rw [hg, hnil, Flow.openSize, hpositions, Function.update_self]
      rfl
    refine h.update ?_ ?_ ?_ ?_ hown (Nat.zero_le 1) (le_max_left _ _)
    · rw [hg, ← h.openOrders]
      exact hopen
    · rw [hg]
      exact h.within
    · rw [← h.dailyTrades]
      exact htrades
    · intro sym hsym
      rw [hg, Flow.openSize, Flow.openSize, hpositions, Function.update_of_ne hsym]

/-- Within the day there is nothing to reset before the gates. -/
theorem Flow.OfDay.check (h : f.OfDay day) (limits : RiskLimits) (now : ℚ) (sig : Signal) :
    f.risk.check limits ⟨now, day⟩ sig = (f.risk.gate limits now sig, f.risk) := by
  have hself : f.risk.resetDayIfNeeded day = f.risk := by
    rw [← h.dayEpoch]
    exact resetDayIfNeeded_self f.risk
  rw [RiskState.check, hself]

/-- A signal that is rejected leaves the counters. -/
theorem Flow.onSignal_rejected (hday : f.OfDay day) {now : ℚ} {sig : Signal} {reason : RejectReason}
    (h : (f.risk.check limits ⟨now, day⟩ sig).1 = some reason) :
    (f.onSignal limits ⟨now, day⟩ sig).2 = f := by
  rw [hday.check] at h
  rw [Flow.onSignal, hday.check]
  dsimp only at h ⊢
  rw [h]

/-- A signal that is approved is one more entry. -/
theorem Flow.onSignal_approved (hday : f.OfDay day) {now : ℚ} {sig : Signal}
    (h : (f.risk.check limits ⟨now, day⟩ sig).1 = none) :
    (f.onSignal limits ⟨now, day⟩ sig).2 =
        { f with risk := f.risk.onApproved, approved := f.approved ++ [⟨true, sig⟩] } ∧
      f.risk.gate limits now sig = none := by
  rw [hday.check] at h
  rw [Flow.onSignal, hday.check]
  dsimp only at h ⊢
  rw [h]
  exact ⟨rfl, rfl⟩

/-- **An approved signal** is counted right when its symbol has no entry in flight and its size is
within the limit. -/
theorem Flow.Counted.approve_iff (h : f.Counted limits) (hday : f.OfDay day) {now : ℚ}
    {sig : Signal} (hcheck : (f.risk.check limits ⟨now, day⟩ sig).1 = none) :
    (f.onSignal limits ⟨now, day⟩ sig).2.Counted limits ↔
      (∀ entry ∈ f.entries, entry.1 ≠ sig.symbol.getD "") ∧
        (sig.qtyUsdt = none → 50 ≤ max 0 limits.maxPositionUsdt) := by
  obtain ⟨hstate, hgate⟩ := Flow.onSignal_approved hday hcheck
  obtain ⟨hlimit, hpositions, hsize⟩ := gate_eq_none hgate
  rw [hstate]
  set g : Flow := { f with risk := f.risk.onApproved, approved := f.approved ++ [⟨true, sig⟩] }
  have hentries : g.entries = f.entries ++ [(sig.symbol.getD "", sig.qtyUsdt.getD 50)] := by
    show f.acks.filterMap Report.asEntry ++ (f.approved ++ [_]).filterMap Order.asEntry = _
    rw [List.filterMap_append, ← List.append_assoc]
    rfl
  have hopenSize : f.openSize (sig.symbol.getD "") = [] := by
    rw [Flow.openSize, hpositions]
    rfl
  have hother : ∀ sym, sym ≠ sig.symbol.getD "" →
      Flow.sizesOf sym g.entries ++ g.openSize sym =
        Flow.sizesOf sym f.entries ++ f.openSize sym := by
    intro sym hsym
    rw [hentries, Flow.sizesOf_concat, if_neg (Ne.symm hsym), List.append_nil]
    rfl
  have hown : Flow.sizesOf (sig.symbol.getD "") g.entries ++ g.openSize (sig.symbol.getD "") =
      Flow.sizesOf (sig.symbol.getD "") f.entries ++ [sig.qtyUsdt.getD 50] := by
    rw [hentries, Flow.sizesOf_concat, if_pos rfl, List.append_assoc]
    exact congrArg _ (congrArg _ hopenSize)
  constructor
  · intro hg
    have halone := hg.alone (sig.symbol.getD "")
    have hnotional := hg.notional (sig.symbol.getD "")
    rw [hown, List.length_append, List.length_singleton] at halone
    -- the approved entry is alone in its symbol, so nothing was there before it
    have hnil : Flow.sizesOf (sig.symbol.getD "") f.entries = [] :=
      List.eq_nil_of_length_eq_zero (Nat.eq_zero_of_le_zero (Nat.le_of_succ_le_succ halone))
    refine ⟨Flow.sizesOf_eq_nil_iff.mp hnil, fun hnone => ?_⟩
    rw [hown, hnil, hnone] at hnotional
    simpa using hnotional
  · rintro ⟨hfree, hdefault⟩
    have hnil := Flow.sizesOf_eq_nil_iff.mpr hfree
    rw [hnil] at hown
    refine h.update (g := g) ?_ ?_ h.dailyTrades hother hown (Nat.le_refl 1) ?_
    · rw [hentries, List.length_append, List.length_singleton, ← h.openOrders]
      rfl
    · rw [hentries, List.length_append, List.length_singleton, ← h.openOrders]
      refine le_max_of_le_right ?_
      push_cast
      exact hlimit
    · rw [List.nil_append, List.sum_singleton]
      -- the gate compares the size of the signal, not the default it is replaced by
      cases hqty : sig.qtyUsdt with
      | none => exact hdefault hqty
      | some qty =>
        rw [hqty] at hsize
        exact le_max_of_le_right hsize

/-- What the oldest acknowledgement does to the risk guard and to the count of fills. -/
theorem Flow.onOrderAck_cons {report : Report} {rest : List Report}
    (hacks : f.acks = report :: rest) (today : ℤ) :
    (f.onOrderAck today).risk = f.risk.onFill today report.ack ∧
      (f.onOrderAck today).fills = (f.fills + if report.ack.ok then 1 else 0) ∧
      (f.onOrderAck today).entries =
        rest.filterMap Report.asEntry ++ f.approved.filterMap Order.asEntry := by
  rw [Flow.onOrderAck, hacks]
  exact ⟨rfl, rfl, rfl⟩

/-- On its day an acknowledgement is one more trade, and one more fill if it is one. -/
theorem Flow.Counted.dailyTrades_iff (h : f.Counted limits) (hday : f.OfDay day) {report : Report}
    {rest : List Report} (hacks : f.acks = report :: rest) :
    (f.onOrderAck day).risk.dailyTrades = (f.onOrderAck day).fills ↔ report.ack.ok = true := by
  obtain ⟨hrisk, hfills, -⟩ := Flow.onOrderAck_cons hacks day
  rw [hrisk, hfills, dailyTrades_onFill, ← hday.dayEpoch, resetDayIfNeeded_self, h.dailyTrades]
  by_cases hok : report.ack.ok = true
  · rw [if_pos hok]
    exact ⟨fun _ => hok, fun _ => rfl⟩
  · rw [if_neg hok]
    exact ⟨fun heq => absurd heq (Nat.succ_ne_self f.fills), fun h => absurd h hok⟩

/-- **The acknowledgement of an entry** is counted right when it is the one of a fill. -/
theorem Flow.Counted.ack_entry_iff (h : f.Counted limits) (hday : f.OfDay day) {report : Report}
    {rest : List Report} (hacks : f.acks = report :: rest) (hentry : report.entry = true) :
    (f.onOrderAck day).Counted limits ↔ report.ack.ok = true := by
  obtain ⟨hrisk, -, hnext⟩ := Flow.onOrderAck_cons hacks day
  have hentries : f.entries = (report.ack.symbol, report.ack.qtyUsdt) ::
      (f.onOrderAck day).entries := by
    rw [Flow.entries, hnext, hacks,
      List.filterMap_cons_some (b := (report.ack.symbol, report.ack.qtyUsdt))]
    · rfl
    · exact if_pos hentry
  have hpositions := positions_onFill f.risk day report.ack
  -- the entry was alone, so its symbol had no position and no other entry
  have halone := h.alone report.ack.symbol
  have hsize := h.notional report.ack.symbol
  rw [hentries, Flow.sizesOf_cons, if_pos rfl] at halone hsize
  rw [List.append_assoc, List.singleton_append, List.length_cons] at halone
  have hnil := List.eq_nil_of_length_eq_zero
    (Nat.eq_zero_of_le_zero (Nat.le_of_succ_le_succ halone))
  rw [List.append_assoc, hnil, List.append_nil, List.sum_singleton] at hsize
  obtain ⟨hsizes, hclosed⟩ := List.append_eq_nil_iff.mp hnil
  have hown : Flow.sizesOf report.ack.symbol (f.onOrderAck day).entries ++
      (f.onOrderAck day).openSize report.ack.symbol =
        if report.ack.Opens then [report.ack.qtyUsdt] else [] := by
    rw [hsizes, Flow.openSize, hrisk, hpositions]
    split_ifs
    · rw [Function.update_self]
      rfl
    · exact hclosed
  have hother : ∀ sym, sym ≠ report.ack.symbol →
      Flow.sizesOf sym (f.onOrderAck day).entries ++ (f.onOrderAck day).openSize sym =
        Flow.sizesOf sym f.entries ++ f.openSize sym := by
    intro sym hsym
    rw [hentries, Flow.sizesOf_cons, if_neg (Ne.symm hsym), List.nil_append, Flow.openSize,
      Flow.openSize, hrisk, hpositions]
    split_ifs
    · rw [Function.update_of_ne hsym]
    · rfl
  have hlength : f.entries.length = (f.onOrderAck day).entries.length + 1 := by
    rw [hentries, List.length_cons]
  constructor
  · intro hg
    exact (h.dailyTrades_iff hday hacks).mp hg.dailyTrades
  · intro hok
    refine h.update ?_ ?_ ((h.dailyTrades_iff hday hacks).mpr hok) hother hown ?_ ?_
    · rw [hrisk, openOrders_onFill, h.openOrders, hlength, Nat.add_sub_cancel]
    · have hwithin := h.within
      rw [hlength] at hwithin
      push_cast at hwithin
      omega
    · split_ifs
      · exact Nat.le_refl 1
      · exact Nat.zero_le 1
    · split_ifs
      · rw [List.sum_singleton]
        exact hsize
      · exact le_max_left _ _

/-- **The acknowledgement of an exit** is counted right when it is the one of a fill and no entry is
in flight. -/
theorem Flow.Counted.ack_exit_iff (h : f.Counted limits) (hday : f.OfDay day) {report : Report}
    {rest : List Report} (hacks : f.acks = report :: rest) (hexit : report.entry = false) :
    (f.onOrderAck day).Counted limits ↔ report.ack.ok = true ∧ f.entries = [] := by
  obtain ⟨hrisk, -, hnext⟩ := Flow.onOrderAck_cons hacks day
  have hentries : (f.onOrderAck day).entries = f.entries := by
    rw [hnext, Flow.entries, hacks, List.filterMap_cons_none]
    exact if_neg fun hentry => absurd (hentry.symm.trans hexit) Bool.noConfusion
  have hpositions : (f.onOrderAck day).risk.positions = f.risk.positions := by
    rw [hrisk, positions_onFill, if_neg]
    exact hday.not_opens (by rw [hacks]; exact List.mem_cons_self) hexit
  have hopen : (f.onOrderAck day).risk.openOrders = f.entries.length - 1 := by
    rw [hrisk, openOrders_onFill, h.openOrders]
  constructor
  · intro hg
    refine ⟨(h.dailyTrades_iff hday hacks).mp hg.dailyTrades, ?_⟩
    have hcount := hg.openOrders
    rw [hopen, hentries] at hcount
    apply List.eq_nil_of_length_eq_zero
    omega
  · rintro ⟨hok, hnil⟩
    apply h.congr hentries hpositions
    · rw [hopen, h.openOrders, hnil]
      rfl
    · exact (h.dailyTrades_iff hday hacks).mpr hok

end Steps

/-! ## Runs within a day -/

/-- The day and the exits are kept by every step. -/
theorem Flow.OfDay.dayStep {limits : RiskLimits} {day : ℤ} {f : Flow} (h : f.OfDay day)
    (event : Event) : (Flow.dayStep limits day f event).2.OfDay day := by
  cases event with
  | signal sig clock =>
    show (f.onSignal limits ⟨clock.now, day⟩ sig).2.OfDay day
    cases hcheck : (f.risk.check limits ⟨clock.now, day⟩ sig).1 with
    | none =>
      rw [(Flow.onSignal_approved h hcheck).1]
      refine ⟨h.dayEpoch, List.forall_mem_append.mpr ⟨h.orders, ?_⟩, h.reports⟩
      exact List.forall_mem_singleton.mpr fun hexit => absurd hexit Bool.noConfusion
    | some reason =>
      rw [Flow.onSignal_rejected h hcheck]
      exact h
  | tick symbol price now =>
    show (f.onTick limits symbol price now).OfDay day
    rw [Flow.onTick]
    rcases onTick_cases limits f.risk now symbol price with heq | ⟨pos, pnl, -, heq⟩
    · rw [heq]
      exact h
    · rw [heq]
      obtain ⟨-, -, hepoch⟩ := counters_onPositionClosed limits f.risk now symbol pnl
      refine ⟨hepoch.trans h.dayEpoch, List.forall_mem_append.mpr ⟨h.orders, ?_⟩, h.reports⟩
      exact List.forall_mem_singleton.mpr fun _ => rfl
  | execute outcome =>
    show (f.execute outcome).OfDay day
    rw [Flow.execute]
    cases happroved : f.approved with
    | nil => exact h
    | cons order rest =>
      have horders := h.orders
      rw [happroved, List.forall_mem_cons] at horders
      refine ⟨h.dayEpoch, horders.2, List.forall_mem_append.mpr ⟨h.reports, ?_⟩⟩
      exact List.forall_mem_singleton.mpr horders.1
  | ack today =>
    show (f.onOrderAck day).OfDay day
    rw [Flow.onOrderAck]
    cases hacks : f.acks with
    | nil => exact h
    | cons report rest =>
      have hreports := h.reports
      rw [hacks, List.forall_mem_cons] at hreports
      refine ⟨?_, h.orders, hreports.2⟩
      have hepoch := dayEpoch_onFill f.risk report.ack
      rw [h.dayEpoch] at hepoch
      exact hepoch

/-- **One step** keeps the counters exactly when they count it right. -/
theorem Flow.Counted.dayStep_iff {limits : RiskLimits} {day : ℤ} {f : Flow} (hday : f.OfDay day)
    (h : f.Counted limits) (event : Event) :
    (Flow.dayStep limits day f event).2.Counted limits ↔
      (Flow.onDay day event).CountsRight limits f := by
  cases event with
  | signal sig clock =>
    show (f.onSignal limits ⟨clock.now, day⟩ sig).2.Counted limits ↔
      ((f.risk.check limits ⟨clock.now, day⟩ sig).1 = none → _)
    cases hcheck : (f.risk.check limits ⟨clock.now, day⟩ sig).1 with
    | none =>
      rw [h.approve_iff hday hcheck]
      exact ⟨fun hboth _ => hboth, fun himp => himp rfl⟩
    | some reason =>
      rw [Flow.onSignal_rejected hday hcheck]
      exact ⟨fun _ hnone => absurd hnone (Option.some_ne_none reason), fun _ => h⟩
  | tick symbol price now => exact ⟨fun _ => trivial, fun _ => h.onTick symbol price now⟩
  | execute outcome => exact ⟨fun _ => trivial, fun _ => h.execute outcome⟩
  | ack today =>
    show (f.onOrderAck day).Counted limits ↔ ∀ report rest, f.acks = report :: rest → _
    cases hacks : f.acks with
    | nil =>
      have hsame : f.onOrderAck day = f := by
        rw [Flow.onOrderAck, hacks]
      rw [hsame]
      exact ⟨fun _ report rest hcons => absurd hcons.symm (List.cons_ne_nil _ _), fun _ => h⟩
    | cons report rest =>
      have hiff : (f.onOrderAck day).Counted limits ↔
          report.ack.ok = true ∧ (report.entry = false → f.entries = []) := by
        cases hentry : report.entry with
        | true =>
          rw [h.ack_entry_iff hday hacks hentry]
          exact ⟨fun hok => ⟨hok, fun hexit => absurd hexit Bool.noConfusion⟩, fun hboth => hboth.1⟩
        | false =>
          rw [h.ack_exit_iff hday hacks hentry]
          exact ⟨fun hboth => ⟨hboth.1, fun _ => hboth.2⟩, fun hboth => ⟨hboth.1, hboth.2 rfl⟩⟩
      rw [hiff]
      constructor
      · intro hboth report' rest' hcons
        cases hcons
        exact hboth
      · intro hall
        exact hall report rest rfl

/-- **The limits count what they name all through a day, exactly when** each step of it is counted
right. -/
theorem limits_count_iff (limits : RiskLimits) (day : ℤ) (events : List Event) :
    (∀ pre post, events = pre ++ post → (Flow.dayRun limits day pre).Counted limits) ↔
      ∀ pre event post, events = pre ++ event :: post →
        (Flow.onDay day event).CountsRight limits (Flow.dayRun limits day pre) := by
  apply runState_forall_iff (Flow.dayStep limits day) (Flow.OfDay day) (Flow.Counted limits)
    (fun f event => (Flow.onDay day event).CountsRight limits f)
  · intro f event h
    exact h.dayStep event
  · intro f event hday h
    exact h.dayStep_iff hday event
  · refine ⟨rfl, fun order hmem => ?_, fun report hmem => ?_⟩
    · cases hmem
    · cases hmem
  · refine ⟨rfl, le_max_left _ _, fun symbol => Nat.zero_le 1, fun symbol => ?_, rfl⟩
    exact le_max_left _ _

/-- The acknowledgement of an exit takes the place of an entry that is still in flight. -/
theorem exit_counted_as_entry : ¬ ∀ events : List Event, ∀ pre post, events = pre ++ post →
    (Flow.dayRun .standard 0 pre).Counted .standard := by
  intro h
  have hcounted := h (openedAtHundred ++ [.tick "BTCUSDT" 80 1,
    .signal { buySignal with symbol := some "ETHUSDT" } ⟨2, 0⟩, .execute (.filled 2 80), .ack 0])
    _ [] (List.append_nil _).symm
  exact absurd hcounted.openOrders (by decide +kernel)

end Hedge.Binance
