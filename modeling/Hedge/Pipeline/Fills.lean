import Hedge.Exec.Service
import Hedge.Positions.Service

/-!
# From approvals to the position book

Reference: `hedge-exec/src/main.rs`, `hedge-position/src/bin/main.rs`.

The execution service publishes an `exec.fill.<sym>` event for every order a broker fills, and the
position service folds these events into its book. `executionOf` says what a broker did with an
order, from the broker's replies alone; `BookFollows` compares the book with that. The fill event
names neither the side nor the average price, so the book is that of a tape of buys at price zero.
-/

namespace Hedge.Pipeline

open Hedge Hedge.Common Hedge.Bus Hedge.Exec Hedge.Positions

/-- An approval, with what the brokers and the clock answer while it is handled. -/
structure Approval where
  payload : Json
  env : RouteEnv

/-- What the execution service does with an approval in live mode. -/
def Approval.route (maxNotionalInr : Int64) (a : Approval) : Routed :=
  handleApproval a.env a.payload true maxNotionalInr

/-- The orders sent to a broker while the approvals are handled. -/
def submissions (maxNotionalInr : Int64) (approvals : List Approval) : List Submission :=
  approvals.flatMap fun a => (a.route maxNotionalInr).submissions

/-- The payloads of the `exec.fill.>` messages published while the approvals are handled. -/
def fillPayloads (maxNotionalInr : Int64) (approvals : List Approval) : List Json :=
  approvals.flatMap fun a => (a.route maxNotionalInr).fillPayloads

/-- What the broker executed of an order: the order's own side and quantity at the average price of
the `Filled` reply. -/
def executionOf (sub : Submission) : Option (SymbolId × Fill) :=
  match sub.script.reply, settledStatus sub.script.statuses.toList with
  | .ok _, some st =>
    if st.state = .filled then
      some (⟨sub.intent.symbolRaw⟩, ⟨sub.intent.side, sub.intent.quantity, st.avgFillPaise⟩)
    else none
  | _, _ => none

/-- An order a broker accepts is acknowledged, and is reported as filled in full at a positive price
within the poll window. -/
def FilledInFull (sub : Submission) : Prop :=
  sub.script.accepted = true → (∃ ack, sub.script.reply = .ok ack) ∧
    ∃ st, settledStatus sub.script.statuses.toList = some st ∧ st.state = .filled ∧
      st.filledQty = sub.intent.quantity ∧ 0 < st.avgFillPaise

/-- Everything the brokers executed. -/
def executions (maxNotionalInr : Int64) (approvals : List Approval) : List (SymbolId × Fill) :=
  (submissions maxNotionalInr approvals).filterMap executionOf

/-- The part of a list of executions that concerns one symbol. -/
def ofSymbol (s : SymbolId) (executed : List (SymbolId × Fill)) : List Fill :=
  (executed.filter (·.1 = s)).map (·.2)

/-- For each symbol the book holds what was bought minus what was sold, with the realised PnL of
applying each execution's own side, quantity and price. -/
def BookFollows (engine : PositionEngine) (executed : List (SymbolId × Fill)) : Prop :=
  ∀ s, (engine.ledgerOf s).quantity.toInt
      = (bought (ofSymbol s executed) : ℤ) - sold (ofSymbol s executed) ∧
    (engine.ledgerOf s).realizedPnlPaise
      = ((ofSymbol s executed).foldl Position.applyFill (.flat s)).realizedPnlPaise

/-- An approval of a `RELIANCE` order that the primary broker fills in full at the first poll. -/
def filledApproval (side : String) (qty : UInt64) (avgFillPaise : Int64) : Approval where
  payload := .obj
    [("kind", .str "risk.decision.approved"),
      ("data", .obj
        [("correlation_id", .str "00000000000000a1"),
          ("symbol", .str "RELIANCE"),
          ("side", .str side),
          ("sized_quantity", .ofU64 qty)])]
  env :=
    { primary :=
        { reply := .ok ⟨"U-1", none⟩
          accepted := true
          ack_accepted := fun _ _ => rfl
          statuses := Vector.replicate 10 (.ok ⟨"U-1", .filled, qty, avgFillPaise, none⟩) }
      backup :=
        { reply := .error (.notReady "session expired")
          accepted := false
          ack_accepted := fun _ h => by cases h
          statuses := Vector.replicate 10 (.error (.unknownOrderId "U-1")) }
      clock := fun n => Int64.ofNat n }

/-- Every published fill, delivered once and in order. -/
def deliverAll (maxNotionalInr : Int64) (approvals : List Approval) : List Delivery :=
  (fillPayloads maxNotionalInr approvals).map (.fill · 0)

/-! ## The fill event -/

/-- A fill as the position service reads it back from the fill event. -/
def asRead (fill : Fill) : Fill := ⟨.buy, fill.quantity, 0⟩

/-- The reader takes the symbol and the quantity from a fill event, and its defaults for the side
and the price. -/
theorem readFill_fillEvent {symbol : String} (hsymbol : symbolIdFor symbol ≠ 0) {qty : UInt64}
    (hqty : qty ≠ 0) (correlationId brokerOrderId : String) (paper : Bool) (tsNs : Int64) :
    readFill (fillEvent correlationId brokerOrderId symbol qty paper tsNs)
      = some (⟨symbolIdFor symbol⟩, ⟨.buy, qty, 0⟩) := by
  simp [readFill, fillEvent, hsymbol, hqty]

/-! ## One approval -/

/-- An approval is dropped, or routed with a quantity that is not zero. -/
theorem Approval.route_cases (maxNotionalInr : Int64) (a : Approval) :
    a.route maxNotionalInr = ⟨[], []⟩ ∨
      ∃ correlationId symbol side qty pricePaise, qty ≠ 0 ∧ a.route maxNotionalInr
        = routeLive a.env correlationId symbol side qty pricePaise maxNotionalInr := by
  simp only [route, handleApproval, if_true]
  split_ifs with hcid hqty
  · exact .inl rfl
  · exact .inl rfl
  · exact .inr ⟨_, _, _, _, _, hqty, rfl⟩

theorem executionOf_of_error {sub : Submission} {e : BrokerApi.BrokerError}
    (h : sub.script.reply = .error e) : executionOf sub = none := by
  simp only [executionOf, h]

/-- An acknowledged order that is filled in full was executed, and the polling publishes one fill
event, from which the position service reads the execution without its side and price. -/
theorem read_pollFill {broker : BrokerId} {script : BrokerScript} {ack : BrokerApi.SubmitAck}
    {correlationId symbol : String} {side : Side} {qty : UInt64}
    (hack : script.reply = .ok ack) (hsymbol : symbolIdFor symbol ≠ 0) (hqty : qty ≠ 0)
    (hfull : FilledInFull ⟨broker, liveIntent correlationId symbol side qty, script⟩)
    (tsNs : Int64) :
    ∃ px, executionOf ⟨broker, liveIntent correlationId symbol side qty, script⟩
        = some (⟨symbolIdFor symbol⟩, ⟨side, qty, px⟩) ∧
      ((pollFill correlationId symbol ack.brokerOrderId tsNs script.statuses.toList).filterMap
        Message.fillPayload).filterMap readFill = [(⟨symbolIdFor symbol⟩, ⟨.buy, qty, 0⟩)] := by
  obtain ⟨-, st, hst, hfilled, hquantity, -⟩ := hfull (script.ack_accepted ack hack)
  have hquantity : st.filledQty = qty := hquantity
  refine ⟨st.avgFillPaise, ?_, ?_⟩
  · simp only [executionOf, hack, hst, hfilled, if_true, liveIntent]
  · rw [pollFill_of_filled _ _ _ _ hst hfilled, hquantity]
    simp [Message.fillPayload, readFill_fillEvent hsymbol hqty]

/-- The fills read from the messages of an approval are its executions without side and price. -/
theorem Approval.read_fillPayloads {maxNotionalInr : Int64} {a : Approval}
    (hfull : ∀ sub ∈ (a.route maxNotionalInr).submissions, FilledInFull sub) :
    (a.route maxNotionalInr).fillPayloads.filterMap readFill
      = ((a.route maxNotionalInr).submissions.filterMap executionOf).map
          fun e => (e.1, asRead e.2) := by
  rcases a.route_cases maxNotionalInr with hnone | ⟨cid, symbol, side, qty, px, hqty, hroute⟩
  · rw [hnone]
    rfl
  rw [hroute] at hfull ⊢
  rcases routeLive_cases a.env cid symbol side qty px maxNotionalInr with
    ⟨hsubs, hfills⟩ | ⟨hsymbol, ⟨ack, hack, hsubs, hfills⟩ | ⟨e, he, -, hsubs, hfills⟩ |
      ⟨e, ack, he, -, hack, hsubs, hfills⟩ | ⟨e, e2, he, -, he2, hsubs, hfills⟩⟩
  · rw [hsubs, hfills]
    rfl
  · rw [hsubs] at hfull
    obtain ⟨px, hexec, hread⟩ := read_pollFill hack hsymbol hqty
      (hfull _ List.mem_cons_self) (a.env.clock 1)
    rw [hsubs, hfills, hread]
    simp [hexec, asRead]
  · rw [hsubs, hfills]
    simp [executionOf_of_error, he]
  · rw [hsubs] at hfull
    obtain ⟨px, hexec, hread⟩ := read_pollFill hack hsymbol hqty
      (hfull _ (List.mem_cons_of_mem _ List.mem_cons_self)) (a.env.clock 2)
    rw [hsubs, hfills, hread]
    simp [executionOf_of_error, he, hexec, asRead]
  · rw [hsubs, hfills]
    simp [executionOf_of_error, he, he2]

/-- An execution has a quantity. -/
theorem Approval.quantity_ne_zero {maxNotionalInr : Int64} {a : Approval} {e : SymbolId × Fill}
    (he : e ∈ (a.route maxNotionalInr).submissions.filterMap executionOf) :
    e.2.quantity ≠ 0 := by
  obtain ⟨sub, hsub, hexec⟩ := List.mem_filterMap.mp he
  have hintent : sub.intent.quantity ≠ 0 := by
    rcases a.route_cases maxNotionalInr with hnone | ⟨cid, symbol, side, qty, px, hqty, hroute⟩
    · rw [hnone] at hsub
      cases hsub
    rw [hroute] at hsub
    rcases routeLive_cases a.env cid symbol side qty px maxNotionalInr with
      ⟨hsubs, -⟩ | ⟨-, ⟨_, -, hsubs, -⟩ | ⟨_, -, -, hsubs, -⟩ | ⟨_, _, -, -, -, hsubs, -⟩ |
        ⟨_, _, -, -, -, hsubs, -⟩⟩
    all_goals
      rw [hsubs] at hsub
      simp only [List.mem_cons, List.not_mem_nil, or_false] at hsub
    · subst hsub
      exact hqty
    · subst hsub
      exact hqty
    · rcases hsub with rfl | rfl <;> exact hqty
    · rcases hsub with rfl | rfl <;> exact hqty
  unfold executionOf at hexec
  split at hexec
  · split_ifs at hexec
    cases hexec
    exact hintent
  · cases hexec

/-! ## The book after a run -/

/-- What is read back is all bought. -/
theorem bought_map_asRead (fills : List Fill) :
    bought (fills.map asRead) = bought fills + sold fills := by
  induction fills with
  | nil => rfl
  | cons fill fills ih =>
    obtain ⟨side, quantity, px⟩ := fill
    cases side <;> simp [bought, sold, asRead] at ih ⊢ <;> omega

theorem sold_map_asRead (fills : List Fill) : sold (fills.map asRead) = 0 := by
  simp [sold, List.filter_map, Function.comp_def, asRead]

/-- A tape with nothing but buys sells nothing, and one that sells nothing has nothing but buys. -/
theorem sold_eq_zero_iff {fills : List Fill} (hquantity : ∀ f ∈ fills, f.quantity ≠ 0) :
    sold fills = 0 ↔ ∀ f ∈ fills, f.side = .buy := by
  induction fills with
  | nil => simp
  | cons fill fills ih =>
    obtain ⟨side, quantity, px⟩ := fill
    have hrest := ih fun f hf => hquantity f (List.mem_cons_of_mem _ hf)
    have hhead : quantity ≠ 0 := hquantity _ List.mem_cons_self
    have hpos : quantity.toNat ≠ 0 := fun h => hhead (UInt64.toNat_inj.mp h)
    cases side <;> simp [sold] at hrest ⊢
    · exact hrest
    · intro h
      exact absurd h hpos

section Run

variable {maxNotionalInr baseCapitalPaise : Int64} {approvals : List Approval}
  {ds : List Delivery}

/-- The position service reads the executions of a symbol, in order, without side and price. -/
theorem fillsRead_fillPayloads
    (hfull : ∀ sub ∈ submissions maxNotionalInr approvals, FilledInFull sub) (s : SymbolId) :
    fillsRead s (fillPayloads maxNotionalInr approvals)
      = (ofSymbol s (executions maxNotionalInr approvals)).map asRead := by
  have hread : (fillPayloads maxNotionalInr approvals).filterMap readFill
      = (executions maxNotionalInr approvals).map fun e => (e.1, asRead e.2) := by
    induction approvals with
    | nil => rfl
    | cons a approvals ih =>
      have hhead : ∀ sub ∈ (a.route maxNotionalInr).submissions, FilledInFull sub :=
        fun sub hsub => hfull sub (List.mem_append_left _ hsub)
      have htail := ih fun sub hsub => hfull sub (List.mem_append_right _ hsub)
      simp only [fillPayloads, executions, submissions, List.flatMap_cons, List.filterMap_append,
        List.map_append] at htail ⊢
      rw [Approval.read_fillPayloads hhead, htail]
  rw [fillsRead, hread, ofSymbol, List.filter_map, List.map_map, List.map_map]
  rfl

/-- The book after a run is that of the executions without side and price. -/
theorem ledgerOf_run
    (hfull : ∀ sub ∈ submissions maxNotionalInr approvals, FilledInFull sub)
    (hdelivered : ds.filterMap Delivery.fillPayload = fillPayloads maxNotionalInr approvals)
    (s : SymbolId) :
    (runState serviceStep (.new baseCapitalPaise) ds).ledgerOf s
      = ((ofSymbol s (executions maxNotionalInr approvals)).map asRead).foldl Ledger.book
          .empty := by
  rw [ledgerOf_runState, hdelivered, fillsRead_fillPayloads hfull]
  rfl

/-- The booked quantity of a symbol is all that was executed in it. -/
theorem quantity_run
    (hfull : ∀ sub ∈ submissions maxNotionalInr approvals, FilledInFull sub)
    (hdelivered : ds.filterMap Delivery.fillPayload = fillPayloads maxNotionalInr approvals)
    (s : SymbolId) :
    ((runState serviceStep (.new baseCapitalPaise) ds).ledgerOf s).quantity.toInt
      = Int.bmod (bought (ofSymbol s (executions maxNotionalInr approvals))
          + sold (ofSymbol s (executions maxNotionalInr approvals))) (2 ^ 64) := by
  rw [ledgerOf_run hfull hdelivered, quantity_foldl_book, bought_map_asRead, sold_map_asRead]
  simp [Ledger.empty, Int64.toInt_ofInt]

/-- An execution of a run has a quantity. -/
theorem quantity_ne_zero_of_mem_ofSymbol {s : SymbolId} {f : Fill}
    (hf : f ∈ ofSymbol s (executions maxNotionalInr approvals)) : f.quantity ≠ 0 := by
  obtain ⟨e, he, rfl⟩ := List.mem_map.mp hf
  obtain ⟨sub, hsub, hexec⟩ := List.mem_filterMap.mp (List.mem_filter.mp he).1
  obtain ⟨a, -, hmem⟩ := List.mem_flatMap.mp hsub
  exact Approval.quantity_ne_zero (List.mem_filterMap.mpr ⟨sub, hmem, hexec⟩)

/-- Nothing of a symbol was sold exactly when every execution of it is a buy. -/
theorem sold_ofSymbol_eq_zero_iff (s : SymbolId) :
    sold (ofSymbol s (executions maxNotionalInr approvals)) = 0 ↔
      ∀ f ∈ ofSymbol s (executions maxNotionalInr approvals), f.side = .buy :=
  sold_eq_zero_iff fun _ hf => quantity_ne_zero_of_mem_ofSymbol hf

/-- Runs that only buy, and never more than the field holds, leave a book that follows them. -/
theorem bookFollows_of_buys
    (hfull : ∀ sub ∈ submissions maxNotionalInr approvals, FilledInFull sub)
    (hdelivered : ds.filterMap Delivery.fillPayload = fillPayloads maxNotionalInr approvals)
    (hbuys : ∀ e ∈ executions maxNotionalInr approvals, e.2.side = .buy)
    (hfit : ∀ s, bought (ofSymbol s (executions maxNotionalInr approvals)) < 2 ^ 63) :
    BookFollows (runState serviceStep (.new baseCapitalPaise) ds)
      (executions maxNotionalInr approvals) := by
  intro s
  have hown : ∀ f ∈ ofSymbol s (executions maxNotionalInr approvals), f.side = .buy := by
    intro f hf
    obtain ⟨e, he, rfl⟩ := List.mem_map.mp hf
    exact hbuys e (List.mem_filter.mp he).1
  have hzero := (sold_ofSymbol_eq_zero_iff s).mpr hown
  have hfits := hfit s
  refine ⟨?_, ?_⟩
  · rw [quantity_run hfull hdelivered, hzero]
    apply Int.bmod_eq_of_le <;> omega
  · -- Neither tape realises anything: both only buy.
    rw [ledgerOf_run hfull hdelivered, realized_foldl_book_of_buys (by simp [asRead]) (by decide)]
    · have hledger : ((ofSymbol s (executions maxNotionalInr approvals)).foldl
          Position.applyFill (.flat s)).ledger.realizedPnlPaise = 0 := by
        rw [Position.ledger_foldl_applyFill, Position.ledger_flat,
          realized_foldl_book_of_buys hown (by decide)]
        · rfl
        · simp only [Ledger.empty, Int64.toInt_zero]
          omega
      exact hledger.symm
    · rw [bought_map_asRead, hzero]
      simp only [Ledger.empty, Int64.toInt_zero]
      omega

/-- A book that follows a run which sells less than `2 ^ 63` of each symbol shows that the run sells
nothing. -/
theorem buys_of_bookFollows
    (hfull : ∀ sub ∈ submissions maxNotionalInr approvals, FilledInFull sub)
    (hdelivered : ds.filterMap Delivery.fillPayload = fillPayloads maxNotionalInr approvals)
    (hsold : ∀ s, sold (ofSymbol s (executions maxNotionalInr approvals)) < 2 ^ 63)
    (hfollows : BookFollows (runState serviceStep (.new baseCapitalPaise) ds)
      (executions maxNotionalInr approvals)) :
    (∀ e ∈ executions maxNotionalInr approvals, e.2.side = .buy) ∧
      ∀ s, bought (ofSymbol s (executions maxNotionalInr approvals)) < 2 ^ 63 := by
  -- The booked quantity is the sum of the two totals: it is their difference if nothing is sold.
  have htotals : ∀ s, sold (ofSymbol s (executions maxNotionalInr approvals)) = 0 ∧
      bought (ofSymbol s (executions maxNotionalInr approvals)) < 2 ^ 63 := by
    intro s
    have hquantity := (hfollows s).1
    have hlt := ((runState serviceStep (.new baseCapitalPaise) ds).ledgerOf s).quantity.toInt_lt
    have hfits := hsold s
    rw [quantity_run hfull hdelivered, Int.bmod_def] at hquantity
    rw [quantity_run hfull hdelivered, Int.bmod_def] at hlt
    split_ifs at hquantity hlt <;> omega
  refine ⟨fun e he => ?_, fun s => (htotals s).2⟩
  have hmem : e.2 ∈ ofSymbol e.1 (executions maxNotionalInr approvals) :=
    List.mem_map.mpr ⟨e, List.mem_filter.mpr ⟨he, by simp⟩, rfl⟩
  exact (sold_ofSymbol_eq_zero_iff e.1).mp (htotals e.1).1 e.2 hmem

/-- The book follows the executions of every run in which every executed order is a buy and the
quantity bought of each symbol fits the field. Runs that sell less than `2 ^ 63` of each symbol and
are not of this kind all leave a book that does not follow the executions. -/
theorem book_follows_executions_iff
    (hfull : ∀ sub ∈ submissions maxNotionalInr approvals, FilledInFull sub)
    (hdelivered : ds.filterMap Delivery.fillPayload = fillPayloads maxNotionalInr approvals) :
    let executed := executions maxNotionalInr approvals
    let engine := runState serviceStep (.new baseCapitalPaise) ds
    ((∀ e ∈ executed, e.2.side = .buy) ∧ (∀ s, bought (ofSymbol s executed) < 2 ^ 63) →
      BookFollows engine executed) ∧
    ((∀ s, sold (ofSymbol s executed) < 2 ^ 63) → BookFollows engine executed →
      (∀ e ∈ executed, e.2.side = .buy) ∧ ∀ s, bought (ofSymbol s executed) < 2 ^ 63) :=
  ⟨fun h => bookFollows_of_buys hfull hdelivered h.1 h.2,
    fun hsold hfollows => buys_of_bookFollows hfull hdelivered hsold hfollows⟩

end Run

/-- Two buys: the book holds both. -/
theorem book_follows_two_buys :
    BookFollows
      (runState serviceStep (.new 2000000)
        (deliverAll 50000 [filledApproval "buy" 10 10000, filledApproval "buy" 5 11000]))
      (executions 50000 [filledApproval "buy" 10 10000, filledApproval "buy" 5 11000]) := by
  refine (book_follows_executions_iff ?_ rfl).1 ⟨by decide +kernel, ?_⟩
  · refine List.forall_mem_cons.mpr ⟨?_, List.forall_mem_singleton.mpr ?_⟩
    · exact fun _ => ⟨⟨_, rfl⟩, _, rfl, rfl, rfl, by decide⟩
    · exact fun _ => ⟨⟨_, rfl⟩, _, rfl, rfl, rfl, by decide⟩
  · intro s
    have hexecuted : executions 50000 [filledApproval "buy" 10 10000, filledApproval "buy" 5 11000]
        = [(⟨1⟩, ⟨.buy, 10, 10000⟩), (⟨1⟩, ⟨.buy, 5, 11000⟩)] := rfl
    rw [hexecuted]
    by_cases hs : (⟨1⟩ : SymbolId) = s
    · subst hs
      decide
    · simp [ofSymbol, hs]

/-- Ten bought at 100 rupees and sold at 110: the book holds twenty and has realised nothing. -/
theorem book_misses_sale :
    let approvals := [filledApproval "buy" 10 10000, filledApproval "sell" 10 11000]
    let engine := runState serviceStep (.new 2000000) (deliverAll 50000 approvals)
    (∀ sub ∈ submissions 50000 approvals, FilledInFull sub) ∧
      (deliverAll 50000 approvals).filterMap Delivery.fillPayload = fillPayloads 50000 approvals ∧
      (engine.ledgerOf ⟨1⟩).quantity = 20 ∧
      ¬BookFollows engine (executions 50000 approvals) := by
  refine ⟨?_, rfl, by decide +kernel, ?_⟩
  · refine List.forall_mem_cons.mpr ⟨?_, List.forall_mem_singleton.mpr ?_⟩
    · exact fun _ => ⟨⟨_, rfl⟩, _, rfl, rfl, rfl, by decide⟩
    · exact fun _ => ⟨⟨_, rfl⟩, _, rfl, rfl, rfl, by decide⟩
  · intro h
    have hquantity := (h ⟨1⟩).1
    revert hquantity
    decide +kernel

end Hedge.Pipeline
