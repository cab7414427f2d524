import Hedge.Broker.Simulated

/-!
# Liquidity of the simulated broker

Reference: `hedge-broker-simulated/src/orderbook.rs`, `SimulatedBroker::submit`.

A book is read side by side: `levels` lists the levels of a side from its best price on, `remaining`
is what a price has left. An audit keeps, beside the broker, the levels each book was last seeded
with and what has been filled from it since. Topping up a level saturates, so a price holds at most
the largest `u64`.
-/

namespace Hedge.Broker.Simulated

open Hedge Hedge.Common Hedge.BrokerApi

/-! ## Sides -/

/-- A side of a book. -/
inductive BookSide where
  | bids
  | asks
deriving DecidableEq, Repr

namespace BookSide

/-- The key of a price, and the price of a key. -/
def key : BookSide → Int64 → Int64
  | .bids, price => -price
  | .asks, price => price

/-- The price is better for an order that takes from the side. -/
def Better : BookSide → Int64 → Int64 → Prop
  | .bids, p, q => q < p
  | .asks, p, q => p < q

/-- The price is within the limit of an order that takes from the side. -/
def within (side : BookSide) (limit : Option Int64) (price : Int64) : Bool :=
  match side with
  | .bids => limit.all fun limit => limit ≤ price
  | .asks => limit.all fun limit => price ≤ limit

/-- The side an order takes from. -/
def takenBy : Side → BookSide
  | .buy => .asks
  | .sell => .bids

/-- The side keeps its levels in the order of their prices. -/
def KeyOk : BookSide → Int64 → Prop
  | .bids, price => Int64.minValue < price
  | .asks, _ => True

@[simp] theorem key_key (side : BookSide) (price : Int64) : side.key (side.key price) = price := by
  cases side <;> simp [key]

theorem key_eq_iff {side : BookSide} {a b : Int64} : side.key a = b ↔ a = side.key b := by
  constructor
  · rintro rfl
    exact (side.key_key a).symm
  · rintro rfl
    exact side.key_key b

theorem toInt_neg_of_lt {price : Int64} (h : Int64.minValue < price) :
    (-price).toInt = -price.toInt := by
  have hhigh := price.toInt_lt
  rw [Int64.lt_iff_toInt_lt, Int64.toInt_minValue] at h
  rw [Int64.toInt_neg]
  exact Int.bmod_eq_of_le (by omega) (by omega)

/-- Smaller keys are better prices. -/
theorem compare_key_iff {side : BookSide} {p q : Int64} (hp : side.KeyOk p) (hq : side.KeyOk q) :
    compare (side.key p) (side.key q) = .lt ↔ side.Better p q := by
  rw [Std.compare_eq_lt]
  cases side with
  | asks => exact Iff.rfl
  | bids =>
    rw [key, key, Int64.lt_iff_toInt_lt, toInt_neg_of_lt hp, toInt_neg_of_lt hq, Better,
      Int64.lt_iff_toInt_lt]
    omega

theorem keyOk_of_better {side : BookSide} {p q : Int64} (h : side.Better p q) : side.KeyOk p := by
  cases side with
  | asks => trivial
  | bids =>
    have hlow := q.le_toInt
    rw [Better, Int64.lt_iff_toInt_lt] at h
    rw [KeyOk, Int64.lt_iff_toInt_lt, Int64.toInt_minValue]
    omega

/-- A limit allows every price better than one it allows. -/
theorem within_of_better {side : BookSide} {limit : Option Int64} {p q : Int64}
    (h : side.Better p q) (hq : side.within limit q = true) : side.within limit p = true := by
  cases limit with
  | none => cases side <;> rfl
  | some limit =>
    cases side with
    | asks =>
      simp only [within, Option.all_some, decide_eq_true_eq, Better, Int64.lt_iff_toInt_lt,
        Int64.le_iff_toInt_le] at *
      omega
    | bids =>
      simp only [within, Option.all_some, decide_eq_true_eq, Better, Int64.lt_iff_toInt_lt,
        Int64.le_iff_toInt_le] at *
      omega

end BookSide

namespace OrderBook

/-- The levels of a side. -/
def ladder (book : OrderBook) : BookSide → Ladder Int64
  | .bids => book.bids
  | .asks => book.asks

/-- What is left at a price. -/
def remaining (book : OrderBook) (side : BookSide) (price : Int64) : ℕ :=
  (book.ladder side).qtyAt (side.key price)

/-- The levels of a side in the order they are taken. -/
def levels (book : OrderBook) (side : BookSide) : List BookLevel :=
  (book.ladder side).keys.map fun key => ⟨side.key key, (book.ladder side)[key]?.getD 0⟩

/-- The liquidity of a side within a limit. -/
def liquidity (book : OrderBook) (side : BookSide) (limit : Option Int64) : ℕ :=
  totalQty ((book.levels side).filter fun level => side.within limit level.pricePaise)

/-- Replace a side. -/
def withLadder (book : OrderBook) (side : BookSide) (ladder : Ladder Int64) : OrderBook :=
  match side with
  | .bids => { book with bids := ladder }
  | .asks => { book with asks := ladder }

/-- Take from a side. -/
def consume (book : OrderBook) (side : BookSide) (requested : UInt64) (limit : Option Int64) :
    List BookLevel × OrderBook :=
  let result := Ladder.consume (fun key => side.within limit (side.key key))
    (book.ladder side).keys requested (book.ladder side)
  (result.1.map fun fill => ⟨side.key fill.1, fill.2⟩, book.withLadder side result.2)

theorem consumeFor_eq (book : OrderBook) (intent : BrokerApi.OrderIntent) :
    State.consumeFor book intent
      = book.consume (.takenBy intent.side) intent.quantity (State.limitOf intent) := by
  unfold State.consumeFor
  cases intent.side <;> rfl

@[simp] theorem ladder_withLadder_self (book : OrderBook) (side : BookSide) (m : Ladder Int64) :
    (book.withLadder side m).ladder side = m := by
  cases side <;> rfl

theorem ladder_withLadder_of_ne (book : OrderBook) {side side' : BookSide} (h : side' ≠ side)
    (m : Ladder Int64) : (book.withLadder side m).ladder side' = book.ladder side' := by
  cases side <;> cases side' <;> first | rfl | exact absurd rfl h

/-- The keys of a side stand for prices in their order, and no level is empty. -/
structure Ok (book : OrderBook) : Prop where
  keys : ∀ side, ∀ key ∈ (book.ladder side).keys, side.KeyOk (side.key key)
  noZero : ∀ side, (book.ladder side).NoZero

end OrderBook

/-- What fills take from a price. -/
def takenFrom (fills : List BookLevel) (price : Int64) : ℕ :=
  totalQty (fills.filter fun fill => fill.pricePaise = price)

/-- What an order takes from a side: best price first, up to the limit, and as much as there is. -/
structure Taken (book : OrderBook) (side : BookSide) (requested : UInt64) (limit : Option Int64)
    (fills : List BookLevel) (book' : OrderBook) : Prop where
  bestFirst : fills.Pairwise fun a b => side.Better a.pricePaise b.pricePaise
  exhausted : ∀ fill ∈ fills, ∀ price, side.Better price fill.pricePaise →
    book'.remaining side price = 0
  limited : ∀ fill ∈ fills, side.within limit fill.pricePaise = true
  total : totalQty fills = min requested.toNat (book.liquidity side limit)

namespace OrderBook

variable {book : OrderBook} {side : BookSide} {requested : UInt64} {limit : Option Int64}

theorem better_of_mem_keys (hok : book.Ok) {a b : Int64} (ha : a ∈ (book.ladder side).keys)
    (hb : b ∈ (book.ladder side).keys) (hlt : compare a b = .lt) :
    side.Better (side.key a) (side.key b) := by
  have hiff := BookSide.compare_key_iff (hok.keys side a ha) (hok.keys side b hb)
  rw [BookSide.key_key, BookSide.key_key] at hiff
  exact hiff.mp hlt

/-- The two walks of `consume_asks` and `consume_bids` are walks over a ladder within its limit. -/
theorem consumed_ladder (hok : book.Ok) (side : BookSide) (requested : UInt64)
    (limit : Option Int64) :
    Ladder.Consumed (fun key => side.within limit (side.key key)) requested (book.ladder side)
      (Ladder.consume (fun key => side.within limit (side.key key)) (book.ladder side).keys
        requested (book.ladder side)).1
      (Ladder.consume (fun key => side.within limit (side.key key)) (book.ladder side).keys
        requested (book.ladder side)).2 := by
  refine Ladder.consumed_consume (fun a ha b hb hlt hwithin => ?_) requested
  exact BookSide.within_of_better (better_of_mem_keys hok ha hb hlt) hwithin

theorem liquidity_eq (book : OrderBook) (side : BookSide) (limit : Option Int64) :
    book.liquidity side limit
      = (book.ladder side).available fun key => side.within limit (side.key key) := by
  simp only [liquidity, levels, Ladder.available, totalQty, List.filter_map, List.map_map]
  rfl

theorem taken_consume (hok : book.Ok) (side : BookSide) (requested : UInt64)
    (limit : Option Int64) :
    Taken book side requested limit (book.consume side requested limit).1
      (book.consume side requested limit).2 := by
  obtain ⟨hlevels, hordered, hlimited, htotal, hconserved, hexhausted, hnoZero⟩ :=
    consumed_ladder hok side requested limit
  unfold consume
  refine ⟨List.pairwise_map.mpr (hordered.imp_of_mem ?_), ?_, List.forall_mem_map.mpr hlimited, ?_⟩
  · intro a b ha hb hlt
    exact better_of_mem_keys hok (hlevels a ha) (hlevels b hb) hlt
  · refine List.forall_mem_map.mpr fun fill hmem price hbetter => ?_
    rw [remaining, ladder_withLadder_self]
    refine hexhausted fill hmem _ ?_
    have hiff := BookSide.compare_key_iff (BookSide.keyOk_of_better hbetter)
      (hok.keys side fill.1 (hlevels fill hmem))
    rw [BookSide.key_key] at hiff
    exact hiff.mpr hbetter
  · rw [totalQty_map, htotal, liquidity_eq]

/-- What is filled from a price and what remains of it make up what was there. -/
theorem conserved_consume (hok : book.Ok) (side : BookSide) (requested : UInt64)
    (limit : Option Int64) (price : Int64) :
    takenFrom (book.consume side requested limit).1 price
        + (book.consume side requested limit).2.remaining side price
      = book.remaining side price := by
  have hconserved := (consumed_ladder hok side requested limit).conserved (side.key price)
  rw [remaining, remaining, ← hconserved]
  unfold consume
  rw [ladder_withLadder_self]
  congr 1
  simp only [takenFrom, Ladder.takenAt, List.filter_map, totalQty_map, Function.comp_def,
    BookSide.key_eq_iff]

theorem remaining_consume_of_ne {side side' : BookSide} (h : side' ≠ side) (requested : UInt64)
    (limit : Option Int64) (price : Int64) :
    (book.consume side requested limit).2.remaining side' price = book.remaining side' price := by
  rw [remaining, consume, ladder_withLadder_of_ne book h, remaining]

theorem Ok.consume (hok : book.Ok) (side : BookSide) (requested : UInt64) (limit : Option Int64) :
    (book.consume side requested limit).2.Ok := by
  have hconsumed := consumed_ladder hok side requested limit
  have hnoZero := hconsumed.noZero (hok.noZero side)
  refine ⟨fun side' => ?_, fun side' => ?_⟩ <;> unfold OrderBook.consume <;>
    by_cases hside : side' = side
  · subst hside
    rw [ladder_withLadder_self]
    intro key hmem
    -- A level that is left was there before.
    rw [Ladder.mem_keys_iff hnoZero] at hmem
    refine hok.keys side' key ((Ladder.mem_keys_iff (hok.noZero side')).mpr ?_)
    have hkey := hconsumed.conserved key
    omega
  · rw [ladder_withLadder_of_ne book hside]
    exact hok.keys side'
  · subst hside
    rw [ladder_withLadder_self]
    exact hnoZero
  · rw [ladder_withLadder_of_ne book hside]
    exact hok.noZero side'

end OrderBook

/-! ## Seeding -/

/-- The quantity seeded at a price. -/
def seededQty (levels : List BookLevel) (price : Int64) : ℕ :=
  totalQty (levels.filter fun level => level.pricePaise = price)

/-- The quantity a seeded price holds: topping up saturates. -/
def heldQty (levels : List BookLevel) (price : Int64) : ℕ :=
  min (seededQty levels price) (2 ^ 64 - 1)

/-- The levels of a side in a seeding. -/
def seedsOf (bids asks : List BookLevel) : BookSide → List BookLevel
  | .bids => bids
  | .asks => asks

namespace OrderBook

/-- The ladder a list of levels builds. -/
def seedLadder (side : BookSide) (levels : List BookLevel) (m : Ladder Int64) : Ladder Int64 :=
  levels.foldl (fun m level => m.topUp (side.key level.pricePaise) level.qty) m

theorem foldl_addBid (bids : List BookLevel) (book : OrderBook) :
    bids.foldl (fun book level => book.addBid level.pricePaise level.qty) book
      = { book with bids := seedLadder .bids bids book.bids } := by
  induction bids generalizing book with
  | nil => rfl
  | cons level bids ih =>
    rw [List.foldl_cons, ih]
    rfl

theorem foldl_addAsk (asks : List BookLevel) (book : OrderBook) :
    asks.foldl (fun book level => book.addAsk level.pricePaise level.qty) book
      = { book with asks := seedLadder .asks asks book.asks } := by
  induction asks generalizing book with
  | nil => rfl
  | cons level asks ih =>
    rw [List.foldl_cons, ih]
    rfl

theorem ladder_fromLevels (bids asks : List BookLevel) (side : BookSide) :
    (fromLevels bids asks).ladder side = seedLadder side (seedsOf bids asks side) ∅ := by
  rw [fromLevels, foldl_addBid, foldl_addAsk]
  cases side <;> rfl

theorem qtyAt_seedLadder (side : BookSide) (levels : List BookLevel) (m : Ladder Int64)
    (price : Int64) :
    (seedLadder side levels m).qtyAt (side.key price)
      = min (m.qtyAt (side.key price) + seededQty levels price) (2 ^ 64 - 1) := by
  induction levels generalizing m with
  | nil =>
    have hbound : m.qtyAt (side.key price) < 2 ^ 64 := UInt64.toNat_lt _
    simp only [seedLadder, seededQty, totalQty, List.foldl_nil, List.filter_nil, List.map_nil,
      List.sum_nil]
    omega
  | cons level levels ih =>
    have hfold : seedLadder side (level :: levels) m
        = seedLadder side levels (m.topUp (side.key level.pricePaise) level.qty) := rfl
    have hseeded : seededQty (level :: levels) price
        = (if level.pricePaise = price then level.qty.toNat else 0) + seededQty levels price := by
      by_cases h : level.pricePaise = price <;> simp [seededQty, totalQty, h]
    rw [hfold, ih, Ladder.qtyAt_topUp, hseeded]
    simp only [BookSide.key_eq_iff, BookSide.key_key]
    split_ifs <;> omega

theorem noZero_seedLadder (side : BookSide) (levels : List BookLevel) (m : Ladder Int64)
    (h : m.NoZero) : (seedLadder side levels m).NoZero := by
  induction levels generalizing m with
  | nil => exact h
  | cons level levels ih => exact ih _ (h.topUp _ _)

/-- A seeded price holds what it was seeded with, as far as the field goes. -/
theorem remaining_fromLevels (bids asks : List BookLevel) (side : BookSide) (price : Int64) :
    (fromLevels bids asks).remaining side price = heldQty (seedsOf bids asks side) price := by
  rw [remaining, ladder_fromLevels, qtyAt_seedLadder, heldQty]
  simp [Ladder.qtyAt]

theorem ok_fromLevels {bids : List BookLevel} (asks : List BookLevel)
    (hbids : ∀ level ∈ bids, Int64.minValue < level.pricePaise) : (fromLevels bids asks).Ok := by
  have hnoZero : ∀ side, ((fromLevels bids asks).ladder side).NoZero := by
    intro side
    rw [ladder_fromLevels]
    exact noZero_seedLadder _ _ _ Ladder.noZero_empty
  refine ⟨fun side key hmem => ?_, hnoZero⟩
  cases side with
  | asks => trivial
  | bids =>
    -- Something was seeded at the price of the key.
    rw [Ladder.mem_keys_iff (hnoZero .bids)] at hmem
    have hheld := remaining_fromLevels bids asks .bids (BookSide.bids.key key)
    rw [remaining, BookSide.key_key, heldQty, seededQty, seedsOf] at hheld
    cases hlevels : bids.filter (fun level => level.pricePaise = BookSide.bids.key key) with
    | nil =>
      rw [hlevels] at hheld
      exact absurd hheld hmem
    | cons level levels =>
      have hmem : level ∈ bids.filter fun level => level.pricePaise = BookSide.bids.key key := by
        rw [hlevels]
        exact List.mem_cons_self
      obtain ⟨hlevel, hprice⟩ := List.mem_filter.mp hmem
      rw [← of_decide_eq_true hprice]
      exact hbids level hlevel

/-- A book in order lists its levels best price first, none of them empty. -/
theorem levels_sorted {book : OrderBook} (hok : book.Ok) (side : BookSide) :
    (book.levels side).Pairwise fun a b => side.Better a.pricePaise b.pricePaise := by
  have hsorted := Std.ExtTreeMap.ordered_keys (t := book.ladder side)
  refine List.pairwise_map.mpr (hsorted.imp_of_mem fun {a b} ha hb hlt => ?_)
  exact better_of_mem_keys hok ha hb hlt

theorem levels_noZero {book : OrderBook} (hok : book.Ok) (side : BookSide) :
    ∀ level ∈ book.levels side, level.qty ≠ 0 := by
  refine List.forall_mem_map.mpr fun key hmem hzero => ?_
  exact (Ladder.mem_keys_iff (hok.noZero side)).mp hmem (congrArg UInt64.toNat hzero)

end OrderBook

/-! ## Audited runs -/

/-- The fills of the order a submission has tracked. -/
def submitFills (st : State) (intent : BrokerApi.OrderIntent) (tsNs : UInt64) : List BookLevel :=
  match (st.doSubmit intent tsNs).1 with
  | .ok ack => ((st.doSubmit intent tsNs).2.orders.lookup ack.brokerOrderId).elim [] (·.fills)
  | .error _ => []

/-- The broker, the levels each book was last seeded with and what was filled from it since. -/
structure Audit where
  st : State
  seeded : UInt32 → BookSide → List BookLevel
  filled : UInt32 → BookSide → List BookLevel

/-- A broker without books. -/
def Audit.new (readyAtConstruction : Bool) : Audit :=
  ⟨.new readyAtConstruction, fun _ _ => [], fun _ _ => []⟩

/-- One call under audit. -/
def auditStep (audit : Audit) (call : Call) : Reply × Audit :=
  let (reply, st) := step audit.st call
  match call with
  | .setBook symbolRaw bids asks => (reply,
      { st
        seeded := Function.update audit.seeded symbolRaw (seedsOf bids asks)
        filled := Function.update audit.filled symbolRaw fun _ => [] })
  | .submit intent tsNs => (reply,
      { audit with
        st
        filled := Function.update audit.filled intent.symbolRaw fun side =>
          audit.filled intent.symbolRaw side ++
            if side = .takenBy intent.side then submitFills audit.st intent tsNs else [] })
  | _ => (reply, { audit with st })

/-- A side of a book is sorted, has no empty level, and what was filled from each price and what
remains of it make up what it held. -/
structure SideHolds (held : List BookLevel → Int64 → ℕ) (audit : Audit) (symbolRaw : UInt32)
    (book : OrderBook) (side : BookSide) : Prop where
  sorted : (book.levels side).Pairwise fun a b => side.Better a.pricePaise b.pricePaise
  noZero : ∀ level ∈ book.levels side, level.qty ≠ 0
  conserved : ∀ price, takenFrom (audit.filled symbolRaw side) price + book.remaining side price
    = held (audit.seeded symbolRaw side) price

/-- Along the run every side of every book holds, and every accepted order takes best price first,
up to its limit, as much as there is. -/
def LiquidityHolds (held : List BookLevel → Int64 → ℕ) (audit : Audit) (calls : List Call) : Prop :=
  (∀ pre post, calls = pre ++ post → ∀ symbolRaw book side,
    (runState auditStep audit pre).st.books.lookup symbolRaw = some book →
    SideHolds held (runState auditStep audit pre) symbolRaw book side) ∧
  ∀ pre intent tsNs post, calls = pre ++ .submit intent tsNs :: post → ∀ ack,
    ((runState auditStep audit pre).st.doSubmit intent tsNs).1 = .ok ack →
    ∃ book book', (runState auditStep audit pre).st.books.lookup intent.symbolRaw = some book ∧
      ((runState auditStep audit pre).st.doSubmit intent tsNs).2.books.lookup intent.symbolRaw
        = some book' ∧
      Taken book (.takenBy intent.side) intent.quantity (State.limitOf intent)
        (submitFills (runState auditStep audit pre).st intent tsNs) book'

/-! ## What a call does to the books -/

/-- A submission takes its fills from the book of its symbol, or fails and leaves the books. -/
theorem doSubmit_cases (st : State) (intent : BrokerApi.OrderIntent) (tsNs : UInt64) :
    (∃ ack book, (st.doSubmit intent tsNs).1 = .ok ack ∧
      st.books.lookup intent.symbolRaw = some book ∧
      (st.doSubmit intent tsNs).2.books = st.books.insert intent.symbolRaw
        (book.consume (.takenBy intent.side) intent.quantity (State.limitOf intent)).2 ∧
      submitFills st intent tsNs
        = (book.consume (.takenBy intent.side) intent.quantity (State.limitOf intent)).1) ∨
    (∃ err, (st.doSubmit intent tsNs).1 = .error err ∧
      (st.doSubmit intent tsNs).2.books = st.books ∧ submitFills st intent tsNs = []) := by
  by_cases hready : st.ready.isReady = true
  · cases hbook : st.books.lookup intent.symbolRaw with
    | none =>
      refine .inr ?_
      simp [submitFills, State.doSubmit, hready, hbook]
    | some book =>
      have hfills : ∀ (record : OrderRecord) (fills : List BookLevel), record.fills = [] →
          (record.applyFills fills tsNs).fills = fills := by
        intro record fills hnil
        unfold OrderRecord.applyFills
        dsimp only
        split_ifs with hempty hnew <;> simp [hnil, hempty]
      refine .inl ⟨⟨"SIM-" ++ toString (st.nextId.saturatingAdd 1).toNat, some tsNs⟩, book, ?_⟩
      simp only [submitFills, State.doSubmit, hready, hbook, ← OrderBook.consumeFor_eq,
        Bool.not_true, Bool.false_eq_true, if_false, AList.lookup_insert, Option.elim_some]
      exact ⟨trivial, trivial, trivial, hfills _ _ rfl⟩
  · refine .inr ?_
    simp [submitFills, State.doSubmit, hready]

theorem books_withOrder (st : State) (id : String)
    (f : OrderRecord → Except BrokerError Unit × OrderRecord) :
    (st.withOrder id f).2.books = st.books := by
  unfold State.withOrder
  split
  · rfl
  · split <;> rfl

theorem takenFrom_append (fills fills' : List BookLevel) (price : Int64) :
    takenFrom (fills ++ fills') price = takenFrom fills price + takenFrom fills' price := by
  simp [takenFrom, totalQty]

/-- The books are in order and account for what was seeded. -/
def Audit.Balanced (audit : Audit) : Prop :=
  ∀ symbolRaw book, audit.st.books.lookup symbolRaw = some book → book.Ok ∧
    ∀ side price, takenFrom (audit.filled symbolRaw side) price + book.remaining side price
      = heldQty (audit.seeded symbolRaw side) price

/-- No bid is seeded at the price the negation of which is no `i64`. -/
def BidsInRange : Call → Prop
  | .setBook _ bids _ => ∀ level ∈ bids, Int64.minValue < level.pricePaise
  | _ => True

theorem balanced_new (readyAtConstruction : Bool) : (Audit.new readyAtConstruction).Balanced :=
  fun _ _ h => (by cases h)

/-- A call that leaves the books and the accounts alone keeps the balance. -/
theorem Audit.Balanced.of_books_eq {audit : Audit} (h : audit.Balanced) {st : State}
    (hbooks : st.books = audit.st.books) : Audit.Balanced { audit with st } := by
  intro symbolRaw book hbook
  rw [hbooks] at hbook
  exact h symbolRaw book hbook

theorem balanced_setBook {audit : Audit} (h : audit.Balanced) (symbolRaw : UInt32)
    {bids : List BookLevel} (asks : List BookLevel)
    (hbids : ∀ level ∈ bids, Int64.minValue < level.pricePaise) :
    (auditStep audit (.setBook symbolRaw bids asks)).2.Balanced := by
  intro symbol book hbook
  simp only [auditStep, step] at hbook ⊢
  by_cases hsymbol : symbol = symbolRaw
  · subst hsymbol
    rw [AList.lookup_insert] at hbook
    cases hbook
    refine ⟨OrderBook.ok_fromLevels asks hbids, fun side price => ?_⟩
    rw [Function.update_self, Function.update_self, OrderBook.remaining_fromLevels]
    exact Nat.zero_add _
  · rw [AList.lookup_insert_ne hsymbol] at hbook
    rw [Function.update_of_ne hsymbol, Function.update_of_ne hsymbol]
    exact h symbol book hbook

theorem balanced_submit {audit : Audit} (h : audit.Balanced) (intent : BrokerApi.OrderIntent)
    (tsNs : UInt64) : (auditStep audit (.submit intent tsNs)).2.Balanced := by
  intro symbol book' hbook'
  simp only [auditStep, step] at hbook' ⊢
  rcases doSubmit_cases audit.st intent tsNs with
    ⟨ack, book, -, hbook, hbooks, hfills⟩ | ⟨err, -, hbooks, hfills⟩
  · rw [hbooks] at hbook'
    by_cases hsymbol : symbol = intent.symbolRaw
    · subst hsymbol
      rw [AList.lookup_insert] at hbook'
      cases hbook'
      obtain ⟨hok, hheld⟩ := h _ book hbook
      refine ⟨hok.consume _ _ _, fun side price => ?_⟩
      rw [Function.update_self, hfills, takenFrom_append, ← hheld side price, Nat.add_assoc]
      congr 1
      split_ifs with hside
      · subst hside
        exact OrderBook.conserved_consume hok _ _ _ price
      · rw [OrderBook.remaining_consume_of_ne hside]
        exact Nat.zero_add _
    · rw [AList.lookup_insert_ne hsymbol] at hbook'
      rw [Function.update_of_ne hsymbol]
      exact h symbol book' hbook'
  · rw [hbooks] at hbook'
    obtain ⟨hok, hheld⟩ := h symbol book' hbook'
    refine ⟨hok, fun side price => ?_⟩
    rw [hfills, ← hheld side price]
    by_cases hsymbol : symbol = intent.symbolRaw
    · subst hsymbol
      rw [Function.update_self]
      simp
    · rw [Function.update_of_ne hsymbol]

theorem balanced_auditStep {audit : Audit} {call : Call} (hrange : BidsInRange call)
    (h : audit.Balanced) : (auditStep audit call).2.Balanced := by
  cases call with
  | setBook symbolRaw bids asks => exact balanced_setBook h symbolRaw asks hrange
  | submit intent tsNs => exact balanced_submit h intent tsNs
  | setReady state => exact h.of_books_eq rfl
  | modify m tsNs => exact h.of_books_eq (books_withOrder ..)
  | cancel id tsNs => exact h.of_books_eq (books_withOrder ..)
  | status id => exact h.of_books_eq rfl

/-! ## Runs -/

theorem balanced_run (readyAtConstruction : Bool) {calls : List Call}
    (hrange : ∀ call ∈ calls, BidsInRange call) :
    (runState auditStep (Audit.new readyAtConstruction) calls).Balanced :=
  runState_invariant auditStep Audit.Balanced (fun _ _ => balanced_auditStep)
    (balanced_new readyAtConstruction) hrange

/-- The books of the broker conserve liquidity: what was filled from a price since its book was
seeded and what remains of it make up what the seeding left there. -/
theorem liquidity_holds (readyAtConstruction : Bool) (calls : List Call)
    (hrange : ∀ call ∈ calls, BidsInRange call) :
    LiquidityHolds heldQty (Audit.new readyAtConstruction) calls := by
  have hbalanced : ∀ pre post, calls = pre ++ post →
      (runState auditStep (Audit.new readyAtConstruction) pre).Balanced := by
    intro pre post hsplit
    refine balanced_run readyAtConstruction fun call hmem => hrange call ?_
    rw [hsplit]
    exact List.mem_append_left _ hmem
  refine ⟨fun pre post hsplit symbolRaw book side hbook => ?_, ?_⟩
  · obtain ⟨hok, hheld⟩ := hbalanced pre post hsplit symbolRaw book hbook
    exact ⟨OrderBook.levels_sorted hok side, OrderBook.levels_noZero hok side, hheld side⟩
  · intro pre intent tsNs post hsplit ack hack
    rcases doSubmit_cases (runState auditStep (Audit.new readyAtConstruction) pre).st intent
      tsNs with
      ⟨_, book, -, hbook, hbooks, hfills⟩ | ⟨err, herr, -, -⟩
    · obtain ⟨hok, -⟩ := hbalanced pre _ hsplit _ book hbook
      refine ⟨book, (book.consume (.takenBy intent.side) intent.quantity
        (State.limitOf intent)).2, hbook, ?_, ?_⟩
      · rw [hbooks, AList.lookup_insert]
      · rw [hfills]
        exact OrderBook.taken_consume hok _ _ _
    · rw [herr] at hack
      cases hack

/-- A seeding on both sides and a buy that takes one level and part of the next. -/
def oneBuy : List Call :=
  [.setBook 1 [⟨90, 5⟩] [⟨100, 4⟩, ⟨101, 8⟩, ⟨102, 3⟩],
    .submit ⟨⟨7⟩, 1, .buy, 10, .limit, 101, .nse⟩ 1]

theorem liquidity_holds_oneBuy : LiquidityHolds heldQty (Audit.new true) oneBuy :=
  liquidity_holds true oneBuy (by simp [oneBuy, BidsInRange]; decide)

/-- A price seeded twice, past the largest quantity. -/
def seededTwice : List Call := [.setBook 1 [] [⟨100, 18446744073709551615⟩, ⟨100, 1⟩]]

/-- Less remains of the price than it was seeded with, and nothing was filled from it. -/
theorem not_liquidityHolds_seededTwice :
    ¬ ∀ (readyAtConstruction : Bool) (calls : List Call),
      LiquidityHolds seededQty (Audit.new readyAtConstruction) calls := by
  intro h
  have hside := (h true seededTwice).1 seededTwice [] rfl 1
    (.fromLevels [] [⟨100, 18446744073709551615⟩, ⟨100, 1⟩]) .asks rfl
  have hconserved := hside.conserved 100
  rw [OrderBook.remaining_fromLevels] at hconserved
  exact absurd hconserved (by decide)

end Hedge.Broker.Simulated
