import Hedge.Broker.Simulated

/-!
# Order records of the simulated broker

Reference: `hedge-broker-simulated/src/lifecycle.rs`, `hedge-broker-simulated/src/lib.rs`.

The state of an order is set from its quantities when its fills are applied, and not again when a
modification changes the quantity. The two disagree exactly when an order is submitted with no
quantity, or modified down to what is already filled.
-/

namespace Hedge.Broker.Simulated

open Hedge Hedge.Common Hedge.BrokerApi

/-- The state of the order says how much of it is filled. -/
structure OrderRecord.Agrees (record : OrderRecord) : Prop where
  bounded : record.filledQty ≤ record.intent.quantity
  filled : record.state = .filled ↔ record.filledQty = record.intent.quantity
  partially : record.state = .partiallyFilled ↔
    0 < record.filledQty ∧ record.filledQty < record.intent.quantity ∧ record.state ≠ .cancelled

/-- Every tracked order agrees. -/
def OrdersAgree (st : State) : Prop :=
  ∀ id record, st.orders.lookup id = some record → record.Agrees

/-- An accepted order asks for something, and an accepted modification leaves something to fill. -/
def Sized (st : State) : Call → Prop
  | .submit intent _ =>
    st.ready.isReady = true → st.books.lookup intent.symbolRaw ≠ none → intent.quantity ≠ 0
  | .modify m _ => st.ready.isReady = true → ∀ record ∈ st.orders.lookup m.brokerOrderId,
    record.state.isTerminal = false → m.newQuantity ≠ some record.filledQty
  | _ => True

/-! ## A fresh record -/

theorem sum_qty (fills : List BookLevel) :
    (fills.map fun f => (f.qty.toNat : ℤ)).sum = totalQty fills := by
  rw [totalQty, Nat.cast_list_sum, List.map_map]
  rfl

theorem foldl_qty (fills : List BookLevel) (start : ℕ)
    (hfits : start + totalQty fills < 2 ^ 64) :
    fills.foldl (fun qty f => clampI128 (qty + f.qty.toNat)) (start : ℤ)
      = ((start + totalQty fills : ℕ) : ℤ) := by
  rw [foldl_eq_add_sum (2 ^ 64 - 1) (fun f _ => Int.natCast_nonneg _) ?_
    (Int.natCast_nonneg start) (by rw [sum_qty]; omega), sum_qty, Nat.cast_add]
  intro n f _ hn hle
  rw [clampI128]
  omega

/-- The quantity filled on a fresh record is the total of its fills. -/
theorem filledQty_applyFills_new {id : String} {intent : BrokerApi.OrderIntent} {tsNs : UInt64}
    {fills : List BookLevel} (hfits : totalQty fills < 2 ^ 64) :
    ((OrderRecord.new id intent tsNs).applyFills fills tsNs).filledQty.toNat = totalQty fills := by
  have hfold : fills.foldl (fun qty f => clampI128 (qty + f.qty.toNat)) 0
      = (totalQty fills : ℤ) := by
    have h := foldl_qty fills 0 (by omega)
    rw [Nat.zero_add] at h
    exact h
  by_cases hnil : fills = []
  · subst hnil
    rfl
  · simp only [OrderRecord.applyFills, if_neg hnil, OrderRecord.new, UInt64.toNat_zero,
      Nat.cast_zero, hfold]
    rw [if_neg (by omega), Int.toNat_natCast, UInt64.toNat_ofNat', Nat.mod_eq_of_lt hfits]

theorem intent_applyFills (record : OrderRecord) (fills : List BookLevel) (tsNs : UInt64) :
    (record.applyFills fills tsNs).intent = record.intent := by
  unfold OrderRecord.applyFills
  dsimp only
  split_ifs <;> rfl

theorem state_applyFills_new (id : String) (intent : BrokerApi.OrderIntent) (tsNs : UInt64)
    (fills : List BookLevel) :
    ((OrderRecord.new id intent tsNs).applyFills fills tsNs).state =
      if fills = [] then .submitted
      else if intent.quantity ≤ ((OrderRecord.new id intent tsNs).applyFills fills tsNs).filledQty
        then .filled
      else if ((OrderRecord.new id intent tsNs).applyFills fills tsNs).filledQty = 0 then .submitted
      else .partiallyFilled := by
  by_cases hnil : fills = []
  · subst hnil
    rfl
  · simp only [OrderRecord.applyFills, if_neg hnil, OrderRecord.new]
    rfl

theorem eq_nil_of_totalQty_eq_zero {fills : List BookLevel} (hpos : ∀ fill ∈ fills, fill.qty ≠ 0)
    (h : totalQty fills = 0) : fills = [] := by
  cases fills with
  | nil => rfl
  | cons fill fills =>
    have hqty : fill.qty.toNat ≠ 0 :=
      fun hzero => hpos fill List.mem_cons_self (UInt64.toNat_inj.mp hzero)
    have htotal : totalQty (fill :: fills) = fill.qty.toNat + totalQty fills := rfl
    omega

/-- A fresh record agrees exactly when its order asks for something. -/
theorem agrees_applyFills_new_iff (id : String) {intent : BrokerApi.OrderIntent} (tsNs : UInt64)
    {fills : List BookLevel} (hle : totalQty fills ≤ intent.quantity.toNat)
    (hpos : ∀ fill ∈ fills, fill.qty ≠ 0) :
    ((OrderRecord.new id intent tsNs).applyFills fills tsNs).Agrees ↔ intent.quantity ≠ 0 := by
  have hqty : ((OrderRecord.new id intent tsNs).applyFills fills tsNs).filledQty.toNat
      = totalQty fills := filledQty_applyFills_new (hle.trans_lt intent.quantity.toNat_lt)
  have hstate := state_applyFills_new id intent tsNs fills
  have hintent : ((OrderRecord.new id intent tsNs).applyFills fills tsNs).intent = intent :=
    intent_applyFills _ fills tsNs
  generalize (OrderRecord.new id intent tsNs).applyFills fills tsNs = record at *
  simp only [UInt64.le_iff_toNat_le, ← UInt64.toNat_inj, hqty, UInt64.toNat_zero] at hstate
  constructor
  · intro hagrees hzero
    -- Nothing is filled, and the order is not in `Filled`.
    have hnone : totalQty fills = 0 := by
      rw [hzero, UInt64.toNat_zero] at hle
      omega
    rw [eq_nil_of_totalQty_eq_zero hpos hnone, if_pos rfl] at hstate
    have hfilled : record.filledQty = record.intent.quantity := by
      apply UInt64.toNat_inj.mp
      rw [hqty, hnone, hintent, hzero, UInt64.toNat_zero]
    rw [hagrees.filled.mpr hfilled] at hstate
    cases hstate
  · intro hne
    have hquantity : intent.quantity.toNat ≠ 0 := fun h => hne (UInt64.toNat_inj.mp h)
    have hempty : fills = [] ↔ totalQty fills = 0 :=
      ⟨fun h => by rw [h]; rfl, eq_nil_of_totalQty_eq_zero hpos⟩
    simp only [hempty] at hstate
    refine ⟨?_, ?_, ?_⟩
    · rw [UInt64.le_iff_toNat_le, hqty, hintent]
      exact hle
    · rw [← UInt64.toNat_inj, hqty, hintent, hstate]
      split_ifs <;> simp <;> omega
    · rw [UInt64.lt_iff_toNat_lt, UInt64.lt_iff_toNat_lt, hqty, hintent, UInt64.toNat_zero, hstate]
      split_ifs <;> simp <;> omega

/-! ## Calls -/

theorem ordersAgree_insert_iff {st : State} (h : OrdersAgree st) (id : String)
    (record : OrderRecord) (st' : State) (horders : st'.orders = st.orders.insert id record) :
    OrdersAgree st' ↔ record.Agrees := by
  constructor
  · intro hagree
    refine hagree id record ?_
    rw [horders, AList.lookup_insert]
  · intro hrecord id' record' hlookup
    rw [horders] at hlookup
    by_cases hid : id' = id
    · rw [hid, AList.lookup_insert] at hlookup
      exact Option.some.inj hlookup ▸ hrecord
    · rw [AList.lookup_insert_ne hid] at hlookup
      exact h id' record' hlookup

/-- An order in agreement that is not in a terminal state has something left to fill. -/
theorem OrderRecord.Agrees.lt_of_not_terminal {record : OrderRecord} (h : record.Agrees)
    (hopen : record.state.isTerminal = false) : record.filledQty < record.intent.quantity := by
  have hne : record.filledQty ≠ record.intent.quantity := by
    intro heq
    rw [h.filled.mpr heq] at hopen
    cases hopen
  have hle := UInt64.le_iff_toNat_le.mp h.bounded
  have hnat : record.filledQty.toNat ≠ record.intent.quantity.toNat :=
    fun heq => hne (UInt64.toNat_inj.mp heq)
  exact UInt64.lt_iff_toNat_lt.mpr (by omega)

/-- A record in agreement stays so under a new intent exactly when something is left to fill. -/
theorem agrees_with_intent_iff {record : OrderRecord} (h : record.Agrees)
    (hopen : record.state.isTerminal = false) (intent : BrokerApi.OrderIntent) (tsNs : UInt64)
    (hle : record.filledQty ≤ intent.quantity) :
    { record with intent := intent, lastTsNs := tsNs : OrderRecord }.Agrees ↔
      intent.quantity ≠ record.filledQty := by
  have hrest := h.lt_of_not_terminal hopen
  have hunfilled : record.state ≠ .filled := by
    intro hfilled
    rw [hfilled] at hopen
    cases hopen
  constructor
  · intro h' heq
    exact hunfilled (h'.filled.mpr heq.symm)
  · intro hne
    have hlt : record.filledQty < intent.quantity := by
      rw [UInt64.le_iff_toNat_le] at hle
      have hnat : intent.quantity.toNat ≠ record.filledQty.toNat :=
        fun heq => hne (UInt64.toNat_inj.mp heq)
      exact UInt64.lt_iff_toNat_lt.mpr (by omega)
    refine ⟨hle, iff_of_false hunfilled fun heq => hne heq.symm, h.partially.trans ?_⟩
    simp only [hrest, hlt]

/-- A modification keeps an order in agreement exactly when it does not cut it to what is filled. -/
theorem agrees_applyModification_iff {record : OrderRecord} (h : record.Agrees)
    (m : OrderModification) (tsNs : UInt64) :
    (record.applyModification m tsNs).2.Agrees ↔
      (record.state.isTerminal = false → m.newQuantity ≠ some record.filledQty) := by
  unfold OrderRecord.applyModification
  split_ifs with hterminal hbelow
  · refine iff_of_true h fun hopen => ?_
    rw [hterminal] at hopen
    cases hopen
  · refine iff_of_true h fun _ heq => ?_
    rw [heq] at hbelow
    exact UInt64.lt_irrefl _ (of_decide_eq_true hbelow)
  · have hopen : record.state.isTerminal = false := Bool.eq_false_of_not_eq_true hterminal
    cases hnew : m.newQuantity with
    | none =>
      have hrest := h.lt_of_not_terminal hopen
      refine (agrees_with_intent_iff h hopen _ tsNs ?_).trans ?_
      · exact h.bounded
      · refine iff_of_true (fun heq => ?_) fun _ => nofun
        exact UInt64.lt_irrefl _ (hrest.trans_eq heq)
    | some quantity =>
      have hle : record.filledQty ≤ quantity := by
        rw [hnew] at hbelow
        exact UInt64.not_lt.mp fun hlt => hbelow (decide_eq_true hlt)
      refine (agrees_with_intent_iff h hopen _ tsNs ?_).trans ?_
      · exact hle
      · simp [hopen]

theorem agrees_applyCancel {record : OrderRecord} (h : record.Agrees) (tsNs : UInt64) :
    (record.applyCancel tsNs).2.Agrees := by
  unfold OrderRecord.applyCancel
  split_ifs with hterminal
  · exact h
  · have hlt := h.lt_of_not_terminal (Bool.eq_false_of_not_eq_true hterminal)
    refine ⟨h.bounded, iff_of_false nofun fun heq => ?_, iff_of_false nofun fun hpart => ?_⟩
    · exact absurd (heq ▸ hlt) (UInt64.lt_irrefl _)
    · exact hpart.2.2 rfl

/-- What a call that keeps orders in agreement has to meet. -/
theorem ordersAgree_step_iff {st : State} (h : OrdersAgree st) (call : Call) :
    OrdersAgree (step st call).2 ↔ Sized st call := by
  cases call with
  | setBook symbolRaw bids asks => exact iff_of_true h trivial
  | setReady state => exact iff_of_true h trivial
  | status id => exact iff_of_true h trivial
  | submit intent tsNs =>
    simp only [step, State.doSubmit, Sized]
    cases hready : st.ready.isReady with
    | false => exact iff_of_true h nofun
    | true =>
      cases hbook : st.books.lookup intent.symbolRaw with
      | none => exact iff_of_true h fun _ hne => absurd rfl hne
      | some book =>
        obtain ⟨hle, hpos⟩ := totalQty_consumeFor_le book intent
        rw [ordersAgree_insert_iff h _ _ _ rfl, agrees_applyFills_new_iff _ _ hle hpos]
        simp
  | modify m tsNs =>
    simp only [step, State.doModify, State.withOrder, Sized]
    cases hready : st.ready.isReady with
    | false => exact iff_of_true h nofun
    | true =>
      cases horder : st.orders.lookup m.brokerOrderId with
      | none => exact iff_of_true h fun _ _ hmem => (by cases hmem)
      | some record =>
        rw [ordersAgree_insert_iff h _ _ _ rfl,
          agrees_applyModification_iff (h _ record horder)]
        simp
  | cancel id tsNs =>
    simp only [step, State.doCancel, State.withOrder, Sized]
    cases hready : st.ready.isReady with
    | false => exact iff_of_true h trivial
    | true =>
      cases horder : st.orders.lookup id with
      | none => exact iff_of_true h trivial
      | some record =>
        rw [ordersAgree_insert_iff h _ _ _ rfl]
        exact iff_of_true (agrees_applyCancel (h _ record horder) tsNs) trivial

/-! ## Failed calls -/

/-- The call has failed. -/
def Reply.failed : Reply → Prop
  | .done => False
  | .ack result => ∃ err, result = .error err
  | .unit result => ∃ err, result = .error err
  | .status result => ∃ err, result = .error err

/-- A change of a record that fails puts the same record back. -/
theorem lookup_withOrder_of_error {st : State} {id : String}
    {f : OrderRecord → Except BrokerError Unit × OrderRecord}
    (hf : ∀ record err, (f record).1 = .error err → (f record).2 = record) {err : BrokerError}
    (h : (st.withOrder id f).1 = .error err) (id' : String) :
    (st.withOrder id f).2.orders.lookup id' = st.orders.lookup id' := by
  unfold State.withOrder at h ⊢
  split_ifs at h ⊢ with hready
  · rfl
  · cases horder : st.orders.lookup id with
    | none => rfl
    | some record =>
      rw [horder] at h
      have hsame := hf record err h
      dsimp only
      rw [hsame]
      by_cases hid : id' = id
      · rw [hid, AList.lookup_insert, horder]
      · rw [AList.lookup_insert_ne hid]

theorem applyModification_of_error {record : OrderRecord} {m : OrderModification} {tsNs : UInt64}
    {err : BrokerError} (h : (record.applyModification m tsNs).1 = .error err) :
    (record.applyModification m tsNs).2 = record := by
  unfold OrderRecord.applyModification at h ⊢
  split_ifs at h ⊢ with hterminal hbelow
  · rfl
  · rfl

theorem applyCancel_of_error {record : OrderRecord} {tsNs : UInt64} {err : BrokerError}
    (h : (record.applyCancel tsNs).1 = .error err) : (record.applyCancel tsNs).2 = record := by
  unfold OrderRecord.applyCancel at h ⊢
  split_ifs at h ⊢ with hterminal
  · rfl

/-- A call that fails leaves every order as it was. -/
theorem lookup_step_of_failed {st : State} {call : Call} (h : (step st call).1.failed)
    (id : String) : (step st call).2.orders.lookup id = st.orders.lookup id := by
  cases call with
  | setBook symbolRaw bids asks => exact h.elim
  | setReady state => exact h.elim
  | status id => rfl
  | submit intent tsNs =>
    obtain ⟨err, herr⟩ := h
    simp only [step]
    unfold State.doSubmit at herr ⊢
    split_ifs at herr ⊢ with hready
    · rfl
    · dsimp only at herr ⊢
      cases hbook : st.books.lookup intent.symbolRaw with
      | none => rfl
      | some book =>
        rw [hbook] at herr
        cases herr
  | modify m tsNs =>
    obtain ⟨err, herr⟩ := h
    exact lookup_withOrder_of_error (fun _ _ => applyModification_of_error) herr id
  | cancel brokerOrderId tsNs =>
    obtain ⟨err, herr⟩ := h
    exact lookup_withOrder_of_error (fun _ _ => applyCancel_of_error) herr id

/-! ## Runs -/

/-- Along the run every tracked order agrees, and no failed call changes one. -/
def OrdersHold (st : State) (calls : List Call) : Prop :=
  (∀ pre post, calls = pre ++ post → OrdersAgree (runState step st pre)) ∧
  ∀ pre call post, calls = pre ++ call :: post → (step (runState step st pre) call).1.failed →
    ∀ id, (runState step st (pre ++ [call])).orders.lookup id
      = (runState step st pre).orders.lookup id

theorem ordersAgree_new (readyAtConstruction : Bool) :
    OrdersAgree (State.new readyAtConstruction) :=
  fun _ _ h => (by cases h)

/-- The orders hold along a run exactly when no order is submitted with no quantity or modified down
to what is filled. -/
theorem orders_hold_iff (readyAtConstruction : Bool) (calls : List Call) :
    OrdersHold (State.new readyAtConstruction) calls ↔
      ∀ pre call post, calls = pre ++ call :: post →
        Sized (runState step (State.new readyAtConstruction) pre) call := by
  refine Iff.trans ⟨And.left, fun h => ⟨h, ?_⟩⟩ (runState_forall_iff step (fun _ => True)
    OrdersAgree Sized (fun _ _ _ => trivial) (fun _ call _ h => ordersAgree_step_iff h call) trivial
    (ordersAgree_new readyAtConstruction))
  intro pre call post _ hfailed id
  rw [runState_append]
  exact lookup_step_of_failed hfailed id

/-- A buy of ten against an ask of four, then modified to four. -/
def cutToFilled : List Call :=
  [.setBook 1 [] [⟨100, 4⟩],
    .submit ⟨⟨7⟩, 1, .buy, 10, .limit, 100, .nse⟩ 1,
    .modify ⟨"SIM-1", some 4, none⟩ 2]

/-- The order is filled to its quantity and still in `PartiallyFilled`. -/
theorem not_ordersHold_cutToFilled :
    ¬ ∀ (readyAtConstruction : Bool) (calls : List Call),
      OrdersHold (State.new readyAtConstruction) calls := by
  intro h
  have hrecord : ∃ record, (runState step (State.new true) cutToFilled).orders.lookup "SIM-1"
      = some record ∧ record.filledQty = record.intent.quantity ∧
        record.state = .partiallyFilled := by
    refine ⟨_, rfl, ?_, ?_⟩ <;> decide +kernel
  obtain ⟨record, hlookup, hfilled, hstate⟩ := hrecord
  have hagrees := (h true cutToFilled).1 cutToFilled [] rfl "SIM-1" record hlookup
  rw [hagrees.filled.mpr hfilled] at hstate
  cases hstate

end Hedge.Broker.Simulated
