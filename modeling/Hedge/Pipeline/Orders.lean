import Hedge.Exec.Engine
import Hedge.Pipeline.Fills
import Hedge.Pipeline.Identity
import Hedge.Risk.Runs
import Hedge.Risk.Service

/-!
# From signals to broker orders

Reference: `hedge-risk/src/main.rs`, `hedge-exec/src/main.rs`.

The risk service publishes its decision without the token and without the price, and the execution
service sends the brokers whatever order a message on the same subject spells out. Nothing on the
way checks that the order was approved, that it was not placed before, that it costs no more than
the cap or that the signal named a side. `live_orders_minted_iff`, `one_order_per_cid_iff`,
`cap_bites_iff` and `side_survives_iff` say what has to hold of the messages and the brokers
instead.
-/

namespace Hedge.Pipeline

open Hedge Hedge.Common Hedge.Bus Hedge.Risk Hedge.Exec

/-! ## The published decision -/

/-- The side the execution service reads from a decision. -/
def decidedSide (side : UInt8) : Side := if side = 1 then .sell else .buy

theorem sideText_eq (side : UInt8) : sideText side = if side = 1 then "sell" else "buy" := by
  unfold sideText
  split
  · rfl
  · rfl
  · rename_i hone
    rw [if_neg hone]

theorem approvalSide_sideText {data : Json} {side : UInt8}
    (h : data.get "side" = some (.str (sideText side))) : approvalSide data = decidedSide side := by
  rw [approvalSide, h, sideText_eq]
  unfold decidedSide
  by_cases hone : side = 1
  · rw [if_pos hone, if_pos hone]
    rfl
  · rw [if_neg hone, if_neg hone]
    rfl

/-- The execution service reads back the order of a decision: the text of the correlation id, the
symbol, the side and the quantity. There is no price, so the cap does not apply. -/
theorem namedOrder_published {signal : Signal} {symbol : String}
    (hsymbol : signal.symbol = symbolIdFor symbol) (hknown : symbolIdFor symbol ≠ 0)
    (token : ApprovalToken) {q : UInt64} (hq : q ≠ 0) (r : RiskRationale) (text : String)
    (nowNs maxNotionalInr : Int64) :
    namedOrder (buildDecisionPayload text (.approved token q r) signal nowNs).2 maxNotionalInr
      = if text = "" then none
        else some (liveIntent text symbol (decidedSide signal.side) q) := by
  have hback : symbolForId signal.symbol = some symbol := by
    rw [hsymbol]
    exact symbolForId_symbolIdFor hknown
  have hpass : ¬ liveStops symbol q 0 maxNotionalInr := by
    rintro (h | h)
    · exact absurd h.1 (by decide)
    · exact hknown h
  have hside : ∀ data : Json, data.get "side" = some (.str (sideText signal.side)) →
      approvalSide data = decidedSide signal.side := fun _ => approvalSide_sideText
  unfold namedOrder buildDecisionPayload
  simp [hback, hq, hpass, hside]

/-- The order of a published approval, for the quantity the signal is sized to. -/
theorem namedOrder_of_published {mac : Mac} {eng : RiskEngine} {s : RiskEngineState}
    {env : SignalEnv} {v payload : Json}
    (hpub : (handleSignal mac eng s env v).1 = some (.decisionApproved, payload)) :
    ∃ signal symbol, buildSignalV1 v = some signal ∧ signal.symbol = symbolIdFor symbol ∧
      firstFailing eng s (evalInput env v signal) = none ∧
      ∀ maxNotionalInr, namedOrder payload maxNotionalInr
        = if signalCidText v = "" then none
          else some (liveIntent (signalCidText v) symbol (decidedSide signal.side)
            (approvedQuantity eng s (evalInput env v signal))) := by
  obtain ⟨signal, token, q, r, hread, hdec, hpayload⟩ := handleSignal_approved_iff.mp hpub
  obtain ⟨⟨symbol, hknown, hsymbol⟩, -, -⟩ := buildSignalV1_inv hread
  obtain ⟨hgates, hq, -⟩ := approved_inv hdec
  have hqty : q ≠ 0 := by
    rw [hq]
    exact approvedQuantity_ne_zero _ _ _
  refine ⟨signal, symbol, hread, hsymbol, firstFailing_eq_none_iff.mpr hgates, ?_⟩
  intro maxNotionalInr
  have hspelled := namedOrder_published hsymbol hknown token hqty r (signalCidText v) env.publishNs
    maxNotionalInr
  rw [hpayload, hq] at hspelled
  exact hspelled

/-- The approval of a signal with a correlation id is submitted to the primary broker. -/
theorem exists_submission_of_published {mac : Mac} {eng : RiskEngine} {s : RiskEngineState}
    {env : SignalEnv} {v payload : Json} (routeEnv : RouteEnv) (maxNotionalInr : Int64)
    (hpub : (handleSignal mac eng s env v).1 = some (.decisionApproved, payload))
    (htext : signalCidText v ≠ "") :
    ∃ sub, sub ∈ (handleApproval routeEnv payload true maxNotionalInr).submissions := by
  obtain ⟨signal, symbol, -, -, -, hspelled⟩ := namedOrder_of_published hpub
  rw [submissions_handleApproval, hspelled, if_neg htext]
  exact ⟨_, List.mem_cons_self⟩

/-! ## Approved orders -/

/-- In the run `acts` of the risk engine an `evaluate` call approved the order, with a token that
verifies over the order's own correlation id, symbol, side and quantity. -/
def Minted (mac : Mac) (eng : RiskEngine) (s₀ : RiskEngineState) (acts : List RiskAction)
    (order : BrokerApi.OrderIntent) : Prop :=
  ∃ pre inp post token q r, acts = pre ++ .evaluate inp :: post ∧
    (evaluateInner mac eng (riskRun mac eng s₀ pre) inp).1 = .approved token q r ∧
    ∃ a : Risk.Approval, verify mac eng.key token a = true ∧
      CorrelationId.fromBeBytes a.intent.correlationId = order.correlationId ∧
      a.intent.symbol = order.symbolRaw ∧ a.intent.side = order.side.asU8 ∧
      a.sizedQuantity = order.quantity

/-- The consumer of `risk.decision.approved`: bytes that are not JSON are dropped. -/
def handleMessage (parse : List UInt8 → Option Json) (env : RouteEnv) (bytes : List UInt8)
    (live : Bool) (maxNotionalInr : Int64) : Routed :=
  match parse bytes with
  | none => ⟨[], []⟩
  | some v => handleApproval env v live maxNotionalInr

/-- For every message in live mode: the brokers only get orders the risk engine approved exactly if
the order the message spells out, if there is one, is such an order. -/
theorem live_orders_minted_iff (mac : Mac) (eng : RiskEngine) (s₀ : RiskEngineState)
    (acts : List RiskAction) (parse : List UInt8 → Option Json) (env : RouteEnv)
    (bytes : List UInt8) (maxNotionalInr : Int64) :
    (∀ sub ∈ (handleMessage parse env bytes true maxNotionalInr).submissions,
      Minted mac eng s₀ acts sub.intent) ↔
    ∀ v order, parse bytes = some v → namedOrder v maxNotionalInr = some order →
      Minted mac eng s₀ acts order := by
  unfold handleMessage
  cases hparse : parse bytes with
  | none => simp
  | some v =>
    rw [submissions_handleApproval]
    cases horder : namedOrder v maxNotionalInr with
    | none =>
      refine iff_of_true (fun sub hsub => absurd hsub List.not_mem_nil) ?_
      intro v' order hv' horder'
      cases hv'
      rw [horder] at horder'
      cases horder'
    | some order =>
      constructor
      · intro h v' order' hv' horder'
        cases hv'
        rw [horder] at horder'
        cases horder'
        exact h _ List.mem_cons_self
      · intro h sub hsub
        rw [env.intent_of_mem_submissions hsub]
        exact h v order rfl horder

/-- What the risk service publishes for a signal whose correlation id has sixteen bytes or more
spells out an order the risk engine has just approved. -/
theorem published_order_minted {mac : Mac} {eng : RiskEngine} {s₀ : RiskEngineState}
    {pre post : List RiskAction} {env : SignalEnv} {v payload : Json} {signal : Signal}
    (hread : buildSignalV1 v = some signal)
    (hpub : (handleSignal mac eng (riskRun mac eng s₀ pre) env v).1
      = some (.decisionApproved, payload))
    (hlen : 16 ≤ (signalCidText v).toUTF8.toList.length) {maxNotionalInr : Int64}
    {order : BrokerApi.OrderIntent} (horder : namedOrder payload maxNotionalInr = some order) :
    Minted mac eng s₀ (pre ++ .evaluate (evalInput env v signal) :: post) order := by
  obtain ⟨signal', symbol, hread', hsymbol, hgates, hspelled⟩ := namedOrder_of_published hpub
  rw [hread] at hread'
  cases hread'
  obtain ⟨-, hcid, hside⟩ := buildSignalV1_inv hread
  obtain ⟨r, hdec, -⟩ := (evaluateInner_outcome mac eng _ (evalInput env v signal)).approved hgates
  rw [hspelled] at horder
  split_ifs at horder
  cases horder
  refine ⟨pre, _, post, _, _, r, rfl, hdec, _, verify_iff.mpr rfl, ?_, hsymbol, ?_, rfl⟩
  · change CorrelationId.fromBeBytes signal.correlationId = ⟨parseCid (signalCidText v)⟩
    rw [hcid]
    exact (execCid_eq_riskCid hlen).symm
  · change signal.side = (decidedSide signal.side).asU8
    rcases hside with h | h <;> rw [h] <;> rfl

/-- A message any peer of the bus can publish, for a million shares. -/
def forgedMessage : Json := .obj
  [("correlation_id", .str "0123456789abcdef"), ("symbol", .str "RELIANCE"),
    ("sized_quantity", .ofU64 1000000)]

/-- Its text. -/
def forgedBytes : List UInt8 :=
  ("\x7b\"correlation_id\":\"0123456789abcdef\",\"symbol\":\"RELIANCE\"," ++
    "\"sized_quantity\":1000000\x7d").toUTF8.toList

/-- A reader of that text. -/
def readForged (bytes : List UInt8) : Option Json :=
  if bytes = forgedBytes then some forgedMessage else none

/-- The order is placed although the risk engine has approved nothing. -/
theorem forged_order_placed :
    ¬ ∀ sub ∈ (handleMessage readForged (filledApproval "buy" 1000000 100).env forgedBytes true
        50000).submissions,
      Minted tailMac (makeEngineWith Defaults.risk) (makeEngineWith Defaults.risk).init []
        sub.intent := by
  intro h
  have hread : readForged forgedBytes = some forgedMessage := if_pos rfl
  have horder : namedOrder forgedMessage 50000
      = some (liveIntent "0123456789abcdef" "RELIANCE" .buy 1000000) := by
    decide +kernel
  have hsent : (⟨.upstox, liveIntent "0123456789abcdef" "RELIANCE" .buy 1000000,
      (filledApproval "buy" 1000000 100).env.primary⟩ : Submission)
      ∈ (handleMessage readForged (filledApproval "buy" 1000000 100).env forgedBytes true
        50000).submissions := by
    rw [handleMessage, hread]
    dsimp only
    rw [submissions_handleApproval, horder]
    exact List.mem_cons_self
  obtain ⟨pre, inp, post, -, -, -, hsplit, -⟩ := h _ hsent
  cases pre <;> cases hsplit

/-! ## Orders for one correlation id -/

theorem sum_map_le_one_iff {α : Type*} (f : α → ℕ) (l : List α) :
    (l.map f).sum ≤ 1 ↔ (∀ a ∈ l, f a ≤ 1) ∧ l.Pairwise fun a b => f a = 0 ∨ f b = 0 := by
  induction l with
  | nil => simp
  | cons a l ih =>
    rw [List.map_cons, List.sum_cons, List.forall_mem_cons, List.pairwise_cons]
    constructor
    · intro h
      obtain ⟨hle, hpair⟩ := ih.mp (by omega)
      refine ⟨⟨by omega, hle⟩, ?_, hpair⟩
      intro b hb
      have hb' : f b ≤ (l.map f).sum := List.le_sum_of_mem (List.mem_map_of_mem hb)
      omega
    · rintro ⟨⟨ha, hle⟩, hhead, hpair⟩
      have hrest := ih.mpr ⟨hle, hpair⟩
      by_cases hzero : f a = 0
      · omega
      · have hnone : (l.map f).sum = 0 := by
          rw [List.sum_eq_zero_iff]
          intro n hn
          obtain ⟨b, hb, rfl⟩ := List.mem_map.mp hn
          exact (hhead b hb).resolve_left hzero
        omega

/-- The accepted orders with a correlation id, across both brokers. -/
def acceptedOrders (maxNotionalInr : Int64) (approvals : List Approval) (cid : CorrelationId) : ℕ :=
  (submissions maxNotionalInr approvals).countP fun sub =>
    sub.script.accepted && decide (sub.intent.correlationId = cid)

/-- The message spells out an order with this correlation id, and a broker that is asked accepts it.
-/
def Approval.Placed (maxNotionalInr : Int64) (cid : CorrelationId) (a : Approval) : Prop :=
  ∃ order, namedOrder a.payload maxNotionalInr = some order ∧ order.correlationId = cid ∧
    (a.env.primary.accepted = true ∨ a.env.asksBackup = true ∧ a.env.backup.accepted = true)

/-- The message spells out an order that the primary broker accepts and answers with an error to
fail over on, and the backup accepts it too. -/
def Approval.PlacedTwice (maxNotionalInr : Int64) (a : Approval) : Prop :=
  (namedOrder a.payload maxNotionalInr).isSome = true ∧ a.env.primary.accepted = true ∧
    a.env.asksBackup = true ∧ a.env.backup.accepted = true

section Count

variable {maxNotionalInr : Int64}

/-- The accepted orders of one message. -/
def Approval.accepted (maxNotionalInr : Int64) (cid : CorrelationId) (a : Approval) : ℕ :=
  (a.route maxNotionalInr).submissions.countP fun sub =>
    sub.script.accepted && decide (sub.intent.correlationId = cid)

theorem acceptedOrders_eq_sum (approvals : List Approval) (cid : CorrelationId) :
    acceptedOrders maxNotionalInr approvals cid
      = (approvals.map (Approval.accepted maxNotionalInr cid)).sum := by
  unfold acceptedOrders submissions
  rw [List.countP_flatMap]
  rfl

theorem Approval.accepted_eq (a : Approval) (cid : CorrelationId) :
    a.accepted maxNotionalInr cid = match namedOrder a.payload maxNotionalInr with
      | none => 0
      | some order => if order.correlationId = cid then
          a.env.primary.accepted.toNat + (a.env.asksBackup && a.env.backup.accepted).toNat
        else 0 := by
  unfold accepted route
  rw [submissions_handleApproval]
  cases namedOrder a.payload maxNotionalInr with
  | none => rfl
  | some order =>
    dsimp only [Option.elim, RouteEnv.submissions]
    by_cases hcid : order.correlationId = cid
    · cases hprimary : a.env.primary.accepted <;> cases a.env.asksBackup <;>
        cases hbackup : a.env.backup.accepted <;> simp [hcid, hprimary, hbackup]
    · cases a.env.asksBackup <;> simp [hcid]

theorem Approval.accepted_eq_zero_iff (a : Approval) (cid : CorrelationId) :
    a.accepted maxNotionalInr cid = 0 ↔ ¬ a.Placed maxNotionalInr cid := by
  rw [a.accepted_eq]
  unfold Placed
  cases namedOrder a.payload maxNotionalInr with
  | none => simp
  | some order =>
    by_cases hcid : order.correlationId = cid
    · cases a.env.primary.accepted <;> cases a.env.asksBackup <;> cases a.env.backup.accepted <;>
        simp [hcid]
    · simp [hcid]

theorem Approval.accepted_le_one_iff (a : Approval) :
    (∀ cid, a.accepted maxNotionalInr cid ≤ 1) ↔ ¬ a.PlacedTwice maxNotionalInr := by
  simp only [a.accepted_eq]
  unfold PlacedTwice
  cases namedOrder a.payload maxNotionalInr with
  | none => simp
  | some order =>
    have hone : ∀ n : ℕ, (∀ cid, (if order.correlationId = cid then n else 0) ≤ 1) ↔ n ≤ 1 := by
      intro n
      constructor
      · intro h
        simpa using h order.correlationId
      · intro h cid
        split <;> omega
    dsimp only
    rw [hone]
    cases a.env.primary.accepted <;> cases a.env.asksBackup <;> cases a.env.backup.accepted <;> simp

end Count

/-- For every sequence of delivered messages and every behaviour of the brokers: no correlation id
gets two accepted orders exactly if no message has its order accepted by both brokers, and no two of
them (which may be deliveries of the same one) have an order accepted for the same correlation id.
-/
theorem one_order_per_cid_iff (maxNotionalInr : Int64) (approvals : List Approval) :
    (∀ cid, acceptedOrders maxNotionalInr approvals cid ≤ 1) ↔
      (∀ a ∈ approvals, ¬ a.PlacedTwice maxNotionalInr) ∧
        approvals.Pairwise fun a b =>
          ∀ cid, ¬ (a.Placed maxNotionalInr cid ∧ b.Placed maxNotionalInr cid) := by
  simp only [acceptedOrders_eq_sum, sum_map_le_one_iff, forall_and]
  refine and_congr ?_ ?_
  · rw [forall_comm]
    refine forall_congr' fun a => ?_
    rw [forall_comm]
    exact forall_congr' fun _ => a.accepted_le_one_iff
  · simp only [List.pairwise_iff_getElem, Approval.accepted_eq_zero_iff, not_and_or]
    exact ⟨fun h i j hi hj hij cid => h cid i j hi hj hij,
      fun h cid i j hi hj hij => h i j hi hj hij cid⟩

/-- An order the primary broker takes and whose reply gets lost. -/
def lostReplyApproval : Approval where
  payload := (filledApproval "buy" 10 10000).payload
  env :=
    { primary :=
        { reply := .error (.network "timed out")
          accepted := true
          ack_accepted := fun _ h => by cases h
          statuses := Vector.replicate 10 (.error (.network "timed out")) }
      backup :=
        { reply := .ok ⟨"A-1", none⟩
          accepted := true
          ack_accepted := fun _ _ => rfl
          statuses := Vector.replicate 10 (.ok ⟨"A-1", .filled, 10, 10000, none⟩) }
      clock := fun n => Int64.ofNat n }

/-- Two orders for one approval: after a lost reply, and after a second delivery. -/
theorem two_orders_for_one_cid :
    acceptedOrders 50000 [lostReplyApproval] ⟨parseCid "00000000000000a1"⟩ = 2 ∧
    acceptedOrders 50000 [filledApproval "buy" 10 10000, filledApproval "buy" 10 10000]
      ⟨parseCid "00000000000000a1"⟩ = 2 := by
  decide +kernel

/-! ## The notional cap -/

/-- If the signal is approved and its decision leads to a broker order, then the signal carried a
positive price at which the order costs no more than the cap. -/
def CapBites (mac : Mac) (eng : RiskEngine) (s : RiskEngineState) (signalEnv : SignalEnv) (v : Json)
    (routeEnv : RouteEnv) (maxNotionalInr : Int64) : Prop :=
  ∀ payload, (handleSignal mac eng s signalEnv v).1 = some (.decisionApproved, payload) →
    ∀ sub ∈ (handleApproval routeEnv payload true maxNotionalInr).submissions,
      ∃ p, (v.get "entry_price_paise").bind Json.asI64 = some p ∧ 0 < p ∧
        p.toInt * sub.intent.quantity.toNat / 100 ≤ maxNotionalInr.toInt

/-- For every signal, engine state and cap: the cap bites exactly if a signal that reads, has a
correlation id and passes the gates carries a positive price at which the quantity it is sized to
costs no more than the cap. -/
theorem cap_bites_iff (mac : Mac) (eng : RiskEngine) (s : RiskEngineState) (signalEnv : SignalEnv)
    (v : Json) (routeEnv : RouteEnv) (maxNotionalInr : Int64) :
    CapBites mac eng s signalEnv v routeEnv maxNotionalInr ↔
      ∀ signal, buildSignalV1 v = some signal → signalCidText v ≠ "" →
        firstFailing eng s (evalInput signalEnv v signal) = none →
        ∃ p, (v.get "entry_price_paise").bind Json.asI64 = some p ∧ 0 < p ∧
          p.toInt * (approvedQuantity eng s (evalInput signalEnv v signal)).toNat / 100
            ≤ maxNotionalInr.toInt := by
  constructor
  · intro h signal hread htext hgates
    obtain ⟨payload, hpub⟩ := handleSignal_publishes mac hread hgates
    obtain ⟨signal', symbol, hread', -, -, hspelled⟩ := namedOrder_of_published hpub
    rw [hread] at hread'
    cases hread'
    refine h payload hpub ⟨.upstox, liveIntent (signalCidText v) symbol (decidedSide signal.side)
      (approvedQuantity eng s (evalInput signalEnv v signal)), routeEnv.primary⟩ ?_
    rw [submissions_handleApproval, hspelled, if_neg htext]
    exact List.mem_cons_self
  · intro h payload hpub sub hsub
    obtain ⟨signal, symbol, hread, -, hgates, hspelled⟩ := namedOrder_of_published hpub
    rw [submissions_handleApproval, hspelled] at hsub
    split_ifs at hsub with htext
    · cases hsub
    · rw [routeEnv.intent_of_mem_submissions hsub]
      exact h signal hread htext hgates

/-- An approval is published for a signal that can be read and passes the gates. -/
theorem exists_published (mac : Mac) (eng : RiskEngine) (s : RiskEngineState) (env : SignalEnv)
    {v : Json} (hread : (buildSignalV1 v).isSome = true)
    (hgates : ((buildSignalV1 v).bind fun signal =>
      firstFailing eng s (evalInput env v signal)) = none) :
    ∃ payload, (handleSignal mac eng s env v).1 = some (.decisionApproved, payload) := by
  obtain ⟨signal, hsignal⟩ := Option.isSome_iff_exists.mp hread
  rw [hsignal, Option.bind_some] at hgates
  exact handleSignal_publishes mac hsignal hgates

/-- A signal without a price. -/
def unpricedSignal : Json := .obj
  [("symbol", .str "RELIANCE"), ("side", .str "buy"), ("correlation_id", .str "00000000000000a1")]

/-- What the service sees on a weekday morning. -/
def morning : SignalEnv := ⟨.neutral, ⟨.mon, 10, 0, 0⟩, 1, 1, 1, 1⟩

/-- The signal is approved and its order placed under any cap, here one of zero rupees. -/
theorem unpriced_order_placed :
    ¬ CapBites tailMac (makeEngineWith Defaults.risk) (makeEngineWith Defaults.risk).init morning
      unpricedSignal (filledApproval "buy" 1 100).env 0 := by
  intro h
  obtain ⟨payload, hpub⟩ := exists_published tailMac (makeEngineWith Defaults.risk)
    (makeEngineWith Defaults.risk).init morning (v := unpricedSignal) (by decide +kernel)
    (by decide +kernel)
  obtain ⟨sub, hsub⟩ := exists_submission_of_published (filledApproval "buy" 1 100).env 0 hpub
    (by decide)
  obtain ⟨p, hprice, -⟩ := h payload hpub sub hsub
  cases hprice

/-! ## The side -/

/-- The side a text names, in the spellings both services read. -/
def sideNamed (text : String) : Option Side :=
  match text with
  | "buy" | "Buy" | "BUY" => some .buy
  | "sell" | "Sell" | "SELL" => some .sell
  | _ => none

/-- The side a message names in its string field `side`, if it has one. -/
def namedSide (v : Json) : Option Side := ((v.get "side").bind Json.asStr).bind sideNamed

theorem decidedSide_signalSide (text : String) :
    decidedSide (signalSide text) = (sideNamed text).getD .buy := by
  unfold signalSide
  split
  case h_7 =>
    have hnone : sideNamed text = none := by
      unfold sideNamed
      split <;> first | rfl | contradiction
    rw [hnone]
    rfl
  all_goals rfl

/-- A signal that reads is for the side its message names, and a buy if that names none. -/
theorem decidedSide_of_read {v : Json} {signal : Signal} (hread : buildSignalV1 v = some signal) :
    decidedSide signal.side = (namedSide v).getD .buy := by
  rw [buildSignalV1_side hread, decidedSide_signalSide]
  unfold namedSide
  cases (v.get "side").bind Json.asStr with
  | none => rfl
  | some text => rfl

/-- If the signal is approved and its decision leads to a broker order, then the signal named the
side of that order. -/
def SideSurvives (mac : Mac) (eng : RiskEngine) (s : RiskEngineState) (signalEnv : SignalEnv)
    (v : Json) (routeEnv : RouteEnv) (maxNotionalInr : Int64) : Prop :=
  ∀ payload, (handleSignal mac eng s signalEnv v).1 = some (.decisionApproved, payload) →
    ∀ sub ∈ (handleApproval routeEnv payload true maxNotionalInr).submissions,
      namedSide v = some sub.intent.side

/-- For every signal, engine state and cap: the side survives exactly if a signal that reads, has a
correlation id and passes the gates names one. -/
theorem side_survives_iff (mac : Mac) (eng : RiskEngine) (s : RiskEngineState)
    (signalEnv : SignalEnv) (v : Json) (routeEnv : RouteEnv) (maxNotionalInr : Int64) :
    SideSurvives mac eng s signalEnv v routeEnv maxNotionalInr ↔
      ∀ signal, buildSignalV1 v = some signal → signalCidText v ≠ "" →
        firstFailing eng s (evalInput signalEnv v signal) = none →
        (namedSide v).isSome = true := by
  constructor
  · intro h signal hread htext hgates
    obtain ⟨payload, hpub⟩ := handleSignal_publishes mac hread hgates
    obtain ⟨sub, hsub⟩ := exists_submission_of_published routeEnv maxNotionalInr hpub htext
    rw [h payload hpub sub hsub]
    rfl
  · intro h payload hpub sub hsub
    obtain ⟨signal, symbol, hread, -, hgates, hspelled⟩ := namedOrder_of_published hpub
    rw [submissions_handleApproval, hspelled] at hsub
    split_ifs at hsub with htext
    · cases hsub
    · obtain ⟨side, hside⟩ := Option.isSome_iff_exists.mp (h signal hread htext hgates)
      rw [routeEnv.intent_of_mem_submissions hsub, hside]
      show some side = some (decidedSide signal.side)
      rw [decidedSide_of_read hread, hside]
      rfl

/-- A signal without a side. -/
def sidelessSignal : Json := .obj
  [("symbol", .str "RELIANCE"), ("correlation_id", .str "00000000000000a1")]

/-- The signal is approved and a buy order is placed for it. -/
theorem sideless_order_placed :
    ¬ SideSurvives tailMac (makeEngineWith Defaults.risk) (makeEngineWith Defaults.risk).init
      morning sidelessSignal (filledApproval "buy" 1 100).env 50000 := by
  intro h
  obtain ⟨payload, hpub⟩ := exists_published tailMac (makeEngineWith Defaults.risk)
    (makeEngineWith Defaults.risk).init morning (v := sidelessSignal) (by decide +kernel)
    (by decide +kernel)
  obtain ⟨sub, hsub⟩ := exists_submission_of_published (filledApproval "buy" 1 100).env 50000 hpub
    (by decide)
  cases h payload hpub sub hsub

end Hedge.Pipeline
