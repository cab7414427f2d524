import Hedge.BrokerApi
import Hedge.Bus
import Hedge.Common.Bytes
import Hedge.Common.Json

/-!
# The execution service

Reference: `hedge-exec/src/main.rs`.

Handling one `risk.decision.approved` message is a function of the message and of what the two
brokers and the clock answer while it is handled (`RouteEnv`). It returns the orders it sent to a
broker and the messages it published, each in order. Logging, the sleeps between polls and the
encoding of a payload to bytes are left out.
-/

namespace Hedge.Exec

open Hedge.Common Hedge.BrokerApi Hedge.Bus

/-- The subjects the service publishes on. -/
inductive ExecSubject where
  | orderSubmitted
  | orderRejected
  | brokerFailover
  | fill (symbol : String)
deriving DecidableEq, Repr

/-- The text of a subject. -/
def ExecSubject.text : ExecSubject → String
  | orderSubmitted => "exec.order.submitted"
  | orderRejected => "exec.order.rejected"
  | brokerFailover => "exec.broker.failover"
  | fill symbol => "exec.fill." ++ symbol

/-- A published message. -/
structure Message where
  subject : ExecSubject
  payload : Json

/-- The payload of a message of the `exec.fill.>` subscription. -/
def Message.fillPayload (m : Message) : Option Json :=
  match m.subject with
  | .fill _ => some m.payload
  | _ => none

/-! ## Event builders -/

/-- `order_event`. -/
def orderEvent (correlationId brokerOrderId symbol state : String) (filledQty : UInt64)
    (paper : Bool) (tsNs : Int64) : Json :=
  .obj
    [("kind", .str "order"),
      ("data", .obj
        [("correlation_id", .str correlationId),
          ("broker_order_id", .str brokerOrderId),
          ("symbol", .str symbol),
          ("state", .str state),
          ("filled_qty", .ofU64 filledQty),
          ("ts_ns", .ofI64 tsNs)]),
      ("paper", .bool paper)]

/-- `fill_event`. -/
def fillEvent (correlationId brokerOrderId symbol : String) (qty : UInt64) (paper : Bool)
    (tsNs : Int64) : Json :=
  .obj
    [("kind", .str "fill"),
      ("data", .obj
        [("correlation_id", .str correlationId),
          ("broker_order_id", .str brokerOrderId),
          ("symbol", .str symbol),
          ("state", .str "Filled"),
          ("filled_qty", .ofU64 qty),
          ("avg_fill_paise", .null),
          ("ts_ns", .ofI64 tsNs)]),
      ("paper", .bool paper)]

/-- `reject_event`. -/
def rejectEvent (correlationId symbol reason : String) (tsNs : Int64) : Json :=
  .obj
    [("kind", .str "order"),
      ("data", .obj
        [("correlation_id", .str correlationId),
          ("symbol", .str symbol),
          ("state", .str "Rejected"),
          ("filled_qty", .ofU64 0),
          ("ts_ns", .ofI64 tsNs)]),
      ("reason", .str reason)]

/-- The `exec.broker.failover` event of `route_live`. -/
def failoverEvent (reason : String) (tsNs : Int64) : Json :=
  .obj
    [("kind", .str "broker.failover"),
      ("data", .obj
        [("from", .str "upstox"),
          ("to", .str "angel_one"),
          ("reason", .str reason),
          ("ts_ns", .ofI64 tsNs)])]

/-- `parse_cid`: up to sixteen bytes of the string, big-endian. -/
def parseCid (s : String) : BitVec 128 :=
  (s.toUTF8.toList.take 16).foldl (fun acc b => (acc <<< 8) ||| b.toBitVec.setWidth 128) 0

/-- `parse_cid` is the big-endian reading of the first sixteen bytes. -/
theorem parseCid_eq (text : String) :
    parseCid text = BitVec.ofNat 128 (ofBe (text.toUTF8.toList.take 16)) := by
  have hfold : ∀ (bs : List UInt8) (n : ℕ),
      bs.foldl (fun (acc : BitVec 128) b => (acc <<< 8) ||| b.toBitVec.setWidth 128)
          (BitVec.ofNat 128 n)
        = BitVec.ofNat 128 (bs.foldl (fun acc b => acc * 256 + b.toNat) n) := by
    intro bs
    induction bs with
    | nil => exact fun _ => rfl
    | cons b bs ih =>
      intro n
      rw [List.foldl_cons, List.foldl_cons, shiftLeft_or_byte, ih]
  exact hfold _ 0

/-! ## Brokers -/

/-- A reply to a status request. -/
abbrev StatusReply := Except BrokerError OrderStatus

/-- What one broker does for one approval: its reply to `submit`, whether it accepted the order,
and its replies to the ten polls. An error does not say that the order was not accepted. -/
structure BrokerScript where
  reply : Except BrokerError SubmitAck
  accepted : Bool
  ack_accepted : ∀ ack, reply = .ok ack → accepted = true
  statuses : Vector StatusReply 10

/-- What the service sees while it handles one approval. -/
structure RouteEnv where
  primary : BrokerScript
  backup : BrokerScript
  /-- The readings of `Utc::now()`, in order. -/
  clock : ℕ → Int64

/-- An order sent to a broker. -/
structure Submission where
  broker : BrokerId
  intent : BrokerApi.OrderIntent
  script : BrokerScript

/-- What the handling of one approval did. -/
structure Routed where
  submissions : List Submission
  published : List Message

/-- The payloads of the published fills. -/
def Routed.fillPayloads (r : Routed) : List Json := r.published.filterMap Message.fillPayload

/-! ## Routing -/

/-- `poll_fill`: the first reply in a final state ends the polling. -/
def pollFill (correlationId symbol brokerOrderId : String) (tsNs : Int64) :
    List StatusReply → List Message
  | [] => []
  | .ok st :: rest =>
    match st.state with
    | .filled => [⟨.fill symbol,
        fillEvent correlationId brokerOrderId symbol st.filledQty false tsNs⟩]
    | .rejected | .cancelled => [⟨.orderRejected,
        rejectEvent correlationId symbol "broker reported rejected/cancelled" tsNs⟩]
    | _ => pollFill correlationId symbol brokerOrderId tsNs rest
  | .error _ :: rest => pollFill correlationId symbol brokerOrderId tsNs rest

/-- Whether `route_live` fails over to the backup broker on an error. -/
def failsOver (e : BrokerError) : Bool :=
  e.isRetryable || match e with
    | .http _ _ => true
    | _ => false

/-- The order `route_live` builds from an approval. -/
def liveIntent (correlationId symbol : String) (side : Side) (qty : UInt64) :
    BrokerApi.OrderIntent where
  correlationId := ⟨parseCid correlationId⟩
  symbolRaw := symbolIdFor symbol
  side := side
  quantity := qty
  orderType := .market
  limitPaise := 0
  exchange := .nse

/-- The message that reports an acknowledged order. -/
def submittedMessage (correlationId symbol : String) (ack : SubmitAck) (tsNs : Int64) : Message :=
  ⟨.orderSubmitted, orderEvent correlationId ack.brokerOrderId symbol "Submitted" 0 false tsNs⟩

/-- The message that reports a rejected order. -/
def rejectedMessage (correlationId symbol reason : String) (tsNs : Int64) : Message :=
  ⟨.orderRejected, rejectEvent correlationId symbol reason tsNs⟩

/-- `route_live`. -/
def routeLive (env : RouteEnv) (correlationId symbol : String) (side : Side) (qty : UInt64)
    (pricePaise maxNotionalInr : Int64) : Routed :=
  -- Guard 2: hard notional cap.
  let notionalInr := (max pricePaise.toInt 0 * qty.toNat) / 100
  if 0 < pricePaise ∧ maxNotionalInr.toInt < notionalInr then
    ⟨[], [rejectedMessage correlationId symbol "notional_cap_exceeded" (env.clock 0)]⟩
  else if symbolIdFor symbol = 0 then
    ⟨[], [rejectedMessage correlationId symbol "unknown_symbol" (env.clock 0)]⟩
  else
    let intent := liveIntent correlationId symbol side qty
    -- Guard 3: the primary broker first.
    match env.primary.reply with
    | .ok ack =>
      ⟨[⟨.upstox, intent, env.primary⟩],
        submittedMessage correlationId symbol ack (env.clock 0) ::
          pollFill correlationId symbol ack.brokerOrderId (env.clock 1)
            env.primary.statuses.toList⟩
    | .error e =>
      if failsOver e then
        let failover : Message := ⟨.brokerFailover, failoverEvent e.display (env.clock 0)⟩
        match env.backup.reply with
        | .ok ack =>
          ⟨[⟨.upstox, intent, env.primary⟩, ⟨.angelOne, intent, env.backup⟩],
            failover :: submittedMessage correlationId symbol ack (env.clock 1) ::
              pollFill correlationId symbol ack.brokerOrderId (env.clock 2)
                env.backup.statuses.toList⟩
        | .error e2 =>
          ⟨[⟨.upstox, intent, env.primary⟩, ⟨.angelOne, intent, env.backup⟩],
            [failover, rejectedMessage correlationId symbol
              ("both brokers failed: " ++ e2.display) (env.clock 1)]⟩
      else
        ⟨[⟨.upstox, intent, env.primary⟩],
          [rejectedMessage correlationId symbol e.display (env.clock 0)]⟩

/-- Eight or more lower-case hexadecimal digits: `{:08x}`. -/
def hex8 (n : ℕ) : String :=
  let digits := Nat.toDigits 16 n
  String.ofList (List.replicate (8 - digits.length) '0' ++ digits)

/-- `route_paper`. -/
def routePaper (env : RouteEnv) (correlationId symbol : String) (qty : UInt64) : Routed :=
  let brokerOrderId := "PAPER-" ++ hex8 ((env.clock 0).toUInt64.toNat % 2 ^ 32)
  ⟨[], [⟨.orderSubmitted,
      orderEvent correlationId brokerOrderId symbol "Submitted" 0 true (env.clock 1)⟩,
    ⟨.fill symbol, fillEvent correlationId brokerOrderId symbol qty true (env.clock 2)⟩]⟩

/-- The side an approval names; anything but a spelling of `sell` is a buy. -/
def approvalSide (data : Json) : Side :=
  match ((data.get "side").bind Json.asStr).getD "buy" with
  | "sell" | "Sell" | "SELL" => .sell
  | _ => .buy

/-- `handle_approval`. -/
def handleApproval (env : RouteEnv) (v : Json) (live : Bool) (maxNotionalInr : Int64) : Routed :=
  let data := (v.get "data").getD v
  let correlationId := ((data.get "correlation_id").bind Json.asStr).getD ""
  if correlationId = "" then ⟨[], []⟩
  else
    let qty := ((data.get "sized_quantity").bind Json.asU64).getD 0
    if qty = 0 then ⟨[], []⟩
    else
      let symbol := ((data.get "symbol").bind Json.asStr).getD "UNKNOWN"
      let pricePaise := ((data.get "entry_price_paise").bind Json.asI64).getD 0
      let side := approvalSide data
      if live then routeLive env correlationId symbol side qty pricePaise maxNotionalInr
      else routePaper env correlationId symbol qty

/-! ## What a routed approval did -/

/-- The first reply in a final state. -/
def settledStatus : List StatusReply → Option OrderStatus
  | [] => none
  | .ok st :: rest => if st.state.isTerminal then some st else settledStatus rest
  | .error _ :: rest => settledStatus rest

/-- An order whose first final reply is `Filled` is published as filled, with the quantity of that
reply. -/
theorem pollFill_of_filled (correlationId symbol brokerOrderId : String) (tsNs : Int64)
    {replies : List StatusReply} {st : OrderStatus} (hst : settledStatus replies = some st)
    (hfilled : st.state = .filled) :
    pollFill correlationId symbol brokerOrderId tsNs replies
      = [⟨.fill symbol, fillEvent correlationId brokerOrderId symbol st.filledQty false tsNs⟩] := by
  induction replies with
  | nil => cases hst
  | cons reply rest ih =>
    cases reply with
    | error e => exact ih hst
    | ok now =>
      simp only [settledStatus] at hst
      split_ifs at hst with hterminal
      · cases hst
        simp only [pollFill, hfilled]
      · have hrest := ih hst
        unfold pollFill
        cases hstate : now.state <;> simp_all [OrderLifecycleState.isTerminal]

/-- What `route_live` can do: a guard stops the order; the primary broker acknowledges it, and is
polled; the primary broker refuses it for good; the backup broker acknowledges it, and is polled; or
both brokers fail. -/
theorem routeLive_cases (env : RouteEnv) (correlationId symbol : String) (side : Side)
    (qty : UInt64) (pricePaise maxNotionalInr : Int64) :
    let intent := liveIntent correlationId symbol side qty
    let r := routeLive env correlationId symbol side qty pricePaise maxNotionalInr
    (r.submissions = [] ∧ r.fillPayloads = []) ∨
    (symbolIdFor symbol ≠ 0 ∧
      ((∃ ack, env.primary.reply = .ok ack ∧
          r.submissions = [⟨.upstox, intent, env.primary⟩] ∧
          r.fillPayloads = (pollFill correlationId symbol ack.brokerOrderId (env.clock 1)
            env.primary.statuses.toList).filterMap Message.fillPayload) ∨
        (∃ e, env.primary.reply = .error e ∧ failsOver e = false ∧
          r.submissions = [⟨.upstox, intent, env.primary⟩] ∧ r.fillPayloads = []) ∨
        (∃ e ack, env.primary.reply = .error e ∧ failsOver e = true ∧
          env.backup.reply = .ok ack ∧
          r.submissions = [⟨.upstox, intent, env.primary⟩, ⟨.angelOne, intent, env.backup⟩] ∧
          r.fillPayloads = (pollFill correlationId symbol ack.brokerOrderId (env.clock 2)
            env.backup.statuses.toList).filterMap Message.fillPayload) ∨
        (∃ e e2, env.primary.reply = .error e ∧ failsOver e = true ∧
          env.backup.reply = .error e2 ∧
          r.submissions = [⟨.upstox, intent, env.primary⟩, ⟨.angelOne, intent, env.backup⟩] ∧
          r.fillPayloads = []))) := by
  intro intent r
  simp only [r, intent, routeLive]
  split_ifs with hcap hsymbol
  · exact .inl ⟨rfl, rfl⟩
  · exact .inl ⟨rfl, rfl⟩
  refine .inr ⟨hsymbol, ?_⟩
  cases hprimary : env.primary.reply with
  | ok ack => exact .inl ⟨ack, rfl, rfl, rfl⟩
  | error e =>
    dsimp only
    split_ifs with hover
    · cases hbackup : env.backup.reply with
      | ok ack => exact .inr (.inr (.inl ⟨e, ack, rfl, hover, rfl, rfl, rfl⟩))
      | error e2 => exact .inr (.inr (.inr ⟨e, e2, rfl, hover, rfl, rfl, rfl⟩))
    · exact .inr (.inl ⟨e, rfl, by simpa using hover, rfl, rfl⟩)

/-- A guard of `route_live` stops the order. -/
def liveStops (symbol : String) (qty : UInt64) (pricePaise maxNotionalInr : Int64) : Prop :=
  (0 < pricePaise ∧ maxNotionalInr.toInt < (max pricePaise.toInt 0 * qty.toNat) / 100) ∨
    symbolIdFor symbol = 0

instance (symbol : String) (qty : UInt64) (pricePaise maxNotionalInr : Int64) :
    Decidable (liveStops symbol qty pricePaise maxNotionalInr) :=
  inferInstanceAs (Decidable (_ ∨ _))

/-- The backup broker is asked. -/
def RouteEnv.asksBackup (env : RouteEnv) : Bool :=
  match env.primary.reply with
  | .ok _ => false
  | .error e => failsOver e

/-- Where an order goes: to the primary broker, and to the backup as well if the primary answers
with an error to fail over on. -/
def RouteEnv.submissions (env : RouteEnv) (intent : BrokerApi.OrderIntent) : List Submission :=
  ⟨.upstox, intent, env.primary⟩ ::
    if env.asksBackup then [⟨.angelOne, intent, env.backup⟩] else []

theorem RouteEnv.intent_of_mem_submissions (env : RouteEnv) {intent : BrokerApi.OrderIntent}
    {sub : Submission} (h : sub ∈ env.submissions intent) : sub.intent = intent := by
  unfold RouteEnv.submissions at h
  split_ifs at h
  · rcases List.mem_cons.mp h with rfl | h
    · rfl
    · rw [List.mem_singleton.mp h]
  · rw [List.mem_singleton.mp h]

theorem submissions_routeLive (env : RouteEnv) (correlationId symbol : String) (side : Side)
    (qty : UInt64) (pricePaise maxNotionalInr : Int64) :
    (routeLive env correlationId symbol side qty pricePaise maxNotionalInr).submissions
      = if liveStops symbol qty pricePaise maxNotionalInr then []
        else env.submissions (liveIntent correlationId symbol side qty) := by
  unfold routeLive
  dsimp only
  by_cases hcap : 0 < pricePaise ∧ maxNotionalInr.toInt < (max pricePaise.toInt 0 * qty.toNat) / 100
  · rw [if_pos hcap, if_pos (show liveStops .. from .inl hcap)]
  by_cases hsymbol : symbolIdFor symbol = 0
  · rw [if_neg hcap, if_pos hsymbol, if_pos (show liveStops .. from .inr hsymbol)]
  have hpass : ¬ liveStops symbol qty pricePaise maxNotionalInr := by
    rintro (h | h)
    · exact hcap h
    · exact hsymbol h
  rw [if_neg hcap, if_neg hsymbol, if_neg hpass, RouteEnv.submissions, RouteEnv.asksBackup]
  cases env.primary.reply with
  | ok ack => rfl
  | error e =>
    dsimp only
    split_ifs
    · cases env.backup.reply <;> rfl
    · rfl

/-- The order a message spells out, if it gets past the checks of the live path. -/
def namedOrder (v : Json) (maxNotionalInr : Int64) : Option BrokerApi.OrderIntent :=
  let data := (v.get "data").getD v
  let correlationId := ((data.get "correlation_id").bind Json.asStr).getD ""
  let qty := ((data.get "sized_quantity").bind Json.asU64).getD 0
  let symbol := ((data.get "symbol").bind Json.asStr).getD "UNKNOWN"
  let pricePaise := ((data.get "entry_price_paise").bind Json.asI64).getD 0
  if correlationId = "" then none
  else if qty = 0 then none
  else if liveStops symbol qty pricePaise maxNotionalInr then none
  else some (liveIntent correlationId symbol (approvalSide data) qty)

/-- In live mode the brokers get the order a message spells out, and nothing else of the message is
looked at. -/
theorem submissions_handleApproval (env : RouteEnv) (v : Json) (maxNotionalInr : Int64) :
    (handleApproval env v true maxNotionalInr).submissions
      = (namedOrder v maxNotionalInr).elim [] env.submissions := by
  simp only [handleApproval, namedOrder, if_true]
  split_ifs with hcid hqty hstop
  · rfl
  · rfl
  · rw [submissions_routeLive, if_pos hstop]
    rfl
  · rw [submissions_routeLive, if_neg hstop]
    rfl

end Hedge.Exec
