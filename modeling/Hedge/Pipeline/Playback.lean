import Hedge.Pipeline.Orders
import Hedge.Replay.Playback
import Mathlib.Data.List.ReduceOption

/-!
# A playback and the execution service

Reference: `run_play` in `hedge-replay/src/main.rs`, `handle_signal` in `hedge-risk/src/main.rs`,
`hedge-exec/src/main.rs`.

A recorded decision is played as an approval, whichever it was, and nothing marks it as played. What
keeps a rejection from becoming an order is its quantity of zero. Nothing keeps an approval from
becoming a second order: `orders_of_playback`.
-/

namespace Hedge.Pipeline

open Hedge Hedge.Common Hedge.Bus Hedge.Risk Hedge.Exec Hedge.Replay

/-! ## The two runs -/

/-- The decisions the risk service publishes on some signals. -/
def decisionsOf (mac : Mac) (eng : RiskEngine) (s : RiskEngineState)
    (signals : List (SignalEnv × Json)) : List (RiskSubject × Json) :=
  (runOutputs (fun s signal => handleSignal mac eng s signal.1 signal.2) s signals).reduceOption

/-- The decisions as messages. -/
def decisionMessages (toVec : Json → List UInt8) (decisions : List (RiskSubject × Json)) :
    List BusMessage :=
  decisions.map fun decision => ⟨decision.1.text, toVec decision.2⟩

/-- The execution service in live mode receives `messages`, and the brokers answer as each message's
`RouteEnv` says: the orders that go to the primary broker. -/
def primaryOrders (parse : List UInt8 → Option Json) (maxNotionalInr : Int64)
    (handled : List (RouteEnv × List UInt8)) : List BrokerApi.OrderIntent :=
  ((handled.flatMap fun h => (handleMessage parse h.1 h.2 true maxNotionalInr).submissions).filter
    fun sub => sub.broker = .upstox).map (·.intent)

/-! ## What becomes an order -/

/-- Whatever the brokers answer, the primary broker gets the order that each message spells out. -/
theorem primaryOrders_eq (parse : List UInt8 → Option Json) (maxNotionalInr : Int64)
    (handled : List (RouteEnv × List UInt8)) :
    primaryOrders parse maxNotionalInr handled
      = (handled.map Prod.snd).filterMap fun bytes =>
          (parse bytes).bind fun v => namedOrder v maxNotionalInr := by
  induction handled with
  | nil => rfl
  | cons h handled ih =>
    rw [primaryOrders] at ih ⊢
    rw [List.flatMap_cons, List.filter_append, List.map_append, ih, List.map_cons,
      List.filterMap_cons]
    unfold handleMessage
    cases hparse : parse h.2 with
    | none => rfl
    | some v =>
      rw [submissions_handleApproval, Option.bind_some]
      cases namedOrder v maxNotionalInr with
      | none => rfl
      | some order =>
        -- the backup broker gets the order as well or not
        unfold Option.elim RouteEnv.submissions
        split_ifs <;> rfl

/-- A rejection spells out no order: its quantity is zero. -/
theorem namedOrder_rejected {mac : Mac} {eng : RiskEngine} {s : RiskEngineState} {env : SignalEnv}
    {v payload : Json}
    (hpub : (handleSignal mac eng s env v).1 = some (.decisionRejected, payload))
    (maxNotionalInr : Int64) : namedOrder payload maxNotionalInr = none := by
  unfold handleSignal at hpub
  split at hpub
  · cases hpub
  · rename_i signal _
    dsimp only at hpub
    cases hdec : (evaluateInner mac eng s (evalInput env v signal)).1 with
    | approved token q r =>
      rw [hdec] at hpub
      cases congrArg (Option.map Prod.fst) hpub
    | rejected reason r =>
      rw [hdec] at hpub
      have hpayload := congrArg Prod.snd (Option.some.inj hpub)
      dsimp only at hpayload
      rw [← hpayload]
      simp [namedOrder, buildDecisionPayload]

/-- Of the decisions of a run only approvals spell out orders. -/
theorem namedOrder_of_rejection {mac : Mac} {eng : RiskEngine} {s : RiskEngineState}
    {signals : List (SignalEnv × Json)} {decision : RiskSubject × Json}
    (hmem : decision ∈ decisionsOf mac eng s signals) (hsubject : decision.1 = .decisionRejected)
    (maxNotionalInr : Int64) : namedOrder decision.2 maxNotionalInr = none := by
  have hout := List.reduceOption_mem_iff.mp hmem
  obtain ⟨pre, signal, post, -, hsignal⟩ := exists_split_of_mem_runOutputs hout
  obtain ⟨subject, payload⟩ := decision
  obtain rfl : subject = .decisionRejected := hsubject
  exact namedOrder_rejected hsignal maxNotionalInr

/-! ## What the two runs deliver -/

theorem subjectMatches_approved (subject : RiskSubject) :
    subjectMatches "risk.decision.approved" subject.text = decide (subject = .decisionApproved) := by
  cases subject <;> decide

/-- Live the service receives the approvals. -/
theorem delivered_decisionMessages (toVec : Json → List UInt8)
    (decisions : List (RiskSubject × Json)) :
    delivered "risk.decision.approved" (decisionMessages toVec decisions)
      = (decisions.filter fun decision => decision.1 = .decisionApproved).map
          fun decision => toVec decision.2 := by
  unfold decisionMessages
  induction decisions with
  | nil => rfl
  | cons decision decisions ih =>
    rw [List.map_cons, delivered_cons, ih, subjectMatches_approved, List.filter_cons]
    split_ifs <;> rfl

theorem subjectMatches_playSubject (kind : RecordKind) :
    subjectMatches "risk.decision.approved" (playSubject kind)
      = decide (kind = .riskDecision) := by
  cases kind with
  | aiDecision source =>
    exact (by decide : subjectMatches "risk.decision.approved" "ai.replay" = false)
  | _ => decide

/-- On a playback it receives every recorded decision. -/
theorem delivered_played (toVec : Json → List UInt8) (records : List ReplayRecord) :
    delivered "risk.decision.approved" (records.flatMap (playRecord toVec))
      = payloadsOf .riskDecision records := by
  have hrecord : ∀ record, delivered "risk.decision.approved" (playRecord toVec record)
      = if record.kind = .riskDecision then [record.payload] else [] := by
    intro record
    unfold playRecord
    split
    case h_1 htick =>
      have hmd : ∀ stem symbol, tokensOf stem = "md" :: (tokensOf stem).tail →
          subjectMatches "risk.decision.approved" (stem ++ "." ++ symbol) = false := by
        intro stem symbol hstem
        have hpattern : tokensOf "risk.decision.approved" = ["risk", "decision", "approved"] := by
          decide
        rw [subjectMatches, tokensOf_append_dot, hstem, hpattern]
        rfl
      have hother : subjectMatches "risk.decision.approved" "md.tick.1" = false := by decide
      rw [if_neg (by rw [htick]; decide), playTick]
      split_ifs
      · rw [delivered_cons, delivered_cons, hmd "md.tick.bin" _ (by decide),
          hmd "md.tick" _ (by decide)]
        rfl
      · rw [delivered_cons, hother]
        rfl
    case h_2 hother =>
      rw [delivered_cons, subjectMatches_playSubject]
      simp only [decide_eq_true_eq, delivered_nil, List.append_nil]
  rw [delivered_flatMap, payloadsOf]
  induction records with
  | nil => rfl
  | cons record records ih =>
    rw [List.flatMap_cons, ih, hrecord, List.filter_cons]
    by_cases hkind : record.kind = .riskDecision <;> simp [hkind]

/-- **A playback places the orders of the session again.** Let the records of a session hold the
decisions that the risk service published in a run, among whatever else. All of them are played as
approvals, and whatever the brokers answer in either run, the primary broker gets on the playback the
orders it got live, in the same order. -/
theorem orders_of_playback (mac : Mac) (eng : RiskEngine) (s : RiskEngineState)
    (signals : List (SignalEnv × Json)) {toVec : Json → List UInt8}
    {parse : List UInt8 → Option Json}
    (hround : ∀ decision ∈ decisionsOf mac eng s signals,
      parse (toVec decision.2) = some decision.2)
    {records : List ReplayRecord}
    (hrecorded : payloadsOf .riskDecision records
      = (decisionsOf mac eng s signals).map fun decision => toVec decision.2)
    {live played : List (RouteEnv × List UInt8)}
    (hlive : live.map Prod.snd = delivered "risk.decision.approved"
      (decisionMessages toVec (decisionsOf mac eng s signals)))
    (hplayed : played.map Prod.snd = delivered "risk.decision.approved"
      (records.flatMap (playRecord toVec)))
    (maxNotionalInr : Int64) :
    delivered "risk.decision.approved" (records.flatMap (playRecord toVec))
        = (decisionsOf mac eng s signals).map (fun decision => toVec decision.2) ∧
      primaryOrders parse maxNotionalInr played = primaryOrders parse maxNotionalInr live := by
  refine ⟨(delivered_played toVec records).trans hrecorded, ?_⟩
  have hnone : ∀ decision ∈ decisionsOf mac eng s signals, decision.1 = .decisionRejected →
      ∀ maxNotionalInr, namedOrder decision.2 maxNotionalInr = none :=
    fun _ => namedOrder_of_rejection
  rw [primaryOrders_eq, primaryOrders_eq, hlive, hplayed, delivered_played, hrecorded,
    delivered_decisionMessages]
  generalize decisionsOf mac eng s signals = decisions at hround hnone
  induction decisions with
  | nil => rfl
  | cons decision decisions ih =>
    have hhead := hround decision List.mem_cons_self
    have htail := ih (fun d hd => hround d (List.mem_cons_of_mem _ hd))
      fun d hd => hnone d (List.mem_cons_of_mem _ hd)
    rw [List.map_cons, List.filterMap_cons, htail, hhead, Option.bind_some, List.filter_cons]
    cases hsubject : decision.1 with
    | decisionApproved =>
      rw [if_pos (by decide), List.map_cons, List.filterMap_cons, hhead, Option.bind_some]
    | decisionRejected =>
      rw [hnone decision List.mem_cons_self hsubject maxNotionalInr, if_neg (by decide)]

/-- A signal of a Monday morning, and the same on a Sunday. -/
def twoSignals : List (SignalEnv × Json) :=
  [(morning, unpricedSignal), ({ morning with ist := ⟨.sun, 10, 0, 0⟩ }, unpricedSignal)]

/-- The first is approved, the second rejected. -/
def twoDecisions : List (RiskSubject × Json) :=
  decisionsOf tailMac (makeEngineWith Defaults.risk) (makeEngineWith Defaults.risk).init twoSignals

/-- The text of the approval. -/
def approvalText : List UInt8 :=
  ("\x7b\"data\":\x7b\"approved\":true,\"correlation_id\":\"00000000000000a1\"," ++
    "\"rationale\":\"approved\",\"rationale_code\":0,\"side\":\"buy\",\"sized_quantity\":1," ++
    "\"symbol\":\"RELIANCE\",\"ts_ns\":1\x7d,\"kind\":\"decision\"\x7d").toUTF8.toList

/-- The text of the rejection. -/
def rejectionText : List UInt8 :=
  ("\x7b\"data\":\x7b\"approved\":false,\"correlation_id\":\"00000000000000a1\"," ++
    "\"rationale\":\"session_closed\",\"rationale_code\":1,\"sized_quantity\":0," ++
    "\"ts_ns\":1\x7d,\"kind\":\"decision\"\x7d").toUTF8.toList

/-- A writer of the two. -/
def writeDecision (v : Json) : List UInt8 :=
  if ((v.get "data").bind (·.get "approved")).bind Json.asBool = some true then approvalText
  else rejectionText

/-- A reader of the two. -/
def readDecision (bytes : List UInt8) : Option Json :=
  if bytes = approvalText then twoDecisions[0]?.map Prod.snd
  else if bytes = rejectionText then twoDecisions[1]?.map Prod.snd
  else none

/-- The records of the two, with a tick between them. -/
def twoRecords : List ReplayRecord :=
  [⟨7, 1, 0, 0, .riskDecision, approvalText⟩, ⟨7, 2, 0, 0, .tick, []⟩,
    ⟨7, 3, 0, 0, .riskDecision, rejectionText⟩]

/-- The approval is routed again, to brokers that now take it twice; the rejection is played as an
approval too and not routed. -/
theorem orders_of_two_decisions :
    delivered "risk.decision.approved" (twoRecords.flatMap (playRecord writeDecision))
        = twoDecisions.map (fun decision => writeDecision decision.2) ∧
      primaryOrders readDecision 50000
          [(lostReplyApproval.env, approvalText), (lostReplyApproval.env, rejectionText)]
        = primaryOrders readDecision 50000 [((filledApproval "buy" 1 100).env, approvalText)] := by
  have hfirst : ∀ h : 0 < twoDecisions.length, writeDecision (twoDecisions[0]).2 = approvalText := by
    decide +kernel
  have hsecond : ∀ h : 1 < twoDecisions.length,
      writeDecision (twoDecisions[1]).2 = rejectionText := by
    decide +kernel
  have htexts : rejectionText ≠ approvalText := by decide +kernel
  have hlen : twoDecisions.length = 2 := by decide +kernel
  refine @orders_of_playback tailMac (makeEngineWith Defaults.risk)
    (makeEngineWith Defaults.risk).init twoSignals writeDecision readDecision ?_ twoRecords
    (by decide +kernel) _ _ (by decide +kernel) (by decide +kernel) 50000
  intro decision hmem
  obtain ⟨i, hi, rfl⟩ := List.mem_iff_getElem.mp hmem
  change i < twoDecisions.length at hi
  change readDecision (writeDecision (twoDecisions[i]).2) = some (twoDecisions[i]).2
  obtain rfl | rfl : i = 0 ∨ i = 1 := by omega
  · rw [hfirst hi, readDecision, if_pos rfl, List.getElem?_eq_getElem hi]
    rfl
  · rw [hsecond hi, readDecision, if_neg htexts, if_pos rfl, List.getElem?_eq_getElem hi]
    rfl

end Hedge.Pipeline
