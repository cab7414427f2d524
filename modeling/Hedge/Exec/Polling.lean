import Hedge.Exec.Lifecycle
import Hedge.Exec.Service
import Mathlib.Logic.Relation

/-!
# What a polled order has published

Reference: `hedge-exec/src/main.rs` (`poll_fill`, `fill_event`, `reject_event`).

A poll ends at the first reply in a final state, or after ten replies. Only a final reply has
something published: a fill with the quantity of that reply if it is `Filled`, and a rejection with
quantity zero if it is `Rejected` or `Cancelled`. What was reported filled by any other reply is not
published.
-/

namespace Hedge.Exec

open Hedge.Common Hedge.BrokerApi

/-! ## Replies -/

/-- The replies a poll asks for: up to the first one in a final state. -/
def polledReplies : List StatusReply → List StatusReply
  | [] => []
  | .ok st :: rest => .ok st :: if st.state.isTerminal then [] else polledReplies rest
  | .error e :: rest => .error e :: polledReplies rest

/-- The states a broker reported, in order. -/
def reportedStates (replies : List StatusReply) : List OrderLifecycleState :=
  replies.filterMap fun
    | .ok st => some st.state
    | .error _ => none

/-- The filled quantities a broker reported, in order. -/
def reportedQtys (replies : List StatusReply) : List ℕ :=
  replies.filterMap fun
    | .ok st => some st.filledQty.toNat
    | .error _ => none

/-- Replies about one order: its state moves along the edges of the state machine, some of which
fall between two polls, and its filled quantity does not go down. -/
structure OrderReplies (replies : List StatusReply) : Prop where
  states : (reportedStates replies).IsChain
    (Relation.ReflTransGen fun source target => isLegalTransition source target = true)
  quantities : (reportedQtys replies).Pairwise (· ≤ ·)

/-- The largest filled quantity the broker reported during the poll; zero if it reported none. -/
def largestReported (replies : List StatusReply) : ℕ :=
  (reportedQtys (polledReplies replies)).foldr max 0

/-! ## Messages -/

/-- The `filled_qty` of an order or fill message. -/
def Message.filledQty (m : Message) : Option UInt64 :=
  ((m.payload.get "data").bind (·.get "filled_qty")).bind Json.asU64

/-- The `state` of an order or fill message. -/
def Message.state (m : Message) : Option String :=
  ((m.payload.get "data").bind (·.get "state")).bind Json.asStr

/-- The quantity published on `exec.fill.<symbol>`. -/
def publishedFills (symbol : String) (messages : List Message) : ℕ :=
  ((messages.filter (·.subject = .fill symbol)).map fun m =>
    (m.filledQty.elim 0 UInt64.toNat)).sum

/-- What was reported filled is published, and is not published as a rejection of nothing. -/
structure NoFillLost (symbol : String) (replies : List StatusReply) (messages : List Message) :
    Prop where
  published : publishedFills symbol messages = largestReported replies
  notRejected : 0 < largestReported replies →
    ∀ m ∈ messages, ¬ (m.state = some "Rejected" ∧ m.filledQty = some 0)

/-! ## The poll -/

/-- The message a final reply has published. -/
def finalMessage (correlationId symbol brokerOrderId : String) (tsNs : Int64) (st : OrderStatus) :
    Message :=
  if st.state = .filled then
    ⟨.fill symbol, fillEvent correlationId brokerOrderId symbol st.filledQty false tsNs⟩
  else rejectedMessage correlationId symbol "broker reported rejected/cancelled" tsNs

section Poll

variable (correlationId symbol brokerOrderId : String) (tsNs : Int64)

/-- `poll_fill` publishes what the first final reply says, and nothing without one. -/
theorem pollFill_eq (replies : List StatusReply) :
    pollFill correlationId symbol brokerOrderId tsNs replies
      = (settledStatus replies).toList.map (finalMessage correlationId symbol brokerOrderId tsNs)
      := by
  induction replies with
  | nil => rfl
  | cons reply rest ih =>
    cases reply with
    | error e => exact ih
    | ok st =>
      unfold pollFill settledStatus
      cases hstate : st.state with
      | filled => simp [OrderLifecycleState.isTerminal, finalMessage, hstate]
      | rejected => simp [OrderLifecycleState.isTerminal, finalMessage, rejectedMessage, hstate]
      | cancelled => simp [OrderLifecycleState.isTerminal, finalMessage, rejectedMessage, hstate]
      | new => exact ih
      | submitted => exact ih
      | partiallyFilled => exact ih

/-- A poll stops right after the first final reply. -/
theorem polledReplies_of_settled {replies : List StatusReply} {st : OrderStatus}
    (h : settledStatus replies = some st) :
    ∃ pre, polledReplies replies = pre ++ [.ok st] := by
  induction replies with
  | nil => cases h
  | cons reply rest ih =>
    cases reply with
    | error e =>
      obtain ⟨pre, hpre⟩ := ih h
      exact ⟨.error e :: pre, by rw [polledReplies, hpre]; rfl⟩
    | ok now =>
      rw [settledStatus] at h
      rw [polledReplies]
      split_ifs at h ⊢ with hterminal
      · cases h
        exact ⟨[], rfl⟩
      · obtain ⟨pre, hpre⟩ := ih h
        exact ⟨.ok now :: pre, by rw [hpre]; rfl⟩

/-- The replies asked for are the first ones of the script. -/
theorem polledReplies_prefix (replies : List StatusReply) : polledReplies replies <+: replies := by
  induction replies with
  | nil => exact List.prefix_rfl
  | cons reply rest ih =>
    cases reply with
    | error e => exact (List.prefix_cons_inj _).mpr ih
    | ok st =>
      rw [polledReplies, List.prefix_cons_inj]
      split_ifs
      · exact List.nil_prefix
      · exact ih

theorem foldr_max_eq_zero_iff (qtys : List ℕ) : qtys.foldr max 0 = 0 ↔ ∀ q ∈ qtys, q = 0 := by
  induction qtys with
  | nil => simp
  | cons q qtys ih => rw [List.foldr_cons, Nat.max_eq_zero_iff, List.forall_mem_cons, ih]

theorem foldr_max_append_singleton {qtys : List ℕ} {last : ℕ} (h : ∀ q ∈ qtys, q ≤ last) :
    (qtys ++ [last]).foldr max 0 = last := by
  induction qtys with
  | nil => simp
  | cons q qtys ih =>
    obtain ⟨hq, hqtys⟩ := List.forall_mem_cons.mp h
    rw [List.cons_append, List.foldr_cons, ih hqtys, max_eq_right hq]

/-- Quantities that do not go down are largest in the final reply. -/
theorem largestReported_of_settled {replies : List StatusReply} {st : OrderStatus}
    (hqty : (reportedQtys replies).Pairwise (· ≤ ·)) (h : settledStatus replies = some st) :
    largestReported replies = st.filledQty.toNat := by
  obtain ⟨pre, hpre⟩ := polledReplies_of_settled h
  obtain ⟨unasked, hall⟩ := polledReplies_prefix replies
  have hsplit : reportedQtys (pre ++ [.ok st]) = reportedQtys pre ++ [st.filledQty.toNat] :=
    List.filterMap_append
  have hpolled : (reportedQtys pre ++ [st.filledQty.toNat]).Pairwise (· ≤ ·) := by
    rw [← hall, reportedQtys, List.filterMap_append, ← reportedQtys, hpre, hsplit] at hqty
    exact (List.pairwise_append.mp hqty).1
  rw [largestReported, hpre, hsplit]
  refine foldr_max_append_singleton fun q hq => ?_
  exact (List.pairwise_append.mp hpolled).2.2 q hq _ (List.mem_singleton_self _)

/-- Where nothing is published as filled, nothing may have been reported. -/
theorem noFillLost_of_published_zero {replies : List StatusReply} {messages : List Message}
    (hnone : publishedFills symbol messages = 0) :
    NoFillLost symbol replies messages ↔ ∀ q ∈ reportedQtys (polledReplies replies), q = 0 := by
  rw [← foldr_max_eq_zero_iff, ← largestReported]
  constructor
  · intro h
    rw [← h.published, hnone]
  · intro h
    refine ⟨hnone.trans h.symm, ?_⟩
    intro hpos
    omega

/-- A final reply in `Filled` publishes its own quantity, the largest one. -/
theorem noFillLost_of_settled_filled {replies : List StatusReply} {st : OrderStatus}
    (hqty : (reportedQtys replies).Pairwise (· ≤ ·)) (hst : settledStatus replies = some st)
    (hfilled : st.state = .filled) :
    NoFillLost symbol replies
      ((some st).toList.map (finalMessage correlationId symbol brokerOrderId tsNs)) := by
  refine ⟨?_, ?_⟩
  · rw [largestReported_of_settled hqty hst]
    simp [publishedFills, finalMessage, hfilled, Message.filledQty, fillEvent]
  · rintro - m hm ⟨hrejected, -⟩
    simp only [Option.toList_some, List.map_singleton, List.mem_singleton] at hm
    rw [hm] at hrejected
    simp [finalMessage, hfilled, Message.state, fillEvent] at hrejected

/-- For every script of ten replies whose filled quantities do not go down: no fill is lost exactly
if the first final reply is `Filled`, or no reply of the poll reports a filled quantity. -/
theorem noFillLost_iff (replies : Vector StatusReply 10)
    (hqty : (reportedQtys replies.toList).Pairwise (· ≤ ·)) :
    NoFillLost symbol replies.toList
        (pollFill correlationId symbol brokerOrderId tsNs replies.toList) ↔
      (∃ st, settledStatus replies.toList = some st ∧ st.state = .filled) ∨
        ∀ q ∈ reportedQtys (polledReplies replies.toList), q = 0 := by
  generalize replies.toList = replies at hqty ⊢
  rw [pollFill_eq]
  cases hst : settledStatus replies with
  | none =>
    rw [noFillLost_of_published_zero _ rfl]
    refine ⟨.inr, ?_⟩
    rintro (⟨st, hnone, -⟩ | hzero)
    · cases hnone
    · exact hzero
  | some st =>
    by_cases hfilled : st.state = .filled
    · refine iff_of_true ?_ (.inl ⟨st, rfl, hfilled⟩)
      exact noFillLost_of_settled_filled _ _ _ _ hqty hst hfilled
    · have hnone : publishedFills symbol
          ((some st).toList.map (finalMessage correlationId symbol brokerOrderId tsNs)) = 0 := by
        simp [publishedFills, finalMessage, hfilled, rejectedMessage]
      rw [noFillLost_of_published_zero _ hnone]
      refine ⟨.inr, ?_⟩
      rintro (⟨_, hsome, hfilled'⟩ | hzero)
      · cases hsome
        exact absurd hfilled' hfilled
      · exact hzero

end Poll

/-! ## Two scripts -/

/-- A reply about an order of ten shares. -/
def statusReply (state : OrderLifecycleState) (filledQty : UInt64) : StatusReply :=
  .ok ⟨"ORD-1", state, filledQty, 10000, none⟩

/-- A poll that times out once, sees four shares and then all ten. -/
def filledReplies : Vector StatusReply 10 :=
  ⟨#[.error (.network "timed out"), statusReply .partiallyFilled 4] ++
    Array.replicate 8 (statusReply .filled 10), rfl⟩

/-- A poll that sees four shares filled, and then the rest cancelled. -/
def cancelledReplies : Vector StatusReply 10 :=
  ⟨#[statusReply .submitted 0, statusReply .partiallyFilled 4] ++
    Array.replicate 8 (statusReply .cancelled 4), rfl⟩

/-- All ten shares are published. -/
theorem noFillLost_of_filled :
    (reportedQtys filledReplies.toList).Pairwise (· ≤ ·) ∧
      NoFillLost "RELIANCE" filledReplies.toList
        (pollFill "0123456789abcdef" "RELIANCE" "ORD-1" 0 filledReplies.toList) := by
  have hqty : (reportedQtys filledReplies.toList).Pairwise (· ≤ ·) := by decide
  refine ⟨hqty, (noFillLost_iff _ _ _ _ filledReplies hqty).mpr (.inl ?_)⟩
  exact ⟨⟨"ORD-1", .filled, 10, 10000, none⟩, rfl, rfl⟩

/-- The four shares of a cancelled order are not published. -/
theorem partial_fill_lost :
    ¬ ∀ (correlationId symbol brokerOrderId : String) (tsNs : Int64)
      (replies : Vector StatusReply 10), OrderReplies replies.toList →
        NoFillLost symbol replies.toList
          (pollFill correlationId symbol brokerOrderId tsNs replies.toList) := by
  intro h
  have hedge : Relation.ReflTransGen (fun source target => isLegalTransition source target = true)
      .partiallyFilled .cancelled := .single rfl
  have hstates : reportedStates cancelledReplies.toList
      = .submitted :: .partiallyFilled :: List.replicate 8 .cancelled := rfl
  have hreplies : OrderReplies cancelledReplies.toList := by
    refine ⟨?_, by decide⟩
    rw [hstates]
    refine .cons_cons (.single rfl) (.cons_cons hedge ?_)
    exact List.isChain_replicate_of_rel 8 .refl
  have hlost := (h "0123456789abcdef" "RELIANCE" "ORD-1" 0 cancelledReplies hreplies).published
  exact absurd hlost (by decide)

end Hedge.Exec
