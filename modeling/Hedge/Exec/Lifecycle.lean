import Hedge.Exec.Error

/-!
# Order lifecycle

Reference: `hedge-exec/src/lifecycle.rs`.

A mutator that returns `Result<LifecycleEvent, ExecError>` is a function to `Except`: on success it
gives the event and the new tracker, on failure the tracker is the one the caller still holds. The
tracker carries the bound on its cumulative fill.
-/

namespace Hedge.Exec

/-- The event published on `exec.order.<state>` after a transition. -/
structure LifecycleEvent where
  correlationId : CorrelationId
  broker : BrokerId
  state : OrderLifecycleState
  filledQty : UInt64
  avgFillPaise : Int64
  brokerOrderId : Option String
  tsNs : UInt64
deriving DecidableEq, Repr

/-- FSM-tracked order. -/
structure OrderLifecycleTracker where
  correlationId : CorrelationId
  broker : BrokerId
  state : OrderLifecycleState
  requestedQty : UInt64
  filledQty : UInt64
  avgFillPaise : Int64
  brokerOrderId : Option String
  filled_le : filledQty ≤ requestedQty
deriving DecidableEq

/-- The legal edges of the FSM. -/
def isLegalTransition : (source target : OrderLifecycleState) → Bool
  | .new, .submitted => true
  | .submitted, .partiallyFilled => true
  | .submitted, .filled => true
  | .submitted, .cancelled => true
  | .submitted, .rejected => true
  | .partiallyFilled, .partiallyFilled => true
  | .partiallyFilled, .filled => true
  | .partiallyFilled, .cancelled => true
  | _, _ => false

/-- Terminal states have no outgoing edges. -/
theorem isLegalTransition_of_terminal {source : OrderLifecycleState}
    (h : source.isTerminal = true) (target : OrderLifecycleState) :
    isLegalTransition source target = false := by
  cases source <;> first | rfl | cases h

namespace OrderLifecycleTracker

/-- A fresh tracker in the `New` state. -/
def new (correlationId : CorrelationId) (broker : BrokerId) (requestedQty : UInt64) :
    OrderLifecycleTracker where
  correlationId := correlationId
  broker := broker
  state := .new
  requestedQty := requestedQty
  filledQty := 0
  avgFillPaise := 0
  brokerOrderId := none
  filled_le := UInt64.zero_le

/-- The event that reports the current state. -/
def event (t : OrderLifecycleTracker) (tsNs : UInt64) : LifecycleEvent :=
  ⟨t.correlationId, t.broker, t.state, t.filledQty, t.avgFillPaise, t.brokerOrderId, tsNs⟩

/-- The tracker in its new state; a broker order id replaces the old one only if it is given. -/
def moved (t : OrderLifecycleTracker) (target : OrderLifecycleState)
    (brokerOrderId : Option String) : OrderLifecycleTracker :=
  { t with state := target, brokerOrderId := brokerOrderId.orElse fun _ => t.brokerOrderId }

/-- `transition_no_fill`: a checked edge that keeps the fill. -/
def transitionNoFill (t : OrderLifecycleTracker) (target : OrderLifecycleState) (tsNs : UInt64)
    (brokerOrderId : Option String) : Except ExecError (LifecycleEvent × OrderLifecycleTracker) :=
  if !isLegalTransition t.state target then .error (.invalidFsmTransition t.state target)
  else .ok ((t.moved target brokerOrderId).event tsNs, t.moved target brokerOrderId)

/-- Move to `Submitted`. -/
def submit (t : OrderLifecycleTracker) (brokerOrderId : Option String) (tsNs : UInt64) :
    Except ExecError (LifecycleEvent × OrderLifecycleTracker) :=
  t.transitionNoFill .submitted tsNs brokerOrderId

/-- Move to `Cancelled`. -/
def cancel (t : OrderLifecycleTracker) (tsNs : UInt64) :
    Except ExecError (LifecycleEvent × OrderLifecycleTracker) :=
  t.transitionNoFill .cancelled tsNs none

/-- Move to `Rejected`. -/
def reject (t : OrderLifecycleTracker) (tsNs : UInt64) :
    Except ExecError (LifecycleEvent × OrderLifecycleTracker) :=
  t.transitionNoFill .rejected tsNs none

/-- Generic transition entry point. -/
def transition (t : OrderLifecycleTracker) (target : OrderLifecycleState) (tsNs : UInt64) :
    Except ExecError (LifecycleEvent × OrderLifecycleTracker) :=
  t.transitionNoFill target tsNs none

/-- The state a cumulative fill leads to. -/
def fillTarget (t : OrderLifecycleTracker) (cumFilledQty : UInt64) : OrderLifecycleState :=
  if t.requestedQty ≤ cumFilledQty ∧ 0 < t.requestedQty then .filled else .partiallyFilled

/-- Apply a cumulative fill. -/
def partialFill (t : OrderLifecycleTracker) (cumFilledQty : UInt64) (cumAvgFillPaise : Int64)
    (tsNs : UInt64) : Except ExecError (LifecycleEvent × OrderLifecycleTracker) :=
  if cumFilledQty < t.filledQty then
    .error (.internal ("fill regression: " ++ toString t.filledQty.toNat ++ " -> "
      ++ toString cumFilledQty.toNat))
  else if hover : t.requestedQty < cumFilledQty then
    .error (.internal ("fill overflow: " ++ toString cumFilledQty.toNat ++ " > requested "
      ++ toString t.requestedQty.toNat))
  else
    let target := t.fillTarget cumFilledQty
    if !isLegalTransition t.state target then .error (.invalidFsmTransition t.state target)
    else
      let t := { t with
        filledQty := cumFilledQty
        avgFillPaise := cumAvgFillPaise
        state := target
        filled_le := UInt64.not_lt.mp hover }
      .ok (t.event tsNs, t)

theorem transitionNoFill_of_legal {t : OrderLifecycleTracker} {target : OrderLifecycleState}
    (h : isLegalTransition t.state target = true) (tsNs : UInt64) (id : Option String) :
    t.transitionNoFill target tsNs id = .ok ((t.moved target id).event tsNs, t.moved target id) := by
  simp [transitionNoFill, h]

theorem transitionNoFill_of_illegal {t : OrderLifecycleTracker} {target : OrderLifecycleState}
    (h : isLegalTransition t.state target = false) (tsNs : UInt64) (id : Option String) :
    t.transitionNoFill target tsNs id = .error (.invalidFsmTransition t.state target) := by
  simp [transitionNoFill, h]

/-- What an accepted transition means for the tracker. -/
theorem transitionNoFill_inv {t t' : OrderLifecycleTracker} {target : OrderLifecycleState}
    {tsNs : UInt64} {id : Option String} {e : LifecycleEvent}
    (h : t.transitionNoFill target tsNs id = .ok (e, t')) :
    isLegalTransition t.state target = true ∧ e = t'.event tsNs ∧ t' = t.moved target id := by
  cases hlegal : isLegalTransition t.state target with
  | false =>
    rw [transitionNoFill_of_illegal hlegal] at h
    cases h
  | true =>
    rw [transitionNoFill_of_legal hlegal] at h
    cases h
    exact ⟨rfl, rfl, rfl⟩

/-- What an accepted fill means for the tracker. -/
theorem partialFill_inv {t t' : OrderLifecycleTracker} {qty : UInt64} {avg : Int64} {tsNs : UInt64}
    {e : LifecycleEvent} (h : t.partialFill qty avg tsNs = .ok (e, t')) :
    t.filledQty ≤ qty ∧ isLegalTransition t.state (t.fillTarget qty) = true ∧
      e = t'.event tsNs ∧ ∃ hle : qty ≤ t.requestedQty,
      t' = { t with
        filledQty := qty, avgFillPaise := avg, state := t.fillTarget qty, filled_le := hle } := by
  unfold partialFill at h
  split at h
  · cases h
  rename_i hmono
  split at h
  · cases h
  rename_i hover
  by_cases hlegal : isLegalTransition t.state (t.fillTarget qty) = true
  · simp only [hlegal, Bool.not_true, Bool.false_eq_true, if_false] at h
    cases h
    exact ⟨UInt64.not_lt.mp hmono, hlegal, rfl, UInt64.not_lt.mp hover, rfl⟩
  · simp [hlegal] at h

/-- What `partial_fill` checks of a cumulative fill. -/
def AcceptsFill (t : OrderLifecycleTracker) (cumFilledQty : UInt64) : Prop :=
  t.filledQty ≤ cumFilledQty ∧ cumFilledQty ≤ t.requestedQty ∧
    isLegalTransition t.state (t.fillTarget cumFilledQty) = true

theorem partialFill_isOk_iff (t : OrderLifecycleTracker) (qty : UInt64) (avg : Int64)
    (tsNs : UInt64) : (∃ p, t.partialFill qty avg tsNs = .ok p) ↔ t.AcceptsFill qty := by
  constructor
  · rintro ⟨⟨event, t'⟩, h⟩
    obtain ⟨hmono, hlegal, -, hle, -⟩ := partialFill_inv h
    exact ⟨hmono, hle, hlegal⟩
  · rintro ⟨hmono, hle, hlegal⟩
    unfold partialFill
    rw [if_neg (UInt64.not_lt.mpr hmono), dif_neg (UInt64.not_lt.mpr hle)]
    simp only [hlegal, Bool.not_true, Bool.false_eq_true, if_false]
    exact ⟨_, rfl⟩

theorem fillTarget_ne_new (t : OrderLifecycleTracker) (qty : UInt64) : t.fillTarget qty ≠ .new := by
  unfold fillTarget
  split <;> decide

/-- From `New`, a submit succeeds. -/
theorem submit_of_new {t : OrderLifecycleTracker} (h : t.state = .new) (id : Option String)
    (tsNs : UInt64) :
    t.submit id tsNs = .ok ((t.moved .submitted id).event tsNs, t.moved .submitted id) :=
  transitionNoFill_of_legal (by rw [h]; rfl) tsNs id

/-- From any other state, a submit is refused. -/
theorem submit_of_ne_new {t : OrderLifecycleTracker} (h : t.state ≠ .new) (id : Option String)
    (tsNs : UInt64) : t.submit id tsNs = .error (.invalidFsmTransition t.state .submitted) := by
  unfold submit transitionNoFill
  cases hs : t.state <;> first | exact absurd hs h | rfl

/-- From `Submitted`, a reject succeeds. -/
theorem reject_of_submitted {t : OrderLifecycleTracker} (h : t.state = .submitted) (tsNs : UInt64) :
    t.reject tsNs = .ok ((t.moved .rejected none).event tsNs, t.moved .rejected none) :=
  transitionNoFill_of_legal (by rw [h]; rfl) tsNs none

end OrderLifecycleTracker

end Hedge.Exec
