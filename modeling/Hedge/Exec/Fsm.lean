import Hedge.Common.Run
import Hedge.Exec.Lifecycle

/-!
# The order FSM over its public mutators

Reference: the `impl OrderLifecycleTracker` block in `hedge-exec/src/lifecycle.rs`.

`OrderLifecycleTracker` gives each mutator as a function to `Except`. Here the same methods are
written the way the source runs them, as `&mut self` code over plain fields: a write made before an
early return stays. `exec_fields` connects the two, so what the tracker type carries holds of every
record the methods can produce. The results are about whole sequences of calls on one tracker.
-/

namespace Hedge.Exec

open Hedge.Common

/-- The fields of a tracker, as a `&mut self` method finds them. -/
structure TrackerFields where
  correlationId : CorrelationId
  broker : BrokerId
  state : OrderLifecycleState
  requestedQty : UInt64
  filledQty : UInt64
  avgFillPaise : Int64
  brokerOrderId : Option String
deriving DecidableEq, Repr

/-- A fallible `&mut self` method. -/
abbrev Mutator (α : Type) := EStateM ExecError TrackerFields α

namespace TrackerFields

/-- `OrderLifecycleTracker::new`. -/
def new (correlationId : CorrelationId) (broker : BrokerId) (requestedQty : UInt64) :
    TrackerFields :=
  ⟨correlationId, broker, .new, requestedQty, 0, 0, none⟩

/-- `event`. -/
def event (c : TrackerFields) (tsNs : UInt64) : LifecycleEvent :=
  ⟨c.correlationId, c.broker, c.state, c.filledQty, c.avgFillPaise, c.brokerOrderId, tsNs⟩

/-- `set_broker_order_id`. -/
def setBrokerOrderId (c : TrackerFields) (id : String) : TrackerFields :=
  { c with brokerOrderId := some id }

end TrackerFields

namespace Mutator

/-- `transition_no_fill`. -/
def transitionNoFill (target : OrderLifecycleState) (tsNs : UInt64)
    (brokerOrderId : Option String) : Mutator LifecycleEvent := do
  if !isLegalTransition (← get).state target then
    throw (.invalidFsmTransition (← get).state target)
  if let some id := brokerOrderId then
    modify fun c => { c with brokerOrderId := some id }
  modify fun c => { c with state := target }
  return (← get).event tsNs

/-- `submit`. -/
def submit (brokerOrderId : Option String) (tsNs : UInt64) : Mutator LifecycleEvent :=
  transitionNoFill .submitted tsNs brokerOrderId

/-- `cancel`. -/
def cancel (tsNs : UInt64) : Mutator LifecycleEvent := transitionNoFill .cancelled tsNs none

/-- `reject`. -/
def reject (tsNs : UInt64) : Mutator LifecycleEvent := transitionNoFill .rejected tsNs none

/-- `transition`. -/
def transition (target : OrderLifecycleState) (tsNs : UInt64) : Mutator LifecycleEvent :=
  transitionNoFill target tsNs none

/-- `partial_fill`. -/
def partialFill (cumFilledQty : UInt64) (cumAvgFillPaise : Int64) (tsNs : UInt64) :
    Mutator LifecycleEvent := do
  if cumFilledQty < (← get).filledQty then
    throw (.internal ("fill regression: " ++ toString (← get).filledQty.toNat ++ " -> "
      ++ toString cumFilledQty.toNat))
  if (← get).requestedQty < cumFilledQty then
    throw (.internal ("fill overflow: " ++ toString cumFilledQty.toNat ++ " > requested "
      ++ toString (← get).requestedQty.toNat))
  let target : OrderLifecycleState :=
    if (← get).requestedQty ≤ cumFilledQty ∧ 0 < (← get).requestedQty then .filled
    else .partiallyFilled
  if !isLegalTransition (← get).state target then
    throw (.invalidFsmTransition (← get).state target)
  modify fun c => { c with filledQty := cumFilledQty }
  modify fun c => { c with avgFillPaise := cumAvgFillPaise }
  modify fun c => { c with state := target }
  return (← get).event tsNs

end Mutator

/-! ## The methods and the tracker type -/

/-- The fields of a tracker. -/
def OrderLifecycleTracker.fields (t : OrderLifecycleTracker) : TrackerFields :=
  ⟨t.correlationId, t.broker, t.state, t.requestedQty, t.filledQty, t.avgFillPaise,
    t.brokerOrderId⟩

/-- The result of a method and the fields it leaves, when the tracker was `t`. -/
def OrderLifecycleTracker.report (t : OrderLifecycleTracker) :
    Except ExecError (LifecycleEvent × OrderLifecycleTracker) →
      EStateM.Result ExecError TrackerFields LifecycleEvent
  | .ok (event, t') => .ok event t'.fields
  | .error err => .error err t.fields

theorem run_transitionNoFill (t : OrderLifecycleTracker) (target : OrderLifecycleState)
    (tsNs : UInt64) (id : Option String) :
    (Mutator.transitionNoFill target tsNs id).run t.fields =
      t.report (t.transitionNoFill target tsNs id) := by
  unfold Mutator.transitionNoFill
  by_cases hlegal : isLegalTransition t.fields.state target = true
  · rw [OrderLifecycleTracker.transitionNoFill_of_legal hlegal]
    simp only [EStateM.run_bind, EStateM.run_get, hlegal]
    cases id <;> rfl
  · rw [Bool.not_eq_true] at hlegal
    rw [OrderLifecycleTracker.transitionNoFill_of_illegal hlegal]
    simp only [EStateM.run_bind, EStateM.run_get, hlegal]
    rfl

theorem run_partialFill (t : OrderLifecycleTracker) (qty : UInt64) (avg : Int64) (tsNs : UInt64) :
    (Mutator.partialFill qty avg tsNs).run t.fields = t.report (t.partialFill qty avg tsNs) := by
  unfold Mutator.partialFill OrderLifecycleTracker.partialFill
  simp only [EStateM.run_bind, EStateM.run_get]
  by_cases hmono : qty < t.filledQty
  · rw [if_pos hmono, if_pos (show qty < t.fields.filledQty from hmono)]
    rfl
  rw [if_neg hmono, if_neg (show ¬ qty < t.fields.filledQty from hmono)]
  simp only [EStateM.run_bind, EStateM.run_get]
  by_cases hover : t.requestedQty < qty
  · rw [dif_pos hover, if_pos (show t.fields.requestedQty < qty from hover)]
    rfl
  rw [dif_neg hover, if_neg (show ¬ t.fields.requestedQty < qty from hover)]
  simp only [EStateM.run_bind, EStateM.run_get]
  change EStateM.run (if (!isLegalTransition t.state (t.fillTarget qty)) = true then _ else _) _ = _
  by_cases hlegal : isLegalTransition t.state (t.fillTarget qty) = true
  · simp only [hlegal]
    rfl
  · rw [Bool.not_eq_true] at hlegal
    simp only [hlegal]
    rfl

/-! ## Calls -/

/-- A call of one of the five methods that drive the FSM. -/
inductive FsmCall where
  | submit (brokerOrderId : Option String) (tsNs : UInt64)
  | partialFill (cumFilledQty : UInt64) (cumAvgFillPaise : Int64) (tsNs : UInt64)
  | cancel (tsNs : UInt64)
  | reject (tsNs : UInt64)
  | transition (target : OrderLifecycleState) (tsNs : UInt64)
deriving DecidableEq, Repr

namespace FsmCall

/-- The method as it runs over the fields. -/
def exec : FsmCall → Mutator LifecycleEvent
  | .submit id tsNs => .submit id tsNs
  | .partialFill qty avg tsNs => .partialFill qty avg tsNs
  | .cancel tsNs => .cancel tsNs
  | .reject tsNs => .reject tsNs
  | .transition target tsNs => .transition target tsNs

/-- The method on the tracker type. -/
def apply (t : OrderLifecycleTracker) :
    FsmCall → Except ExecError (LifecycleEvent × OrderLifecycleTracker)
  | .submit id tsNs => t.submit id tsNs
  | .partialFill qty avg tsNs => t.partialFill qty avg tsNs
  | .cancel tsNs => t.cancel tsNs
  | .reject tsNs => t.reject tsNs
  | .transition target tsNs => t.transition target tsNs

/-- The methods compute the functions of the tracker type; a refused call leaves the fields. -/
theorem exec_fields (call : FsmCall) (t : OrderLifecycleTracker) :
    call.exec.run t.fields = t.report (call.apply t) := by
  cases call with
  | submit id tsNs => exact run_transitionNoFill t .submitted tsNs id
  | partialFill qty avg tsNs => exact run_partialFill t qty avg tsNs
  | cancel tsNs => exact run_transitionNoFill t .cancelled tsNs none
  | reject tsNs => exact run_transitionNoFill t .rejected tsNs none
  | transition target tsNs => exact run_transitionNoFill t target tsNs none

/-- The timestamp of a call. -/
def tsNs : FsmCall → UInt64
  | .submit _ tsNs | .partialFill _ _ tsNs | .cancel tsNs | .reject tsNs
  | .transition _ tsNs => tsNs

/-- What a successful call means for the tracker. -/
theorem apply_inv {call : FsmCall} {t t' : OrderLifecycleTracker} {e : LifecycleEvent}
    (h : call.apply t = .ok (e, t')) :
    isLegalTransition t.state t'.state = true ∧ t.filledQty ≤ t'.filledQty ∧
      t'.requestedQty = t.requestedQty ∧ e = t'.event call.tsNs := by
  have hmoved : ∀ target tsNs id, t.transitionNoFill target tsNs id = .ok (e, t') →
      isLegalTransition t.state t'.state = true ∧ t.filledQty ≤ t'.filledQty ∧
        t'.requestedQty = t.requestedQty ∧ e = t'.event tsNs := by
    intro target tsNs id h
    obtain ⟨hlegal, rfl, rfl⟩ := OrderLifecycleTracker.transitionNoFill_inv h
    exact ⟨hlegal, UInt64.le_refl _, rfl, rfl⟩
  cases call with
  | partialFill qty avg tsNs =>
    obtain ⟨hmono, hlegal, rfl, hle, rfl⟩ := OrderLifecycleTracker.partialFill_inv h
    exact ⟨hlegal, hmono, rfl, rfl⟩
  | submit id tsNs => exact hmoved _ _ _ h
  | cancel tsNs => exact hmoved _ _ _ h
  | reject tsNs => exact hmoved _ _ _ h
  | transition target tsNs => exact hmoved _ _ _ h

end FsmCall

/-- One call on the fields. -/
def fsmStep (c : TrackerFields) (call : FsmCall) :
    Except ExecError LifecycleEvent × TrackerFields :=
  match call.exec.run c with
  | .ok event c' => (.ok event, c')
  | .error err c' => (.error err, c')

/-- The fields after a sequence of calls. -/
abbrev fsmRun (c : TrackerFields) (calls : List FsmCall) : TrackerFields := runState fsmStep c calls

theorem fsmRun_append (c : TrackerFields) (calls calls' : List FsmCall) :
    fsmRun c (calls ++ calls') = fsmRun (fsmRun c calls) calls' :=
  runState_append c calls calls'

/-- One call, by what the tracker type computes. -/
theorem fsmStep_fields (t : OrderLifecycleTracker) (call : FsmCall) :
    fsmStep t.fields call = match call.apply t with
      | .ok (event, t') => (.ok event, t'.fields)
      | .error err => (.error err, t.fields) := by
  unfold fsmStep
  rw [FsmCall.exec_fields]
  cases call.apply t <;> rfl

/-- A call either fails and leaves the fields, or moves along a legal edge and reports where. -/
theorem fsmStep_cases (t : OrderLifecycleTracker) (call : FsmCall) :
    (∃ err, fsmStep t.fields call = (.error err, t.fields)) ∨
    ∃ t' : OrderLifecycleTracker,
      fsmStep t.fields call = (.ok (t'.fields.event call.tsNs), t'.fields) ∧
        call.apply t = .ok (t'.event call.tsNs, t') ∧
        isLegalTransition t.state t'.state = true ∧ t.filledQty ≤ t'.filledQty ∧
        t'.requestedQty = t.requestedQty := by
  rw [fsmStep_fields]
  cases happ : call.apply t with
  | error err => exact .inl ⟨err, rfl⟩
  | ok p =>
    obtain ⟨e, t'⟩ := p
    obtain ⟨hlegal, hmono, hreq, rfl⟩ := FsmCall.apply_inv happ
    exact .inr ⟨t', rfl, rfl, hlegal, hmono, hreq⟩

/-- Every record the calls can produce is the record of a tracker. -/
theorem fsmRun_fields (t : OrderLifecycleTracker) (calls : List FsmCall) :
    ∃ t' : OrderLifecycleTracker, fsmRun t.fields calls = t'.fields ∧
      t.filledQty ≤ t'.filledQty ∧ t'.requestedQty = t.requestedQty := by
  refine runState_invariant_all fsmStep
    (fun c => ∃ t' : OrderLifecycleTracker, c = t'.fields ∧
      t.filledQty ≤ t'.filledQty ∧ t'.requestedQty = t.requestedQty)
    ?_ ⟨t, rfl, UInt64.le_refl _, rfl⟩ calls
  rintro c call ⟨u, rfl, hmono, hreq⟩
  rcases fsmStep_cases u call with ⟨err, hstep⟩ | ⟨u', hstep, -, -, hmono', hreq'⟩
  · rw [hstep]
    exact ⟨u, rfl, hmono, hreq⟩
  · rw [hstep]
    exact ⟨u', rfl, UInt64.le_trans hmono hmono', hreq'.trans hreq⟩

/-! ## Safety -/

/-- The states the tracker visits: the one it starts in and the one after each successful call. -/
def visitedStates (c : TrackerFields) (calls : List FsmCall) : List OrderLifecycleState :=
  c.state :: runCollect fsmStep (fun c call => match fsmStep c call with
    | (.ok _, c') => [c'.state]
    | (.error _, _) => []) c calls

theorem visitedStates_isChain (t : OrderLifecycleTracker) (calls : List FsmCall) :
    List.IsChain (fun source target => isLegalTransition source target = true)
      (visitedStates t.fields calls) := by
  induction calls generalizing t with
  | nil => exact List.isChain_singleton _
  | cons call calls ih =>
    unfold visitedStates at ih ⊢
    rw [runCollect_cons]
    rcases fsmStep_cases t call with ⟨err, hstep⟩ | ⟨t', hstep, -, hlegal, -⟩
    · rw [hstep]
      exact ih t
    · rw [hstep]
      exact List.isChain_cons_cons.mpr ⟨hlegal, ih t'⟩

/-- A terminal tracker refuses every call. -/
theorem fsmStep_of_terminal {t : OrderLifecycleTracker} (h : t.state.isTerminal = true)
    (call : FsmCall) : ∃ err, fsmStep t.fields call = (.error err, t.fields) := by
  rcases fsmStep_cases t call with hstep | ⟨t', -, -, hlegal, -⟩
  · exact hstep
  · rw [isLegalTransition_of_terminal h] at hlegal
    cases hlegal

/-- A terminal tracker stays as it is. -/
theorem fsmRun_of_terminal {t : OrderLifecycleTracker} (h : t.state.isTerminal = true)
    (calls : List FsmCall) : fsmRun t.fields calls = t.fields := by
  induction calls with
  | nil => rfl
  | cons call calls ih =>
    obtain ⟨err, hstep⟩ := fsmStep_of_terminal h call
    rw [fsmRun, runState_cons, hstep]
    exact ih

/-- The FSM is safe over every sequence of calls on a fresh tracker. -/
theorem fsm_safety (cid : CorrelationId) (broker : BrokerId) (requestedQty : UInt64)
    (calls : List FsmCall) :
    let fresh := TrackerFields.new cid broker requestedQty
    (visitedStates fresh calls).head? = some .new ∧
    List.IsChain (fun source target => isLegalTransition source target = true)
      (visitedStates fresh calls) ∧
    (∀ pre post, calls = pre ++ post →
      (fsmRun fresh pre).filledQty ≤ (fsmRun fresh calls).filledQty) ∧
    (fsmRun fresh calls).filledQty ≤ requestedQty ∧
    (∀ pre mid call post, calls = pre ++ mid ++ call :: post →
      (fsmRun fresh pre).state.isTerminal = true →
        ∃ err, (fsmStep (fsmRun fresh (pre ++ mid)) call).1 = .error err) ∧
    (∀ pre call post, calls = pre ++ call :: post →
      (∀ err, (fsmStep (fsmRun fresh pre) call).1 = .error err →
        fsmRun fresh (pre ++ [call]) = fsmRun fresh pre) ∧
      ∀ e, (fsmStep (fsmRun fresh pre) call).1 = .ok e →
        e.state = (fsmRun fresh (pre ++ [call])).state ∧
        e.filledQty = (fsmRun fresh (pre ++ [call])).filledQty ∧
        e.avgFillPaise = (fsmRun fresh (pre ++ [call])).avgFillPaise ∧
        e.brokerOrderId = (fsmRun fresh (pre ++ [call])).brokerOrderId) := by
  intro fresh
  have hfresh : fresh = (OrderLifecycleTracker.new cid broker requestedQty).fields := rfl
  refine ⟨rfl, ?_, ?_, ?_, ?_, ?_⟩
  · rw [hfresh]
    exact visitedStates_isChain _ calls
  · intro pre post hcalls
    obtain ⟨t, hpre, -, -⟩ := fsmRun_fields (.new cid broker requestedQty) pre
    -- the run of `post` starts from the tracker that `pre` leaves
    obtain ⟨t', hpost, hmono, -⟩ := fsmRun_fields t post
    rw [hcalls, fsmRun_append, hfresh, hpre, hpost]
    exact hmono
  · obtain ⟨t, hrun, -, hreq⟩ := fsmRun_fields (.new cid broker requestedQty) calls
    rw [hfresh, hrun]
    exact UInt64.le_trans t.filled_le (UInt64.le_of_eq hreq)
  · intro pre mid call post _ hterminal
    obtain ⟨t, hpre, -, -⟩ := fsmRun_fields (.new cid broker requestedQty) pre
    rw [hfresh, hpre] at hterminal
    rw [fsmRun_append, hfresh, hpre, fsmRun_of_terminal hterminal]
    -- a terminal tracker is not changed by `mid`, so it still rejects `call`
    obtain ⟨err, hstep⟩ := fsmStep_of_terminal hterminal call
    exact ⟨err, by rw [hstep]⟩
  · intro pre call post _
    obtain ⟨t, hpre, -, -⟩ := fsmRun_fields (.new cid broker requestedQty) pre
    have hlast : fsmRun t.fields [call] = (fsmStep t.fields call).2 := rfl
    rw [fsmRun_append, hfresh, hpre, hlast]
    rcases fsmStep_cases t call with ⟨err, hstep⟩ | ⟨t', hstep, -⟩
    · rw [hstep]
      refine ⟨fun _ _ => rfl, ?_⟩
      intro e h
      cases h
    · rw [hstep]
      refine ⟨?_, ?_⟩
      · intro err h
        cases h
      · intro e h
        cases h
        exact ⟨rfl, rfl, rfl, rfl⟩

/-! ## State and filled quantity -/

/-- A call of a public mutator. -/
inductive Mutation where
  | fsm (call : FsmCall)
  | setBrokerOrderId (id : String)
deriving DecidableEq, Repr

/-- One mutation; `set_broker_order_id` returns nothing. -/
def mutationStep (c : TrackerFields) :
    Mutation → Option (Except ExecError LifecycleEvent) × TrackerFields
  | .fsm call => (some (fsmStep c call).1, (fsmStep c call).2)
  | .setBrokerOrderId id => (none, c.setBrokerOrderId id)

/-- The fields after a sequence of mutations. -/
abbrev mutationRun (c : TrackerFields) (mutations : List Mutation) : TrackerFields :=
  runState mutationStep c mutations

/-- The state says what the filled quantity says. -/
structure StateAgrees (c : TrackerFields) : Prop where
  filled : c.state = .filled → c.filledQty = c.requestedQty
  partiallyFilled : c.state = .partiallyFilled → 0 < c.filledQty ∧ c.filledQty < c.requestedQty
  unfilled : c.state = .new ∨ c.state = .submitted ∨ c.state = .rejected → c.filledQty = 0

/-- The mutation does not claim a fill that the quantity does not back. -/
def QuantityBacked (c : TrackerFields) : Mutation → Prop
  | .fsm (.partialFill qty _ _) => c.state = .submitted → 0 < qty
  | .fsm (.transition .partiallyFilled _) => c.state ≠ .submitted
  | .fsm (.transition .filled _) =>
    c.state ≠ .partiallyFilled ∧ (c.state = .submitted → c.requestedQty = 0)
  | _ => True

theorem isLegalTransition_filled {source : OrderLifecycleState}
    (h : isLegalTransition source .filled = true) :
    source = .submitted ∨ source = .partiallyFilled := by
  cases source <;> first | exact .inl rfl | exact .inr rfl | cases h

theorem isLegalTransition_partiallyFilled {source : OrderLifecycleState}
    (h : isLegalTransition source .partiallyFilled = true) :
    source = .submitted ∨ source = .partiallyFilled := by
  cases source <;> first | exact .inl rfl | exact .inr rfl | cases h

theorem isLegalTransition_fillTarget {t : OrderLifecycleTracker} {qty : UInt64}
    (h : isLegalTransition t.state (t.fillTarget qty) = true) :
    t.state = .submitted ∨ t.state = .partiallyFilled := by
  unfold OrderLifecycleTracker.fillTarget at h
  split at h
  · exact isLegalTransition_filled h
  · exact isLegalTransition_partiallyFilled h

/-- The states without a fill are only entered from each other. -/
theorem isLegalTransition_unfilled {source target : OrderLifecycleState}
    (h : isLegalTransition source target = true)
    (htarget : target = .new ∨ target = .submitted ∨ target = .rejected) :
    source = .new ∨ source = .submitted ∨ source = .rejected := by
  rcases htarget with rfl | rfl | rfl <;> cases source <;>
    first | exact .inl rfl | exact .inr (.inl rfl) | cases h

/-- A transition keeps the agreement exactly when it does not claim an unbacked fill. -/
theorem stateAgrees_moved_iff {t : OrderLifecycleTracker} (h : StateAgrees t.fields)
    {target : OrderLifecycleState} (hlegal : isLegalTransition t.state target = true)
    (id : Option String) :
    StateAgrees (t.moved target id).fields ↔
      (target = .partiallyFilled → t.state ≠ .submitted) ∧
      (target = .filled → t.state ≠ .partiallyFilled ∧
        (t.state = .submitted → t.requestedQty = 0)) := by
  obtain ⟨hfilled, hpart, hunfilled⟩ := h
  constructor
  · rintro ⟨hfilled', hpart', -⟩
    refine ⟨?_, ?_⟩
    · intro htarget hstate
      have hpos : 0 < t.filledQty := (hpart' htarget).1
      have hzero : t.filledQty = 0 := hunfilled (.inr (.inl hstate))
      rw [hzero] at hpos
      exact absurd hpos (by decide)
    · intro htarget
      have hfull : t.filledQty = t.requestedQty := hfilled' htarget
      refine ⟨?_, ?_⟩
      · intro hstate
        exact UInt64.ne_of_lt (hpart hstate).2 hfull
      · intro hstate
        exact hfull.symm.trans (hunfilled (.inr (.inl hstate)))
  · rintro ⟨hother, hnofull⟩
    refine ⟨?_, ?_, ?_⟩
    · intro htarget
      change target = .filled at htarget
      subst htarget
      rcases isLegalTransition_filled hlegal with hstate | hstate
      · have hzero : t.filledQty = 0 := hunfilled (.inr (.inl hstate))
        exact hzero.trans ((hnofull rfl).2 hstate).symm
      · exact absurd hstate (hnofull rfl).1
    · intro htarget
      change target = .partiallyFilled at htarget
      subst htarget
      rcases isLegalTransition_partiallyFilled hlegal with hstate | hstate
      · exact absurd hstate (hother rfl)
      · exact hpart hstate
    · intro htarget
      exact hunfilled (isLegalTransition_unfilled hlegal htarget)

/-- A fill keeps the agreement exactly when it does not report zero shares on a submitted order. -/
theorem stateAgrees_partialFill_iff {t : OrderLifecycleTracker} (h : StateAgrees t.fields)
    {qty : UInt64} (avg : Int64) (hmono : t.filledQty ≤ qty) (hle : qty ≤ t.requestedQty)
    (hlegal : isLegalTransition t.state (t.fillTarget qty) = true) :
    StateAgrees { t.fields with
        filledQty := qty, avgFillPaise := avg, state := t.fillTarget qty } ↔
      (t.state = .submitted → 0 < qty) := by
  constructor
  · rintro ⟨hfilled', hpart', -⟩ hstate
    unfold OrderLifecycleTracker.fillTarget at hfilled' hpart'
    by_cases hfull : t.requestedQty ≤ qty ∧ 0 < t.requestedQty
    · exact UInt64.lt_of_lt_of_le hfull.2 hfull.1
    · exact (hpart' (if_neg hfull)).1
  · intro hpos
    have hqty : 0 < qty := by
      rcases isLegalTransition_fillTarget hlegal with hstate | hstate
      · exact hpos hstate
      · exact UInt64.lt_of_lt_of_le (h.partiallyFilled hstate).1 hmono
    by_cases hfull : t.requestedQty ≤ qty ∧ 0 < t.requestedQty
    · have htarget : t.fillTarget qty = .filled := if_pos hfull
      rw [htarget]
      exact ⟨fun _ => UInt64.le_antisymm hle hfull.1, nofun, nofun⟩
    · have htarget : t.fillTarget qty = .partiallyFilled := if_neg hfull
      have hlt : qty < t.requestedQty := by
        refine UInt64.not_le.mp fun hge => hfull ⟨hge, ?_⟩
        exact UInt64.lt_of_lt_of_le hqty hle
      rw [htarget]
      exact ⟨nofun, fun _ => ⟨hqty, hlt⟩, nofun⟩

section Agreement

variable {t : OrderLifecycleTracker}

/-- The methods that keep the fill. -/
theorem stateAgrees_fsmStep_of_transition (h : StateAgrees t.fields) {call : FsmCall}
    {target : OrderLifecycleState} {tsNs : UInt64} {id : Option String}
    (hcall : call.apply t = t.transitionNoFill target tsNs id) :
    StateAgrees (fsmStep t.fields call).2 ↔
      (target = .partiallyFilled → t.state ≠ .submitted) ∧
      (target = .filled → t.state ≠ .partiallyFilled ∧
        (t.state = .submitted → t.requestedQty = 0)) := by
  rw [fsmStep_fields, hcall]
  cases hlegal : isLegalTransition t.state target with
  | true =>
    rw [OrderLifecycleTracker.transitionNoFill_of_legal hlegal]
    exact stateAgrees_moved_iff h hlegal id
  | false =>
    rw [OrderLifecycleTracker.transitionNoFill_of_illegal hlegal]
    refine ⟨fun _ => ⟨?_, ?_⟩, fun _ => h⟩
    · rintro rfl hstate
      rw [hstate] at hlegal
      cases hlegal
    · rintro rfl
      refine ⟨?_, ?_⟩
      · intro hstate
        rw [hstate] at hlegal
        cases hlegal
      · intro hstate
        rw [hstate] at hlegal
        cases hlegal

/-- A report of zero shares on a submitted order is accepted. -/
theorem partialFill_zero_of_submitted (hstate : t.state = .submitted) (hzero : t.filledQty = 0)
    (avg : Int64) (tsNs : UInt64) : ∃ p, t.partialFill 0 avg tsNs = .ok p := by
  have hregression : ¬ 0 < t.filledQty := by
    rw [hzero]
    decide
  have hover : ¬ t.requestedQty < 0 := UInt64.not_lt.mpr UInt64.zero_le
  have htarget : t.fillTarget 0 = .partiallyFilled :=
    if_neg fun hfull => UInt64.not_lt.mpr hfull.1 hfull.2
  have hlegal : isLegalTransition t.state .partiallyFilled = true := by
    rw [hstate]
    rfl
  unfold OrderLifecycleTracker.partialFill
  rw [if_neg hregression, dif_neg hover]
  simp only [htarget, hlegal]
  exact ⟨_, rfl⟩

/-- `partial_fill`. A refused fill says nothing of zero shares on a submitted order. -/
theorem stateAgrees_fsmStep_partialFill (h : StateAgrees t.fields) (qty : UInt64) (avg : Int64)
    (tsNs : UInt64) :
    StateAgrees (fsmStep t.fields (.partialFill qty avg tsNs)).2 ↔
      (t.state = .submitted → 0 < qty) := by
  rw [fsmStep_fields]
  cases hfill : t.partialFill qty avg tsNs with
  | ok p =>
    obtain ⟨e, t'⟩ := p
    obtain ⟨hmono, hlegal, -, hle, rfl⟩ := OrderLifecycleTracker.partialFill_inv hfill
    simp only [FsmCall.apply, hfill]
    exact stateAgrees_partialFill_iff h avg hmono hle hlegal
  | error err =>
    simp only [FsmCall.apply, hfill]
    refine ⟨fun _ hstate => UInt64.pos_iff_ne_zero.mpr ?_, fun _ => h⟩
    rintro rfl
    have hzero : t.filledQty = 0 := h.unfilled (.inr (.inl hstate))
    obtain ⟨p, hok⟩ := partialFill_zero_of_submitted hstate hzero avg tsNs
    rw [hok] at hfill
    cases hfill

/-- A mutation keeps the agreement exactly when the quantity backs it. -/
theorem stateAgrees_mutationStep_iff (h : StateAgrees t.fields) (m : Mutation) :
    StateAgrees (mutationStep t.fields m).2 ↔ QuantityBacked t.fields m := by
  cases m with
  | setBrokerOrderId id =>
    exact ⟨fun _ => trivial, fun _ => ⟨h.filled, h.partiallyFilled, h.unfilled⟩⟩
  | fsm call =>
    cases call with
    | partialFill qty avg tsNs => exact stateAgrees_fsmStep_partialFill h qty avg tsNs
    | submit id tsNs =>
      refine iff_of_true ?_ trivial
      exact (stateAgrees_fsmStep_of_transition h rfl).mpr ⟨nofun, nofun⟩
    | cancel tsNs =>
      refine iff_of_true ?_ trivial
      exact (stateAgrees_fsmStep_of_transition h rfl).mpr ⟨nofun, nofun⟩
    | reject tsNs =>
      refine iff_of_true ?_ trivial
      exact (stateAgrees_fsmStep_of_transition h rfl).mpr ⟨nofun, nofun⟩
    | transition target tsNs =>
      refine (stateAgrees_fsmStep_of_transition h rfl).trans ?_
      cases target <;> simp [QuantityBacked, OrderLifecycleTracker.fields]

end Agreement

/-- Every mutation of a tracker's record gives a tracker's record. -/
theorem mutationStep_fields (t : OrderLifecycleTracker) (m : Mutation) :
    ∃ t' : OrderLifecycleTracker, (mutationStep t.fields m).2 = t'.fields := by
  cases m with
  | setBrokerOrderId id => exact ⟨{ t with brokerOrderId := some id }, rfl⟩
  | fsm call =>
    rcases fsmStep_cases t call with ⟨err, hstep⟩ | ⟨t', hstep, -⟩
    · exact ⟨t, by rw [mutationStep, hstep]⟩
    · exact ⟨t', by rw [mutationStep, hstep]⟩

/-- In a run of the public mutators from a fresh tracker, the state agrees with the filled quantity
throughout exactly when every mutation is backed by the quantity where it is made. -/
theorem stateAgrees_run_iff (cid : CorrelationId) (broker : BrokerId) (requestedQty : UInt64)
    (mutations : List Mutation) :
    (∀ pre post, mutations = pre ++ post →
      StateAgrees (mutationRun (.new cid broker requestedQty) pre)) ↔
    ∀ pre m post, mutations = pre ++ m :: post →
      QuantityBacked (mutationRun (.new cid broker requestedQty) pre) m := by
  refine runState_forall_iff mutationStep (fun c => ∃ t : OrderLifecycleTracker, c = t.fields)
    StateAgrees QuantityBacked ?_ ?_ ⟨.new cid broker requestedQty, rfl⟩
    ⟨nofun, nofun, fun _ => rfl⟩
  · rintro c m ⟨t, rfl⟩
    exact mutationStep_fields t m
  · rintro c m ⟨t, rfl⟩ h
    exact stateAgrees_mutationStep_iff h m

/-- A broker report of zero shares makes a submitted order partially filled. -/
theorem partiallyFilled_without_fill :
    ¬ ∀ (cid : CorrelationId) (broker : BrokerId) (requestedQty : UInt64)
      (mutations : List Mutation),
      StateAgrees (mutationRun (.new cid broker requestedQty) mutations) := by
  intro h
  have hagrees := h ⟨1⟩ .zerodha 10 [.fsm (.submit none 100), .fsm (.partialFill 0 0 200)]
  have hpos := (hagrees.partiallyFilled (by decide)).1
  exact absurd hpos (by decide)

end Hedge.Exec
