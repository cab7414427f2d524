import Hedge.Risk.Runs
import Mathlib.Algebra.BigOperators.Group.List.Basic
import Mathlib.Data.List.Perm.Basic

/-!
# Orders in flight

Reference: `hedge-risk/src/engine.rs` (steps 6, 14 and 15 of `evaluate_inner`),
`hedge-risk/src/state.rs`.

An approval is an order that fills later, and its fill adds to the positions. The size gate reads the
positions: what is approved and has not filled yet is not among them.
-/

namespace Hedge.Risk

open Hedge.Common Hedge.Core

/-! ## Fills -/

namespace RiskState

/-- Units held of a symbol. -/
def positionOf (st : RiskState) (symbol : SymbolId) : UInt64 :=
  (st.perSymbolPosition.lookup symbol).getD 0

/-- A complete fill. -/
def fill (st : RiskState) (symbol : SymbolId) (quantity : UInt64) : RiskState :=
  { st with
    perSymbolPosition := st.perSymbolPosition.insert symbol (st.positionOf symbol + quantity)
    portfolioPosition := st.portfolioPosition + quantity }

theorem positionOf_fill (st : RiskState) (symbol sym : SymbolId) (quantity : UInt64) :
    (st.fill symbol quantity).positionOf sym
      = if sym = symbol then st.positionOf symbol + quantity else st.positionOf sym := by
  rw [positionOf, fill]
  split_ifs with h
  · rw [h, AList.lookup_insert, Option.getD_some]
  · rw [AList.lookup_insert_ne h, positionOf]

end RiskState

/-- An approval that has not filled yet. -/
structure Outstanding where
  symbol : SymbolId
  quantity : UInt64
deriving DecidableEq

/-- The engine and its approvals in flight. -/
structure FlightState where
  engine : RiskEngineState
  outstanding : List Outstanding

/-- What can happen: an action on the engine, or the fill of an approval in flight. -/
inductive FlightAction where
  | act (a : RiskAction)
  | fill (index : ℕ)

/-- The order of an approved call. -/
def approvedOrder : RiskAction → Option RiskDecision → List Outstanding
  | .evaluate inp, some (.approved _ quantity _) => [⟨⟨inp.signal.symbol⟩, quantity⟩]
  | _, _ => []

/-- One action; a fill of an approval that is not in flight does nothing. -/
def flightStep (mac : Mac) (eng : RiskEngine) (s : FlightState) :
    FlightAction → Option RiskDecision × FlightState
  | .act a =>
    let out := riskStep mac eng s.engine a
    (out.1, ⟨out.2, s.outstanding ++ approvedOrder a out.1⟩)
  | .fill index => match s.outstanding[index]? with
    | none => (none, s)
    | some o =>
      (none, ⟨{ s.engine with state := s.engine.state.fill o.symbol o.quantity },
        s.outstanding.eraseIdx index⟩)

/-! ## Caps -/

/-- The positions are within their caps. -/
structure WithinCaps (eng : RiskEngine) (st : RiskState) : Prop where
  symbol : ∀ sym, (st.positionOf sym).toNat ≤ eng.riskCfg.maxPositionPerSymbol.toNat
  portfolio : st.portfolioPosition.toNat ≤ eng.riskCfg.maxPositionPortfolio.toNat

/-- Units of a symbol in flight. -/
def pendingOf (outstanding : List Outstanding) (sym : SymbolId) : ℕ :=
  (outstanding.map fun o => if o.symbol = sym then o.quantity.toNat else 0).sum

/-- Units in flight. -/
def pending (outstanding : List Outstanding) : ℕ :=
  (outstanding.map fun o => o.quantity.toNat).sum

/-- The positions are within their caps together with some more units of a symbol and with all that
is in flight. -/
structure RoomFor (eng : RiskEngine) (s : FlightState) (symbol : SymbolId) (quantity : ℕ) :
    Prop where
  symbol : (s.engine.state.positionOf symbol).toNat + pendingOf s.outstanding symbol + quantity
    ≤ eng.riskCfg.maxPositionPerSymbol.toNat
  portfolio : s.engine.state.portfolioPosition.toNat + pending s.outstanding + quantity
    ≤ eng.riskCfg.maxPositionPortfolio.toNat

/-- A write that raises no position. -/
def NotRaising (f : RiskState → RiskState) : Prop :=
  ∀ st, (f st).portfolioPosition ≤ st.portfolioPosition ∧
    ∀ sym, (f st).positionOf sym ≤ st.positionOf sym

/-- Only fills raise the positions. -/
def FlightAction.RaisesByFills : FlightAction → Prop
  | .act (.write f) => NotRaising f
  | _ => True

/-- The signal that the size gate lets through has room beside what is in flight. -/
def GateSeesFlight (eng : RiskEngine) (s : FlightState) : FlightAction → Prop
  | .act (.evaluate inp) => positionBreached eng s.engine.state inp.signal = false →
    RoomFor eng s ⟨inp.signal.symbol⟩ (prospectiveQty inp.signal).toNat
  | _ => True

/-- What is held and what is in flight are within the caps together. -/
structure Reserved (eng : RiskEngine) (s : FlightState) : Prop where
  symbol : ∀ sym, (s.engine.state.positionOf sym).toNat + pendingOf s.outstanding sym
    ≤ eng.riskCfg.maxPositionPerSymbol.toNat
  portfolio : s.engine.state.portfolioPosition.toNat + pending s.outstanding
    ≤ eng.riskCfg.maxPositionPortfolio.toNat

section Step

variable {mac : Mac} {eng : RiskEngine} {s : FlightState}

theorem Reserved.withinCaps (h : Reserved eng s) : WithinCaps eng s.engine.state :=
  ⟨fun sym => le_trans (Nat.le_add_right _ _) (h.symbol sym),
    le_trans (Nat.le_add_right _ _) h.portfolio⟩

theorem Reserved.of_withinCaps (h : WithinCaps eng s.engine.state) (hnone : s.outstanding = []) :
    Reserved eng s := by
  refine ⟨fun sym => ?_, ?_⟩
  · rw [hnone]
    exact h.symbol sym
  · rw [hnone]
    exact h.portfolio

/-- An approval is for no more than the worst case of its gate. -/
theorem sizedQuantity_le (st : RiskState) (inp : EvalInput) (a : Int64) :
    (sizedQuantity st inp a).toNat ≤ (prospectiveQty inp.signal).toNat := by
  have hworst : (prospectiveQty inp.signal).toNat
      = max inp.signal.riskProfile.maxSizeQty.toNat 1 := UInt64.toNat_max _ _
  have hcap : ∀ q : UInt64, ((if min q inp.signal.riskProfile.maxSizeQty = 0 then 1
      else min q inp.signal.riskProfile.maxSizeQty) : UInt64).toNat
        ≤ max inp.signal.riskProfile.maxSizeQty.toNat 1 := by
    intro q
    split_ifs
    · exact le_max_right _ _
    · rw [UInt64.toNat_min]
      exact le_trans (min_le_right _ _) (le_max_left _ _)
  rw [hworst]
  exact hcap _

theorem pendingOf_append (xs ys : List Outstanding) (sym : SymbolId) :
    pendingOf (xs ++ ys) sym = pendingOf xs sym + pendingOf ys sym := by
  rw [pendingOf, List.map_append, List.sum_append, pendingOf, pendingOf]

theorem pending_append (xs ys : List Outstanding) :
    pending (xs ++ ys) = pending xs + pending ys := by
  rw [pending, List.map_append, List.sum_append, pending, pending]

/-- An approval that leaves the list takes its units along. -/
theorem sum_eraseIdx {outstanding : List Outstanding} {index : ℕ} {o : Outstanding}
    (h : outstanding[index]? = some o) (f : Outstanding → ℕ) :
    ((outstanding.eraseIdx index).map f).sum + f o = (outstanding.map f).sum := by
  obtain ⟨hlt, rfl⟩ := List.getElem?_eq_some_iff.mp h
  have hperm := (List.getElem_cons_eraseIdx_perm hlt).map f
  rw [← hperm.sum_eq, List.map_cons, List.sum_cons, Nat.add_comm]

/-- A call that the size gate lets through within the room adds to what is in flight. -/
theorem Reserved.evaluate {inp : EvalInput} (h : Reserved eng s)
    (hgate : GateSeesFlight eng s (.act (.evaluate inp))) :
    Reserved eng (flightStep mac eng s (.act (.evaluate inp))).2 := by
  obtain ⟨f, hf⟩ := evaluateInner_state_eq mac eng s.engine inp
  have hadded : (flightStep mac eng s (.act (.evaluate inp))).2.outstanding
      = s.outstanding ++ approvedOrder (.evaluate inp)
        (some (evaluateInner mac eng s.engine inp).1) := rfl
  have hstate : (flightStep mac eng s (.act (.evaluate inp))).2.engine.state
      = { s.engine.state with frequency := f } := hf
  cases hdecision : (evaluateInner mac eng s.engine inp).1 with
  | rejected reason rationale =>
    rw [hdecision] at hadded
    have hout := hadded.trans (List.append_nil _)
    refine ⟨fun sym => ?_, ?_⟩
    · rw [hstate, hout]
      exact h.symbol sym
    · rw [hstate, hout]
      exact h.portfolio
  | approved token quantity rationale =>
    obtain ⟨hgates, hquantity, -⟩ := approved_inv hdecision
    rw [hdecision] at hadded
    have hout : (flightStep mac eng s (.act (.evaluate inp))).2.outstanding
      = s.outstanding ++ [⟨⟨inp.signal.symbol⟩, quantity⟩] := hadded
    -- the gate saw room for the prospective quantity, and the approved one is at most that
    have hroom : RoomFor eng s ⟨inp.signal.symbol⟩ (prospectiveQty inp.signal).toNat :=
      hgate (hgates .positionSize)
    have hle : quantity.toNat ≤ (prospectiveQty inp.signal).toNat := by
      rw [hquantity]
      exact sizedQuantity_le _ _ _
    refine ⟨fun sym => ?_, ?_⟩
    · rw [hstate, hout, pendingOf_append]
      have hsym := h.symbol sym
      by_cases heq : (⟨inp.signal.symbol⟩ : SymbolId) = sym
      · have hsymbol := hroom.symbol
        have hone : pendingOf [⟨⟨inp.signal.symbol⟩, quantity⟩] sym = quantity.toNat := by
          simp [pendingOf, heq]
        rw [heq] at hsymbol
        rw [hone]
        show (s.engine.state.positionOf sym).toNat + _ ≤ _
        omega
      · have hzero : pendingOf [⟨⟨inp.signal.symbol⟩, quantity⟩] sym = 0 := by
          simp [pendingOf, heq]
        rw [hzero]
        exact hsym
    · have hportfolio := hroom.portfolio
      have hone : pending [⟨⟨inp.signal.symbol⟩, quantity⟩] = quantity.toNat := by simp [pending]
      rw [hstate, hout, pending_append, hone]
      show s.engine.state.portfolioPosition.toNat + _ ≤ _
      omega

/-- A fill moves units from what is in flight to what is held. -/
theorem Reserved.fill (index : ℕ) (h : Reserved eng s) :
    Reserved eng (flightStep mac eng s (.fill index)).2 := by
  rw [flightStep]
  cases ho : s.outstanding[index]? with
  | none => exact h
  | some o =>
    have hsymbol := h.symbol o.symbol
    have hportfolio := h.portfolio
    have hcapSymbol := eng.riskCfg.maxPositionPerSymbol.toNat_lt
    have hcapPortfolio := eng.riskCfg.maxPositionPortfolio.toNat_lt
    have hpending := sum_eraseIdx ho fun o => o.quantity.toNat
    have hpendingOf := fun sym =>
      sum_eraseIdx ho fun o => if o.symbol = sym then o.quantity.toNat else 0
    refine ⟨fun sym => ?_, ?_⟩
    · have hsym := h.symbol sym
      have hof := hpendingOf sym
      show ((s.engine.state.fill o.symbol o.quantity).positionOf sym).toNat
        + pendingOf (s.outstanding.eraseIdx index) sym ≤ _
      rw [RiskState.positionOf_fill]
      rw [pendingOf] at hsym ⊢
      by_cases heq : sym = o.symbol
      · subst heq
        rw [if_pos rfl] at hof ⊢
        rw [UInt64.toNat_add, Nat.mod_eq_of_lt (by omega)]
        omega
      · rw [if_neg (Ne.symm heq)] at hof
        rw [if_neg heq]
        omega
    · show (s.engine.state.portfolioPosition + o.quantity).toNat
        + pending (s.outstanding.eraseIdx index) ≤ _
      rw [pending] at hportfolio ⊢
      rw [UInt64.toNat_add, Nat.mod_eq_of_lt (by omega)]
      omega

/-- A change that raises no position keeps the reservation. -/
theorem Reserved.lower {engine : RiskEngineState} (h : Reserved eng s)
    (hport : engine.state.portfolioPosition ≤ s.engine.state.portfolioPosition)
    (hsym : ∀ sym, engine.state.positionOf sym ≤ s.engine.state.positionOf sym) :
    Reserved eng ⟨engine, s.outstanding ++ []⟩ := by
  rw [List.append_nil]
  refine ⟨fun sym => ?_, ?_⟩
  · exact le_trans (Nat.add_le_add_right (UInt64.le_iff_toNat_le.mp (hsym sym)) _) (h.symbol sym)
  · exact le_trans (Nat.add_le_add_right (UInt64.le_iff_toNat_le.mp hport) _) h.portfolio

/-- One step keeps what is held and in flight within the caps. -/
theorem Reserved.step {a : FlightAction} (h : Reserved eng s)
    (ha : a.RaisesByFills ∧ GateSeesFlight eng s a) : Reserved eng (flightStep mac eng s a).2 := by
  obtain ⟨hraise, hgate⟩ := ha
  cases a with
  | fill index => exact h.fill index
  | act a =>
    cases a with
    | evaluate inp => exact h.evaluate hgate
    | updatePnl realized unrealized capital =>
      exact h.lower (UInt64.le_refl _) fun _ => UInt64.le_refl _
    | resetSession capital => exact h.lower UInt64.zero_le fun _ => UInt64.zero_le
    | write f => exact h.lower (hraise _).1 (hraise _).2
    | killActivate reason => exact h.lower (UInt64.le_refl _) fun _ => UInt64.le_refl _
    | killReset => exact h.lower (UInt64.le_refl _) fun _ => UInt64.le_refl _

end Step

/-- In every run in which only fills raise the positions and the size gate lets a signal through
only beside what is in flight, the positions stay within their caps. -/
theorem withinCaps_of_gateSeesFlight (mac : Mac) (eng : RiskEngine) (engine : RiskEngineState)
    (acts : List FlightAction) (hstart : WithinCaps eng engine.state)
    (hfills : ∀ a ∈ acts, a.RaisesByFills)
    (hgate : ∀ pre a post, acts = pre ++ a :: post →
      GateSeesFlight eng (runState (flightStep mac eng) ⟨engine, []⟩ pre) a) :
    ∀ pre post, acts = pre ++ post →
      WithinCaps eng (runState (flightStep mac eng) ⟨engine, []⟩ pre).engine.state := by
  intro pre post hsplit
  apply Reserved.withinCaps
  refine runState_invariant_split (flightStep mac eng) (Reserved eng)
    (fun s a hI hC => hI.step hC) (.of_withinCaps hstart rfl) ?_ pre post hsplit
  intro pre a post hacts
  exact ⟨hfills a (by simp [hacts]), hgate pre a post hacts⟩

/-- A cap of fifty shares of a symbol. -/
def fiftyShares : RiskEngine := makeEngineWith { Defaults.risk with maxPositionPerSymbol := 50 }

/-- Two approvals of fifty shares before either fills: the positions pass the cap. -/
theorem caps_passed_by_two_in_flight :
    ¬ ∀ (mac : Mac) (eng : RiskEngine) (engine : RiskEngineState) (acts : List FlightAction),
      WithinCaps eng engine.state → (∀ a ∈ acts, a.RaisesByFills) →
        ∀ pre post, acts = pre ++ post →
          WithinCaps eng (runState (flightStep mac eng) ⟨engine, []⟩ pre).engine.state := by
  intro hall
  have hstart : WithinCaps fiftyShares fiftyShares.init.state :=
    ⟨fun _ => Nat.zero_le _, Nat.zero_le _⟩
  have hcaps := hall (fun _ _ => Vector.replicate 32 0) fiftyShares fiftyShares.init
    [.act (.evaluate (makeInput 100 1)), .act (.evaluate (makeInput 100 2)), .fill 0, .fill 0]
    hstart (by simp [FlightAction.RaisesByFills]) _ [] (List.append_nil _).symm
  have hsymbol := hcaps.symbol ⟨1⟩
  revert hsymbol
  decide +kernel

/-- Two orders of fifty shares are in flight together, and both fill. -/
theorem withinCaps_of_gateSeesFlight_two_orders :
    WithinCaps (makeEngineWith Defaults.risk)
      (runState (flightStep (fun _ _ => Vector.replicate 32 0) (makeEngineWith Defaults.risk))
        ⟨(makeEngineWith Defaults.risk).init, []⟩
        [.act (.evaluate (makeInput 100 1)), .act (.evaluate (makeInput 100 2)), .fill 1,
          .fill 0]).engine.state := by
  refine withinCaps_of_gateSeesFlight _ _ _ _ ⟨fun _ => Nat.zero_le _, Nat.zero_le _⟩
    (by simp [FlightAction.RaisesByFills]) ?_ _ [] (List.append_nil _).symm
  refine forall_split_cons (fun _ => ⟨by decide +kernel, by decide +kernel⟩) ?_
  refine forall_split_cons (fun _ => ⟨by decide +kernel, by decide +kernel⟩) ?_
  exact forall_split_cons trivial (forall_split_cons trivial forall_split_nil)

end Hedge.Risk
