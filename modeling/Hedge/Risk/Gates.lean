import Hedge.Risk.Engine
import Mathlib.Tactic.Ring

/-!
# The gates, in the documented order

Reference: the evaluation pipeline in `hedge-risk/src/lib.rs` and `evaluate_inner` in
`hedge-risk/src/engine.rs`.

The crate documents the pipeline as a list of gates. `evaluateInner_outcome` says that the code is
that list: the decision and the next state of a call are functions of the first gate that fails.
Every later result about `evaluateInner` goes through it.
-/

namespace Hedge.Risk

open Hedge.Common Hedge.Core

/-- The gates of the evaluation pipeline. -/
inductive Gate where
  | killSwitch
  | sessionTime
  | dailyLoss
  | drawdown
  | frequency
  | positionSize
  | leverage
  | exposure
  | slippageCooldown
  | volatilityBlock
  | brokerLatencyBlock
  | profitTarget
  | adaptiveRisk
deriving DecidableEq, Repr

namespace Gate

/-- The order of the crate documentation. -/
def documentedOrder : List Gate :=
  [killSwitch, sessionTime, dailyLoss, drawdown, frequency, positionSize, leverage, exposure,
    slippageCooldown, volatilityBlock, brokerLatencyBlock, profitTarget, adaptiveRisk]

/-- The rejection code of each gate. -/
def reason : Gate → RejectionReason
  | killSwitch => .killSwitchEngaged
  | sessionTime => .sessionClosed
  | dailyLoss => .maxDailyLoss
  | drawdown => .maxDrawdown
  | frequency => .tradeFrequency
  | positionSize => .maxPosition
  | leverage => .maxLeverage
  | exposure => .maxExposure
  | slippageCooldown => .slippageCooldown
  | volatilityBlock => .volatilityBlock
  | brokerLatencyBlock => .brokerLatencyBlock
  | profitTarget => .profitTargetReached
  | adaptiveRisk => .adaptiveRiskZero

/-- Whether the condition of a gate fails in the state before the call. -/
def fails (eng : RiskEngine) (s : RiskEngineState) (inp : EvalInput) : Gate → Bool
  | killSwitch => s.killSwitch.active
  | sessionTime => !isWithinSession eng.sessionCfg inp.ist
  | dailyLoss => dailyLossBreached eng s.state
  | drawdown => drawdownBreached eng s.state
  | frequency => (frequencyCheck eng s.state inp.frequencyNs).1
  | positionSize => positionBreached eng s.state inp.signal
  | leverage => leverageBreached eng s.state inp.signal inp.entryPricePaise
  | exposure => exposureBreached eng s.state inp.signal inp.entryPricePaise
  | slippageCooldown =>
    CooldownRegistry.isCooling s.state.cooldowns ⟨inp.signal.symbol⟩ inp.cooldownNs
  | volatilityBlock =>
    VolatilityTable.isBlocked s.state.volatility ⟨inp.signal.symbol⟩
      eng.riskCfg.volatilityBlockThreshold
  | brokerLatencyBlock => !anyBrokerOk eng s.state
  | profitTarget => s.state.target.shouldReject
  | adaptiveRisk => decide (adaptiveRiskPaise eng inp ≤ 0)

theorem mem_documentedOrder (g : Gate) : g ∈ documentedOrder := by
  cases g <;> decide

end Gate

/-- The first gate, in the documented order, that fails. -/
def firstFailing (eng : RiskEngine) (s : RiskEngineState) (inp : EvalInput) : Option Gate :=
  Gate.documentedOrder.find? (Gate.fails eng s inp)

/-- The entry of a rationale for a gate. -/
def RiskRationale.outcome (r : RiskRationale) : Gate → Option GateOutcome
  | .killSwitch => r.killSwitch
  | .sessionTime => r.sessionTime
  | .dailyLoss => r.dailyLoss
  | .drawdown => r.drawdown
  | .frequency => r.frequency
  | .positionSize => r.positionSize
  | .leverage => r.leverage
  | .exposure => r.exposure
  | .slippageCooldown => r.slippageCooldown
  | .volatilityBlock => r.volatilityBlock
  | .brokerLatencyBlock => r.brokerLatencyBlock
  | .profitTarget => r.profitTarget
  | .adaptiveRisk => r.adaptiveRisk

/-- The state with the frequency caches that step 5 refreshes. -/
def refreshFrequency (eng : RiskEngine) (s : RiskEngineState) (inp : EvalInput) :
    RiskEngineState :=
  { s with state := { s.state with frequency := (frequencyCheck eng s.state inp.frequencyNs).2 } }

/-- The state after a call whose first failing gate is `g`. -/
def stateAfter (eng : RiskEngine) (s : RiskEngineState) (inp : EvalInput) :
    Option Gate → RiskEngineState
  | some .killSwitch | some .sessionTime | some .dailyLoss => s
  | some .drawdown => { s with killSwitch := (s.killSwitch.activate .maxDrawdown).2 }
  | some _ => refreshFrequency eng s inp
  | none => { refreshFrequency eng s inp with sequence := s.sequence + 1 }

/-- The quantity an approval carries. -/
def approvedQuantity (eng : RiskEngine) (s : RiskEngineState) (inp : EvalInput) : UInt64 :=
  sizedQuantity s.state inp (adaptiveRiskPaise eng inp)

/-- An approval is for one share at least. -/
theorem approvedQuantity_ne_zero (eng : RiskEngine) (s : RiskEngineState) (inp : EvalInput) :
    approvedQuantity eng s inp ≠ 0 := by
  have hfloor : ∀ q : UInt64, (if q = 0 then 1 else q) ≠ 0 := by
    intro q
    split
    · decide
    · assumption
  exact hfloor _

/-- The tuple an approval is signed over. -/
def mintApproval (eng : RiskEngine) (s : RiskEngineState) (inp : EvalInput) : Approval :=
  ⟨mintIntent inp.signal (approvedQuantity eng s inp), approvedQuantity eng s inp, inp.mintNs,
    s.sequence⟩

/-- What a call returns and leaves behind, as a function of its first failing gate. -/
structure Outcome (mac : Mac) (eng : RiskEngine) (s : RiskEngineState) (inp : EvalInput)
    (result : RiskDecision × RiskEngineState) (first : Option Gate) : Prop where
  rejected : ∀ g, first = some g → ∃ r : RiskRationale,
    result.1 = .rejected g.reason r ∧ r.outcome g = some (.reject g.reason)
  approved : first = none → ∃ r : RiskRationale,
    result.1 = .approved (sign mac eng.key (mintApproval eng s inp)) (approvedQuantity eng s inp) r ∧
      ∀ g, r.outcome g = some .pass
  state : result.2 = stateAfter eng s inp first

/-- One step of a cascade of early returns against one step of a search. -/
theorem ite_find?_cons {α β : Type*} {P : α → Option β → Prop} {p : β → Bool} {c : Prop}
    [Decidable c] {x y : α} {b : β} {bs : List β} (hc : p b = true ↔ c)
    (ht : P x (some b)) (hf : P y (bs.find? p)) :
    P (if c then x else y) ((b :: bs).find? p) := by
  by_cases h : c
  · rwa [if_pos h, List.find?_cons_of_pos (hc.mpr h)]
  · rwa [if_neg h, List.find?_cons_of_neg (fun hb => h (hc.mp hb))]

/-- A call that returns at gate `g`. -/
theorem Outcome.of_rejected {mac : Mac} {eng : RiskEngine} {s : RiskEngineState}
    {inp : EvalInput} {result : RiskDecision × RiskEngineState} {g : Gate} {r : RiskRationale}
    (hd : result.1 = .rejected g.reason r) (hr : r.outcome g = some (.reject g.reason))
    (hs : result.2 = stateAfter eng s inp (some g)) :
    Outcome mac eng s inp result (some g) where
  rejected g' hg := by
    obtain rfl := Option.some.inj hg
    exact ⟨r, hd, hr⟩
  approved h := by cases h
  state := hs

/-- Sizing does not look at the frequency counters. -/
theorem sizedQuantity_refreshFrequency (eng : RiskEngine) (s : RiskEngineState) (inp : EvalInput)
    (a : Int64) :
    sizedQuantity (refreshFrequency eng s inp).state inp a = sizedQuantity s.state inp a := by
  unfold sizedQuantity refreshFrequency
  rfl

/-- A call that passes every gate. -/
theorem Outcome.of_approved {mac : Mac} {eng : RiskEngine} {s : RiskEngineState}
    {inp : EvalInput} {q : UInt64} {r : RiskRationale} (hq : q = approvedQuantity eng s inp)
    (hr : ∀ g, r.outcome g = some .pass) :
    Outcome mac eng s inp
      (.approved (sign mac eng.key ⟨mintIntent inp.signal q, q, inp.mintNs, s.sequence⟩) q r,
        { refreshFrequency eng s inp with sequence := s.sequence + 1 }) none where
  rejected g h := by cases h
  approved _ := by
    subst hq
    exact ⟨r, rfl, hr⟩
  state := rfl

/-- `evaluate_inner` is the documented pipeline. -/
theorem evaluateInner_outcome (mac : Mac) (eng : RiskEngine) (s : RiskEngineState)
    (inp : EvalInput) :
    Outcome mac eng s inp (evaluateInner mac eng s inp) (firstFailing eng s inp) := by
  unfold evaluateInner firstFailing Gate.documentedOrder
  -- peel the gates off one by one; each early return is the rejection of its own gate
  iterate 12
    refine ite_find?_cons (P := Outcome mac eng s inp) Iff.rfl (.of_rejected rfl rfl rfl) ?_
  refine ite_find?_cons (P := Outcome mac eng s inp) (by simp [Gate.fails])
    (.of_rejected rfl rfl rfl) ?_
  exact .of_approved (sizedQuantity_refreshFrequency eng s inp _) (fun g => by cases g <;> rfl)

section Corollaries

variable {mac : Mac} {eng : RiskEngine} {s : RiskEngineState} {inp : EvalInput}

theorem evaluateInner_state :
    (evaluateInner mac eng s inp).2 = stateAfter eng s inp (firstFailing eng s inp) :=
  (evaluateInner_outcome mac eng s inp).state

theorem firstFailing_eq_none_iff :
    firstFailing eng s inp = none ↔ ∀ g : Gate, g.fails eng s inp = false := by
  simp only [firstFailing, List.find?_eq_none, Bool.not_eq_true]
  exact ⟨fun h g => h g g.mem_documentedOrder, fun h g _ => h g⟩

/-- The reason of a decision is that of the first failing gate. -/
theorem evaluateInner_rejectionReason (mac : Mac) (eng : RiskEngine) (s : RiskEngineState)
    (inp : EvalInput) :
    (evaluateInner mac eng s inp).1.rejectionReason = (firstFailing eng s inp).map Gate.reason := by
  have ho := evaluateInner_outcome mac eng s inp
  cases h : firstFailing eng s inp with
  | none =>
    obtain ⟨r, hd, -⟩ := ho.approved h
    simp [hd, RiskDecision.rejectionReason]
  | some g =>
    obtain ⟨r, hd, -⟩ := ho.rejected g h
    simp [hd, RiskDecision.rejectionReason]

/-- A call is approved exactly when no gate fails. -/
theorem evaluateInner_isApproved_iff :
    (evaluateInner mac eng s inp).1.isApproved = true ↔ firstFailing eng s inp = none := by
  have ho := evaluateInner_outcome mac eng s inp
  cases h : firstFailing eng s inp with
  | none =>
    obtain ⟨r, hd, -⟩ := ho.approved h
    simp [hd, RiskDecision.isApproved]
  | some g =>
    obtain ⟨r, hd, -⟩ := ho.rejected g h
    simp [hd, RiskDecision.isApproved]

/-- An approved call passed every gate and carries `approvedQuantity`. -/
theorem approved_inv {token : ApprovalToken} {q : UInt64} {r : RiskRationale}
    (h : (evaluateInner mac eng s inp).1 = .approved token q r) :
    (∀ g : Gate, g.fails eng s inp = false) ∧ q = approvedQuantity eng s inp ∧
      token = sign mac eng.key (mintApproval eng s inp) := by
  have hnone := evaluateInner_isApproved_iff.mp (congrArg RiskDecision.isApproved h)
  obtain ⟨r', hd, -⟩ := (evaluateInner_outcome mac eng s inp).approved hnone
  rw [h] at hd
  cases hd
  exact ⟨firstFailing_eq_none_iff.mp hnone, rfl, rfl⟩

end Corollaries

/-! ## What the gates bound

Each gate that compares money or quantities is stated over exact integers: neither the saturating
operations nor the casts of the code change what it admits. -/

section Bounds

variable {eng : RiskEngine} {st : RiskState} {signal : Signal}

/-- The loss gate on the exact sum of the two PnL figures. -/
theorem dailyLossBreached_iff : dailyLossBreached eng st = true ↔
    st.realizedPnlPaise.toInt + st.unrealizedPnlPaise.toInt
      ≤ -(eng.riskCfg.maxDailyLossInr.toNat * 100) := by
  have hlimit := eng.riskCfg.maxDailyLossInr.toNat_lt
  simp only [dailyLossBreached, decide_eq_true_eq, Int64.le_iff_toInt_le, RiskState.totalPnlPaise,
    Int64.toInt_saturatingAdd, Int64.toInt_neg_fromU32_mul_hundred]
  omega

theorem drawdownBreached_iff : drawdownBreached eng st = true ↔
    (eng.riskCfg.maxDrawdownInr.toNat * 100 : ℤ) ≤ st.drawdownPaise.toInt := by
  simp only [drawdownBreached, decide_eq_true_eq, Int64.le_iff_toInt_le,
    Int64.toInt_fromU32_mul_hundred]

/-- Both position caps hold for the worst-case quantity. -/
theorem positionBreached_eq_false_iff : positionBreached eng st signal = false ↔
    (currentPerSymbol st signal).toNat + (prospectiveQty signal).toNat
        ≤ eng.riskCfg.maxPositionPerSymbol.toNat ∧
      st.portfolioPosition.toNat + (prospectiveQty signal).toNat
        ≤ eng.riskCfg.maxPositionPortfolio.toNat := by
  have hsym := eng.riskCfg.maxPositionPerSymbol.toNat_lt
  have hport := eng.riskCfg.maxPositionPortfolio.toNat_lt
  simp only [positionBreached, Bool.or_eq_false_iff, decide_eq_false_iff_not, UInt64.lt_iff_toNat_lt,
    UInt64.toNat_fromU32, UInt64.toNat_saturatingAdd]
  omega

end Bounds

end Hedge.Risk
