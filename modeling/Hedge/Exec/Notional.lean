import Hedge.Exec.FillDeltas
import Mathlib.Tactic.Linarith

/-!
# The notional of the reported fills

Reference: `on_fill` in `hedge-exec/src/engine.rs`, `partial_fill` in `hedge-exec/src/lifecycle.rs`.

A fill is the difference of two cumulative reports, at a price per share that is rounded toward zero.
So each fill loses less than one paisa per share, and a whole run of them too. The tracker takes the
average of a report that brings no shares as well, and then no fill carries the change.
-/

namespace Hedge.Exec

open Hedge.Common Hedge.Risk

/-! ## Reports -/

/-- What a broker reports about an order, in cumulative figures. -/
structure FillReport where
  symbol : UInt32
  side : UInt8
  cumFilledQty : UInt64
  cumAvgFillPaise : Int64
  tsNs : UInt64

/-- One call of `on_fill` for an order. -/
def reportStep (cid : CorrelationId) (st : ExecutionState) (r : FillReport) :
    CallResult × ExecutionState :=
  onFill st cid r.symbol r.side r.cumFilledQty r.cumAvgFillPaise r.tsNs

/-- What the tracker has paid for its shares. -/
def OrderLifecycleTracker.notional (t : OrderLifecycleTracker) : ℤ :=
  t.avgFillPaise.toInt * t.filledQty.toNat

def notionalOf (st : ExecutionState) (cid : CorrelationId) : ℤ :=
  match st.trackers.lookup cid with
  | some t => t.notional
  | none => 0

/-- What an event reports as paid under a correlation id. -/
def fillNotional (cid : CorrelationId) : EngineEvent → ℤ
  | .fill cid' _ _ qty px _ => if cid' = cid then px.toInt * qty.toNat else 0
  | _ => 0

/-- What the events of a call report as paid. -/
def notionalTotal (cid : CorrelationId) : CallResult → ℤ
  | .ok events => (events.map (fillNotional cid)).sum
  | .error _ => 0

/-- The fills of a run have the quantity of the tracker, and its notional up to a paisa per share. -/
def CarriesNotional (cid : CorrelationId) (st : ExecutionState) (reports : List FillReport) :
    Prop :=
  let outs := runOutputs (reportStep cid) st reports
  let st' := runState (reportStep cid) st reports
  (outs.map fun out => fillTotal cid (some out)).sum = filledOf st' cid ∧
    |(outs.map (notionalTotal cid)).sum - notionalOf st' cid| < max 1 (filledOf st' cid : ℤ)

/-- An accepted report that repeats a positive quantity repeats the average too, and what a report
adds to the notional is an `i64` per share. -/
def Carried (cid : CorrelationId) (st : ExecutionState) (r : FillReport) : Prop :=
  ∀ t, st.trackers.lookup cid = some t → t.AcceptsFill r.cumFilledQty →
    let deltaQty : ℤ := r.cumFilledQty.toNat - t.filledQty.toNat
    let deltaNotional := r.cumAvgFillPaise.toInt * r.cumFilledQty.toNat - t.notional
    (deltaQty = 0 → t.filledQty ≠ 0 → r.cumAvgFillPaise = t.avgFillPaise) ∧
    (0 < deltaQty → -(2 ^ 63 + 1) * deltaQty < deltaNotional ∧ deltaNotional < 2 ^ 63 * deltaQty)

instance (t : OrderLifecycleTracker) (qty : UInt64) : Decidable (t.AcceptsFill qty) :=
  inferInstanceAs (Decidable (_ ∧ _ ∧ _))

instance (cid : CorrelationId) (st : ExecutionState) (r : FillReport) :
    Decidable (Carried cid st r) :=
  inferInstanceAs (Decidable (∀ t ∈ st.trackers.lookup cid, t.AcceptsFill r.cumFilledQty →
    ((r.cumFilledQty.toNat - t.filledQty.toNat : ℤ) = 0 → t.filledQty ≠ 0 →
      r.cumAvgFillPaise = t.avgFillPaise) ∧ _))

/-! ## Rounding -/

/-- A quotient rounded toward zero, times the divisor, is short of the dividend by less than the
divisor. -/
theorem abs_tdiv_mul_sub_lt (a : ℤ) {b : ℤ} (hb : 0 < b) : |a.tdiv b * b - a| < b := by
  have hsplit := Int.mul_tdiv_add_tmod a b
  have hlo := Int.lt_tmod_of_pos a hb
  have hhi := Int.tmod_lt_of_pos a hb
  rw [abs_lt]
  constructor <;> linarith [mul_comm b (a.tdiv b)]

/-- The bounds on the dividend under which the quotient is an `i64`. -/
theorem toInt_ofInt_tdiv {a b : ℤ} (hb : 0 < b) (hlo : -(2 ^ 63 + 1) * b < a)
    (hhi : a < 2 ^ 63 * b) : (Int64.ofInt (a.tdiv b)).toInt = a.tdiv b := by
  rcases le_or_gt 0 a with ha | ha
  · have hquot := Int.tdiv_eq_ediv_of_nonneg ha (b := b)
    have hnonneg := Int.ediv_nonneg ha hb.le
    have hlt := Int.ediv_lt_of_lt_mul hb hhi
    exact Int64.toInt_ofInt_of_le (by omega) (by omega)
  · have hquot : a.tdiv b = -(-a / b) := by
      rw [← Int.tdiv_eq_ediv_of_nonneg (by omega), Int.neg_tdiv, neg_neg]
    have hnonneg := Int.ediv_nonneg (neg_nonneg.mpr ha.le) hb.le
    have hlt : -a / b < 2 ^ 63 + 1 := Int.ediv_lt_of_lt_mul hb (by linarith)
    exact Int64.toInt_ofInt_of_le (by omega) (by omega)

/-! ## One report -/

/-- Two gaps of less than a paisa per share add up to one. -/
theorem gap_add {m n : ℕ} {x y : ℤ} (hx : |x| < max 1 (m : ℤ)) (hy : |y| < max 1 (n : ℤ)) :
    |x + y| < max 1 ((m + n : ℕ) : ℤ) := by
  rw [abs_lt] at *
  push_cast
  omega

/-- What a call reports and what it makes of the tracker, if no correction gets lost. -/
structure Accounted (cid : CorrelationId) (st st' : ExecutionState) (qty : ℕ) (paid : ℤ) :
    Prop where
  filled : qty + filledOf st cid = filledOf st' cid
  paid : |paid + notionalOf st cid - notionalOf st' cid| < max 1 (qty : ℤ)

theorem Accounted.refl (cid : CorrelationId) (st : ExecutionState) : Accounted cid st st 0 0 :=
  ⟨Nat.zero_add _, by simp⟩

theorem Accounted.trans {cid : CorrelationId} {st st' st'' : ExecutionState} {qty qty' : ℕ}
    {paid paid' : ℤ} (h : Accounted cid st st' qty paid) (h' : Accounted cid st' st'' qty' paid') :
    Accounted cid st st'' (qty + qty') (paid + paid') where
  filled := by
    have := h.filled
    have := h'.filled
    omega
  paid := by
    have hgap := gap_add h.paid h'.paid
    have hsum : paid + paid' + notionalOf st cid - notionalOf st'' cid
        = (paid + notionalOf st cid - notionalOf st' cid)
          + (paid' + notionalOf st' cid - notionalOf st'' cid) := by ring
    rwa [hsum]

theorem filledOf_of_lookup {st : ExecutionState} {cid : CorrelationId} {t : OrderLifecycleTracker}
    (h : st.trackers.lookup cid = some t) : filledOf st cid = t.filledQty.toNat := by
  rw [filledOf, h]

theorem notionalOf_of_lookup {st : ExecutionState} {cid : CorrelationId}
    {t : OrderLifecycleTracker} (h : st.trackers.lookup cid = some t) :
    notionalOf st cid = t.notional := by
  rw [notionalOf, h]

section Report

variable {cid : CorrelationId} {st st' : ExecutionState} {t t' : OrderLifecycleTracker}
  (hlook : st.trackers.lookup cid = some t) (hlook' : st'.trackers.lookup cid = some t')

include hlook hlook'

/-- A report without new shares changes nothing, if it repeats the average of the old ones. -/
theorem accounted_of_repeat (hqty : t'.filledQty.toNat = t.filledQty.toNat)
    (havg : t.filledQty ≠ 0 → t'.avgFillPaise = t.avgFillPaise) : Accounted cid st st' 0 0 := by
  have hnotional : t'.notional = t.notional := by
    rw [OrderLifecycleTracker.notional, OrderLifecycleTracker.notional, hqty]
    by_cases hnone : t.filledQty = 0
    · rw [hnone, UInt64.toNat_zero, Nat.cast_zero, mul_zero, mul_zero]
    · rw [havg hnone]
  constructor
  · rw [filledOf_of_lookup hlook, filledOf_of_lookup hlook', hqty, Nat.zero_add]
  · rw [notionalOf_of_lookup hlook, notionalOf_of_lookup hlook', hnotional, zero_add, sub_self]
    decide

/-- A fill has the new shares, at a price that loses less than a paisa on each. -/
theorem accounted_of_fill {qty : ℕ} (hpos : 0 < qty)
    (hqty : qty + t.filledQty.toNat = t'.filledQty.toNat)
    (hlo : -(2 ^ 63 + 1) * (qty : ℤ) < t'.notional - t.notional)
    (hhi : t'.notional - t.notional < 2 ^ 63 * (qty : ℤ)) :
    Accounted cid st st' qty
      ((Int64.ofInt ((t'.notional - t.notional).tdiv qty)).toInt * qty) := by
  have hqtyPos : (0 : ℤ) < qty := by exact_mod_cast hpos
  have hgap := abs_tdiv_mul_sub_lt (t'.notional - t.notional) hqtyPos
  constructor
  · rw [filledOf_of_lookup hlook, filledOf_of_lookup hlook', hqty]
  · rw [notionalOf_of_lookup hlook, notionalOf_of_lookup hlook', toInt_ofInt_tdiv hqtyPos hlo hhi,
      add_sub_assoc, ← neg_sub t'.notional, ← sub_eq_add_neg]
    exact lt_max_of_lt_right hgap

end Report

/-- One report is accounted for, if it is carried. -/
theorem reportStep_accounted {cid : CorrelationId} {st : ExecutionState} {r : FillReport}
    (h : Carried cid st r) :
    Accounted cid st (reportStep cid st r).2 (fillTotal cid (some (reportStep cid st r).1))
      (notionalTotal cid (reportStep cid st r).1) := by
  unfold reportStep onFill
  cases hlook : st.trackers.lookup cid with
  | none => exact .refl cid st
  | some t =>
    cases hfill : t.partialFill r.cumFilledQty r.cumAvgFillPaise r.tsNs with
    | error err =>
      simp only [hfill]
      exact .refl cid st
    | ok p =>
      obtain ⟨event, t'⟩ := p
      obtain ⟨hrepeat, hfits⟩ := h t hlook ((t.partialFill_isOk_iff _ _ _).mp ⟨_, hfill⟩)
      obtain ⟨hmono, -, -, hle, hnext⟩ := OrderLifecycleTracker.partialFill_inv hfill
      have hqty : t'.filledQty = r.cumFilledQty := by rw [hnext]
      have havg : t'.avgFillPaise = r.cumAvgFillPaise := by rw [hnext]
      have hnotional : r.cumAvgFillPaise.toInt * r.cumFilledQty.toNat = t'.notional := by
        rw [OrderLifecycleTracker.notional, hqty, havg]
      have hlook' : (st.trackers.insert cid t').lookup cid = some t' := AList.lookup_insert _
      have hsum := UInt64.toNat_saturatingSub_add hmono
      have hnew : (r.cumFilledQty.saturatingSub t.filledQty).toNat + t.filledQty.toNat
          = t'.filledQty.toNat := by rw [hsum, hqty]
      have hcast : ((r.cumFilledQty.saturatingSub t.filledQty).toNat : ℤ)
          = r.cumFilledQty.toNat - t.filledQty.toNat := by omega
      rw [← hcast] at hrepeat hfits
      rw [hnotional] at hfits
      simp only [hfill]
      split_ifs with hzero
      · rw [hzero, UInt64.toNat_zero] at hnew hrepeat
        refine accounted_of_repeat hlook hlook' (hnew.symm.trans (Nat.zero_add _)) fun hne => ?_
        exact havg.trans (hrepeat rfl hne)
      · have hpos : 0 < (r.cumFilledQty.saturatingSub t.filledQty).toNat := by
          rw [Nat.pos_iff_ne_zero, ← UInt64.toNat_zero, Ne, UInt64.toNat_inj]
          exact hzero
        obtain ⟨hlo, hhi⟩ := hfits (by exact_mod_cast hpos)
        have haccounted : Accounted cid st { st with trackers := st.trackers.insert cid t' } _ _ :=
          accounted_of_fill hlook hlook' hpos hnew hlo hhi
        rw [hnotional]
        simpa [fillTotal, fillQty, notionalTotal, fillNotional, OrderLifecycleTracker.notional]
          using haccounted

/-! ## Runs -/

theorem run_reports {cid : CorrelationId} {st : ExecutionState} {reports : List FillReport}
    (h : ∀ pre r post, reports = pre ++ r :: post →
      Carried cid (runState (reportStep cid) st pre) r) :
    Accounted cid st (runState (reportStep cid) st reports)
      ((runOutputs (reportStep cid) st reports).map fun out => fillTotal cid (some out)).sum
      ((runOutputs (reportStep cid) st reports).map (notionalTotal cid)).sum := by
  induction reports generalizing st with
  | nil => exact .refl cid st
  | cons r reports ih =>
    obtain ⟨hhead, htail⟩ := forall_split_cons_iff.mp h
    exact (reportStep_accounted hhead).trans (ih htail)

/-- Over every sequence of calls from the start of an order: where each accepted report is carried,
the reported fills have the quantity and the notional of the tracker after every call. -/
theorem carriesNotional_of_carried (cid : CorrelationId) (st : ExecutionState)
    (reports : List FillReport) (hfresh : filledOf st cid = 0)
    (hcarried : ∀ pre r post, reports = pre ++ r :: post →
      Carried cid (runState (reportStep cid) st pre) r) :
    ∀ pre post, reports = pre ++ post → CarriesNotional cid st pre := by
  intro pre post hsplit
  have hpre : ∀ pre' r post', pre = pre' ++ r :: post' →
      Carried cid (runState (reportStep cid) st pre') r := by
    intro pre' r post' hpre
    refine hcarried pre' r (post' ++ post) ?_
    rw [hsplit, hpre, List.append_assoc, List.cons_append]
  have hrun := run_reports hpre
  have hnone : notionalOf st cid = 0 := by
    unfold filledOf at hfresh
    unfold notionalOf
    cases hlook : st.trackers.lookup cid with
    | none => rfl
    | some t =>
      simp only [hlook] at hfresh
      simp only [OrderLifecycleTracker.notional, hfresh, Nat.cast_zero, mul_zero]
  have hfilled := hrun.filled
  have hpaid := hrun.paid
  rw [hfresh, Nat.add_zero] at hfilled
  rw [hnone, add_zero, hfilled] at hpaid
  exact ⟨hfilled, hpaid⟩

/-- The order of these runs. -/
def orderCid : CorrelationId := ⟨1⟩

/-- An order for twenty shares that the broker has taken. -/
def submittedTwenty : ExecutionState :=
  { makeState with
    trackers := makeState.trackers.insert orderCid
      ((OrderLifecycleTracker.new orderCid .zerodha 20).moved .submitted (some "ORD-1")) }

/-- Ten shares at one average, and then at another. -/
def correctedReports : List FillReport := [⟨1, 0, 10, 100, 2000⟩, ⟨1, 0, 10, 200, 2001⟩]

/-- The fills stay at the first average, the tracker goes on to the second. -/
theorem correctedReports_not_carried :
    let outs := runOutputs (reportStep orderCid) submittedTwenty correctedReports
    filledOf submittedTwenty orderCid = 0 ∧ (∀ out ∈ outs, out.isOk = true) ∧
      (outs.map (notionalTotal orderCid)).sum = 1000 ∧
      notionalOf (runState (reportStep orderCid) submittedTwenty correctedReports) orderCid = 2000 ∧
      ¬ CarriesNotional orderCid submittedTwenty correctedReports := by
  intro outs
  have hpaid : (outs.map (notionalTotal orderCid)).sum = 1000 := by decide +kernel
  have hnotional : notionalOf (runState (reportStep orderCid) submittedTwenty correctedReports)
      orderCid = 2000 := by decide +kernel
  have hfilled : filledOf (runState (reportStep orderCid) submittedTwenty correctedReports)
      orderCid = 10 := by decide +kernel
  refine ⟨by decide +kernel, by decide +kernel, hpaid, hnotional, fun h => ?_⟩
  have hgap := h.2
  rw [hpaid, hnotional, hfilled] at hgap
  exact absurd hgap (by decide)

/-- Three shares, and seven more at a higher price. -/
def risingReports : List FillReport := [⟨1, 0, 3, 100, 2000⟩, ⟨1, 0, 10, 104, 2001⟩]

theorem carriesNotional_of_carried_two :
    CarriesNotional orderCid submittedTwenty risingReports := by
  refine carriesNotional_of_carried orderCid submittedTwenty _ (by decide +kernel) ?_
    risingReports [] (List.append_nil _).symm
  exact forall_split_of_all (by decide +kernel)

end Hedge.Exec
