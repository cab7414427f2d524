import Hedge.Features.Integers

/-!
# Sweeps of a mirrored session

Reference: `sweep::update` in `hedge-features`.

Taking every price from a constant turns highs into lows, and the two arms of the detector into each
other. The arms write one signal, the high one first, so a price that has come back from both a new
high and a new low is a low sweep in either session.
-/

namespace Hedge.Features

open Hedge Hedge.Common Hedge.Core
open Hedge.Common.ExactFloat (fin)

/-- The sweep signal after each of some ticks. -/
def sweepSignals (libm : Libm) (ticks : List Tick) : List ExactFloat :=
  (snapshots libm ticks).map (·.liquiditySweep)

/-- The second session has the prices of the first, each taken from `c`. -/
def Mirrored (c : ℤ) (ticks ticks' : List Tick) : Prop :=
  prices ticks' = (prices ticks).map (c - ·)

/-- The last price has come back from a new high and from a new low. -/
def SweptBoth (ps : List ℤ) : Prop := Swept (· < ·) ps ∧ Swept (· > ·) ps

/-- A sweep in one order is one in the mirrored order. -/
theorem swept_map_sub {r r' : ℤ → ℤ → Prop} {c : ℤ}
    (hr : ∀ u v, r' (c - u) (c - v) ↔ r u v) {ps : List ℤ} (h : Swept r ps) :
    Swept r' (ps.map (c - ·)) := by
  obtain ⟨i, v, p, hrecord, hlast, hback, hage⟩ := h
  have hsame : age (ps.map (c - ·)) i = age ps i := by rw [age, List.length_map, age]
  refine ⟨i, c - v, c - p, hrecord.map hr, ?_, (hr p v).mpr hback, ?_⟩
  · rw [List.getLast?_map, hlast, Option.map_some]
  · rwa [hsame]

theorem map_sub_map_sub (c : ℤ) (ps : List ℤ) : (ps.map (c - ·)).map (c - ·) = ps := by
  rw [List.map_map]
  refine List.map_id'' (fun p => ?_) ps
  exact sub_sub_cancel c p

/-- A high of a session is a low of the mirrored one. -/
theorem swept_gt_map_sub (c : ℤ) (ps : List ℤ) :
    Swept (· > ·) (ps.map (c - ·)) ↔ Swept (· < ·) ps := by
  constructor
  · intro h
    have hback : Swept (· < ·) ((ps.map (c - ·)).map (c - ·)) :=
      swept_map_sub (fun u v => by omega) h
    rwa [map_sub_map_sub] at hback
  · exact swept_map_sub fun u v => by omega

theorem swept_lt_map_sub (c : ℤ) (ps : List ℤ) :
    Swept (· < ·) (ps.map (c - ·)) ↔ Swept (· > ·) ps := by
  rw [← swept_gt_map_sub c, map_sub_map_sub]

/-- The flags of two mirrored histories are opposite unless both arms fire. -/
theorem FlagOf.eq_neg_iff {c : ℤ} {ps : List ℤ} {x x' : ExactFloat} (h : FlagOf ps x)
    (h' : FlagOf (ps.map (c - ·)) x') : x' = x.neg ↔ ¬ SweptBoth ps := by
  have hlow' : RaisedByLow (ps.map (c - ·)) ↔ Swept (· < ·) ps := swept_gt_map_sub c ps
  have hhigh' : RaisedByHigh (ps.map (c - ·)) ↔ Swept (· > ·) ps ∧ ¬ Swept (· < ·) ps := by
    rw [RaisedByHigh, hlow', swept_lt_map_sub]
  by_cases hhigh : Swept (· < ·) ps <;> by_cases hlow : Swept (· > ·) ps
  · have hx : x = fin 1 := h.low hlow
    have hx' : x' = fin 1 := h'.low (hlow'.mpr hhigh)
    rw [hx, hx']
    refine iff_of_false (fun heq => ?_) (not_not.mpr ⟨hhigh, hlow⟩)
    have hone : (1 : ℚ) = -1 := ExactFloat.fin.inj heq
    norm_num at hone
  · have hx : x = fin (-1) := h.high ⟨hhigh, hlow⟩
    have hx' : x' = fin 1 := h'.low (hlow'.mpr hhigh)
    rw [hx, hx']
    exact iff_of_true (congrArg fin (neg_neg 1).symm) fun hboth => hlow hboth.2
  · have hx : x = fin 1 := h.low hlow
    have hx' : x' = fin (-1) := h'.high (hhigh'.mpr ⟨hlow, hhigh⟩)
    rw [hx, hx']
    exact iff_of_true rfl fun hboth => hhigh hboth.1
  · have hx : x = fin 0 := h.quiet hlow fun hraised => hhigh hraised.1
    have hx' : x' = fin 0 := by
      refine h'.quiet (fun hraised => hhigh (hlow'.mp hraised)) fun hraised => ?_
      exact hlow (hhigh'.mp hraised).1
    rw [hx, hx']
    exact iff_of_true (congrArg fin neg_zero.symm) fun hboth => hhigh hboth.1

/-! ## Runs -/

theorem prices_take (ticks : List Tick) (k : ℕ) : prices (ticks.take k) = (prices ticks).take k :=
  List.map_take

@[simp] theorem length_prices (ticks : List Tick) : (prices ticks).length = ticks.length :=
  List.length_map _

/-- The signal of a tick is the flag of the prices up to it. -/
theorem flagOf_sweepSignals (libm : Libm) {ticks : List Tick} (hpos : ∀ p ∈ prices ticks, 0 < p)
    {k : ℕ} (hk : k < ticks.length) :
    ∃ x, (sweepSignals libm ticks)[k]? = some x ∧ FlagOf ((prices ticks).take (k + 1)) x := by
  refine ⟨(afterTicks libm (ticks.take (k + 1))).sweepSignal, ?_, ?_⟩
  · rw [sweepSignals, List.getElem?_map, getElem?_snapshots, List.getElem?_eq_getElem hk]
    rfl
  · have htake : ∀ p ∈ pricesOf ((ticks.take (k + 1)).map .tick), 0 < p := by
      rw [pricesOf_ticks, prices_take]
      exact fun p hp => hpos p (List.mem_of_mem_take hp)
    have hreflects := reflects_stateAfter libm htake
    rw [pricesOf_ticks, stateAfter_ticks, prices_take] at hreflects
    exact hreflects.flag

theorem sweepSignals_getElem?_eq_none (libm : Libm) {ticks : List Tick} {k : ℕ}
    (hk : ticks.length ≤ k) : (sweepSignals libm ticks)[k]? = none := by
  rw [sweepSignals, List.getElem?_map, getElem?_snapshots, List.getElem?_eq_none hk]
  rfl

/-- A mirrored session has opposite sweep signals exactly when no price has come back from both a new
high and a new low. -/
theorem sweepSignals_mirrored_iff (libm : Libm) {c : ℤ} {ticks ticks' : List Tick}
    (hmirror : Mirrored c ticks ticks') (hpos : ∀ p ∈ prices ticks, 0 < p)
    (hpos' : ∀ p ∈ prices ticks', 0 < p) :
    sweepSignals libm ticks' = (sweepSignals libm ticks).map ExactFloat.neg
      ↔ ∀ pre, pre <+: prices ticks → ¬ SweptBoth pre := by
  have hlength : ticks'.length = ticks.length := by
    rw [← length_prices, hmirror, List.length_map, length_prices]
  have htick : ∀ k < ticks.length, ((sweepSignals libm ticks')[k]?
      = ((sweepSignals libm ticks).map ExactFloat.neg)[k]?
        ↔ ¬ SweptBoth ((prices ticks).take (k + 1))) := by
    intro k hk
    obtain ⟨x, hx, hflag⟩ := flagOf_sweepSignals libm hpos hk
    obtain ⟨x', hx', hflag'⟩ := flagOf_sweepSignals libm hpos' (hlength ▸ hk)
    rw [hmirror, ← List.map_take] at hflag'
    rw [List.getElem?_map, hx, hx', Option.map_some, Option.some_inj]
    exact hflag.eq_neg_iff hflag'
  constructor
  · intro heq pre hpre
    rw [List.prefix_iff_eq_take.mp hpre]
    cases hn : pre.length with
    | zero => exact fun hboth => not_swept_nil _ hboth.1
    | succ k =>
      have hle := hpre.length_le
      rw [hn, length_prices] at hle
      exact (htick k hle).mp (congrArg (·[k]?) heq)
  · intro hnone
    refine List.ext_getElem? fun k => ?_
    by_cases hk : k < ticks.length
    · exact (htick k hk).mpr (hnone _ (List.take_prefix _ _))
    · rw [List.getElem?_map, sweepSignals_getElem?_eq_none libm (hlength ▸ not_lt.mp hk),
        sweepSignals_getElem?_eq_none libm (not_lt.mp hk)]
      rfl

/-- A session and its mirror image that both end in a low sweep. -/
theorem not_sweepSignals_mirrored :
    let ticks := [tradeAt 100, tradeAt 101, tradeAt 99, tradeAt 100]
    let ticks' := [tradeAt 100, tradeAt 99, tradeAt 101, tradeAt 100]
    Mirrored 200 ticks ticks' ∧ (∀ p ∈ prices ticks, 0 < p) ∧ (∀ p ∈ prices ticks', 0 < p) ∧
      (sweepSignals noLibm ticks)[3]? = some (fin 1) ∧
      (sweepSignals noLibm ticks')[3]? = some (fin 1) ∧
      sweepSignals noLibm ticks' ≠ (sweepSignals noLibm ticks).map ExactFloat.neg := by
  intro ticks ticks'
  have hpos : ∀ p ∈ prices ticks, 0 < p := by decide
  have hpos' : ∀ p ∈ prices ticks', 0 < p := by decide
  have hsignal : (sweepSignals noLibm ticks)[3]? = some (fin 1) := by
    obtain ⟨x, hx, hflag⟩ := flagOf_sweepSignals noLibm hpos (k := 3) (by decide)
    have hlow : RaisedByLow [100, 101, 99, 100] :=
      ⟨2, 99, 100, ⟨rfl, by decide, by decide⟩, rfl, by decide, by decide, by decide⟩
    rw [hx, hflag.low hlow]
  have hsignal' : (sweepSignals noLibm ticks')[3]? = some (fin 1) := by
    obtain ⟨x, hx, hflag⟩ := flagOf_sweepSignals noLibm hpos' (k := 3) (by decide)
    have hlow : RaisedByLow [100, 99, 101, 100] :=
      ⟨1, 99, 100, ⟨rfl, by decide, by decide⟩, rfl, by decide, by decide, by decide⟩
    rw [hx, hflag.low hlow]
  refine ⟨rfl, hpos, hpos', hsignal, hsignal', fun heq => ?_⟩
  have hthird := congrArg (·[3]?) heq
  simp only [List.getElem?_map, hsignal, hsignal', Option.map_some] at hthird
  have hone : (1 : ℚ) = -1 := ExactFloat.fin.inj (Option.some.inj hthird)
  norm_num at hone

/-- A new high that the price falls back from, and later a new low that it comes back from. -/
def sweptInTurn : List Tick :=
  [104, 104, 104, 104, 106, 105, 105, 105, 105, 102, 103].map tradeAt

/-- The same session, mirrored about 100. -/
def sweptInTurnMirrored : List Tick :=
  [96, 96, 96, 96, 94, 95, 95, 95, 95, 98, 97].map tradeAt

theorem sweepSignals_mirrored_iff_sweptInTurn :
    sweepSignals noLibm sweptInTurnMirrored = (sweepSignals noLibm sweptInTurn).map ExactFloat.neg
      ↔ ∀ pre, pre <+: prices sweptInTurn → ¬ SweptBoth pre :=
  sweepSignals_mirrored_iff noLibm (c := 200) rfl (by decide +kernel) (by decide +kernel)

/-- Both sweeps are raised. -/
example : sweepSignals noLibm sweptInTurn = [0, 0, 0, 0, 0, -1, -1, -1, 0, 0, 1].map fin := by
  decide +kernel

end Hedge.Features
