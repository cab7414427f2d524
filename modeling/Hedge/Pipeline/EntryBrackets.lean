import Hedge.Features.Integers
import Hedge.Signals.Strategies

/-!
# Brackets around the market

Reference: `risk_profile_for` and the two breakouts of `hedge-signals`, `process_tick_into_state` of
`hedge-features`.

A breakout lays stop and target around a level that stands for the entry: the VWAP, or the fast EMA.
Both lag behind a market that runs, so the bracket lies around the price only where the level is
within the distances that the ATR gives.
-/

namespace Hedge.Pipeline

open Hedge Hedge.Common Hedge.Core Hedge.Features Hedge.Signals
open Hedge.Common.ExactFloat (fin)

/-! ## Brackets -/

/-- The stop is on the losing side of a price and the target on the winning one. -/
def Surrounds (side : Side) (risk : RiskProfile) (price : Int64) : Prop :=
  match side with
  | .buy => risk.stopLossPaise < price ∧ price < risk.takeProfitPaise
  | .sell => risk.takeProfitPaise < price ∧ price < risk.stopLossPaise

/-- A multiple of the ATR, in the range of an `i64`. -/
def atrDistance (mult : ℚ) (atr : ℤ) : ℤ := min (ExactFloat.roundRat (atr * mult)) (2 ^ 63 - 1)

/-- The price is closer to the entry than the levels are. -/
def EntryNear (side : Side) (entry atr price : ℤ) : Prop :=
  price < 2 ^ 63 - 1 ∧ match side with
  | .buy => entry - price < atrDistance stopLossAtrMult atr ∧
      price - entry < atrDistance takeProfitAtrMult atr
  | .sell => price - entry < atrDistance stopLossAtrMult atr ∧
      entry - price < atrDistance takeProfitAtrMult atr

theorem roundI64_mul {atr : Int64} (hatr : 0 ≤ atr.toInt) {mult : ℚ} (hmult : 0 ≤ mult) :
    (roundI64 (f64OfI64 atr * mult)).toInt = atrDistance mult atr.toInt ∧
      0 ≤ atrDistance mult atr.toInt := by
  have hprod : (0 : ℚ) ≤ atr.toInt * mult := mul_nonneg (Int.cast_nonneg hatr) hmult
  have hround : 0 ≤ ExactFloat.roundRat (atr.toInt * mult) :=
    (ExactFloat.roundRat_mem (by simpa using hprod) (Int.le_ceil _)).1
  rw [roundI64, f64OfI64, Int64.toInt_clamp, atrDistance]
  omega

/-- A bracket surrounds the price exactly if the entry is near it. -/
theorem surrounds_riskProfileFor {entry atr price : Int64} (hprice : 0 < price.toInt)
    (hatr : 0 ≤ atr.toInt) (side : Side) :
    Surrounds side (riskProfileFor entry side atr) price
      ↔ EntryNear side entry.toInt atr.toInt price.toInt := by
  have hstopMult : (0 : ℚ) ≤ stopLossAtrMult := by norm_num [stopLossAtrMult]
  have htargetMult : (0 : ℚ) ≤ takeProfitAtrMult := by norm_num [takeProfitAtrMult]
  obtain ⟨hstop, hstopNonneg⟩ := roundI64_mul hatr hstopMult
  obtain ⟨htarget, htargetNonneg⟩ := roundI64_mul hatr htargetMult
  have hlo := entry.le_toInt
  have hhi := entry.toInt_lt
  have hmax := price.toInt_lt
  cases side with
  | buy =>
    simp only [Surrounds, riskProfileFor, EntryNear, Int64.lt_iff_toInt_lt,
      Int64.saturatingSub, Int64.toInt_clamp, Int64.toInt_saturatingAdd, hstop, htarget]
    omega
  | sell =>
    simp only [Surrounds, riskProfileFor, EntryNear, Int64.lt_iff_toInt_lt,
      Int64.saturatingSub, Int64.toInt_clamp, Int64.toInt_saturatingAdd, hstop, htarget]
    omega

/-! ## The two breakouts -/

inductive Breakout where
  | openingRange
  | momentum

def Breakout.setup : Breakout → Setup
  | openingRange => openingRangeBreakout
  | momentum => momentumBreakout

/-- The VWAP of some ticks. -/
def vwapPaise (ticks : List Tick) : ℤ := (priceOf (ticks.foldl accumulate (0, 0))).toInt

/-- What stands for the entry: the VWAP, or the fast EMA. -/
def Breakout.entry (ticks : List Tick) : Breakout → ℤ
  | openingRange => vwapPaise ticks
  | momentum => if 0 < emaPaise (prices ticks) then emaPaise (prices ticks) else vwapPaise ticks

/-- The snapshot of the last of some ticks, whatever its momentum is taken to be. -/
def snapshotWith (libm : Libm) (ticks : List Tick) (t : Tick) (momentum : ExactFloat) :
    FeatureSnapshot :=
  { (processTickIntoState libm (afterTicks libm ticks) t).2 with momentum := momentum }

/-- The bracket of every signal of the two surrounds the price of its snapshot. -/
def BracketsSurround (libm : Libm) : Prop :=
  ∀ ticks t, (∀ p ∈ prices (ticks ++ [t]), 0 < p) → ∀ (b : Breakout) momentum ctx sig,
    b.setup.strategy.evaluate (snapshotWith libm ticks t momentum) ctx = some sig →
      ∀ side : Side, sig.side = side.asU8 →
        Surrounds side sig.riskProfile (snapshotWith libm ticks t momentum).price

/-! ## The levels of a snapshot -/

theorem vwapView_eq_foldl (libm : Libm) (ticks : List Tick) :
    (afterTicks libm ticks).vwapView = ticks.foldl accumulate (0, 0) := by
  induction ticks using List.reverseRecOn with
  | nil => rfl
  | append_singleton ticks t ih =>
    rw [afterTicks_concat, vwapView_processTick, vwapView_update, ih, List.foldl_append]
    rfl

theorem atrPaise_nonneg (ps : List ℤ) : 0 ≤ atrPaise ps := by
  have hchange : ∀ x ∈ (changes ps).rtake atrWindow, 0 ≤ x := by
    intro x hx
    obtain ⟨i, -, rfl⟩ := List.mem_map.mp (List.mem_of_mem_drop hx)
    exact abs_nonneg _
  rw [atrPaise, meanOf]
  split_ifs
  · exact le_rfl
  · exact Int.ediv_nonneg (List.sum_nonneg hchange) (Int.natCast_nonneg _)

section Levels

variable (libm : Libm) (ticks : List Tick) (t : Tick) (momentum : ExactFloat)

theorem snapshotWith_eq :
    snapshotWith libm ticks t momentum
      = { snapshotOf libm (afterTicks libm (ticks ++ [t])) t with momentum := momentum } := by
  rw [afterTicks_concat]
  rfl

theorem vwap_snapshotWith :
    (snapshotWith libm ticks t momentum).vwap.toInt = vwapPaise (ticks ++ [t]) := by
  rw [snapshotWith_eq]
  change (Vwap.computePaise (afterTicks libm (ticks ++ [t]))).toInt = _
  rw [computePaise_eq, vwapView_eq_foldl, vwapPaise]

variable {ticks t} (hpos : ∀ p ∈ prices (ticks ++ [t]), 0 < p)

include hpos

theorem atr_snapshotWith :
    (snapshotWith libm ticks t momentum).atr.toInt = atrPaise (prices (ticks ++ [t])) := by
  rw [snapshotWith_eq]
  exact atr_of_windows (windowsOf_afterTicks libm hpos)

theorem emaFast_snapshotWith :
    (snapshotWith libm ticks t momentum).emaFast.toInt = emaPaise (prices (ticks ++ [t])) := by
  have hema : EmaTracked (prices (ticks ++ [t])) (afterTicks libm (ticks ++ [t])).emaFastSeeded
      (afterTicks libm (ticks ++ [t])).emaFastAcc (afterTicks libm (ticks ++ [t])).emaFastPaise
      (afterTicks libm (ticks ++ [t])).emaFastHistory := by
    have hreflects := reflects_stateAfter libm ((pricesOf_ticks (ticks ++ [t])).symm ▸ hpos)
    rw [pricesOf_ticks, stateAfter_ticks] at hreflects
    exact hreflects.ema
  have hne : prices (ticks ++ [t]) ≠ [] := by simp
  have hseeded : (afterTicks libm (ticks ++ [t])).emaFastSeeded = true := by
    rw [hema.seeded, List.isEmpty_eq_false_iff.mpr hne]
    rfl
  rw [snapshotWith_eq]
  change (Ema.computeFastPaise (afterTicks libm (ticks ++ [t]))).toInt = _
  rw [Ema.computeFastPaise, if_pos hseeded, hema.paise hne]

/-- The bracket of a breakout, by the level that stands for its entry. -/
theorem surrounds_riskProfile (b : Breakout) (side : Side) :
    Surrounds side (b.setup.riskProfile (snapshotWith libm ticks t momentum) side) t.ltpPaise
      ↔ EntryNear side (b.entry (ticks ++ [t])) (atrPaise (prices (ticks ++ [t])))
        t.ltpPaise.toInt := by
  have hprice : 0 < t.ltpPaise.toInt := hpos _ (by simp)
  have hatr := atr_snapshotWith libm momentum hpos
  have hvwap := vwap_snapshotWith libm ticks t momentum
  have hema := emaFast_snapshotWith libm momentum hpos
  have hnonneg : 0 ≤ (snapshotWith libm ticks t momentum).atr.toInt :=
    hatr ▸ atrPaise_nonneg _
  cases b with
  | openingRange =>
    rw [Breakout.entry, ← hvwap, ← hatr]
    exact surrounds_riskProfileFor hprice hnonneg side
  | momentum =>
    have hentry : (if (snapshotWith libm ticks t momentum).emaFast > 0
        then (snapshotWith libm ticks t momentum).emaFast
        else (snapshotWith libm ticks t momentum).vwap).toInt
          = Breakout.entry (ticks ++ [t]) .momentum := by
      rw [apply_ite Int64.toInt, Breakout.entry, hvwap, hema]
      simp only [gt_iff_lt, Int64.lt_iff_toInt_lt, hema, Int64.toInt_zero]
    rw [← hentry, ← hatr]
    exact surrounds_riskProfileFor hprice hnonneg side

/-- The bracket of a signal surrounds the price exactly if the entry is near it. -/
theorem surrounds_iff (b : Breakout) {ctx : StrategyContext} {sig : Signal}
    (hemitted : b.setup.strategy.evaluate (snapshotWith libm ticks t momentum) ctx = some sig)
    {side : Side} (hside : sig.side = side.asU8) :
    Surrounds side sig.riskProfile (snapshotWith libm ticks t momentum).price
      ↔ EntryNear side (b.entry (ticks ++ [t])) (atrPaise (prices (ticks ++ [t])))
        t.ltpPaise.toInt := by
  obtain ⟨side', hguards, rfl⟩ := Option.map_eq_some_iff.mp hemitted
  have hsame : side' = side := by
    cases side' <;> cases side <;> first | rfl | cases hside
  subst hsame
  exact surrounds_riskProfile libm momentum hpos b side'

end Levels

/-! ## A rally -/

/-- A trade of `qty` units while the buy side has grown to `buy`. -/
def fillTick (price : Int64) (qty buy : UInt64) : Tick :=
  { tradeAt price with ltq := qty, totalBuyQty := buy }

/-- Much is traded at one price, and little on the way up. -/
def rally : List Tick :=
  [fillTick 1000 1000000 1, fillTick 2000 100 2, fillTick 3000 100 3, fillTick 4000 100 4]

/-- The context of the default configuration. -/
def plainContext : StrategyContext := SignalEngineConfig.default.context none

/-- Both breakouts buy, with targets below the price. -/
theorem rally_not_surrounded :
    let snap := (processTickIntoState noLibm (afterTicks noLibm rally) (fillTick 5000 100 5)).2
    snap.price = 5000 ∧
      (openingRangeBreakout.strategy.evaluate snap plainContext).map
        (fun sig => (sig.side, sig.riskProfile.takeProfitPaise)) = some (Side.buy.asU8, 3000) ∧
      (momentumBreakout.strategy.evaluate snap plainContext).map
        (fun sig => (sig.side, sig.riskProfile.takeProfitPaise)) = some (Side.buy.asU8, 4638) ∧
      ¬ BracketsSurround noLibm := by
  intro snap
  have hrange : (openingRangeBreakout.strategy.evaluate snap plainContext).map
      (fun sig => (sig.side, sig.riskProfile.takeProfitPaise)) = some (Side.buy.asU8, 3000) := by
    decide +kernel
  have hmomentum : (momentumBreakout.strategy.evaluate snap plainContext).map
      (fun sig => (sig.side, sig.riskProfile.takeProfitPaise)) = some (Side.buy.asU8, 4638) := by
    decide +kernel
  refine ⟨rfl, hrange, hmomentum, fun h => ?_⟩
  obtain ⟨sig, hemitted, hlevels⟩ := Option.map_eq_some_iff.mp hrange
  obtain ⟨hside, htarget⟩ := Prod.mk.inj hlevels
  have habove := (h rally (fillTick 5000 100 5) (by decide) .openingRange snap.momentum
    plainContext sig hemitted .buy hside).2
  rw [htarget] at habove
  exact absurd habove (by decide)

theorem surrounds_iff_rally :
    ∃ sig, openingRangeBreakout.strategy.evaluate
        (snapshotWith noLibm rally (fillTick 5000 100 5) (fin 4)) plainContext = some sig ∧
      (Surrounds .buy sig.riskProfile (snapshotWith noLibm rally (fillTick 5000 100 5) (fin 4)).price
        ↔ EntryNear .buy (Breakout.entry (rally ++ [fillTick 5000 100 5]) .openingRange)
          (atrPaise (prices (rally ++ [fillTick 5000 100 5]))) 5000) := by
  have hside : openingRangeBreakout.side
      (snapshotWith noLibm rally (fillTick 5000 100 5) (fin 4)) plainContext = some .buy := by
    decide +kernel
  obtain ⟨sig, hemitted, hsig⟩ := Setup.evaluate_of_side _ _ _ hside
  exact ⟨sig, hemitted, surrounds_iff noLibm (fin 4) (by decide) .openingRange hemitted hsig⟩

end Hedge.Pipeline
