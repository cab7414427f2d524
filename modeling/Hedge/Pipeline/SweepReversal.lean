import Hedge.Features.Sweeps
import Hedge.Signals.Strategies

/-!
# Failed breakouts and the side that is taken

Reference: `sweep::update` of `hedge-features`, `LiquiditySweepReversal::evaluate` of
`hedge-signals`.

The detector sets a negative flag after a failed high and a positive one after a failed low, against
the documentation of both crates. The strategy sells a positive flag and buys a negative one. So the
strategy trades with the breakout that has failed, whenever it trades.
-/

namespace Hedge.Pipeline

open Hedge Hedge.Common Hedge.Features Hedge.Signals
open Hedge.Common.ExactFloat (fin)

/-! ## Fading a breakout -/

/-- The snapshot of a tick after some inputs. -/
def snapshotAfter (libm : Libm) (inputs : List FeatureInput) (tick : Tick) : FeatureSnapshot :=
  (processTickIntoState libm (stateAfter libm inputs) tick).2

/-- A signal on the snapshot sells a failed high and buys a failed low. -/
def FadesBreakout (libm : Libm) (inputs : List FeatureInput) (tick : Tick) (ctx : StrategyContext) :
    Prop :=
  ∀ sig, liquiditySweepReversal.strategy.evaluate (snapshotAfter libm inputs tick) ctx = some sig →
    (RaisedByHigh (pricesOf (inputs ++ [.tick tick])) → sig.side = Side.sell.asU8) ∧
    (RaisedByLow (pricesOf (inputs ++ [.tick tick])) → sig.side = Side.buy.asU8)

/-- The fast EMA is above its value four ticks ago. -/
def Rising (prices : List ℤ) : Prop :=
  emaSlopeLookback ≤ prices.length ∧ emaPaise (prices.take (prices.length - 4)) < emaPaise prices

/-- The fast EMA is below its value four ticks ago. -/
def Falling (prices : List ℤ) : Prop :=
  emaSlopeLookback ≤ prices.length ∧ emaPaise prices < emaPaise (prices.take (prices.length - 4))

/-! ## The strategy -/

/-- A side that three guards let through. -/
theorem guards_eq_some_iff {a b c : Prop} [Decidable a] [Decidable b] [Decidable c] {x side : Side} :
    (if a then none else if b then none else if c then none else some x) = some side ↔
      side = x ∧ ¬ a ∧ ¬ b ∧ ¬ c := by
  split_ifs with ha hb hc
  · simp [ha]
  · simp [hb]
  · simp [hc]
  · rw [Option.some.injEq, eq_comm]
    simp [ha, hb, hc]

section Strategy

variable {snap : FeatureSnapshot} (ctx : StrategyContext) {q : ℚ}
  (hof : snap.orderflowStrength = fin q)

include hof

/-- A negative flag is bought. -/
theorem liquiditySweepSide_of_negative (hflag : snap.liquiditySweep = fin (-1)) (side : Side) :
    liquiditySweepSide snap ctx = some side ↔
      side = .buy ∧ snap.emaSlope.le (fin 0) = false ∧ 1 / 5 ≤ q := by
  have hfloor : 1 / 5 ≤ q ↔ ¬ |q| < 1 / 5 ∧ ¬ q ≤ 0 := by
    constructor
    · intro h
      exact ⟨not_lt.mpr (h.trans (le_abs_self q)), by linarith⟩
    · rintro ⟨habs, hpos⟩
      rwa [abs_of_pos (not_le.mp hpos), not_lt] at habs
  have hside : liquiditySweepSide snap ctx =
      if snap.emaSlope.le (fin 0) then none
      else if |q| < 1 / 5 then none else if q ≤ 0 then none else some .buy := by
    simp [liquiditySweepSide, opposes, hflag, hof, ExactFloat.le_fin]
    norm_num
  rw [hside, guards_eq_some_iff, hfloor, Bool.not_eq_true]

/-- A positive flag is sold. -/
theorem liquiditySweepSide_of_positive (hflag : snap.liquiditySweep = fin 1) (side : Side) :
    liquiditySweepSide snap ctx = some side ↔
      side = .sell ∧ (fin 0).le snap.emaSlope = false ∧ q ≤ -1 / 5 := by
  have hfloor : q ≤ -1 / 5 ↔ ¬ |q| < 1 / 5 ∧ ¬ 0 ≤ q := by
    constructor
    · intro h
      exact ⟨not_lt.mpr (le_trans (by linarith) (neg_le_abs q)), by linarith⟩
    · rintro ⟨habs, hneg⟩
      rw [abs_of_neg (not_le.mp hneg), not_lt] at habs
      linarith
  have hside : liquiditySweepSide snap ctx =
      if (fin 0).le snap.emaSlope then none
      else if |q| < 1 / 5 then none else if 0 ≤ q then none else some .sell := by
    simp [liquiditySweepSide, opposes, hflag, hof, ExactFloat.le_fin]
    norm_num
  rw [hside, guards_eq_some_iff, hfloor, Bool.not_eq_true]

end Strategy

/-! ## The snapshot -/

section Snapshot

variable (libm : Libm) {inputs : List FeatureInput} {tick : Tick}

/-- The snapshot reads the state that the tick leaves. -/
theorem snapshotAfter_eq :
    snapshotAfter libm inputs tick
      = snapshotOf libm (stateAfter libm (inputs ++ [.tick tick])) tick := by
  rw [stateAfter_append]
  rfl

theorem orderflowStrength_snapshotAfter (h : OrderflowInRange inputs) :
    (snapshotAfter libm inputs tick).orderflowStrength = orderflowOf inputs := by
  have hread : (snapshotAfter libm inputs tick).orderflowStrength
      = (stateAfter libm (inputs ++ [.tick tick])).orderflowStrengthCached := by
    rw [snapshotAfter_eq]
    rfl
  have hrange : OrderflowInRange (inputs ++ [.tick tick]) :=
    fun value hvalue => h value (by simpa using hvalue)
  rw [hread, (orderflow_stateAfter libm hrange).1, orderflowOf_append]

variable (hpos : ∀ p ∈ pricesOf (inputs ++ [.tick tick]), 0 < p)

include hpos

theorem flagOf_snapshotAfter :
    FlagOf (pricesOf (inputs ++ [.tick tick])) (snapshotAfter libm inputs tick).liquiditySweep := by
  rw [snapshotAfter_eq]
  exact (reflects_stateAfter libm hpos).flag

theorem emaSlope_snapshotAfter :
    ((snapshotAfter libm inputs tick).emaSlope.le (fin 0) = false ↔
      Rising (pricesOf (inputs ++ [.tick tick]))) ∧
    ((fin 0).le (snapshotAfter libm inputs tick).emaSlope = false ↔
      Falling (pricesOf (inputs ++ [.tick tick]))) := by
  have hslope : (snapshotAfter libm inputs tick).emaSlope
      = Ema.computeSlope (stateAfter libm (inputs ++ [.tick tick])) := by
    rw [snapshotAfter_eq]
    rfl
  rw [hslope, computeSlope_of_tracked (reflects_stateAfter libm hpos).ema
    fun p hp => ⟨hpos p hp, le_of_mem_pricesOf hp⟩, Rising, Falling]
  generalize pricesOf (inputs ++ [.tick tick]) = prices
  by_cases hshort : prices.length < emaSlopeLookback
  · simp [hshort, not_le.mpr hshort, ExactFloat.le_fin]
  · rw [if_neg hshort, f32OfRat, ExactFloat.toF32_le_zero, ExactFloat.zero_le_toF32]
    have hgain : ∀ n : ℤ, (0 < (n : ℚ) / 4 ↔ 0 < n) ∧ ((n : ℚ) / 4 < 0 ↔ n < 0) := by
      intro n
      constructor
      · rw [lt_div_iff₀ (by norm_num), zero_mul, Int.cast_pos]
      · rw [div_lt_iff₀ (by norm_num), zero_mul, Int.cast_lt_zero]
    simp only [decide_eq_false_iff_not, not_le, hgain, not_lt.mp hshort, true_and, sub_pos, sub_neg]

end Snapshot

/-! ## Whether the breakout is faded -/

section Fades

variable (libm : Libm) (inputs : List FeatureInput) (tick : Tick) (ctx : StrategyContext)

/-- Only the side that the guards let through decides. -/
theorem fadesBreakout_iff_side :
    FadesBreakout libm inputs tick ctx ↔
      ∀ side, liquiditySweepSide (snapshotAfter libm inputs tick) ctx = some side →
        (RaisedByHigh (pricesOf (inputs ++ [.tick tick])) → side = .sell) ∧
        (RaisedByLow (pricesOf (inputs ++ [.tick tick])) → side = .buy) := by
  have hinj : ∀ a b : Side, a.asU8 = b.asU8 ↔ a = b := by
    intro a b
    cases a <;> cases b <;> decide
  rw [FadesBreakout]
  generalize snapshotAfter libm inputs tick = snap
  constructor
  · intro h side hside
    obtain ⟨sig, hsig, hbyte⟩ := liquiditySweepReversal.evaluate_of_side _ ctx hside
    obtain ⟨hhigh, hlow⟩ := h sig hsig
    rw [hbyte] at hhigh hlow
    exact ⟨fun hraised => (hinj side .sell).mp (hhigh hraised),
      fun hraised => (hinj side .buy).mp (hlow hraised)⟩
  · intro h sig hsig
    obtain ⟨side, hside, hbyte⟩ := liquiditySweepReversal.side_of_evaluate _ ctx hsig
    obtain ⟨hhigh, hlow⟩ := h side hside
    rw [hbyte]
    exact ⟨fun hraised => congrArg Side.asU8 (hhigh hraised),
      fun hraised => congrArg Side.asU8 (hlow hraised)⟩

/-- The failed breakout is faded exactly if nothing is traded: no failed high meets a rising EMA and
a pressure of the buyers, and no failed low a falling EMA and a pressure of the sellers. -/
theorem fadesBreakout_iff (hpos : ∀ p ∈ pricesOf (inputs ++ [.tick tick]), 0 < p)
    (hrange : OrderflowInRange inputs) :
    FadesBreakout libm inputs tick ctx ↔
      ¬ (RaisedByHigh (pricesOf (inputs ++ [.tick tick])) ∧
          Rising (pricesOf (inputs ++ [.tick tick])) ∧ (fin (1 / 5)).le (orderflowOf inputs)) ∧
      ¬ (RaisedByLow (pricesOf (inputs ++ [.tick tick])) ∧
          Falling (pricesOf (inputs ++ [.tick tick])) ∧ (orderflowOf inputs).le (fin (-1 / 5))) := by
  obtain ⟨q, hq⟩ := (orderflow_stateAfter libm hrange).2
  have hof : (snapshotAfter libm inputs tick).orderflowStrength = fin q :=
    (orderflowStrength_snapshotAfter libm hrange).trans hq
  obtain ⟨hrising, hfalling⟩ := emaSlope_snapshotAfter libm hpos
  have hflag := flagOf_snapshotAfter libm hpos
  rw [fadesBreakout_iff_side, hq, ExactFloat.le_fin, ExactFloat.le_fin, decide_eq_true_iff,
    decide_eq_true_iff, ← hrising, ← hfalling]
  generalize pricesOf (inputs ++ [.tick tick]) = prices at hflag ⊢
  by_cases hlow : RaisedByLow prices
  · have hnot : ¬ RaisedByHigh prices := fun hhigh => hhigh.2 hlow
    simp [liquiditySweepSide_of_positive ctx hof (hflag.low hlow), hlow, hnot]
  · by_cases hhigh : RaisedByHigh prices
    · simp [liquiditySweepSide_of_negative ctx hof (hflag.high hhigh), hlow, hhigh]
    · simp [hlow, hhigh]

end Fades

/-- A tick at a price. -/
def tickAt (ltpPaise : Int64) : Tick :=
  ⟨Vector.replicate 16 0, 6, 0, ltpPaise, ltpPaise, ltpPaise, 0, 0, 0, 1, 1⟩

/-- Five new highs under a pressure of the buyers. -/
def risingFeed : List FeatureInput :=
  .orderflow (fin (1 / 2)) ::
    [10000, 20000, 30000, 40000, 50000].map fun ltpPaise => .tick (tickAt ltpPaise)

theorem orderflowInRange_risingFeed : OrderflowInRange risingFeed := by
  intro value hvalue
  simp only [risingFeed, List.map_cons, List.map_nil, List.mem_cons, FeatureInput.orderflow.injEq,
    reduceCtorEq, List.not_mem_nil, or_false] at hvalue
  exact ⟨1 / 2, hvalue, by norm_num, by norm_num⟩

/-- The context of a sideways market. -/
def sidewaysContext : StrategyContext :=
  { SignalEngineConfig.default with regime := .sideways }.context none

/-- A sixth new high raises no flag, and nothing is chased. -/
theorem fadesBreakout_sixthHigh :
    FadesBreakout ⟨id, id⟩ risingFeed (tickAt 60000) sidewaysContext := by
  have hpos : ∀ p ∈ pricesOf (risingFeed ++ [.tick (tickAt 60000)]), 0 < p := by decide
  have hflag := flagOf_snapshotAfter ⟨id, id⟩ hpos
  have hvalue : (snapshotAfter ⟨id, id⟩ risingFeed (tickAt 60000)).liquiditySweep = fin 0 := by
    decide +kernel
  rw [hvalue] at hflag
  rw [fadesBreakout_iff _ _ _ _ hpos orderflowInRange_risingFeed]
  exact ⟨fun ⟨hhigh, _⟩ => absurd (hflag.high hhigh) (by decide),
    fun ⟨hlow, _⟩ => absurd (hflag.low hlow) (by decide)⟩

/-- The price falls back below the last high, and the strategy buys. -/
theorem failedHigh_bought :
    RaisedByHigh (pricesOf (risingFeed ++ [.tick (tickAt 49000)])) ∧
    (liquiditySweepReversal.strategy.evaluate (snapshotAfter ⟨id, id⟩ risingFeed (tickAt 49000))
      sidewaysContext).map Signal.side = some Side.buy.asU8 ∧
    ¬ ∀ (libm : Libm) (inputs : List FeatureInput) (tick : Tick) (ctx : StrategyContext),
        (∀ p ∈ pricesOf (inputs ++ [.tick tick]), 0 < p) → OrderflowInRange inputs →
        FadesBreakout libm inputs tick ctx := by
  have hpos : ∀ p ∈ pricesOf (risingFeed ++ [.tick (tickAt 49000)]), 0 < p := by decide
  have hflag := flagOf_snapshotAfter ⟨id, id⟩ hpos
  have hvalue : (snapshotAfter ⟨id, id⟩ risingFeed (tickAt 49000)).liquiditySweep = fin (-1) := by
    decide +kernel
  rw [hvalue] at hflag
  have hlow : ¬ RaisedByLow (pricesOf (risingFeed ++ [.tick (tickAt 49000)])) :=
    fun hraised => absurd (hflag.low hraised) (by decide)
  have hhigh : RaisedByHigh (pricesOf (risingFeed ++ [.tick (tickAt 49000)])) := by
    by_contra hnot
    exact absurd (hflag.quiet hlow hnot) (by decide)
  have hbuys : (liquiditySweepReversal.strategy.evaluate
      (snapshotAfter ⟨id, id⟩ risingFeed (tickAt 49000)) sidewaysContext).map Signal.side
      = some Side.buy.asU8 := by decide +kernel
  refine ⟨hhigh, hbuys, fun h => ?_⟩
  obtain ⟨sig, hsig, hside⟩ := Option.map_eq_some_iff.mp hbuys
  have hsells := (h ⟨id, id⟩ risingFeed (tickAt 49000) sidewaysContext hpos
    orderflowInRange_risingFeed sig hsig).1 hhigh
  rw [hside] at hsells
  exact absurd hsells (by decide)

end Hedge.Pipeline
