import Hedge.Gateway.Events
import Hedge.MarketData.Breadth

/-!
# High-volatility mode

Reference: `hedge-market-data/src/breadth.rs`, `hedge-ui-gateway/src/volatility.rs`.

The aggregator publishes the volatility in a field `stdev`. The tracker reads a field `value`, which
no published payload has, and ignores the payload.
-/

namespace Hedge.Pipeline

open Hedge.Common Hedge.Gateway Hedge.MarketData

/-! ## Following the volatility -/

/-- The volatility is above the threshold. -/
def exceeds (threshold : ExactFloat) (v : VolatilityBreadth) : Bool := v.stdev.gt threshold

/-- The tracker is fed a published value. -/
def trackerStep (tracker : VolatilityTracker) (v : VolatilityBreadth) :
    Option Bool × VolatilityTracker :=
  tracker.observe v.toJson

/-- A fresh tracker that is fed the values in order is in high-volatility mode exactly while the
latest one exceeds the threshold, and it reports the changes of that. -/
def FollowsVolatility (threshold : ExactFloat) (vs : List VolatilityBreadth) : Prop :=
  ∀ pre v post, vs = pre ++ v :: post →
    let out := trackerStep (runState trackerStep ⟨threshold, false⟩ pre) v
    out.2.inHighVol = exceeds threshold v ∧
      out.1 = if exceeds threshold v = pre.getLast?.elim false (exceeds threshold) then none
        else some (exceeds threshold v)

/-- One step: a published value says nothing to the tracker. -/
theorem trackerStep_eq (tracker : VolatilityTracker) (v : VolatilityBreadth) :
    trackerStep tracker v = (none, tracker) := by
  have hread : tracker.reading v.toJson = none := by
    simp [VolatilityTracker.reading, VolatilityBreadth.toJson]
  rw [trackerStep, VolatilityTracker.observe, hread]

/-- The whole run. -/
theorem runState_trackerStep (tracker : VolatilityTracker) (vs : List VolatilityBreadth) :
    runState trackerStep tracker vs = tracker := by
  refine runState_invariant_all trackerStep (· = tracker) ?_ rfl vs
  rintro s v rfl
  rw [trackerStep_eq]

/-- For every sequence of values: the mode follows the volatility exactly if no value exceeds the
threshold. -/
theorem followsVolatility_iff (threshold : ExactFloat) (vs : List VolatilityBreadth) :
    FollowsVolatility threshold vs ↔ ∀ v ∈ vs, exceeds threshold v = false := by
  unfold FollowsVolatility
  simp only [runState_trackerStep, trackerStep_eq]
  constructor
  · intro h v hv
    obtain ⟨pre, post, hsplit⟩ := List.append_of_mem hv
    exact (h pre v post hsplit).1.symm
  · intro h pre v post hsplit
    have hv : exceeds threshold v = false := h v (by rw [hsplit]; simp)
    have hlast : pre.getLast?.elim false (exceeds threshold) = false := by
      cases hpre : pre.getLast? with
      | none => rfl
      | some u =>
        have hu : u ∈ vs := by
          rw [hsplit]
          exact List.mem_append_left _ (List.mem_of_getLast? hpre)
        exact h u hu
    rw [hv, hlast]
    exact ⟨rfl, rfl⟩

/-- For every run of the aggregator and every threshold: the mode follows the volatility it
publishes exactly if that never exceeds the threshold. -/
theorem mode_follows_published_iff (sqrt : ℚ → ℚ) (agg : BreadthAggregator)
    (ticks : List BreadthTick) (threshold : ExactFloat) :
    FollowsVolatility threshold (agg.published sqrt ticks) ↔
      ∀ v ∈ agg.published sqrt ticks, exceeds threshold v = false :=
  followsVolatility_iff threshold _

/-- The default of `high_vol_threshold`: `0.05` as an `f32`. -/
def highVolThreshold : ExactFloat := .fin (13421773 / 268435456)

/-- A price that doubles and halves again. -/
def doubledAndHalved : List BreadthTick :=
  [⟨makeTick 1 100, 0, 0, 0⟩, ⟨makeTick 1 200, 0, 0, 0⟩,
    ⟨makeTick 1 100, 250000000, 250000000, 250000000⟩]

/-- A square root on the squares the run needs. -/
def sqrtNineSixteenths (q : ℚ) : ℚ := if q = 9 / 16 then 3 / 4 else q

/-- A volatility of 0.75 is published, and the mode stays off. -/
theorem mode_misses_volatility :
    ¬ FollowsVolatility highVolThreshold
      ((BreadthAggregator.new ∅ ∅ 0).published sqrtNineSixteenths doubledAndHalved) := by
  rw [followsVolatility_iff]
  intro h
  have hpublished : (BreadthAggregator.new ∅ ∅ 0).published sqrtNineSixteenths doubledAndHalved
      = [⟨.fin (3 / 4), 2, 250000000⟩] := by
    decide +kernel
  rw [hpublished] at h
  have hexceeds := h _ List.mem_cons_self
  revert hexceeds
  decide +kernel

end Hedge.Pipeline
