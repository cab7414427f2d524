import Hedge.Exec.Evidence
import Mathlib.Algebra.Order.Floor.Semiring
import Mathlib.Data.Rat.Floor

/-!
# The statistics of an adapter

Reference: `hedge-exec/src/router.rs`.

The window of an adapter is a log that is cleared by `reset`, kept in a vector whose full slots are
replaced in turn. Its readers do not look at the order of the slots, so what they return is what the
last outcomes of the log have: their number, their failures and the nearest-rank percentile of their
latencies (`stats_describe_window`).
-/

namespace Hedge.Exec

open Hedge.Common

namespace AdapterStats

/-- One call: an outcome is recorded, or the window is drained. -/
def apply (s : AdapterStats) : LogCall Sample → AdapterStats
  | .append sample => s.record sample.outcome sample.latencyMs
  | .clear => s.reset

/-- New statistics after the calls. -/
def afterCalls (capacity : ℕ) (calls : List (LogCall Sample)) : AdapterStats :=
  calls.foldl apply (withCapacity capacity)

/-! ## What the readers return -/

/-- The failures among the outcomes. -/
def failures (samples : List Sample) : ℕ := samples.countP fun x => x.outcome = .failure

/-- The latencies that were measured, in ascending order. -/
def sortedLatencies (samples : List Sample) : List UInt32 :=
  ((samples.map Sample.latencyMs).filter fun ms => ms != 4294967295).insertionSort (· ≤ ·)

/-- The place of the 99th percentile among `m` sorted values. -/
def nearestRank (m : ℕ) : ℕ := ⌈(99 * m / 100 : ℚ)⌉₊ - 1

/-- The statistics are those of the outcomes `kept`. -/
structure Describes (s : AdapterStats) (kept : List Sample) : Prop where
  windowLen : s.windowLen = kept.length
  errorRate : s.errorRateBps.toNat = 10000 * failures kept / kept.length
  p99 : sortedLatencies kept ≠ [] →
    (sortedLatencies kept)[nearestRank (sortedLatencies kept).length]? = some s.p99LatencyMs
  unmeasured : sortedLatencies kept = [] → s.p99LatencyMs = 0

/-! ## The readers on the slots -/

/-- The source computes the rank in integers. -/
theorem nearestRank_eq (m : ℕ) : nearestRank m = (99 * m + 99) / 100 - 1 := by
  have hceil : ⌈(99 * m / 100 : ℚ)⌉₊ = (99 * m + 99) / 100 := by
    refine eq_of_forall_ge_iff fun c => ?_
    have hcast : (99 * m : ℚ) ≤ c * 100 ↔ 99 * m ≤ c * 100 := by exact_mod_cast Iff.rfl
    rw [Nat.ceil_le, div_le_iff₀ (by norm_num), hcast]
    omega
  rw [nearestRank, hceil]

theorem nearestRank_lt {m : ℕ} (hm : 0 < m) : nearestRank m < m := by
  rw [nearestRank_eq]
  omega

theorem errorRateBps_eq (s : AdapterStats) :
    s.errorRateBps.toNat = 10000 * failures s.samples / s.samples.length := by
  have hle : failures s.samples ≤ s.samples.length := List.countP_le_length
  unfold errorRateBps
  split_ifs with hempty
  · rw [List.isEmpty_iff.mp hempty]
    rfl
  · have hrate : 10000 * failures s.samples / s.samples.length ≤ 10000 :=
      Nat.div_le_of_le_mul (by omega)
    rw [UInt32.toNat_ofNat', Nat.mul_comm]
    exact Nat.mod_eq_of_lt (by unfold failures at hrate; omega)

theorem p99LatencyMs_eq (s : AdapterStats) :
    s.p99LatencyMs =
      (sortedLatencies s.samples).getD (nearestRank (sortedLatencies s.samples).length) 0 := by
  show (sortedLatencies s.samples).getD
    (min ((99 * (sortedLatencies s.samples).length + 99) / 100 - 1)
      ((sortedLatencies s.samples).length - 1)) 0 = _
  rcases Nat.eq_zero_or_pos (sortedLatencies s.samples).length with hzero | hpos
  · rw [List.length_eq_zero_iff.mp hzero]
    rfl
  · rw [← nearestRank_eq, min_eq_left (by have := nearestRank_lt hpos; omega)]

/-- The readers return the statistics of the slots. -/
theorem describes_samples (s : AdapterStats) : s.Describes s.samples where
  windowLen := rfl
  errorRate := s.errorRateBps_eq
  p99 := by
    intro hmeasured
    have hlt := nearestRank_lt (List.length_pos_iff.mpr hmeasured)
    rw [p99LatencyMs_eq, List.getD_eq_getElem _ _ hlt, List.getElem?_eq_getElem hlt]
  unmeasured := by
    intro hnone
    rw [p99LatencyMs_eq, hnone]
    rfl

/-- What is described does not depend on the order of the outcomes. -/
theorem Describes.perm {s : AdapterStats} {xs ys : List Sample} (h : s.Describes xs)
    (hperm : xs.Perm ys) : s.Describes ys := by
  have hsorted : sortedLatencies xs = sortedLatencies ys :=
    insertionSort_eq_of_perm ((hperm.map Sample.latencyMs).filter _)
  have hfailures : failures xs = failures ys := hperm.countP_eq _
  refine ⟨?_, ?_, ?_, ?_⟩
  · rw [h.windowLen, hperm.length_eq]
  · rw [h.errorRate, hfailures, hperm.length_eq]
  · rw [← hsorted]
    exact h.p99
  · rw [← hsorted]
    exact h.unmeasured

/-! ## Runs -/

/-- The slots keep the last outcomes of the log. -/
theorem holds_afterCalls {capacity : ℕ} (hcap : 0 < capacity) (calls : List (LogCall Sample)) :
    (afterCalls capacity calls).capacity = capacity ∧
      (afterCalls capacity calls).Holds (LogCall.since calls) := by
  refine LogCall.simulation
    (fun (s : AdapterStats) log => s.capacity = capacity ∧ s.Holds log) ?_ ?_ ?_ calls
  · rintro s log sample ⟨rfl, hholds⟩
    exact ⟨capacity_record s _ _, hholds.record hcap sample.outcome sample.latencyMs⟩
  · rintro s log ⟨rfl, -⟩
    exact ⟨rfl, holds_reset s⟩
  · exact ⟨max_eq_left hcap, holds_withCapacity capacity⟩

/-- For every capacity and every sequence of records and resets the window is as long as there are
outcomes, up to the capacity, and the error rate and the percentile are those of exactly that many
last outcomes. -/
theorem stats_describe_window (capacity : ℕ) (hcap : 1 ≤ capacity)
    (calls : List (LogCall Sample)) :
    let s := afterCalls capacity calls
    s.windowLen = min (LogCall.since calls).length capacity ∧
      s.Describes (lastN s.windowLen (LogCall.since calls)) := by
  intro s
  obtain ⟨hcapacity, hholds⟩ := holds_afterCalls hcap calls
  have hlen : s.windowLen = min (LogCall.since calls).length capacity := by
    rw [windowLen, hholds.length_samples, hcapacity, Nat.min_comm]
  refine ⟨hlen, s.describes_samples.perm ?_⟩
  rw [hlen, lastN_min_length]
  have hslots : s.samples.rotate s.pos = lastN capacity (LogCall.since calls) := by
    rw [← hcapacity]
    exact hholds.samples
  rw [← hslots]
  exact (List.rotate_perm _ _).symm

/-- A window of two that wraps after a reset. -/
theorem stats_describe_window_two :
    let calls : List (LogCall Sample) := [.append ⟨.failure, 9⟩, .clear, .append ⟨.failure, 5⟩,
      .append ⟨.success, 4294967295⟩, .append ⟨.success, 7⟩]
    let s := afterCalls 2 calls
    s.windowLen = min 3 2 ∧ s.Describes (lastN s.windowLen (LogCall.since calls)) :=
  stats_describe_window 2 (by decide) [.append ⟨.failure, 9⟩, .clear,
    .append ⟨.failure, 5⟩, .append ⟨.success, 4294967295⟩, .append ⟨.success, 7⟩]

end AdapterStats

end Hedge.Exec
