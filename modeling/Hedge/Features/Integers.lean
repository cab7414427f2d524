import Hedge.Features.History
import Hedge.Features.Sessions

/-!
# The integer features

Reference: `vwap`, `atr`, `donchian` and `candle` in `hedge-features/src/incremental`.

Averages, channel and extremes are kept tick by tick. `IntegerFeatures` gives their definitions over
the list of all ticks, and `integersFollow_of_fits` says that every snapshot of a run has them.
-/

namespace Hedge.Features

open Hedge Hedge.Common Hedge.Core

/-! ## Definitions -/

/-- The mean of some numbers, rounded down; zero without one. -/
def meanOf (xs : List ℤ) : ℤ := if xs = [] then 0 else xs.sum / xs.length

/-- The mean of the last true ranges of a history. -/
def atrPaise (ps : List ℤ) : ℤ := meanOf ((changes ps).rtake atrWindow)

/-- The prices at which some ticks have traded. -/
def tradedPrices (ticks : List Tick) : Set ℤ := {p | ∃ t ∈ ticks, t.ltq ≠ 0 ∧ t.ltpPaise.toInt = p}

/-- The integer features of a snapshot and of its state are those of the ticks so far. -/
structure IntegerFeatures (ticks : List Tick) (snap : FeatureSnapshot) (state : FeatureState) :
    Prop where
  vwap : snap.vwap.toInt = if volume ticks = 0 then 0 else tradedPaise ticks / volume ticks
  vwap_between : volume ticks ≠ 0 → ∀ lo hi, IsLeast (tradedPrices ticks) lo →
    IsGreatest (tradedPrices ticks) hi → lo ≤ snap.vwap.toInt ∧ snap.vwap.toInt ≤ hi
  atr : snap.atr.toInt = atrPaise (prices ticks)
  donchianUpper : IsGreatest {p | p ∈ (prices ticks).rtake donchianWindow} snap.donchianUpper.toInt
  donchianLower : IsLeast {p | p ∈ (prices ticks).rtake donchianWindow} snap.donchianLower.toInt
  sessionHigh : IsGreatest {p | p ∈ prices ticks} state.sessionHighPaise.toInt
  sessionLow : IsLeast {p | p ∈ prices ticks} state.sessionLowPaise.toInt

/-- After each tick the integer features are those of the ticks so far. -/
def IntegersFollow (libm : Libm) (ticks : List Tick) : Prop :=
  ∀ pre t post, ticks = pre ++ t :: post →
    IntegerFeatures (pre ++ [t]) (processTickIntoState libm (afterTicks libm pre) t).2
      (processTickIntoState libm (afterTicks libm pre) t).1

/-! ## Means -/

/-- A mean of numbers that are not negative lies between zero and any bound on them. -/
theorem meanOf_mem {xs : List ℤ} {b : ℤ} (hb : 0 ≤ b) (h : ∀ x ∈ xs, 0 ≤ x ∧ x ≤ b) :
    0 ≤ meanOf xs ∧ meanOf xs ≤ b := by
  rw [meanOf]
  split_ifs with hnil
  · exact ⟨le_rfl, hb⟩
  · have hlength : (0 : ℤ) < xs.length := by exact_mod_cast List.length_pos_iff.mpr hnil
    have hsum : xs.sum ≤ xs.length * b := by
      rw [← nsmul_eq_mul]
      exact List.sum_le_card_nsmul xs b fun x hx => (h x hx).2
    refine ⟨Int.ediv_nonneg (List.sum_nonneg fun x hx => (h x hx).1) hlength.le, ?_⟩
    exact Int.ediv_le_of_le_mul hlength (by rwa [mul_comm])

/-- The ATR of a state is the mean of the window of its true ranges. -/
theorem computePaise_atr {s : FeatureState} (h : ∀ v ∈ s.trWindow.iter, 0 ≤ v.toInt) :
    (Atr.computePaise s).toInt = meanOf (s.trWindow.iter.map Int64.toInt) := by
  have hsum : s.trWindow.iter.foldl (fun (sum : ℤ) v => sum + v.toInt) 0
      = (s.trWindow.iter.map Int64.toInt).sum := by
    rw [List.sum_eq_foldl, List.foldl_map]
  have hlen : s.trWindow.len = (s.trWindow.iter.map Int64.toInt).length := by
    rw [List.length_map, RingWindow.length_iter]
  have hmem : ∀ x ∈ s.trWindow.iter.map Int64.toInt, 0 ≤ x ∧ x ≤ 2 ^ 63 - 1 := by
    intro x hx
    obtain ⟨v, hv, rfl⟩ := List.mem_map.mp hx
    exact ⟨h v hv, Int.le_sub_one_of_lt v.toInt_lt⟩
  obtain ⟨hlo, hhi⟩ := meanOf_mem (by norm_num) hmem
  rw [Atr.computePaise, hsum, hlen, meanOf] at *
  simp only [List.length_eq_zero_iff] at *
  split_ifs at * with hnil
  · rfl
  · rw [Int.tdiv_eq_ediv_of_nonneg (List.sum_nonneg fun x hx => (hmem x hx).1),
      Int64.toInt_ofInt_of_le] <;> omega

/-! ## Extremes of a window -/

theorem setOf_mem_concat (l : List ℤ) (x : ℤ) : {p | p ∈ l ++ [x]} = insert x {p | p ∈ l} := by
  ext p
  simp [or_comm]

/-- The scan for the greatest element, from below every element. -/
theorem isGreatest_scan {l : List Int64} (hne : l ≠ []) :
    IsGreatest {p | p ∈ l.map Int64.toInt}
      (l.foldl (fun m p => if p > m then p else m) Int64.minValue).toInt := by
  induction l using List.reverseRecOn with
  | nil => exact absurd rfl hne
  | append_singleton l x ih =>
    have hstep : ∀ m : Int64, (if x > m then x else m).toInt = max x.toInt m.toInt := by
      intro m
      rw [apply_ite Int64.toInt, max_def_lt']
      simp only [gt_iff_lt, Int64.lt_iff_toInt_lt]
    rw [List.map_append, List.map_singleton, setOf_mem_concat, List.foldl_append, List.foldl_cons,
      List.foldl_nil, hstep]
    obtain rfl | hl := eq_or_ne l []
    · have hmin : Int64.minValue.toInt ≤ x.toInt := x.le_toInt
      rw [List.foldl_nil, max_eq_left hmin]
      simp
    · exact (ih hl).insert _

/-- The scan for the least element, from above every element. -/
theorem isLeast_scan {l : List Int64} (hne : l ≠ []) :
    IsLeast {p | p ∈ l.map Int64.toInt}
      (l.foldl (fun m p => if p < m then p else m) Int64.maxValue).toInt := by
  induction l using List.reverseRecOn with
  | nil => exact absurd rfl hne
  | append_singleton l x ih =>
    have hstep : ∀ m : Int64, (if x < m then x else m).toInt = min x.toInt m.toInt := by
      intro m
      rw [apply_ite Int64.toInt, min_def_lt]
      simp only [Int64.lt_iff_toInt_lt]
    rw [List.map_append, List.map_singleton, setOf_mem_concat, List.foldl_append, List.foldl_cons,
      List.foldl_nil, hstep]
    obtain rfl | hl := eq_or_ne l []
    · rw [List.foldl_nil, min_eq_left (Int64.toInt_le x)]
      simp
    · exact (ih hl).insert _

/-- The window of a channel is empty only before the first tick. -/
theorem rtake_ne_nil {α : Type*} {l : List α} (h : l ≠ []) {n : ℕ} (hn : n ≠ 0) :
    l.rtake n ≠ [] := by
  have hlength := List.length_pos_iff.mpr h
  rw [List.rtake, ← List.length_pos_iff, List.length_drop]
  omega

/-- The bounds of the channel are the extremes of its window. -/
theorem donchian_of_windows {ps : List ℤ} {s : FeatureState} (h : WindowsOf ps s.historyView)
    (hne : ps ≠ []) :
    IsGreatest {p | p ∈ ps.rtake donchianWindow} (Donchian.computeUpper s).toInt ∧
      IsLeast {p | p ∈ ps.rtake donchianWindow} (Donchian.computeLower s).toInt := by
  have hwindow : s.donchianPrices.iter.map Int64.toInt = ps.rtake donchianWindow := h.donchian
  have hiter : s.donchianPrices.iter ≠ [] := by
    rw [Ne, ← List.map_eq_nil_iff (f := Int64.toInt), hwindow]
    exact rtake_ne_nil hne (by decide)
  have hlen : s.donchianPrices.len ≠ 0 := by
    rwa [← RingWindow.length_iter, Ne, List.length_eq_zero_iff]
  rw [Donchian.computeUpper, Donchian.computeLower, if_neg hlen, if_neg hlen, ← hwindow]
  exact ⟨isGreatest_scan hiter, isLeast_scan hiter⟩

/-! ## The average price -/

/-- With positive prices nothing is saturated while the value traded fits. -/
theorem vwapView_afterTicks (libm : Libm) {ticks : List Tick} (hpos : ∀ p ∈ prices ticks, 0 < p)
    (hfits : tradedPaise ticks < 2 ^ 127) :
    (afterTicks libm ticks).vwapView = (tradedPaise ticks, volume ticks) ∧
      (volume ticks : ℤ) ≤ tradedPaise ticks := by
  induction ticks using List.reverseRecOn with
  | nil => exact ⟨rfl, le_rfl⟩
  | append_singleton ticks t ih =>
    rw [prices_concat] at hpos
    have ht : 0 < t.ltpPaise.toInt := hpos _ (by simp)
    rw [tradedPaise_append, tradedPaise_singleton] at hfits ⊢
    rw [volume_append, volume_singleton]
    have hvalue : (t.ltq.toNat : ℤ) ≤ t.ltpPaise.toInt * t.ltq.toNat :=
      le_mul_of_one_le_left (Int.natCast_nonneg _) ht
    obtain ⟨hview, hle⟩ := ih (fun p hp => hpos p (List.mem_append_left _ hp)) (by omega)
    refine ⟨?_, by push_cast; omega⟩
    rw [afterTicks_concat, vwapView_processTick, vwapView_update, hview, accumulate]
    dsimp only
    split_ifs with hzero
    · rw [hzero, Nat.cast_zero, mul_zero, add_zero, add_zero]
    · rw [min_eq_left (by omega), max_eq_right (by omega), min_eq_left (by omega)]

/-- The quotient of the totals lies between the extreme prices. -/
theorem average_between {ticks : List Tick} (hvolume : volume ticks ≠ 0) {lo hi : ℤ}
    (hlo : IsLeast (tradedPrices ticks) lo) (hhi : IsGreatest (tradedPrices ticks) hi) :
    lo ≤ tradedPaise ticks / volume ticks ∧ tradedPaise ticks / volume ticks ≤ hi := by
  have hbounds : ∀ l ⊆ ticks, lo * (volume l : ℤ) ≤ tradedPaise l ∧
      tradedPaise l ≤ hi * (volume l : ℤ) := by
    intro l hl
    induction l with
    | nil => simp [volume, tradedPaise]
    | cons t l ih =>
      obtain ⟨hlow, hhigh⟩ := ih fun u hu => hl (List.mem_cons_of_mem _ hu)
      have hsplit : t :: l = [t] ++ l := rfl
      rw [hsplit, volume_append, tradedPaise_append, volume_singleton, tradedPaise_singleton,
        Nat.cast_add, mul_add, mul_add]
      by_cases hzero : t.ltq = 0
      · rw [hzero]
        simpa using ⟨hlow, hhigh⟩
      · have hmem : t.ltpPaise.toInt ∈ tradedPrices ticks :=
          ⟨t, hl List.mem_cons_self, hzero, rfl⟩
        have hqty : (0 : ℤ) ≤ t.ltq.toNat := Int.natCast_nonneg _
        exact ⟨add_le_add (mul_le_mul_of_nonneg_right (hlo.2 hmem) hqty) hlow,
          add_le_add (mul_le_mul_of_nonneg_right (hhi.2 hmem) hqty) hhigh⟩
  obtain ⟨hlow, hhigh⟩ := hbounds ticks (List.Subset.refl _)
  have hpos : (0 : ℤ) < volume ticks := by omega
  exact ⟨Int.le_ediv_of_mul_le hpos hlow, Int.ediv_le_of_le_mul hpos hhigh⟩

/-! ## Every snapshot -/

/-- With positive prices what is traded later only adds to the value. -/
theorem tradedPaise_nonneg {ticks : List Tick} (hpos : ∀ p ∈ prices ticks, 0 < p) :
    0 ≤ tradedPaise ticks := by
  apply List.sum_nonneg
  intro x hx
  obtain ⟨t, ht, rfl⟩ := List.mem_map.mp hx
  exact mul_nonneg (hpos _ (List.mem_map_of_mem ht)).le (Int.natCast_nonneg _)

/-- The windows of a state after some ticks with positive prices. -/
theorem windowsOf_afterTicks (libm : Libm) {ticks : List Tick}
    (hpos : ∀ p ∈ prices ticks, 0 < p) :
    WindowsOf (prices ticks) (afterTicks libm ticks).historyView := by
  rw [← pricesOf_ticks] at hpos ⊢
  rw [← stateAfter_ticks]
  exact windowsOf_stateAfter libm hpos

/-- The ATR of a state is that of its prices. -/
theorem atr_of_windows {ps : List ℤ} {s : FeatureState} (h : WindowsOf ps s.historyView) :
    (Atr.computePaise s).toInt = atrPaise ps := by
  have hwindow : s.trWindow.iter.map Int64.toInt = (changes ps).rtake atrWindow := h.trueRanges
  rw [computePaise_atr, hwindow, atrPaise]
  intro v hv
  have hmem : v.toInt ∈ changes ps :=
    List.mem_of_mem_drop (hwindow ▸ List.mem_map_of_mem hv)
  obtain ⟨i, -, hi⟩ := List.mem_map.mp hmem
  rw [← hi]
  exact abs_nonneg _

/-- The integer features of a state are those of the ticks so far. -/
theorem integerFeatures_afterTicks (libm : Libm) {ticks : List Tick} (hne : ticks ≠ [])
    (hpos : ∀ p ∈ prices ticks, 0 < p) (hfits : tradedPaise ticks < 2 ^ 127) (t : Tick) :
    IntegerFeatures ticks (snapshotOf libm (afterTicks libm ticks) t) (afterTicks libm ticks) := by
  have hwindows := windowsOf_afterTicks libm hpos
  have hprices : prices ticks ≠ [] := by rwa [prices, Ne, List.map_eq_nil_iff]
  obtain ⟨hview, hvolume⟩ := vwapView_afterTicks libm hpos hfits
  have hvwap : (Vwap.computePaise (afterTicks libm ticks)).toInt
      = if volume ticks = 0 then 0 else tradedPaise ticks / volume ticks := by
    rw [computePaise_eq, hview, priceOf_totals (by omega), averagePaise,
      Int.tdiv_eq_ediv_of_nonneg (tradedPaise_nonneg hpos)]
  obtain ⟨hupper, hlower⟩ := donchian_of_windows hwindows hprices
  refine ⟨hvwap, ?_, atr_of_windows hwindows, hupper, hlower, hwindows.high hprices,
    hwindows.low hprices⟩
  intro hne lo hi hlo hhi
  change lo ≤ (Vwap.computePaise _).toInt ∧ (Vwap.computePaise _).toInt ≤ hi
  rw [hvwap, if_neg hne]
  exact average_between hne hlo hhi

/-- With positive prices, while the value traded fits 128 bits, the integer features of every
snapshot and of its state are those of the ticks so far. -/
theorem integersFollow_of_fits (libm : Libm) (ticks : List Tick)
    (hpos : ∀ p ∈ prices ticks, 0 < p) (hfits : tradedPaise ticks < 2 ^ 127) :
    IntegersFollow libm ticks := by
  intro pre t post hsplit
  have hsplit : ticks = (pre ++ [t]) ++ post := by rw [hsplit, List.append_assoc]; rfl
  have hposPre : ∀ p ∈ prices (pre ++ [t]), 0 < p := by
    intro p hp
    refine hpos p ?_
    rw [hsplit, prices, List.map_append]
    exact List.mem_append_left _ hp
  have hposPost : ∀ p ∈ prices post, 0 < p := by
    intro p hp
    refine hpos p ?_
    rw [hsplit, prices, List.map_append]
    exact List.mem_append_right _ hp
  have hnonneg := tradedPaise_nonneg hposPost
  rw [hsplit, tradedPaise_append] at hfits
  have hstate := afterTicks_concat libm pre t
  have hsnap : (processTickIntoState libm (afterTicks libm pre) t).2
      = snapshotOf libm (processTickIntoState libm (afterTicks libm pre) t).1 t := rfl
  rw [hsnap, ← hstate]
  exact integerFeatures_afterTicks libm (by simp) hposPre (by omega) t

theorem integersFollow_of_fits_three :
    IntegersFollow noLibm [tradeAt 100, tradeAt 104, tradeAt 101] :=
  integersFollow_of_fits noLibm _ (by decide) (by decide)

end Hedge.Features
