import Hedge.Features.Sweeps
import Mathlib.Data.List.DropRight

/-!
# The state as a function of the ticks

Reference: `process_tick_into_state` in `hedge-features/src/engine.rs`, `hedge-core/src/window.rs`.

A tick passes twelve indicators, of which each changes fields of its own. `HistoryView` collects the
fields behind the windows and the extremes of the session, and `historyView_processTick` says what a
tick makes of them. From this, `WindowsOf` ties the windows to the prices so far.
-/

namespace Hedge.Features

open Hedge Hedge.Common Hedge.Core

/-! ## Runs over ticks -/

/-- One tick: its snapshot and the next state. -/
def tickStep (libm : Libm) (state : FeatureState) (tick : Tick) : FeatureSnapshot × FeatureState :=
  let out := processTickIntoState libm state tick
  (out.2, out.1)

/-- The state after some ticks. -/
def afterTicks (libm : Libm) (ticks : List Tick) : FeatureState :=
  runState (tickStep libm) .default ticks

/-- The snapshot of each of some ticks. -/
def snapshots (libm : Libm) (ticks : List Tick) : List FeatureSnapshot :=
  runOutputs (tickStep libm) .default ticks

/-- The prices of some ticks. -/
def prices (ticks : List Tick) : List ℤ := ticks.map (·.ltpPaise.toInt)

@[simp] theorem afterTicks_concat (libm : Libm) (ticks : List Tick) (t : Tick) :
    afterTicks libm (ticks ++ [t]) = (processTickIntoState libm (afterTicks libm ticks) t).1 := by
  rw [afterTicks, runState_append]
  rfl

@[simp] theorem prices_concat (ticks : List Tick) (t : Tick) :
    prices (ticks ++ [t]) = prices ticks ++ [t.ltpPaise.toInt] := by
  rw [prices, List.map_append, List.map_singleton, prices]

/-- A run over ticks is one over inputs. -/
theorem stateAfter_ticks (libm : Libm) (ticks : List Tick) :
    stateAfter libm (ticks.map .tick) = afterTicks libm ticks := by
  rw [stateAfter, runState, List.foldl_map]
  rfl

theorem pricesOf_ticks (ticks : List Tick) : pricesOf (ticks.map .tick) = prices ticks := by
  rw [pricesOf, List.filterMap_map, prices, ← List.filterMap_eq_map]
  rfl

/-- The snapshot of a tick reads the state that the tick leaves. -/
theorem getElem?_snapshots (libm : Libm) (ticks : List Tick) (k : ℕ) :
    (snapshots libm ticks)[k]?
      = ticks[k]?.map (snapshotOf libm (afterTicks libm (ticks.take (k + 1)))) := by
  have hrun : ∀ (ticks : List Tick) (s : FeatureState) (k : ℕ),
      (runOutputs (tickStep libm) s ticks)[k]?
        = ticks[k]?.map (snapshotOf libm (runState (tickStep libm) s (ticks.take (k + 1)))) := by
    intro ticks
    induction ticks with
    | nil => exact fun _ _ => rfl
    | cons t ticks ih =>
      intro s k
      cases k with
      | zero => rfl
      | succ k =>
        rw [runOutputs_cons, List.getElem?_cons_succ, ih, List.getElem?_cons_succ]
        rfl
  exact hrun ticks .default k

/-! ## The fields of the windows -/

/-- The fields behind the windows and the extremes of the session. -/
structure HistoryView where
  tickCount : UInt64
  trWindow : RingWindow Int64 atrWindow
  prevClosePaise : Int64
  donchianPrices : RingWindow Int64 donchianWindow
  compressionPrices : RingWindow Int64 compressionWindow
  sessionHighPaise : Int64
  sessionLowPaise : Int64
  deltaSamples : RingWindow DeltaSample rollingDeltaCapacity
  rollingDeltaCached : Int64

def FeatureState.historyView (s : FeatureState) : HistoryView :=
  ⟨s.tickCount, s.trWindow, s.prevClosePaise, s.donchianPrices, s.compressionPrices,
    s.sessionHighPaise, s.sessionLowPaise, s.deltaSamples, s.rollingDeltaCached⟩

/-- What a tick makes of these fields, with the volume it is signed with. -/
def HistoryView.fold (v : HistoryView) (t : Tick) (signedQty : Int64) : HistoryView :=
  let deltaSamples := v.deltaSamples.push ⟨t.tsRecvNs, signedQty⟩
  let cutoff := t.tsRecvNs.saturatingSub rollingDeltaWindowNs
  let prevClose := if v.tickCount = 0 then t.ltpPaise else v.prevClosePaise
  { tickCount := v.tickCount.saturatingAdd 1
    trWindow := v.trWindow.push (max (max (t.ltpPaise - t.ltpPaise).abs
      (t.ltpPaise - prevClose).abs) (t.ltpPaise - prevClose).abs)
    prevClosePaise := t.ltpPaise
    donchianPrices := v.donchianPrices.push t.ltpPaise
    compressionPrices := v.compressionPrices.push t.ltpPaise
    sessionHighPaise := if v.sessionHighPaise = 0 ∨ t.ltpPaise > v.sessionHighPaise then t.ltpPaise
      else v.sessionHighPaise
    sessionLowPaise := if v.sessionLowPaise = 0 ∨ t.ltpPaise < v.sessionLowPaise then t.ltpPaise
      else v.sessionLowPaise
    deltaSamples := deltaSamples
    rollingDeltaCached := deltaSamples.iter.foldl
      (fun sum s => if s.tsNs ≥ cutoff then sum.saturatingAdd s.signedQty else sum) 0 }

/-- The indicators between these leave the fields alone. -/
theorem historyView_processTick (libm : Libm) (s : FeatureState) (t : Tick) :
    (processTickIntoState libm s t).1.historyView
      = s.historyView.fold t (RollingDelta.signVolume s t) := by
  have hvwap : ∀ s : FeatureState, (Vwap.update s t).historyView = s.historyView :=
    fun s => Vwap.view_update FeatureState.historyView (fun _ _ _ => rfl) s t
  have hvolatility : ∀ s : FeatureState, (Volatility.update libm s t).historyView
      = s.historyView :=
    fun s => Volatility.view_update FeatureState.historyView (fun _ _ => rfl) libm s t
  have hrsi : ∀ s : FeatureState, (Rsi.update s t).historyView = s.historyView :=
    fun s => Rsi.view_update FeatureState.historyView (fun _ _ _ _ => rfl) s t
  have hadx : ∀ s : FeatureState, (Adx.update s t).historyView = s.historyView :=
    fun s => Adx.view_update FeatureState.historyView (fun _ _ _ _ _ _ => rfl) s t
  -- What each of the others makes of the fields depends on the fields only.
  let bar := fun v : HistoryView => { v with
    trWindow := (v.fold t 0).trWindow
    prevClosePaise := (v.fold t 0).prevClosePaise }
  let candle := fun v : HistoryView => { v with
    compressionPrices := (v.fold t 0).compressionPrices
    sessionHighPaise := (v.fold t 0).sessionHighPaise
    sessionLowPaise := (v.fold t 0).sessionLowPaise }
  have hbar : ∀ s : FeatureState, (Ema.update (Atr.update s t) t).historyView = bar s.historyView :=
    fun _ => rfl
  have hmomentum : ∀ s : FeatureState, (Momentum.update s t).historyView = s.historyView :=
    fun _ => rfl
  have hcandle : ∀ s : FeatureState, (Sweep.update (Candle.update s t) t).historyView
      = candle s.historyView := fun _ => rfl
  have hdonchian : ∀ s : FeatureState, (Donchian.update s t).historyView
      = { s.historyView with donchianPrices := (s.historyView.fold t 0).donchianPrices } :=
    fun _ => rfl
  have hadvance : ∀ s : FeatureState, (advance s t).historyView
      = { s.historyView with tickCount := (s.historyView.fold t 0).tickCount } := fun _ => rfl
  have hstate : (processTickIntoState libm s t).1 = advance (updateIndicators libm s t) t := rfl
  rw [hstate]
  simp only [updateIndicators]
  rw [hadvance, hadx, hdonchian, hrsi, hcandle, hmomentum, hvolatility, hbar, hvwap]
  rfl

/-! ## The windows of a history -/

/-- The absolute changes of some prices, the first one taken as zero. -/
def changes (ps : List ℤ) : List ℤ :=
  (List.range ps.length).map fun i => |ps.getD i 0 - ps.getD (i - 1) 0|

@[simp] theorem length_changes (ps : List ℤ) : (changes ps).length = ps.length := by
  rw [changes, List.length_map, List.length_range]

theorem changes_concat (ps : List ℤ) (q : ℤ) :
    changes (ps ++ [q]) = changes ps ++ [|q - ps.getLast?.getD q|] := by
  have hold : ∀ i ∈ List.range ps.length,
      |(ps ++ [q]).getD i 0 - (ps ++ [q]).getD (i - 1) 0| = |ps.getD i 0 - ps.getD (i - 1) 0| := by
    intro i hi
    have hlt := List.mem_range.mp hi
    rw [List.getD_append _ _ _ _ hlt, List.getD_append _ _ _ _ (by omega)]
  have hlast : (ps ++ [q]).getD (ps.length - 1) 0 = ps.getLast?.getD q := by
    cases ps using List.reverseRecOn with
    | nil => rfl
    | append_singleton ps p => simp [List.getD_eq_getElem?_getD]
  have hnew : (ps ++ [q]).getD ps.length 0 = q := by simp [List.getD_eq_getElem?_getD]
  rw [changes, List.length_append, List.length_singleton, List.range_succ, List.map_append,
    List.map_congr_left hold, List.map_singleton, hnew, hlast, changes]

/-- The windows, the counter and the extremes are those of some prices. -/
structure WindowsOf (ps : List ℤ) (v : HistoryView) : Prop where
  count : v.tickCount.toNat = tickIndex ps.length
  last : ∀ p, ps.getLast? = some p → v.prevClosePaise.toInt = p
  trueRanges : v.trWindow.iter.map Int64.toInt = (changes ps).rtake atrWindow
  donchian : v.donchianPrices.iter.map Int64.toInt = ps.rtake donchianWindow
  compression : v.compressionPrices.iter.map Int64.toInt = ps.rtake compressionWindow
  unset : ps = [] → v.sessionHighPaise = 0 ∧ v.sessionLowPaise = 0
  high : ps ≠ [] → IsGreatest {p | p ∈ ps} v.sessionHighPaise.toInt
  low : ps ≠ [] → IsLeast {p | p ∈ ps} v.sessionLowPaise.toInt

theorem windowsOf_default : WindowsOf [] FeatureState.default.historyView where
  count := rfl
  last := nofun
  trueRanges := congrArg (List.map Int64.toInt) (RingWindow.iter_new 0 (by decide))
  donchian := congrArg (List.map Int64.toInt) (RingWindow.iter_new 0 (by decide))
  compression := congrArg (List.map Int64.toInt) (RingWindow.iter_new 0 (by decide))
  unset _ := ⟨rfl, rfl⟩
  high h := absurd rfl h
  low h := absurd rfl h

section Step

variable {ps : List ℤ} {v : HistoryView} (h : WindowsOf ps v) (t : Tick)

include h

/-- The true range of a tick is the distance from the price before it. -/
theorem WindowsOf.trueRange (hpos : ∀ p ∈ ps ++ [t.ltpPaise.toInt], 0 < p) :
    let prevClose := if v.tickCount = 0 then t.ltpPaise else v.prevClosePaise
    (max (max (t.ltpPaise - t.ltpPaise).abs (t.ltpPaise - prevClose).abs)
      (t.ltpPaise - prevClose).abs).toInt
      = |t.ltpPaise.toInt - ps.getLast?.getD t.ltpPaise.toInt| := by
  intro prevClose
  have hprice : 0 < t.ltpPaise.toInt := hpos _ (by simp)
  have hclose : prevClose.toInt = ps.getLast?.getD t.ltpPaise.toInt := by
    have hzero : v.tickCount = 0 ↔ ps = [] := by
      rw [← UInt64.toNat_inj, h.count, ← List.length_eq_zero_iff]
      simp only [tickIndex, UInt64.toNat_zero]
      omega
    cases hlast : ps.getLast? with
    | none =>
      have hempty : v.tickCount = 0 := hzero.mpr (List.getLast?_eq_none_iff.mp hlast)
      exact congrArg Int64.toInt (if_pos hempty)
    | some p =>
      have hne : v.tickCount ≠ 0 := by
        rw [Ne, hzero]
        rintro rfl
        cases hlast
      exact (congrArg Int64.toInt (if_neg hne)).trans (h.last p hlast)
  have hnonneg : 0 ≤ prevClose.toInt := by
    rw [hclose]
    cases hlast : ps.getLast? with
    | none => exact hprice.le
    | some p => exact (hpos p (List.mem_append_left _ (List.mem_of_getLast? hlast))).le
  rw [Int64.toInt_max, Int64.toInt_max, Int64.toInt_abs_sub hprice.le hprice.le,
    Int64.toInt_abs_sub hprice.le hnonneg, hclose, sub_self, abs_zero,
    max_assoc, max_self, max_eq_right (abs_nonneg _)]

/-- The extremes of a session that has begun are not zero, which stands for none. -/
theorem WindowsOf.extremes (hpos : ∀ p ∈ ps ++ [t.ltpPaise.toInt], 0 < p) (q : Int64) :
    IsGreatest {p | p ∈ ps ++ [t.ltpPaise.toInt]} (v.fold t q).sessionHighPaise.toInt ∧
      IsLeast {p | p ∈ ps ++ [t.ltpPaise.toInt]} (v.fold t q).sessionLowPaise.toInt := by
  have hset : {p | p ∈ ps ++ [t.ltpPaise.toInt]} = insert t.ltpPaise.toInt {p | p ∈ ps} := by
    ext p
    simp [or_comm]
  rw [hset]
  obtain rfl | hne := eq_or_ne ps []
  · obtain ⟨hhigh, hlow⟩ := h.unset rfl
    simp [HistoryView.fold, hhigh, hlow]
  · have hhigh := h.high hne
    have hlow := h.low hne
    have hunset : v.sessionHighPaise ≠ 0 ∧ v.sessionLowPaise ≠ 0 := by
      constructor
      · intro hzero
        have hmem := hpos _ (List.mem_append_left _ hhigh.1)
        rw [hzero] at hmem
        exact absurd hmem (by decide)
      · intro hzero
        have hmem := hpos _ (List.mem_append_left _ hlow.1)
        rw [hzero] at hmem
        exact absurd hmem (by decide)
    constructor
    · have hmax := hhigh.insert t.ltpPaise.toInt
      rw [max_def_lt'] at hmax
      simpa [HistoryView.fold, hunset.1, Int64.lt_iff_toInt_lt, apply_ite Int64.toInt] using hmax
    · have hmin := hlow.insert t.ltpPaise.toInt
      rw [min_def_lt] at hmin
      simpa [HistoryView.fold, hunset.2, Int64.lt_iff_toInt_lt, apply_ite Int64.toInt] using hmin

/-- A tick with a positive price goes on with the prices. -/
theorem WindowsOf.fold (hpos : ∀ p ∈ ps ++ [t.ltpPaise.toInt], 0 < p) (q : Int64) :
    WindowsOf (ps ++ [t.ltpPaise.toInt]) (v.fold t q) where
  count := by
    have hcount : (v.tickCount.saturatingAdd 1).toNat = tickIndex (ps.length + 1) := by
      rw [UInt64.toNat_saturatingAdd, h.count]
      simp only [tickIndex, UInt64.toNat_one]
      omega
    rwa [List.length_append, List.length_singleton]
  last := by
    intro p hp
    rw [List.getLast?_concat] at hp
    exact Option.some.inj hp
  trueRanges := by
    rw [changes_concat, ← h.trueRange t hpos]
    exact RingWindow.map_iter_push h.trueRanges _
  donchian := RingWindow.map_iter_push h.donchian _
  compression := RingWindow.map_iter_push h.compression _
  unset hnil := absurd hnil (by simp)
  high _ := (h.extremes t hpos q).1
  low _ := (h.extremes t hpos q).2

end Step

/-- After every run with positive prices the windows are those of the prices. -/
theorem windowsOf_stateAfter (libm : Libm) {inputs : List FeatureInput}
    (hpos : ∀ p ∈ pricesOf inputs, 0 < p) :
    WindowsOf (pricesOf inputs) (stateAfter libm inputs).historyView := by
  induction inputs using List.reverseRecOn with
  | nil => exact windowsOf_default
  | append_singleton inputs input ih =>
    rw [pricesOf_append] at hpos ⊢
    have h := ih fun p hp => hpos p (List.mem_append_left _ hp)
    rw [stateAfter_append]
    cases input with
    | tick t =>
      have hstep := historyView_processTick libm (stateAfter libm inputs) t
      rw [featureStep, hstep]
      exact h.fold t hpos _
    | orderflow value =>
      rw [FeatureInput.price, Option.toList_none, List.append_nil]
      exact h

end Hedge.Features
