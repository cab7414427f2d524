import Hedge.Features.Integers

/-!
# The window of the rolling delta

Reference: `rolling_delta::update` in `hedge-features`.

The window is bounded in time, and by the ring it is kept in. So a reading adds up the ticks of the
last thirty seconds, of the last 256 that there were.
-/

namespace Hedge.Features

open Hedge Hedge.Common Hedge.Core

/-! ## Samples -/

/-- Each of some ticks with the volume it was signed with when it arrived. -/
def samplesOf (libm : Libm) (ticks : List Tick) : List DeltaSample :=
  runCollect (tickStep libm) (fun s t => [⟨t.tsRecvNs, RollingDelta.signVolume s t⟩]) .default ticks

/-- The signed volume of some samples. -/
def signedVolume (samples : List DeltaSample) : ℤ := (samples.map (·.signedQty.toInt)).sum

/-- At most thirty seconds lie between a sample and `now`. -/
def InWindow (now : UInt64) (sample : DeltaSample) : Prop :=
  now.toNat - rollingDeltaWindowNs.toNat ≤ sample.tsNs.toNat

instance (now : UInt64) : DecidablePred (InWindow now) :=
  fun sample => inferInstanceAs (Decidable (_ ≤ sample.tsNs.toNat))

/-- The signed volume of the samples of the window. -/
def windowVolume (now : UInt64) (samples : List DeltaSample) : ℤ :=
  signedVolume (samples.filter fun sample => InWindow now sample)

/-- The ticks come in the order of their times. -/
def InOrder (ticks : List Tick) : Prop := (ticks.map (·.tsRecvNs)).Pairwise (· ≤ ·)

/-- No stretch of the ticks adds up to more than an `i64` holds. -/
def VolumesFit (libm : Libm) (ticks : List Tick) : Prop :=
  ∀ run, run <:+: samplesOf libm ticks → -2 ^ 63 ≤ signedVolume run ∧ signedVolume run < 2 ^ 63

/-- After each tick the rolling delta is what `reading` makes of the samples so far. -/
def DeltasAre (libm : Libm) (reading : UInt64 → List DeltaSample → ℤ) (ticks : List Tick) : Prop :=
  ∀ pre t post, ticks = pre ++ t :: post →
    (processTickIntoState libm (afterTicks libm pre) t).2.rollingDelta.toInt
      = reading t.tsRecvNs (samplesOf libm (pre ++ [t]))

@[simp] theorem signedVolume_nil : signedVolume [] = 0 := rfl

theorem signedVolume_concat (samples : List DeltaSample) (x : DeltaSample) :
    signedVolume (samples ++ [x]) = signedVolume samples + x.signedQty.toInt := by
  rw [signedVolume, List.map_append, List.sum_append, List.map_singleton, List.sum_singleton,
    signedVolume]

theorem samplesOf_concat (libm : Libm) (ticks : List Tick) (t : Tick) :
    samplesOf libm (ticks ++ [t])
      = samplesOf libm ticks ++
        [⟨t.tsRecvNs, RollingDelta.signVolume (afterTicks libm ticks) t⟩] :=
  runCollect_concat _ _ _

theorem samplesOf_isPrefix (libm : Libm) (ticks ticks' : List Tick) :
    samplesOf libm ticks <+: samplesOf libm (ticks ++ ticks') := by
  rw [samplesOf, samplesOf, runCollect_append]
  exact List.prefix_append _ _

theorem map_tsNs_samplesOf (libm : Libm) (ticks : List Tick) :
    (samplesOf libm ticks).map (·.tsNs) = ticks.map (·.tsRecvNs) := by
  induction ticks using List.reverseRecOn with
  | nil => rfl
  | append_singleton ticks t ih =>
    rw [samplesOf_concat, List.map_append, ih, List.map_append]
    rfl

/-! ## The scan of the ring -/

/-- Of samples in order the window takes the last. -/
theorem filter_isSuffix {samples : List DeltaSample}
    (h : (samples.map (·.tsNs)).Pairwise (· ≤ ·)) (now : UInt64) :
    samples.filter (fun sample => InWindow now sample) <:+ samples := by
  induction samples with
  | nil => exact List.suffix_refl _
  | cons x samples ih =>
    obtain ⟨hle, htail⟩ := List.pairwise_cons.mp h
    by_cases hx : InWindow now x
    · have hall : ∀ y ∈ x :: samples, decide (InWindow now y) = true := by
        intro y hy
        refine decide_eq_true ?_
        rcases List.mem_cons.mp hy with rfl | hy
        · exact hx
        · exact hx.trans (UInt64.le_iff_toNat_le.mp (hle _ (List.mem_map_of_mem hy)))
      rw [List.filter_eq_self.mpr hall]
    · rw [List.filter_cons_of_neg (by simpa using hx)]
      exact (ih htail).trans (List.suffix_cons x samples)

/-- The scan adds up the window as long as no part of it saturates. -/
theorem scan_eq_windowVolume {samples : List DeltaSample} (now : UInt64)
    (hsorted : (samples.map (·.tsNs)).Pairwise (· ≤ ·))
    (hfits : ∀ run, run <:+: samples → -2 ^ 63 ≤ signedVolume run ∧ signedVolume run < 2 ^ 63) :
    (samples.foldl (fun (sum : Int64) s =>
      if s.tsNs ≥ now.saturatingSub rollingDeltaWindowNs then sum.saturatingAdd s.signedQty
      else sum) 0).toInt = windowVolume now samples := by
  induction samples using List.reverseRecOn with
  | nil => rfl
  | append_singleton samples x ih =>
    have hshort : samples <+: samples ++ [x] := List.prefix_append _ _
    have hih := ih (hsorted.sublist (hshort.sublist.map _))
      fun run hrun => hfits run (hrun.trans hshort.isInfix)
    have hmem : x.tsNs ≥ now.saturatingSub rollingDeltaWindowNs ↔ InWindow now x := by
      rw [ge_iff_le, UInt64.le_iff_toNat_le, UInt64.toNat_saturatingSub, InWindow]
    rw [List.foldl_append, List.foldl_cons, List.foldl_nil, windowVolume, List.filter_append]
    by_cases hx : InWindow now x
    · have hsuffix := filter_isSuffix hsorted now
      have hrange := hfits _ hsuffix.isInfix
      rw [List.filter_append, List.filter_singleton, decide_eq_true hx, cond_true,
        signedVolume_concat] at hrange
      rw [if_pos (hmem.mpr hx), List.filter_singleton, decide_eq_true hx, cond_true,
        signedVolume_concat, Int64.toInt_saturatingAdd, hih, windowVolume]
      omega
    · rw [if_neg (hmem.not.mpr hx), List.filter_singleton, decide_eq_false hx, cond_false,
        List.append_nil, hih, windowVolume]

/-! ## Runs -/

theorem historyView_concat (libm : Libm) (ticks : List Tick) (t : Tick) :
    (afterTicks libm (ticks ++ [t])).historyView
      = (afterTicks libm ticks).historyView.fold t
        (RollingDelta.signVolume (afterTicks libm ticks) t) := by
  rw [afterTicks_concat]
  exact historyView_processTick libm _ t

/-- The ring holds the last samples of a run. -/
theorem iter_deltaSamples (libm : Libm) (ticks : List Tick) :
    (afterTicks libm ticks).historyView.deltaSamples.iter
      = (samplesOf libm ticks).rtake rollingDeltaCapacity := by
  induction ticks using List.reverseRecOn with
  | nil =>
    have hsamples : samplesOf libm [] = [] := rfl
    have hring : (afterTicks libm []).historyView.deltaSamples
        = RingWindow.new ⟨0, 0⟩ (by decide) := rfl
    rw [hring, hsamples, RingWindow.iter_new, List.rtake_nil]
  | append_singleton ticks t ih =>
    have hold : (afterTicks libm ticks).historyView.deltaSamples.iter.map id
        = (samplesOf libm ticks).rtake rollingDeltaCapacity := by rw [List.map_id, ih]
    have hpush := RingWindow.map_iter_push hold
      ⟨t.tsRecvNs, RollingDelta.signVolume (afterTicks libm ticks) t⟩
    rw [historyView_concat, samplesOf_concat]
    rwa [List.map_id] at hpush

theorem InOrder.left {ticks ticks' : List Tick} (h : InOrder (ticks ++ ticks')) :
    InOrder ticks := by
  rw [InOrder, List.map_append] at h
  exact (List.pairwise_append.mp h).1

theorem VolumesFit.left {libm : Libm} {ticks ticks' : List Tick}
    (h : VolumesFit libm (ticks ++ ticks')) : VolumesFit libm ticks :=
  fun run hrun => h run (hrun.trans (samplesOf_isPrefix libm ticks ticks').isInfix)

/-- The rolling delta of a tick adds up the window, as far as the ring goes back. -/
theorem rollingDelta_processTick (libm : Libm) {ticks : List Tick} {t : Tick}
    (horder : InOrder (ticks ++ [t])) (hfits : VolumesFit libm (ticks ++ [t])) :
    (processTickIntoState libm (afterTicks libm ticks) t).2.rollingDelta.toInt
      = windowVolume t.tsRecvNs ((samplesOf libm (ticks ++ [t])).rtake rollingDeltaCapacity) := by
  have hsuffix : (samplesOf libm (ticks ++ [t])).rtake rollingDeltaCapacity
      <:+ samplesOf libm (ticks ++ [t]) := List.drop_suffix _ _
  have hsorted : ((samplesOf libm (ticks ++ [t])).map (·.tsNs)).Pairwise (· ≤ ·) := by
    rw [map_tsNs_samplesOf]
    exact horder
  have hscan := scan_eq_windowVolume t.tsRecvNs (hsorted.sublist (hsuffix.sublist.map _))
    fun run hrun => hfits run (hrun.trans hsuffix.isInfix)
  have hout : (processTickIntoState libm (afterTicks libm ticks) t).2
      = snapshotOf libm (afterTicks libm (ticks ++ [t])) t := by
    rw [afterTicks_concat]
    rfl
  have hcached : ∀ s, (snapshotOf libm s t).rollingDelta = s.historyView.rollingDeltaCached :=
    fun _ => rfl
  have hscanned : ∀ v : HistoryView, ∀ q, (v.fold t q).rollingDeltaCached
      = (v.fold t q).deltaSamples.iter.foldl (fun (sum : Int64) s =>
        if s.tsNs ≥ t.tsRecvNs.saturatingSub rollingDeltaWindowNs then sum.saturatingAdd s.signedQty
        else sum) 0 := fun _ _ => rfl
  rw [hout, hcached, historyView_concat, hscanned, ← historyView_concat, iter_deltaSamples]
  exact hscan

/-- After every tick the rolling delta adds up the ticks of the last thirty seconds that are among
the last 256. -/
theorem deltasAre_of_fits (libm : Libm) (ticks : List Tick) (horder : InOrder ticks)
    (hfits : VolumesFit libm ticks) :
    DeltasAre libm (fun now samples => windowVolume now (samples.rtake rollingDeltaCapacity))
      ticks := by
  intro pre t post hsplit
  have hsplit : ticks = (pre ++ [t]) ++ post := by rw [hsplit, List.append_assoc]; rfl
  rw [hsplit] at horder hfits
  exact rollingDelta_processTick libm horder.left hfits.left

/-! ## A burst -/

/-- One unit traded at some time, when the buy side has grown to `n`. -/
def buyTick (time : UInt64) (n : ℕ) : Tick :=
  { tradeAt 100 with tsRecvNs := time, totalBuyQty := UInt64.ofNat n }

/-- `n` such trades. -/
def buys (times : ℕ → UInt64) (n : ℕ) : List Tick :=
  (List.range n).map fun i => buyTick (times i) (i + 1)

/-- `n` such trades at one time. -/
def burst (n : ℕ) : List Tick := buys (fun _ => 0) n

theorem buys_succ (times : ℕ → UInt64) (n : ℕ) :
    buys times (n + 1) = buys times n ++ [buyTick (times n) (n + 1)] := by
  rw [buys, List.range_succ, List.map_append, List.map_singleton, buys]

/-- A tick leaves its book. -/
theorem lastBook_processTick (libm : Libm) (s : FeatureState) (t : Tick) :
    (processTickIntoState libm s t).1.lastBook
      = ⟨t.bidPaise, t.askPaise, t.totalBuyQty, t.totalSellQty⟩ := by
  have hvwap : ∀ s : FeatureState, (Vwap.update s t).lastBook = s.lastBook :=
    fun s => Vwap.view_update FeatureState.lastBook (fun _ _ _ => rfl) s t
  have hvolatility : ∀ s : FeatureState, (Volatility.update libm s t).lastBook = s.lastBook :=
    fun s => Volatility.view_update FeatureState.lastBook (fun _ _ => rfl) libm s t
  have hrsi : ∀ s : FeatureState, (Rsi.update s t).lastBook = s.lastBook :=
    fun s => Rsi.view_update FeatureState.lastBook (fun _ _ _ _ => rfl) s t
  have hadx : ∀ s : FeatureState, (Adx.update s t).lastBook = s.lastBook :=
    fun s => Adx.view_update FeatureState.lastBook (fun _ _ _ _ _ _ => rfl) s t
  have hbar : ∀ s : FeatureState, (Ema.update (Atr.update s t) t).lastBook = s.lastBook :=
    fun _ => rfl
  have hcandle : ∀ s : FeatureState,
      (Sweep.update (Candle.update (Momentum.update s t) t) t).lastBook = s.lastBook := fun _ => rfl
  have hdonchian : ∀ s : FeatureState, (Donchian.update s t).lastBook = s.lastBook := fun _ => rfl
  have hadvance : ∀ s : FeatureState, (advance s t).lastBook = s.lastBook := fun _ => rfl
  have hstate : (processTickIntoState libm s t).1 = advance (updateIndicators libm s t) t := rfl
  rw [hstate]
  simp only [updateIndicators]
  rw [hadvance, hadx, hdonchian, hrsi, hcandle, hvolatility, hbar, hvwap]
  rfl

/-- Each such trade is signed as bought. -/
theorem samplesOf_buys (times : ℕ → UInt64) (n : ℕ) (hn : n < 2 ^ 64) :
    samplesOf noLibm (buys times n) = (List.range n).map fun i => ⟨times i, 1⟩ := by
  induction n with
  | zero => rfl
  | succ n ih =>
    have hbook : (afterTicks noLibm (buys times n)).lastBook.totalBuyQty.toNat = n ∧
        (afterTicks noLibm (buys times n)).lastBook.totalSellQty.toNat = 0 := by
      cases n with
      | zero => exact ⟨rfl, rfl⟩
      | succ n =>
        rw [buys_succ, afterTicks_concat, lastBook_processTick]
        exact ⟨UInt64.toNat_ofNat_of_lt' (lt_of_le_of_lt (Nat.le_succ _) hn), rfl⟩
    have hbuy : (buyTick (times n) (n + 1)).totalBuyQty.toNat = n + 1 := UInt64.toNat_ofNat_of_lt' hn
    have hsell : (buyTick (times n) (n + 1)).totalSellQty.toNat = 0 := rfl
    have hmag : Int64.clamp ((buyTick (times n) (n + 1)).ltq.toNat : ℤ) = 1 := rfl
    have hsign : RollingDelta.signVolume (afterTicks noLibm (buys times n))
        (buyTick (times n) (n + 1)) = 1 := by
      rw [RollingDelta.signVolume, hbook.1, hbook.2, hbuy, hsell, hmag, if_neg (by decide)]
      exact if_pos (by push_cast; omega)
    rw [buys_succ, samplesOf_concat, ih (by omega), hsign, List.range_succ, List.map_append]
    rfl

theorem inOrder_buys {times : ℕ → UInt64} {n : ℕ}
    (h : ∀ i j, i < j → j < n → times i ≤ times j) : InOrder (buys times n) := by
  have htimes : (buys times n).map (·.tsRecvNs) = (List.range n).map times := by
    rw [buys, List.map_map]
    rfl
  rw [InOrder, htimes, List.pairwise_map, List.pairwise_iff_getElem]
  intro i j hi hj hij
  rw [List.getElem_range, List.getElem_range]
  exact h i j hij (List.length_range (n := n) ▸ hj)

/-- Units that were bought add up to their number. -/
theorem signedVolume_ones {samples : List DeltaSample} (h : ∀ x ∈ samples, x.signedQty = 1) :
    signedVolume samples = samples.length := by
  have hone : (1 : Int64).toInt = 1 := rfl
  have hmap : samples.map (·.signedQty.toInt) = List.replicate samples.length 1 := by
    refine List.eq_replicate_iff.mpr ⟨List.length_map _, fun q hq => ?_⟩
    obtain ⟨x, hx, rfl⟩ := List.mem_map.mp hq
    rw [h x hx, hone]
  rw [signedVolume, hmap, List.sum_replicate, nsmul_eq_mul, mul_one]

theorem volumesFit_buys (times : ℕ → UInt64) (n : ℕ) (hn : n < 2 ^ 63) :
    VolumesFit noLibm (buys times n) := by
  intro run hrun
  rw [samplesOf_buys times n (by omega)] at hrun
  have hlength := hrun.length_le
  rw [List.length_map, List.length_range] at hlength
  rw [signedVolume_ones]
  · omega
  · intro x hx
    obtain ⟨i, -, rfl⟩ := List.mem_map.mp (hrun.subset hx)
    rfl

/-- Of 257 trades at one time the ring has lost one. -/
theorem not_deltasAre_burst :
    InOrder (burst 257) ∧ VolumesFit noLibm (burst 257) ∧
      ¬ DeltasAre noLibm windowVolume (burst 257) := by
  have horder : InOrder (burst 257) := inOrder_buys fun _ _ _ _ => UInt64.le_refl 0
  have hfits : VolumesFit noLibm (burst 257) := volumesFit_buys _ _ (by norm_num)
  refine ⟨horder, hfits, fun h => ?_⟩
  have hsamples : samplesOf noLibm (burst 257) = List.replicate 257 ⟨0, 1⟩ := by
    rw [burst, samplesOf_buys _ _ (by norm_num), List.map_const', List.length_range]
  have hwindow : ∀ n, windowVolume 0 (List.replicate n ⟨0, 1⟩) = n := by
    intro n
    rw [windowVolume, List.filter_replicate_of_pos (by decide), signedVolume_ones,
      List.length_replicate]
    exact fun x hx => (List.eq_of_mem_replicate hx) ▸ rfl
  have hlast : burst 257 = burst 256 ++ [buyTick 0 257] := buys_succ _ 256
  have hread := h (burst 256) (buyTick 0 257) [] hlast
  rw [rollingDelta_processTick noLibm (hlast ▸ horder) (hlast ▸ hfits), ← hlast, hsamples,
    List.rtake, List.length_replicate, List.drop_replicate] at hread
  have hread : windowVolume 0 (List.replicate 256 ⟨0, 1⟩)
      = windowVolume 0 (List.replicate 257 ⟨0, 1⟩) := hread
  rw [hwindow, hwindow] at hread
  omega

/-- Five trades a second for eighty seconds: the ring is full and its older part has left the thirty
seconds. -/
def steadyBuys : List Tick := buys (fun i => UInt64.ofNat (i * 200000000)) 400

theorem deltasAre_of_fits_steadyBuys :
    DeltasAre noLibm (fun now samples => windowVolume now (samples.rtake rollingDeltaCapacity))
      steadyBuys := by
  refine deltasAre_of_fits noLibm _ (inOrder_buys fun i j hij hj => ?_)
    (volumesFit_buys _ _ (by norm_num))
  rw [UInt64.le_iff_toNat_le, UInt64.toNat_ofNat_of_lt' (by simp only [UInt64.size]; omega),
    UInt64.toNat_ofNat_of_lt' (by simp only [UInt64.size]; omega)]
  omega

end Hedge.Features
