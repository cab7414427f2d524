import Hedge.Common.Records
import Hedge.Common.Run
import Hedge.Features.Engine
import Mathlib.Tactic.Linarith

/-!
# The sweep flag and the slope over a history of prices

Reference: `candle::update`, `sweep::update` and `ema::update` of `hedge-features`.

The detector keeps a tag for the last new high of the session and one for the last new low. With
positive prices the tags are the last records of the history, and the flag says which of the two the
last price has come back from.
-/

namespace Hedge.Features

open Hedge Hedge.Common Hedge.Core

/-! ## Histories -/

/-- What reaches the state of a symbol: a tick, or a pressure of the order flow engine. -/
inductive FeatureInput where
  | tick (tick : Tick)
  | orderflow (value : ExactFloat)

/-- One input: the snapshot of a tick, and the next state. -/
def featureStep (libm : Libm) (state : FeatureState) :
    FeatureInput → Option FeatureSnapshot × FeatureState
  | .tick tick =>
    let out := processTickIntoState libm state tick
    (some out.2, out.1)
  | .orderflow value => (none, Liquidity.updateOrderflow state value)

/-- The state after some inputs. -/
def stateAfter (libm : Libm) (inputs : List FeatureInput) : FeatureState :=
  runState (featureStep libm) .default inputs

def FeatureInput.price : FeatureInput → Option ℤ
  | .tick t => some t.ltpPaise.toInt
  | .orderflow _ => none

/-- The prices of a run, oldest first. -/
def pricesOf (inputs : List FeatureInput) : List ℤ := inputs.filterMap FeatureInput.price

/-- The last pressure of a run. -/
def orderflowOf (inputs : List FeatureInput) : ExactFloat :=
  inputs.foldl (fun last input => match input with
    | .tick _ => last
    | .orderflow value => value) (.fin 0)

/-! ## What the flag means -/

/-- The index of a tick; the counter saturates. -/
def tickIndex (k : ℕ) : ℕ := min k (2 ^ 64 - 1)

/-- How many ticks ago the price at index `i` came. -/
def age (prices : List ℤ) (i : ℕ) : ℕ := tickIndex (prices.length - 1) - tickIndex i

/-- The last record of the session came at most three ticks ago, and the last price has come back
from it. -/
def Swept (r : ℤ → ℤ → Prop) (prices : List ℤ) : Prop :=
  ∃ i v p, LastRecord r prices i v ∧ prices.getLast? = some p ∧ r p v ∧
    0 < age prices i ∧ age prices i ≤ sweepLookahead

/-- The flag was raised by a new low that the price has since risen above. -/
def RaisedByLow (prices : List ℤ) : Prop := Swept (· > ·) prices

/-- The flag was raised by a new high that the price has since fallen back below. Where a low raises
it as well, that has the last word. -/
def RaisedByHigh (prices : List ℤ) : Prop := Swept (· < ·) prices ∧ ¬ RaisedByLow prices

/-! ## The tags -/

/-- The tag of one side: the level of the session and of the tag are the last record, and the tag is
kept unless the record is old. -/
structure Tracked (r : ℤ → ℤ → Prop) (prices : List ℤ) (session tagPaise : Int64)
    (tag : Option UInt64) : Prop where
  empty : prices = [] → session = 0 ∧ tagPaise = 0 ∧ tag = none
  record : ∀ i v, LastRecord r prices i v → session.toInt = v ∧ tagPaise.toInt = v ∧
    (tag.map UInt64.toNat = some (tickIndex i) ∨ tag = none ∧ sweepLookahead < age prices i)

section Side

variable {r : ℤ → ℤ → Prop} {prices : List ℤ} {session tagPaise p : Int64} {tag : Option UInt64}

theorem tickIndex_mono {a b : ℕ} (h : a ≤ b) : tickIndex a ≤ tickIndex b := by
  unfold tickIndex
  omega

/-- A tick moves the tag to a new record and leaves it alone otherwise. -/
theorem Tracked.append (h : Tracked r prices session tagPaise tag) {count : UInt64}
    (hcount : count.toNat = tickIndex prices.length) {fresh : Bool}
    (hfresh : fresh = true ↔ ∀ u ∈ prices, r u p.toInt) :
    Tracked r (prices ++ [p.toInt]) (if fresh then p else session)
      (if fresh then p else tagPaise) (if fresh then some count else tag) where
  empty := by simp
  record := by
    intro i v hrecord
    obtain ⟨hold, hnot⟩ | ⟨rfl, rfl, hall⟩ := hrecord.append_cases
    · have hstale : fresh = false := by
        rw [Bool.eq_false_iff, Ne, hfresh]
        exact fun hall => hnot (hall v hold.mem)
      obtain ⟨hsession, hpaise, htag⟩ := h.record i v hold
      simp only [hstale, Bool.false_eq_true, if_false]
      refine ⟨hsession, hpaise, htag.imp_right fun ⟨hnone, hage⟩ => ⟨hnone, ?_⟩⟩
      have hmono := @tickIndex_mono (prices.length - 1) ((prices ++ [p.toInt]).length - 1)
        (by simp)
      unfold age at hage ⊢
      omega
    · simp [hfresh.mpr hall, hcount]

variable {count : UInt64} (h : Tracked r prices session tagPaise tag)
  (hcount : count.toNat = tickIndex (prices.length - 1)) (raised signal : ExactFloat)

include h hcount

/-- An old tag may be dropped. -/
theorem Tracked.decay (hne : prices ≠ []) (reversed : Bool) :
    Tracked r prices session tagPaise (Sweep.decay count tag reversed raised signal).1 where
  empty hnil := absurd hnil hne
  record := by
    intro i v hrecord
    obtain ⟨hsession, hpaise, htag⟩ := h.record i v hrecord
    refine ⟨hsession, hpaise, ?_⟩
    obtain htag | ⟨rfl, hage⟩ := htag
    · obtain ⟨b, rfl, hb⟩ := Option.map_eq_some_iff.mp htag
      simp only [Sweep.decay]
      split_ifs with hraised hold
      · exact .inl htag
      · rw [UInt64.toNat_saturatingSub, hcount, hb] at hold
        exact .inr ⟨rfl, hold⟩
      · exact .inl htag
    · exact .inr ⟨rfl, hage⟩

/-- A price that has come back from a fresh record raises the flag. -/
theorem Tracked.decay_of_swept (hp : prices.getLast? = some p.toInt) {reversed : Bool}
    (hreversed : reversed = true ↔ r p.toInt tagPaise.toInt) (hswept : Swept r prices) :
    (Sweep.decay count tag reversed raised signal).2 = raised := by
  obtain ⟨i, v, q, hrecord, hq, hback, hpos, hyoung⟩ := hswept
  rw [hp, Option.some.injEq] at hq
  subst hq
  obtain ⟨-, rfl, htag⟩ := h.record i v hrecord
  obtain htag | ⟨-, hage⟩ := htag
  · obtain ⟨b, rfl, hb⟩ := Option.map_eq_some_iff.mp htag
    have helapsed : (count.saturatingSub b).toNat = age prices i := by
      rw [UInt64.toNat_saturatingSub, hcount, hb, age]
    simp [Sweep.decay, helapsed, hpos, hyoung, hreversed.mpr hback]
  · omega

/-- Any other price leaves it as it is. -/
theorem Tracked.decay_of_not_swept [IsStrictTotalOrder ℤ r] (hp : prices.getLast? = some p.toInt)
    {reversed : Bool} (hreversed : reversed = true ↔ r p.toInt tagPaise.toInt)
    (hswept : ¬ Swept r prices) :
    (Sweep.decay count tag reversed raised signal).2 = signal := by
  have hne : prices ≠ [] := by
    rintro rfl
    cases hp
  obtain ⟨i, v, hrecord⟩ := exists_lastRecord (r := r) hne
  obtain ⟨-, rfl, htag⟩ := h.record i v hrecord
  obtain htag | ⟨rfl, -⟩ := htag
  · obtain ⟨b, rfl, hb⟩ := Option.map_eq_some_iff.mp htag
    have helapsed : (count.saturatingSub b).toNat = age prices i := by
      rw [UInt64.toNat_saturatingSub, hcount, hb, age]
    simp only [Sweep.decay, helapsed]
    split_ifs with hraised
    · obtain ⟨hpos, hyoung, hrev⟩ := hraised
      exact absurd ⟨i, _, _, hrecord, hp, hreversed.mp hrev, hpos, hyoung⟩ hswept
    · rfl
    · rfl
  · rfl

end Side

/-! ## The session -/

section Session

variable {prices : List ℤ} {s : FeatureState} {t : Tick} (hpos : ∀ u ∈ prices, 0 < u)
  (ht : 0 < t.ltpPaise.toInt)

include hpos ht

/-- A fresh high is a price above all of the session, and then the high of the session. -/
theorem isFreshHigh_candle
    (h : Tracked (· < ·) prices s.sessionHighPaise s.lastHighBreakPaise s.lastHighBreakIdx) :
    (Sweep.isFreshHigh (Candle.update s t) t = true ↔ ∀ u ∈ prices, u < t.ltpPaise.toInt) ∧
    (Candle.update s t).sessionHighPaise =
      if Sweep.isFreshHigh (Candle.update s t) t then t.ltpPaise else s.sessionHighPaise := by
  have hp : t.ltpPaise > 0 := Int64.lt_iff_toInt_lt.mpr ht
  obtain rfl | hne := eq_or_ne prices []
  · obtain ⟨hsession, hpaise, -⟩ := h.empty rfl
    simp [Sweep.isFreshHigh, Candle.update, hsession, hpaise, hp]
  · obtain ⟨i, v, hrecord⟩ := exists_lastRecord (r := (· < ·)) hne
    obtain ⟨hsession, hpaise, -⟩ := h.record i v hrecord
    by_cases hlt : v < t.ltpPaise.toInt
    · have habove : t.ltpPaise > s.sessionHighPaise ∧ t.ltpPaise > s.lastHighBreakPaise := by
        simp only [gt_iff_lt, Int64.lt_iff_toInt_lt, hsession, hpaise]
        exact ⟨hlt, hlt⟩
      have hnew : (Candle.update s t).sessionHighPaise = t.ltpPaise := if_pos (.inr habove.1)
      have hfresh : Sweep.isFreshHigh (Candle.update s t) t = true := by
        rw [Sweep.isFreshHigh, hnew]
        simp [Candle.update, hp, habove.2]
      rw [hfresh, hnew]
      exact ⟨iff_of_true rfl (hrecord.beyond_all hlt), rfl⟩
    · have hnonzero : s.sessionHighPaise ≠ 0 := by
        intro hzero
        rw [hzero] at hsession
        exact (hpos v hrecord.mem).ne hsession
      have hbelow : ¬ t.ltpPaise > s.sessionHighPaise ∧ ¬ t.ltpPaise > s.lastHighBreakPaise := by
        simp only [gt_iff_lt, Int64.lt_iff_toInt_lt, hsession, hpaise]
        exact ⟨hlt, hlt⟩
      have hold : (Candle.update s t).sessionHighPaise = s.sessionHighPaise :=
        if_neg (not_or.mpr ⟨hnonzero, hbelow.1⟩)
      have hstale : Sweep.isFreshHigh (Candle.update s t) t = false := by
        rw [Sweep.isFreshHigh, Bool.and_eq_false_iff]
        exact .inr (decide_eq_false hbelow.2)
      rw [hstale, hold]
      exact ⟨iff_of_false Bool.false_ne_true fun hall => hlt (hall v hrecord.mem), rfl⟩

/-- A fresh low is a price below all of the session, and then the low of the session. -/
theorem isFreshLow_candle
    (h : Tracked (· > ·) prices s.sessionLowPaise s.lastLowBreakPaise s.lastLowBreakIdx) :
    (Sweep.isFreshLow (Candle.update s t) t = true ↔ ∀ u ∈ prices, u > t.ltpPaise.toInt) ∧
    (Candle.update s t).sessionLowPaise =
      if Sweep.isFreshLow (Candle.update s t) t then t.ltpPaise else s.sessionLowPaise := by
  have hp : t.ltpPaise > 0 := Int64.lt_iff_toInt_lt.mpr ht
  obtain rfl | hne := eq_or_ne prices []
  · obtain ⟨hsession, hpaise, -⟩ := h.empty rfl
    simp [Sweep.isFreshLow, Candle.update, hsession, hpaise, hp]
  · obtain ⟨i, v, hrecord⟩ := exists_lastRecord (r := (· > ·)) hne
    obtain ⟨hsession, hpaise, -⟩ := h.record i v hrecord
    have hv := hpos v hrecord.mem
    by_cases hgt : v > t.ltpPaise.toInt
    · have hbelow : t.ltpPaise < s.sessionLowPaise ∧ t.ltpPaise < s.lastLowBreakPaise := by
        simp only [Int64.lt_iff_toInt_lt, hsession, hpaise]
        exact ⟨hgt, hgt⟩
      have hnew : (Candle.update s t).sessionLowPaise = t.ltpPaise := if_pos (.inr hbelow.1)
      have hfresh : Sweep.isFreshLow (Candle.update s t) t = true := by
        rw [Sweep.isFreshLow, hnew]
        simp [Candle.update, hp, hbelow.2]
      rw [hfresh, hnew]
      exact ⟨iff_of_true rfl (hrecord.beyond_all hgt), rfl⟩
    · have hnonzero : s.sessionLowPaise ≠ 0 ∧ s.lastLowBreakPaise ≠ 0 := by
        refine ⟨fun hzero => ?_, fun hzero => ?_⟩
        · rw [hzero] at hsession
          exact hv.ne hsession
        · rw [hzero] at hpaise
          exact hv.ne hpaise
      have habove : ¬ t.ltpPaise < s.sessionLowPaise ∧ ¬ t.ltpPaise < s.lastLowBreakPaise := by
        simp only [Int64.lt_iff_toInt_lt, hsession, hpaise]
        exact ⟨hgt, hgt⟩
      have hold : (Candle.update s t).sessionLowPaise = s.sessionLowPaise :=
        if_neg (not_or.mpr ⟨hnonzero.1, habove.1⟩)
      have hstale : Sweep.isFreshLow (Candle.update s t) t = false := by
        rw [Sweep.isFreshLow, Bool.and_eq_false_iff, Bool.or_eq_false_iff]
        exact .inr ⟨decide_eq_false hnonzero.2, decide_eq_false habove.2⟩
      rw [hstale, hold]
      exact ⟨iff_of_false Bool.false_ne_true fun hall => hgt (hall v hrecord.mem), rfl⟩

/-- What the flag says of a history. -/
structure FlagOf (prices : List ℤ) (signal : ExactFloat) : Prop where
  low : RaisedByLow prices → signal = .fin 1
  high : RaisedByHigh prices → signal = .fin (-1)
  quiet : ¬ RaisedByLow prices → ¬ RaisedByHigh prices → signal = .fin 0

/-- A tick keeps the tags at the records and sets the flag by them. -/
theorem tracked_sweep (hcount : s.tickCount.toNat = tickIndex prices.length)
    (hhigh : Tracked (· < ·) prices s.sessionHighPaise s.lastHighBreakPaise s.lastHighBreakIdx)
    (hlow : Tracked (· > ·) prices s.sessionLowPaise s.lastLowBreakPaise s.lastLowBreakIdx) :
    let s' := Sweep.update (Candle.update s t) t
    Tracked (· < ·) (prices ++ [t.ltpPaise.toInt]) s'.sessionHighPaise s'.lastHighBreakPaise
        s'.lastHighBreakIdx ∧
      Tracked (· > ·) (prices ++ [t.ltpPaise.toInt]) s'.sessionLowPaise s'.lastLowBreakPaise
        s'.lastLowBreakIdx ∧
      FlagOf (prices ++ [t.ltpPaise.toInt]) s'.sweepSignal := by
  intro s'
  obtain ⟨hfreshHigh, hsessionHigh⟩ := isFreshHigh_candle hpos ht hhigh
  obtain ⟨hfreshLow, hsessionLow⟩ := isFreshLow_candle hpos ht hlow
  have htagHigh := hhigh.append hcount hfreshHigh
  have htagLow := hlow.append hcount hfreshLow
  rw [← hsessionHigh] at htagHigh
  rw [← hsessionLow] at htagLow
  have hne : prices ++ [t.ltpPaise.toInt] ≠ [] := by simp
  have hlast : (prices ++ [t.ltpPaise.toInt]).getLast? = some t.ltpPaise.toInt := by simp
  have hidx : s.tickCount.toNat = tickIndex ((prices ++ [t.ltpPaise.toInt]).length - 1) := by
    simpa using hcount
  have hbackHigh : ∀ level, decide (t.ltpPaise < level) = true ↔ t.ltpPaise.toInt < level.toInt :=
    fun level => decide_eq_true_iff.trans Int64.lt_iff_toInt_lt
  have hbackLow : ∀ level, decide (t.ltpPaise > level) = true ↔ t.ltpPaise.toInt > level.toInt :=
    fun level => decide_eq_true_iff.trans Int64.lt_iff_toInt_lt
  refine ⟨htagHigh.decay hidx _ _ hne _, htagLow.decay hidx _ _ hne _, ?_, ?_, ?_⟩
  · intro hraised
    exact htagLow.decay_of_swept hidx _ _ hlast (hbackLow _) hraised
  · rintro ⟨hraised, hnot⟩
    refine (htagLow.decay_of_not_swept hidx _ _ hlast (hbackLow _) hnot).trans ?_
    exact htagHigh.decay_of_swept hidx _ _ hlast (hbackHigh _) hraised
  · intro hnotLow hnotHigh
    refine (htagLow.decay_of_not_swept hidx _ _ hlast (hbackLow _) hnotLow).trans ?_
    exact htagHigh.decay_of_not_swept hidx _ _ hlast (hbackHigh _)
      fun hraised => hnotHigh ⟨hraised, hnotLow⟩

end Session

/-! ## The fast EMA -/

/-- The EMA of some prices, seeded with the first. -/
def emaAcc (period : ℕ) : List ℤ → ℚ
  | [] => 0
  | p :: ps => ps.foldl (fun (acc : ℚ) q => acc + Ema.alpha period * (q - acc)) p

/-- The fast EMA in paise. -/
def emaPaise (prices : List ℤ) : ℤ := ExactFloat.roundRat (emaAcc emaFastPeriod prices)

/-- The fast EMA after each of the prices. -/
def emaTrace (prices : List ℤ) : List ℤ :=
  (List.range prices.length).map fun k => emaPaise (prices.take (k + 1))

theorem emaAcc_append {period : ℕ} {prices : List ℤ} (hne : prices ≠ []) (q : ℤ) :
    emaAcc period (prices ++ [q]) =
      emaAcc period prices + Ema.alpha period * (q - emaAcc period prices) := by
  cases prices with
  | nil => exact absurd rfl hne
  | cons p ps => simp [emaAcc, List.foldl_append]

theorem emaTrace_append (prices : List ℤ) (q : ℤ) :
    emaTrace (prices ++ [q]) = emaTrace prices ++ [emaPaise (prices ++ [q])] := by
  have htake : ∀ k ∈ List.range prices.length,
      emaPaise ((prices ++ [q]).take (k + 1)) = emaPaise (prices.take (k + 1)) := by
    intro k hk
    rw [List.take_append_of_le_length (List.mem_range.mp hk)]
  have hall : (prices ++ [q]).take (prices.length + 1) = prices ++ [q] :=
    List.take_of_length_le (by simp)
  rw [emaTrace, emaTrace, List.length_append, List.length_singleton, List.range_succ,
    List.map_append, List.map_congr_left htake, List.map_singleton, hall]

/-- An average of prices of `i64` lies in the range of `i64`, and is not negative. -/
theorem emaAcc_mem {prices : List ℤ} (h : ∀ p ∈ prices, 0 < p ∧ p ≤ 2 ^ 63 - 1) :
    0 ≤ emaAcc emaFastPeriod prices ∧ emaAcc emaFastPeriod prices ≤ 2 ^ 63 - 1 := by
  induction prices using List.reverseRecOn with
  | nil => norm_num [emaAcc]
  | append_singleton ps q ih =>
    have hq : (0 : ℚ) < q ∧ (q : ℚ) ≤ 2 ^ 63 - 1 := by
      obtain ⟨hlo, hhi⟩ := h q (by simp)
      exact ⟨by exact_mod_cast hlo, by exact_mod_cast hhi⟩
    obtain rfl | hne := eq_or_ne ps []
    · exact ⟨hq.1.le, hq.2⟩
    · obtain ⟨hlo, hhi⟩ := ih fun p hp => h p (by simp [hp])
      have halpha : Ema.alpha emaFastPeriod = 1 / 5 := by norm_num [Ema.alpha, emaFastPeriod]
      rw [emaAcc_append hne, halpha]
      constructor <;> linarith

theorem emaPaise_mem {prices : List ℤ} (h : ∀ p ∈ prices, 0 < p ∧ p ≤ 2 ^ 63 - 1) :
    0 ≤ emaPaise prices ∧ emaPaise prices ≤ 2 ^ 63 - 1 := by
  obtain ⟨hlo, hhi⟩ := emaAcc_mem h
  exact ExactFloat.roundRat_mem (by exact_mod_cast hlo) (by exact_mod_cast hhi)

/-- The EMA fields of a state hold the fast EMA of a history, and the window its last five
values. -/
structure EmaTracked (prices : List ℤ) (seeded : Bool) (acc : ℚ) (paise : Int64)
    (history : RingWindow Int64 emaSlopeLookback) : Prop where
  seeded : seeded = !prices.isEmpty
  acc : acc = emaAcc emaFastPeriod prices
  paise : prices ≠ [] → paise.toInt = emaPaise prices
  history : ∃ values : List Int64, values.map Int64.toInt = emaTrace prices ∧
    history.iter = values.drop (values.length - emaSlopeLookback)

section Ema

variable {prices : List ℤ} {seeded : Bool} {acc : ℚ} {paise p : Int64}
  {history : RingWindow Int64 emaSlopeLookback}

/-- One step of the recurrence goes from the EMA of a history to that of the longer one. -/
theorem EmaTracked.fold (h : EmaTracked prices seeded acc paise history)
    (hb : ∀ q ∈ prices ++ [p.toInt], 0 < q ∧ q ≤ 2 ^ 63 - 1) :
    (Ema.fold emaFastPeriod seeded acc p).1 = emaAcc emaFastPeriod (prices ++ [p.toInt]) ∧
      (Ema.fold emaFastPeriod seeded acc p).2.toInt = emaPaise (prices ++ [p.toInt]) := by
  have hmem := emaPaise_mem hb
  rw [h.seeded, h.acc]
  cases prices with
  | nil => exact ⟨rfl, (ExactFloat.roundRat_intCast _).symm⟩
  | cons q qs =>
    have hacc : (Ema.fold emaFastPeriod (!(q :: qs).isEmpty) (emaAcc emaFastPeriod (q :: qs)) p).1
        = emaAcc emaFastPeriod (q :: qs ++ [p.toInt]) := by
      rw [emaAcc_append (List.cons_ne_nil q qs)]
      rfl
    refine ⟨hacc, ?_⟩
    have hpaise : (Ema.fold emaFastPeriod (!(q :: qs).isEmpty)
        (emaAcc emaFastPeriod (q :: qs)) p).2
        = Int64.clamp (emaPaise (q :: qs ++ [p.toInt])) := by
      rw [emaPaise, ← hacc]
      rfl
    rw [hpaise, Int64.toInt_clamp]
    omega

theorem EmaTracked.append (h : EmaTracked prices seeded acc paise history)
    (hb : ∀ q ∈ prices ++ [p.toInt], 0 < q ∧ q ≤ 2 ^ 63 - 1) :
    EmaTracked (prices ++ [p.toInt]) true (Ema.fold emaFastPeriod seeded acc p).1
      (Ema.fold emaFastPeriod seeded acc p).2
      (history.push (Ema.fold emaFastPeriod seeded acc p).2) where
  seeded := by simp
  acc := (h.fold hb).1
  paise _ := (h.fold hb).2
  history := by
    obtain ⟨values, hvalues, hiter⟩ := h.history
    refine ⟨_, ?_, RingWindow.iter_push_of_eq hiter _⟩
    rw [List.map_append, hvalues, emaTrace_append, List.map_singleton, (h.fold hb).2]

/-- The slope is a quarter of what the fast EMA has gained over the last five ticks. -/
theorem computeSlope_of_tracked {s : FeatureState}
    (h : EmaTracked prices s.emaFastSeeded s.emaFastAcc s.emaFastPaise s.emaFastHistory)
    (hb : ∀ q ∈ prices, 0 < q ∧ q ≤ 2 ^ 63 - 1) :
    Ema.computeSlope s =
      if prices.length < emaSlopeLookback then .fin 0
      else f32OfRat
        (((emaPaise prices - emaPaise (prices.take (prices.length - 4)) : ℤ) : ℚ) / 4) := by
  obtain ⟨values, hvalues, hiter⟩ := h.history
  have hlength : values.length = prices.length := by
    have := congrArg List.length hvalues
    simpa [emaTrace] using this
  have hlen : s.emaFastHistory.len = min prices.length emaSlopeLookback := by
    rw [← RingWindow.length_iter, hiter, List.length_drop, hlength]
    omega
  rw [Ema.computeSlope, hlen]
  by_cases hshort : prices.length < emaSlopeLookback
  · rw [if_pos (by omega), if_pos hshort]
  · have hlong : emaSlopeLookback ≤ prices.length := not_lt.mp hshort
    rw [if_neg (by omega), if_neg hshort]
    have hhead : (s.emaFastHistory.iterRecent emaSlopeLookback).head?
        = values[prices.length - emaSlopeLookback]? := by
      rw [RingWindow.iterRecent, hlen, min_eq_right hlong, min_self, Nat.sub_self, List.drop_zero,
        hiter, hlength, List.head?_drop]
    have hvalue : (values[prices.length - emaSlopeLookback]?).map Int64.toInt
        = some (emaPaise (prices.take (prices.length - 4))) := by
      rw [← List.getElem?_map, hvalues, emaTrace, List.getElem?_map,
        List.getElem?_range (by unfold emaSlopeLookback at *; omega), Option.map_some]
      congr 3
      unfold emaSlopeLookback at *
      omega
    obtain ⟨oldest, holdest, hpaise⟩ := Option.map_eq_some_iff.mp hvalue
    have hnow := h.paise (List.ne_nil_of_length_pos (by unfold emaSlopeLookback at *; omega))
    have hmem := emaPaise_mem hb
    have hmemOld := emaPaise_mem fun q hq =>
      hb q (List.mem_of_mem_take (i := prices.length - 4) hq)
    have hsub : (s.emaFastPaise - oldest).toInt
        = emaPaise prices - emaPaise (prices.take (prices.length - 4)) := by
      rw [Int64.toInt_sub, hnow, hpaise]
      apply Int.bmod_eq_of_le <;> omega
    rw [hhead, holdest]
    simp only [f64OfI64, hsub]
    rfl

end Ema

/-! ## Runs -/

/-- The fields behind the sweep flag, the slope and the order flow. -/
structure ReversalView where
  tickCount : UInt64
  sessionHighPaise : Int64
  sessionLowPaise : Int64
  lastHighBreakIdx : Option UInt64
  lastLowBreakIdx : Option UInt64
  lastHighBreakPaise : Int64
  lastLowBreakPaise : Int64
  sweepSignal : ExactFloat
  emaFastPaise : Int64
  emaFastAcc : ℚ
  emaFastSeeded : Bool
  emaFastHistory : RingWindow Int64 emaSlopeLookback
  orderflowStrengthCached : ExactFloat

def FeatureState.reversalView (s : FeatureState) : ReversalView :=
  ⟨s.tickCount, s.sessionHighPaise, s.sessionLowPaise, s.lastHighBreakIdx, s.lastLowBreakIdx,
    s.lastHighBreakPaise, s.lastLowBreakPaise, s.sweepSignal, s.emaFastPaise, s.emaFastAcc,
    s.emaFastSeeded, s.emaFastHistory, s.orderflowStrengthCached⟩

section Frames

variable (libm : Libm) (s : FeatureState) (t : Tick)

/-- The indicators before the EMA leave these fields alone. -/
theorem reversalView_before :
    (Atr.update (Vwap.update (Liquidity.update (RollingDelta.update s t) t) t) t).reversalView
      = s.reversalView := by
  have hvwap : ∀ s : FeatureState, (Vwap.update s t).reversalView = s.reversalView :=
    fun s => Vwap.view_update FeatureState.reversalView (fun _ _ _ => rfl) s t
  exact hvwap (Liquidity.update (RollingDelta.update s t) t)

/-- The indicators between the EMA and the candle leave these fields alone. -/
theorem reversalView_between :
    (Momentum.update (Volatility.update libm s t) t).reversalView = s.reversalView := by
  have hvolatility : (Volatility.update libm s t).reversalView = s.reversalView :=
    Volatility.view_update FeatureState.reversalView (fun _ _ => rfl) libm s t
  exact hvolatility

/-- The indicators after the sweep leave these fields alone. -/
theorem reversalView_after :
    (Adx.update (Donchian.update (Rsi.update s t) t) t).reversalView = s.reversalView := by
  have hadx : ∀ s : FeatureState, (Adx.update s t).reversalView = s.reversalView :=
    fun s => Adx.view_update FeatureState.reversalView (fun _ _ _ _ _ _ => rfl) s t
  have hrsi : (Rsi.update s t).reversalView = s.reversalView :=
    Rsi.view_update FeatureState.reversalView (fun _ _ _ _ => rfl) s t
  exact (hadx (Donchian.update (Rsi.update s t) t)).trans hrsi

end Frames

/-- A state whose tags, flag and EMA are those of a history. -/
structure Reflects (prices : List ℤ) (v : ReversalView) : Prop where
  count : v.tickCount.toNat = tickIndex prices.length
  high : Tracked (· < ·) prices v.sessionHighPaise v.lastHighBreakPaise v.lastHighBreakIdx
  low : Tracked (· > ·) prices v.sessionLowPaise v.lastLowBreakPaise v.lastLowBreakIdx
  flag : FlagOf prices v.sweepSignal
  ema : EmaTracked prices v.emaFastSeeded v.emaFastAcc v.emaFastPaise v.emaFastHistory

theorem not_swept_nil (r : ℤ → ℤ → Prop) : ¬ Swept r [] := by
  rintro ⟨i, v, p, hrecord, -⟩
  exact absurd hrecord.lt_length (Nat.not_lt_zero i)

theorem reflects_default : Reflects [] FeatureState.default.reversalView where
  count := rfl
  high := ⟨fun _ => ⟨rfl, rfl, rfl⟩, fun i v h => absurd h.lt_length (Nat.not_lt_zero i)⟩
  low := ⟨fun _ => ⟨rfl, rfl, rfl⟩, fun i v h => absurd h.lt_length (Nat.not_lt_zero i)⟩
  flag := ⟨fun h => absurd h (not_swept_nil _), fun h => absurd h.1 (not_swept_nil _),
    fun _ _ => rfl⟩
  ema := ⟨rfl, rfl, fun h => absurd rfl h, [], rfl, RingWindow.iter_new 0 (by decide)⟩

/-- The stages of a tick that touch these fields, with the states between them. -/
theorem exists_stages (libm : Libm) (s : FeatureState) (t : Tick) :
    ∃ s₁ s₂ s₃ : FeatureState,
      s₁.reversalView = s.reversalView ∧
      s₂.reversalView = (Ema.update s₁ t).reversalView ∧
      s₃.reversalView = (Sweep.update (Candle.update s₂ t) t).reversalView ∧
      (processTickIntoState libm s t).1 = advance s₃ t :=
  ⟨_, _, _, reversalView_before s t, reversalView_between libm _ t, reversalView_after _ t, rfl⟩

/-- A tick with a positive price goes on with the history. -/
theorem Reflects.processTick {prices : List ℤ} {s : FeatureState}
    (h : Reflects prices s.reversalView) (libm : Libm) {t : Tick}
    (hb : ∀ q ∈ prices ++ [t.ltpPaise.toInt], 0 < q ∧ q ≤ 2 ^ 63 - 1) :
    Reflects (prices ++ [t.ltpPaise.toInt]) (processTickIntoState libm s t).1.reversalView := by
  have hpos : ∀ u ∈ prices, 0 < u := fun u hu => (hb u (by simp [hu])).1
  have ht : 0 < t.ltpPaise.toInt := (hb _ (by simp)).1
  obtain ⟨s₁, s₂, s₃, h₁, h₂, h₃, hstate⟩ := exists_stages libm s t
  rw [← h₁] at h
  have hema := h.ema.append hb
  -- The EMA leaves the tags of the history alone.
  have hcount : s₂.reversalView.tickCount.toNat = tickIndex prices.length := by
    rw [h₂]
    exact h.count
  have hhigh : Tracked (· < ·) prices s₂.reversalView.sessionHighPaise
      s₂.reversalView.lastHighBreakPaise s₂.reversalView.lastHighBreakIdx := by
    rw [h₂]
    exact h.high
  have hlow : Tracked (· > ·) prices s₂.reversalView.sessionLowPaise
      s₂.reversalView.lastLowBreakPaise s₂.reversalView.lastLowBreakIdx := by
    rw [h₂]
    exact h.low
  obtain ⟨hhigh, hlow, hflag⟩ := tracked_sweep hpos ht hcount hhigh hlow
  have hema : EmaTracked (prices ++ [t.ltpPaise.toInt]) s₂.reversalView.emaFastSeeded
      s₂.reversalView.emaFastAcc s₂.reversalView.emaFastPaise s₂.reversalView.emaFastHistory := by
    rw [h₂]
    exact hema
  have hnext : (s₂.tickCount.saturatingAdd 1).toNat
      = tickIndex (prices ++ [t.ltpPaise.toInt]).length := by
    have hcount : s₂.tickCount.toNat = tickIndex prices.length := hcount
    rw [UInt64.toNat_saturatingAdd, hcount, List.length_append]
    simp only [tickIndex, UInt64.toNat_one, List.length_singleton]
    omega
  have hdone : Reflects (prices ++ [t.ltpPaise.toInt])
      { s₃.reversalView with tickCount := s₃.reversalView.tickCount.saturatingAdd 1 } := by
    rw [h₃]
    exact ⟨hnext, hhigh, hlow, hflag, hema⟩
  rw [hstate]
  exact hdone

theorem orderflowStrengthCached_processTick (libm : Libm) (s : FeatureState) (t : Tick) :
    (processTickIntoState libm s t).1.orderflowStrengthCached = s.orderflowStrengthCached := by
  obtain ⟨s₁, s₂, s₃, h₁, h₂, h₃, hstate⟩ := exists_stages libm s t
  have h₁ := congrArg ReversalView.orderflowStrengthCached h₁
  have h₂ := congrArg ReversalView.orderflowStrengthCached h₂
  have h₃ := congrArg ReversalView.orderflowStrengthCached h₃
  rw [hstate]
  exact h₃.trans (h₂.trans h₁)

/-! ### Every history -/

theorem pricesOf_append (inputs : List FeatureInput) (input : FeatureInput) :
    pricesOf (inputs ++ [input]) = pricesOf inputs ++ input.price.toList := by
  rw [pricesOf, List.filterMap_append]
  cases input <;> rfl

theorem stateAfter_append (libm : Libm) (inputs : List FeatureInput) (input : FeatureInput) :
    stateAfter libm (inputs ++ [input]) = (featureStep libm (stateAfter libm inputs) input).2 := by
  rw [stateAfter, runState_append]
  rfl

/-- The prices of a run are those of an `i64`. -/
theorem le_of_mem_pricesOf {inputs : List FeatureInput} {p : ℤ} (h : p ∈ pricesOf inputs) :
    p ≤ 2 ^ 63 - 1 := by
  obtain ⟨input, -, hp⟩ := List.mem_filterMap.mp h
  cases input with
  | tick t =>
    cases hp
    exact Int.le_sub_one_of_lt t.ltpPaise.toInt_lt
  | orderflow value => cases hp

/-- After every run with positive prices the state is that of the prices. -/
theorem reflects_stateAfter (libm : Libm) {inputs : List FeatureInput}
    (hpos : ∀ p ∈ pricesOf inputs, 0 < p) :
    Reflects (pricesOf inputs) (stateAfter libm inputs).reversalView := by
  induction inputs using List.reverseRecOn with
  | nil => exact reflects_default
  | append_singleton inputs input ih =>
    have hb : ∀ p ∈ pricesOf (inputs ++ [input]), 0 < p ∧ p ≤ 2 ^ 63 - 1 :=
      fun p hp => ⟨hpos p hp, le_of_mem_pricesOf hp⟩
    rw [pricesOf_append] at hpos hb ⊢
    have h := ih fun p hp => hpos p (List.mem_append_left _ hp)
    rw [stateAfter_append]
    cases input with
    | tick t => exact h.processTick libm hb
    | orderflow value =>
      rw [FeatureInput.price, Option.toList_none, List.append_nil]
      exact ⟨h.count, h.high, h.low, h.flag, h.ema⟩

/-- Every pressure of the run is a number in `[-1, 1]`. -/
def OrderflowInRange (inputs : List FeatureInput) : Prop :=
  ∀ value, .orderflow value ∈ inputs → ∃ q : ℚ, value = .fin q ∧ -1 ≤ q ∧ q ≤ 1

theorem orderflowOf_append (inputs : List FeatureInput) (input : FeatureInput) :
    orderflowOf (inputs ++ [input]) = match input with
      | .tick _ => orderflowOf inputs
      | .orderflow value => value := by
  rw [orderflowOf, List.foldl_append]
  cases input <;> rfl

/-- The order flow of the state is the last pressure, a number. -/
theorem orderflow_stateAfter (libm : Libm) {inputs : List FeatureInput}
    (h : OrderflowInRange inputs) :
    (stateAfter libm inputs).orderflowStrengthCached = orderflowOf inputs ∧
      ∃ q : ℚ, orderflowOf inputs = .fin q := by
  induction inputs using List.reverseRecOn with
  | nil => exact ⟨rfl, 0, rfl⟩
  | append_singleton inputs input ih =>
    rw [stateAfter_append, orderflowOf_append]
    cases input with
    | tick t =>
      obtain ⟨hcached, hnumber⟩ := ih fun value hvalue => h value (List.mem_append_left _ hvalue)
      exact ⟨(orderflowStrengthCached_processTick libm _ t).trans hcached, hnumber⟩
    | orderflow value =>
      obtain ⟨q, rfl, hlo, hhi⟩ := h value (by simp)
      refine ⟨?_, q, rfl⟩
      simp [featureStep, Liquidity.updateOrderflow, ExactFloat.clampTo, not_lt.mpr hlo,
        not_lt.mpr hhi]

end Hedge.Features
