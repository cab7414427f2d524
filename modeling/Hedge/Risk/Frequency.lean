import Hedge.Common.Run
import Hedge.Common.Windowed
import Hedge.Risk.State
import Mathlib.Tactic.Ring

/-!
# The trade limits over a run

Reference: `hedge-risk/src/frequency.rs`.

The counters keep the last 8, 64 and 128 admissions. Against the timestamps of all admissions, a
ring gives the exact count of its window as long as that count is below its capacity, so a limit up
to the capacity is enforced. A larger limit never rejects on its own; whether it is exceeded depends
on the other two, and `LimitsFit` says when it is not.
-/

namespace Hedge.Risk

open Hedge Hedge.Common Hedge.Core

/-! ## Model -/

/-- The trade limits of `RiskConfig`. -/
structure TradeLimits where
  maxPerMinute : UInt32
  maxPerHour : UInt32
  maxPerSession : UInt32
deriving DecidableEq

/-- A call on the counters. `trade` is `would_breach` and, when that returns false, `record`. -/
inductive FrequencyCall where
  | wouldBreach (nowNs : UInt64)
  | trade (nowNs : UInt64)
  | resetSession
deriving DecidableEq

/-- The time a call carries. -/
def FrequencyCall.nowNs? : FrequencyCall → Option UInt64
  | .wouldBreach nowNs => some nowNs
  | .trade nowNs => some nowNs
  | .resetSession => none

/-- The counters, with every timestamp recorded so far and those since the last reset. -/
structure FrequencyLog where
  counters : FrequencyCounters
  recorded : List UInt64
  session : List UInt64

/-- Nothing recorded. -/
def FrequencyLog.new : FrequencyLog := ⟨.new, [], []⟩

/-- One call. The output is what `would_breach` returned. -/
def frequencyStep (lim : TradeLimits) (s : FrequencyLog) :
    FrequencyCall → Option Bool × FrequencyLog
  | .wouldBreach nowNs =>
    let r := s.counters.wouldBreach nowNs lim.maxPerMinute lim.maxPerHour lim.maxPerSession
    (some r.1, { s with counters := r.2 })
  | .trade nowNs =>
    let r := s.counters.wouldBreach nowNs lim.maxPerMinute lim.maxPerHour lim.maxPerSession
    if r.1 then (some true, { s with counters := r.2 })
    else (some false, ⟨r.2.record nowNs, s.recorded ++ [nowNs], s.session ++ [nowNs]⟩)
  | .resetSession => (none, { s with counters := s.counters.resetSession, session := [] })

/-- The state after the calls. -/
def frequencyRun (lim : TradeLimits) (calls : List FrequencyCall) : FrequencyLog :=
  runState (frequencyStep lim) .new calls

/-- The times of the calls do not go back. -/
def Nondecreasing (calls : List FrequencyCall) : Prop :=
  (calls.filterMap FrequencyCall.nowNs?).Pairwise (· ≤ ·)

/-- How many of `ts` are at most `windowNs` before `t` and not after it. -/
def countWithin (ts : List UInt64) (windowNs : ℕ) (t : UInt64) : ℕ :=
  ts.countP fun x => x ≤ t ∧ t.toNat ≤ x.toNat + windowNs

/-- No minute, no hour and no session holds more admissions than its limit. -/
structure FrequencyLog.WithinLimits (lim : TradeLimits) (s : FrequencyLog) : Prop where
  minute : ∀ t, countWithin s.recorded nsPerMinute t ≤ lim.maxPerMinute.toNat
  hour : ∀ t, countWithin s.recorded nsPerHour t ≤ lim.maxPerHour.toNat
  session : s.session.length ≤ lim.maxPerSession.toNat

/-- Each limit is at most its ring, or the enforced limits keep it: a minute lies in an hour, an
hour in sixty minutes, and the times of a session in the range of `u64`. -/
def LimitsFit (lim : TradeLimits) : Prop :=
  lim.maxPerSession = 0 ∨
    (lim.maxPerMinute ≤ 8 ∨ lim.maxPerHour ≤ 64 ∧ lim.maxPerHour ≤ lim.maxPerMinute) ∧
    (lim.maxPerHour ≤ 64 ∨
      lim.maxPerMinute ≤ 8 ∧ 60 * lim.maxPerMinute.toNat ≤ lim.maxPerHour.toNat) ∧
    (lim.maxPerSession ≤ 128 ∨ ∃ minutes hours : ℕ,
      (minutes = 0 ∨ lim.maxPerMinute ≤ 8) ∧ (hours = 0 ∨ lim.maxPerHour ≤ 64) ∧
      minutes * lim.maxPerMinute.toNat + hours * lim.maxPerHour.toNat ≤ lim.maxPerSession.toNat ∧
      2 ^ 64 ≤ minutes * (nsPerMinute + 1) + hours * (nsPerHour + 1))

/-! ## What the rings count -/

/-- Each count, up to the capacity of its ring, is below its limit. -/
structure HasRoom (lim : TradeLimits) (recorded session : List UInt64) (nowNs : UInt64) : Prop where
  minute : min (recent (recorded.map UInt64.toNat) (nsPerMinute + 1) nowNs.toNat) 8
    < lim.maxPerMinute.toNat
  hour : min (recent (recorded.map UInt64.toNat) (nsPerHour + 1) nowNs.toNat) 64
    < lim.maxPerHour.toNat
  session : min session.length 128 < lim.maxPerSession.toNat

/-- The rings hold the last admissions. -/
structure FrequencyLog.Counts (s : FrequencyLog) : Prop where
  minute : s.counters.minute.iter = s.recorded.drop (s.recorded.length - 8)
  hour : s.counters.hour.iter = s.recorded.drop (s.recorded.length - 64)
  session : s.counters.session.iter = s.session.drop (s.session.length - 128)

section Counts

variable {lim : TradeLimits} {s : FrequencyLog} {calls : List FrequencyCall}

theorem counts_new : FrequencyLog.new.Counts where
  minute := RingWindow.iter_new _ _
  hour := RingWindow.iter_new _ _
  session := RingWindow.iter_new _ _

theorem FrequencyLog.Counts.step (h : s.Counts) (call : FrequencyCall) :
    (frequencyStep lim s call).2.Counts := by
  cases call with
  | wouldBreach nowNs => exact ⟨h.minute, h.hour, h.session⟩
  | trade nowNs =>
    rw [frequencyStep]
    split_ifs
    · exact ⟨h.minute, h.hour, h.session⟩
    · exact ⟨RingWindow.iter_push_of_eq h.minute nowNs, RingWindow.iter_push_of_eq h.hour nowNs,
        RingWindow.iter_push_of_eq h.session nowNs⟩
  | resetSession =>
    have hclear : s.counters.session.clear.iter = [] :=
      List.eq_nil_of_length_eq_zero (RingWindow.length_iter _)
    exact ⟨h.minute, h.hour, hclear.trans List.drop_nil.symm⟩

theorem counts_frequencyRun (lim : TradeLimits) (calls : List FrequencyCall) :
    (frequencyRun lim calls).Counts :=
  runState_invariant_all _ FrequencyLog.Counts (fun _ call h => h.step call) counts_new calls

/-- A ring of the last `cap` of some sorted timestamps counts up to its capacity. -/
theorem liveCount_eq {cap : ℕ} {ring : RingWindow UInt64 cap} {ts : List UInt64}
    (hring : ring.iter = ts.drop (ts.length - cap)) (hsorted : ts.Pairwise (· ≤ ·))
    (nowNs : UInt64) (windowNs : ℕ) :
    FrequencyCounters.liveCount ring nowNs windowNs =
      min (recent (ts.map UInt64.toNat) (windowNs + 1) nowNs.toNat) cap := by
  have hsorted' : (ts.map UInt64.toNat).Pairwise (· ≤ ·) :=
    List.pairwise_map.mpr (hsorted.imp UInt64.le_iff_toNat_le.mp)
  have hlive : FrequencyCounters.liveCount ring nowNs windowNs =
      ((ts.map UInt64.toNat).drop (ts.length - cap)).countP
        fun t => nowNs.toNat < t + (windowNs + 1) := by
    rw [FrequencyCounters.liveCount, hring, ← List.map_drop, List.countP_map]
    apply List.countP_congr
    intro t _
    simp only [UInt64.toNat_saturatingSub, decide_eq_true_eq, Function.comp_apply]
    omega
  rw [hlive, countP_drop_of_sorted hsorted', List.length_map]
  · have hle : recent (ts.map UInt64.toNat) (windowNs + 1) nowNs.toNat ≤ ts.length := by
      have hlength : (ts.map UInt64.toNat).length = ts.length := List.length_map _
      rw [← hlength]
      exact List.countP_le_length
    rw [← recent]
    omega
  · intro t u htu ht
    simp only [decide_eq_true_eq] at ht ⊢
    omega

/-- The recorded timestamps are times of calls, and the session's are recorded. -/
theorem recorded_sublist (lim : TradeLimits) (calls : List FrequencyCall) :
    (frequencyRun lim calls).recorded.Sublist (calls.filterMap FrequencyCall.nowNs?) ∧
      (frequencyRun lim calls).session.Sublist (frequencyRun lim calls).recorded := by
  induction calls using List.reverseRecOn with
  | nil => exact ⟨.refl _, .refl _⟩
  | append_singleton calls call ih =>
    obtain ⟨hrec, hses⟩ := ih
    rw [frequencyRun, runState_append, ← frequencyRun, List.filterMap_append]
    cases call with
    | wouldBreach nowNs => exact ⟨hrec.trans (List.sublist_append_left _ _), hses⟩
    | trade nowNs =>
      rw [runState_cons, runState_nil, frequencyStep]
      split_ifs
      · exact ⟨hrec.trans (List.sublist_append_left _ _), hses⟩
      · exact ⟨hrec.append (.refl _), hses.append (.refl _)⟩
    | resetSession =>
      exact ⟨hrec.trans (List.sublist_append_left _ _), List.nil_sublist _⟩

/-- `would_breach` lets an entry through exactly if there is room. -/
theorem wouldBreach_eq_false_iff (h : s.Counts) (hsorted : s.recorded.Pairwise (· ≤ ·))
    (nowNs : UInt64) :
    (s.counters.wouldBreach nowNs lim.maxPerMinute lim.maxPerHour lim.maxPerSession).1 = false ↔
      HasRoom lim s.recorded s.session nowNs := by
  have hsession : s.counters.session.len = min s.session.length 128 := by
    rw [← RingWindow.length_iter, h.session, List.length_drop]
    omega
  rw [FrequencyCounters.wouldBreach, decide_eq_false_iff_not,
    liveCount_eq h.minute hsorted, liveCount_eq h.hour hsorted, hsession]
  constructor
  · intro hroom
    exact ⟨by omega, by omega, by omega⟩
  · rintro ⟨hminute, hhour, hses⟩
    omega

/-- What an admission with room and a reset preserve holds of the timestamps of a run. -/
theorem frequencyRun_induction (lim : TradeLimits) {P : List UInt64 → List UInt64 → Prop}
    (hnil : P [] [])
    (htrade : ∀ recorded session nowNs, P recorded session → HasRoom lim recorded session nowNs →
      P (recorded ++ [nowNs]) (session ++ [nowNs]))
    (hreset : ∀ recorded session, P recorded session → P recorded [])
    {calls : List FrequencyCall} (hmono : Nondecreasing calls) :
    P (frequencyRun lim calls).recorded (frequencyRun lim calls).session := by
  induction calls using List.reverseRecOn with
  | nil => exact hnil
  | append_singleton calls call ih =>
    rw [Nondecreasing, List.filterMap_append] at hmono
    have hbefore : Nondecreasing calls := hmono.sublist (List.sublist_append_left _ _)
    have hP := ih hbefore
    have hsorted := hbefore.sublist (recorded_sublist lim calls).1
    rw [frequencyRun, runState_append, ← frequencyRun]
    cases call with
    | wouldBreach nowNs => exact hP
    | trade nowNs =>
      rw [runState_cons, runState_nil, frequencyStep]
      split_ifs with hbreach
      · exact hP
      · rw [Bool.not_eq_true, wouldBreach_eq_false_iff (counts_frequencyRun lim calls) hsorted]
          at hbreach
        exact htrade _ _ nowNs hP hbreach
    | resetSession => exact hreset _ _ hP

end Counts

/-! ## Limits that are enforced -/

/-- The limits that a ring enforces, each with the length of its window. -/
def TradeLimits.rules (lim : TradeLimits) : Set (ℕ × ℕ) :=
  {rule | rule = (nsPerMinute + 1, lim.maxPerMinute.toNat) ∧ lim.maxPerMinute ≤ 8 ∨
    rule = (nsPerHour + 1, lim.maxPerHour.toNat) ∧ lim.maxPerHour ≤ 64}

section Enforced

variable {lim : TradeLimits} {calls : List FrequencyCall}

/-- A limit up to the capacity of its ring is kept. -/
theorem rules_kept (hmono : Nondecreasing calls) : ∀ rule ∈ lim.rules,
    AtMost ((frequencyRun lim calls).recorded.map UInt64.toNat) rule.1 rule.2 := by
  refine frequencyRun_induction lim (P := fun recorded _ => ∀ rule ∈ lim.rules,
    AtMost (recorded.map UInt64.toNat) rule.1 rule.2) ?_ ?_ (fun _ _ h => h) hmono
  · intro rule _ lo
    exact Nat.zero_le _
  · rintro recorded session nowNs ih hroom rule hrule
    rw [List.map_append, List.map_singleton]
    refine (ih rule hrule).concat ?_
    rcases hrule with ⟨rfl, hle⟩ | ⟨rfl, hle⟩
    · have hlim := UInt32.le_iff_toNat_le.mp hle
      have hmin := hroom.minute
      simp only [UInt32.reduceToNat] at hlim
      show recent _ (nsPerMinute + 1) _ < _
      omega
    · have hlim := UInt32.le_iff_toNat_le.mp hle
      have hmin := hroom.hour
      simp only [UInt32.reduceToNat] at hlim
      show recent _ (nsPerHour + 1) _ < _
      omega

/-- The session limit is kept up to the capacity of its ring. -/
theorem session_kept (hmono : Nondecreasing calls) (hlim : lim.maxPerSession ≤ 128) :
    (frequencyRun lim calls).session.length ≤ lim.maxPerSession.toNat := by
  have hcap := UInt32.le_iff_toNat_le.mp hlim
  simp only [UInt32.reduceToNat] at hcap
  refine frequencyRun_induction lim (P := fun _ session => session.length ≤ _) (Nat.zero_le _)
    (fun _ session nowNs _ hroom => ?_) (fun _ _ _ => Nat.zero_le _) hmono
  have hmin := hroom.session
  rw [List.length_append, List.length_singleton]
  omega

/-- Nothing is admitted when the session limit is zero. -/
theorem recorded_eq_nil (hmono : Nondecreasing calls) (hzero : lim.maxPerSession = 0) :
    (frequencyRun lim calls).recorded = [] := by
  refine frequencyRun_induction lim (P := fun recorded _ => recorded = []) rfl
    (fun _ _ nowNs _ hroom => ?_) (fun _ _ h => h) hmono
  have hmin := hroom.session
  rw [hzero] at hmin
  exact absurd hmin (Nat.not_lt_zero _)

/-- The windows of the claimed limits, as windows of a rule. -/
theorem countWithin_le {ts : List UInt64} {windowNs m : ℕ}
    (h : AtMost (ts.map UInt64.toNat) (windowNs + 1) m) (t : UInt64) :
    countWithin ts windowNs t ≤ m := by
  refine le_trans ?_ (h (t.toNat - windowNs))
  rw [countIn, List.countP_map]
  apply List.countP_mono_left
  intro x _ hx
  simp only [decide_eq_true_eq, Function.comp_apply, UInt64.le_iff_toNat_le] at hx ⊢
  omega

/-- The spans that the rules cover, in minutes and hours. -/
theorem covers_rules {minutes hours : ℕ} (hminutes : minutes = 0 ∨ lim.maxPerMinute ≤ 8)
    (hhours : hours = 0 ∨ lim.maxPerHour ≤ 64) :
    Covers lim.rules (minutes * (nsPerMinute + 1) + hours * (nsPerHour + 1))
      (minutes * lim.maxPerMinute.toNat + hours * lim.maxPerHour.toNat) := by
  induction minutes with
  | succ minutes ih =>
    have hle : lim.maxPerMinute ≤ 8 := hminutes.resolve_left (Nat.succ_ne_zero _)
    convert Covers.cons (.inl ⟨rfl, hle⟩) (ih (.inr hle)) using 1 <;> ring
  | zero =>
    rw [Nat.zero_mul, Nat.zero_mul, Nat.zero_add, Nat.zero_add]
    induction hours with
    | zero =>
      rw [Nat.zero_mul, Nat.zero_mul]
      exact .nil
    | succ hours ih =>
      have hle : lim.maxPerHour ≤ 64 := hhours.resolve_left (Nat.succ_ne_zero _)
      convert Covers.cons (.inr ⟨rfl, hle⟩) (ih (.inr hle)) using 1 <;> ring

theorem exists_minutes_hours {span cost : ℕ} (h : Covers lim.rules span cost) :
    ∃ minutes hours : ℕ, (minutes = 0 ∨ lim.maxPerMinute ≤ 8) ∧ (hours = 0 ∨ lim.maxPerHour ≤ 64) ∧
      span = minutes * (nsPerMinute + 1) + hours * (nsPerHour + 1) ∧
      cost = minutes * lim.maxPerMinute.toNat + hours * lim.maxPerHour.toNat := by
  induction h with
  | nil => exact ⟨0, 0, .inl rfl, .inl rfl, by ring, by ring⟩
  | cons hrule _ ih =>
    obtain ⟨minutes, hours, hminutes, hhours, rfl, rfl⟩ := ih
    rcases hrule with ⟨hrule, hle⟩ | ⟨hrule, hle⟩
    · obtain ⟨rfl, rfl⟩ := Prod.mk.injEq .. ▸ hrule
      exact ⟨minutes + 1, hours, .inr hle, hhours, by ring, by ring⟩
    · obtain ⟨rfl, rfl⟩ := Prod.mk.injEq .. ▸ hrule
      exact ⟨minutes, hours + 1, hminutes, .inr hle, by ring, by ring⟩

/-- Limits that fit are kept by every run. -/
theorem LimitsFit.withinLimits (h : LimitsFit lim) (hmono : Nondecreasing calls) :
    (frequencyRun lim calls).WithinLimits lim := by
  have hses := (recorded_sublist lim calls).2
  rcases h with hzero | ⟨hminute, hhour, hsession⟩
  · have hnil := recorded_eq_nil hmono hzero
    rw [hnil, List.sublist_nil] at hses
    refine ⟨fun _ => ?_, fun _ => ?_, ?_⟩
    · rw [hnil]
      exact Nat.zero_le _
    · rw [hnil]
      exact Nat.zero_le _
    · rw [hses]
      exact Nat.zero_le _
  · have hspan : ∀ {minutes hours : ℕ}, (minutes = 0 ∨ lim.maxPerMinute ≤ 8) →
        (hours = 0 ∨ lim.maxPerHour ≤ 64) →
        AtMost ((frequencyRun lim calls).recorded.map UInt64.toNat)
          (minutes * (nsPerMinute + 1) + hours * (nsPerHour + 1))
          (minutes * lim.maxPerMinute.toNat + hours * lim.maxPerHour.toNat) :=
      fun hminutes hhours => (covers_rules hminutes hhours).atMost (rules_kept hmono)
    refine ⟨countWithin_le ?_, countWithin_le ?_, ?_⟩
    · rcases hminute with hle | ⟨hle, hhm⟩
      · exact (@hspan 1 0 (.inr hle) (.inl rfl)).mono (by omega) (by omega)
      · have := UInt32.le_iff_toNat_le.mp hhm
        exact (@hspan 0 1 (.inl rfl) (.inr hle)).mono
          (by rw [nsPerHour]; omega) (by omega)
    · rcases hhour with hle | ⟨hle, hsixty⟩
      · exact (@hspan 0 1 (.inl rfl) (.inr hle)).mono (by omega) (by omega)
      · exact (@hspan 60 0 (.inr hle) (.inl rfl)).mono
          (by rw [nsPerHour]; omega) (by omega)
    · rcases hsession with hle | ⟨minutes, hours, hminutes, hhours, hcost, hrange⟩
      · exact session_kept hmono hle
      · -- every time is below `2 ^ 64`
        have hall : (frequencyRun lim calls).recorded.length =
            countIn ((frequencyRun lim calls).recorded.map UInt64.toNat) 0 (2 ^ 64) := by
          rw [countIn, List.countP_map]
          refine (List.countP_eq_length.mpr fun x _ => ?_).symm
          have := x.toNat_lt
          simp only [Function.comp_apply, decide_eq_true_eq]
          omega
        have hbound := (hspan hminutes hhours).mono hrange hcost 0
        rw [← hall] at hbound
        exact hses.length_le.trans hbound

end Enforced

/-! ## Limits that are not -/

section Violated

variable {lim : TradeLimits} {limit bound : ℕ}

/-- Admissions at the scheduled times, each followed by a reset when `resets`. -/
noncomputable def scheduledCalls (lim : TradeLimits) (resets : Bool) (n : ℕ) : List FrequencyCall :=
  (List.range n).flatMap fun i =>
    .trade (UInt64.ofNat (earliest lim.rules i)) ::
      if resets then [.resetSession] else []

theorem scheduledCalls_succ (lim : TradeLimits) (resets : Bool) (n : ℕ) :
    scheduledCalls lim resets (n + 1) = scheduledCalls lim resets n ++
      .trade (UInt64.ofNat (earliest lim.rules n)) :: if resets then [.resetSession] else [] := by
  rw [scheduledCalls, List.range_succ, List.flatMap_append, List.flatMap_singleton]
  rfl

theorem times_scheduledCalls (lim : TradeLimits) (resets : Bool) (n : ℕ) :
    (scheduledCalls lim resets n).filterMap FrequencyCall.nowNs? =
      (schedule lim.rules n).map UInt64.ofNat := by
  induction n with
  | zero => rfl
  | succ n ih =>
    rw [scheduledCalls_succ, List.filterMap_append, ih, schedule_succ, List.map_append]
    cases resets <;> rfl

/-- The schedule stays in the range of `u64`. -/
theorem toNat_scheduled (hbound : bound ≤ 2 ^ 64)
    (hfit : ∀ span cost, cost ≤ limit → Covers lim.rules span cost → span < bound)
    {i : ℕ} (hi : i ≤ limit) :
    (UInt64.ofNat (earliest lim.rules i)).toNat = earliest lim.rules i := by
  rw [UInt64.toNat_ofNat']
  exact Nat.mod_eq_of_lt ((earliest_lt hfit hi).trans_le hbound)

theorem nondecreasing_scheduledCalls (hbound : bound ≤ 2 ^ 64)
    (hfit : ∀ span cost, cost ≤ limit → Covers lim.rules span cost → span < bound)
    (resets : Bool) {n : ℕ} (hn : n ≤ limit + 1) :
    Nondecreasing (scheduledCalls lim resets n) := by
  rw [Nondecreasing, times_scheduledCalls, schedule, List.map_map, List.pairwise_map]
  refine List.pairwise_lt_range.imp_of_mem fun {i j} hi hj hij => ?_
  have hj' := List.mem_range.mp hj
  rw [UInt64.le_iff_toNat_le, Function.comp_apply, Function.comp_apply,
    toNat_scheduled hbound hfit (by omega), toNat_scheduled hbound hfit (by omega)]
  exact earliest_mono hfit (Nat.le_of_lt hij) (by omega)

/-- Every scheduled admission goes through. -/
theorem recorded_scheduledCalls (hbound : bound ≤ 2 ^ 64)
    (hfit : ∀ span cost, cost ≤ limit → Covers lim.rules span cost → span < bound)
    {resets : Bool} (hsession : 0 < lim.maxPerSession.toNat)
    (hresets : resets = false → 128 < lim.maxPerSession.toNat) {n : ℕ} (hn : n ≤ limit + 1) :
    (frequencyRun lim (scheduledCalls lim resets n)).recorded.map UInt64.toNat =
        schedule lim.rules n ∧
      (frequencyRun lim (scheduledCalls lim resets n)).session =
        if resets then [] else (frequencyRun lim (scheduledCalls lim resets n)).recorded := by
  induction n with
  | zero =>
    refine ⟨rfl, ?_⟩
    cases resets <;> rfl
  | succ n ih =>
    obtain ⟨hrec, hses⟩ := ih (by omega)
    have hle : n ≤ limit := by omega
    have hle' : n ≤ limit + 1 := Nat.le_succ_of_le hle
    have hsorted := (nondecreasing_scheduledCalls hbound hfit resets hle').sublist
      (recorded_sublist lim _).1
    have hroom : HasRoom lim (frequencyRun lim (scheduledCalls lim resets n)).recorded
        (frequencyRun lim (scheduledCalls lim resets n)).session
        (UInt64.ofNat (earliest lim.rules n)) := by
      refine ⟨?_, ?_, ?_⟩
      · rw [hrec, toNat_scheduled hbound hfit hle]
        refine min_recent_schedule_lt hfit (fun hcap => ?_) (Nat.succ_pos nsPerMinute) hle
        exact .inl ⟨rfl, UInt32.le_iff_toNat_le.mpr hcap⟩
      · rw [hrec, toNat_scheduled hbound hfit hle]
        refine min_recent_schedule_lt hfit (fun hcap => ?_) (Nat.succ_pos nsPerHour) hle
        exact .inr ⟨rfl, UInt32.le_iff_toNat_le.mpr hcap⟩
      · cases resets with
        | true =>
          rw [hses, if_pos rfl]
          exact Nat.lt_of_le_of_lt (Nat.min_le_left _ _) hsession
        | false => exact Nat.lt_of_le_of_lt (Nat.min_le_right _ _) (hresets rfl)
    -- all three windows have room at the scheduled time, so the call is recorded
    have hopen := (wouldBreach_eq_false_iff (counts_frequencyRun lim _) hsorted _).mpr hroom
    rw [frequencyRun, scheduledCalls_succ, runState_append, ← frequencyRun, runState_cons,
      frequencyStep, hopen, if_neg Bool.false_ne_true]
    refine ⟨?_, ?_⟩
    · rw [schedule_succ, ← hrec]
      cases resets <;>
        simp [frequencyStep, toNat_scheduled hbound hfit hle, hrec]
    · cases resets with
      | true => rfl
      | false =>
        rw [if_neg Bool.false_ne_true] at hses
        show _ ++ _ = _ ++ _
        rw [hses]

/-- More admissions than `limit` go through within `bound`. -/
theorem exists_recorded_gt (hbound : bound ≤ 2 ^ 64)
    (hfit : ∀ span cost, cost ≤ limit → Covers lim.rules span cost → span < bound)
    (resets : Bool) (hsession : 0 < lim.maxPerSession.toNat)
    (hresets : resets = false → 128 < lim.maxPerSession.toNat) :
    ∃ calls, Nondecreasing calls ∧ limit < (frequencyRun lim calls).recorded.length ∧
      (∀ x ∈ (frequencyRun lim calls).recorded, x.toNat < bound) ∧
      (resets = false → (frequencyRun lim calls).session = (frequencyRun lim calls).recorded) := by
  obtain ⟨hrec, hses⟩ :=
    recorded_scheduledCalls hbound hfit hsession hresets (Nat.le_refl (limit + 1))
  refine ⟨_, nondecreasing_scheduledCalls hbound hfit resets (Nat.le_refl _), ?_, ?_, ?_⟩
  · rw [← List.length_map UInt64.toNat, hrec, schedule, List.length_map, List.length_range]
    exact Nat.lt_succ_self limit
  · intro x hx
    have hmem := List.mem_map_of_mem (f := UInt64.toNat) hx
    rw [hrec] at hmem
    obtain ⟨i, hi, heq⟩ := List.mem_map.mp hmem
    rw [← heq]
    exact earliest_lt hfit (Nat.le_of_lt_succ (List.mem_range.mp hi))
  · rintro rfl
    exact hses

/-- A window that starts at zero counts every timestamp in it. -/
theorem countWithin_eq_length {ts : List UInt64} {windowNs : ℕ} (hlt : windowNs < 2 ^ 64)
    (h : ∀ x ∈ ts, x.toNat < windowNs + 1) :
    countWithin ts windowNs (UInt64.ofNat windowNs) = ts.length := by
  refine List.countP_eq_length.mpr fun x hx => ?_
  have hx' := h x hx
  rw [decide_eq_true_eq, UInt64.le_iff_toNat_le, UInt64.toNat_ofNat', Nat.mod_eq_of_lt hlt]
  omega

/-- A window takes more than `limit` admissions if the enforced limits do not cover it. -/
theorem exists_countWithin_gt {windowNs : ℕ} (hlt : windowNs < 2 ^ 64)
    (hfit : ∀ span cost, cost ≤ limit → Covers lim.rules span cost → span < windowNs + 1)
    (hpos : 0 < lim.maxPerSession.toNat) :
    ∃ calls, Nondecreasing calls ∧
      limit < countWithin (frequencyRun lim calls).recorded windowNs (UInt64.ofNat windowNs) := by
  obtain ⟨calls, hmono, hlong, hwindow, -⟩ :=
    exists_recorded_gt (Nat.succ_le_of_lt hlt) hfit true hpos (fun h => by cases h)
  refine ⟨calls, hmono, ?_⟩
  rw [countWithin_eq_length hlt hwindow]
  exact hlong

/-- A minute takes one admission more than a limit above its ring. -/
theorem exists_minute_broken (hpos : 0 < lim.maxPerSession.toNat)
    (hminute : ¬ (lim.maxPerMinute ≤ 8 ∨
      lim.maxPerHour ≤ 64 ∧ lim.maxPerHour ≤ lim.maxPerMinute)) :
    ∃ calls, Nondecreasing calls ∧ ¬ (frequencyRun lim calls).WithinLimits lim := by
  rw [not_or] at hminute
  have hfit : ∀ span cost, cost ≤ lim.maxPerMinute.toNat → Covers lim.rules span cost →
      span < nsPerMinute + 1 := by
    intro span cost hcost hcovers
    obtain ⟨minutes, hours, hminutes, hhours, rfl, rfl⟩ := exists_minutes_hours hcovers
    obtain rfl := hminutes.resolve_right hminute.1
    rcases Nat.eq_zero_or_pos hours with rfl | hpos
    · omega
    · have hle := hhours.resolve_left (by omega)
      have := Nat.mul_le_mul_right lim.maxPerHour.toNat hpos
      exact absurd ⟨hle, UInt32.le_iff_toNat_le.mpr (by omega)⟩ hminute.2
  obtain ⟨calls, hmono, hgt⟩ := exists_countWithin_gt (by decide) hfit hpos
  refine ⟨calls, hmono, fun hwithin => ?_⟩
  have hle := hwithin.minute (UInt64.ofNat nsPerMinute)
  exact Nat.not_le_of_lt hgt hle

/-- An hour takes one admission more than a limit above its ring. -/
theorem exists_hour_broken (hpos : 0 < lim.maxPerSession.toNat)
    (hhour : ¬ (lim.maxPerHour ≤ 64 ∨
      lim.maxPerMinute ≤ 8 ∧ 60 * lim.maxPerMinute.toNat ≤ lim.maxPerHour.toNat)) :
    ∃ calls, Nondecreasing calls ∧ ¬ (frequencyRun lim calls).WithinLimits lim := by
  rw [not_or] at hhour
  have hfit : ∀ span cost, cost ≤ lim.maxPerHour.toNat → Covers lim.rules span cost →
      span < nsPerHour + 1 := by
    intro span cost hcost hcovers
    obtain ⟨minutes, hours, hminutes, hhours, rfl, rfl⟩ := exists_minutes_hours hcovers
    obtain rfl := hhours.resolve_right hhour.1
    have hfew : minutes < 60 := by
      by_contra hge
      have hle := hminutes.resolve_left (by omega)
      have := Nat.mul_le_mul_right lim.maxPerMinute.toNat (Nat.le_of_not_lt hge)
      exact hhour.2 ⟨hle, by omega⟩
    have := Nat.mul_le_mul_right (nsPerMinute + 1) (Nat.le_of_lt_succ hfew)
    rw [nsPerHour]
    simp only [nsPerMinute] at this ⊢
    omega
  obtain ⟨calls, hmono, hgt⟩ := exists_countWithin_gt (by decide) hfit hpos
  refine ⟨calls, hmono, fun hwithin => ?_⟩
  have hle := hwithin.hour (UInt64.ofNat nsPerHour)
  exact Nat.not_le_of_lt hgt hle

/-- A session takes one admission more than a limit above its ring, spread over the range of `u64`.
-/
theorem exists_session_broken (hpos : 0 < lim.maxPerSession.toNat)
    (hcap : ¬ lim.maxPerSession ≤ 128)
    (hspan : ¬ ∃ minutes hours : ℕ,
      (minutes = 0 ∨ lim.maxPerMinute ≤ 8) ∧ (hours = 0 ∨ lim.maxPerHour ≤ 64) ∧
      minutes * lim.maxPerMinute.toNat + hours * lim.maxPerHour.toNat ≤ lim.maxPerSession.toNat ∧
      2 ^ 64 ≤ minutes * (nsPerMinute + 1) + hours * (nsPerHour + 1)) :
    ∃ calls, Nondecreasing calls ∧ ¬ (frequencyRun lim calls).WithinLimits lim := by
  have hlarge := Nat.lt_of_not_le fun h => hcap (UInt32.le_iff_toNat_le.mpr h)
  have hfit : ∀ span cost, cost ≤ lim.maxPerSession.toNat → Covers lim.rules span cost →
      span < 2 ^ 64 := by
    intro span cost hcost hcovers
    obtain ⟨minutes, hours, hminutes, hhours, rfl, rfl⟩ := exists_minutes_hours hcovers
    by_contra hge
    exact hspan ⟨minutes, hours, hminutes, hhours, hcost, Nat.le_of_not_lt hge⟩
  obtain ⟨calls, hmono, hlong, -, hses⟩ :=
    exists_recorded_gt (Nat.le_refl _) hfit false hpos fun _ => hlarge
  refine ⟨calls, hmono, fun hwithin => ?_⟩
  have hle := hwithin.session
  rw [hses rfl] at hle
  omega

/-- Limits that do not fit are broken by some run. -/
theorem exists_not_withinLimits (h : ¬ LimitsFit lim) :
    ∃ calls, Nondecreasing calls ∧ ¬ (frequencyRun lim calls).WithinLimits lim := by
  rw [LimitsFit, not_or, not_and_or, not_and_or] at h
  obtain ⟨hzero, hfits⟩ := h
  have hpos : 0 < lim.maxPerSession.toNat :=
    Nat.pos_of_ne_zero fun h => hzero (UInt32.toNat_inj.mp h)
  rcases hfits with hminute | hhour | hsession
  · exact exists_minute_broken hpos hminute
  · exact exists_hour_broken hpos hhour
  · rw [not_or] at hsession
    exact exists_session_broken hpos hsession.1 hsession.2

end Violated

/-- **The limits hold in every run exactly if they fit the rings.** -/
theorem limits_kept_iff (lim : TradeLimits) :
    (∀ calls, Nondecreasing calls → (frequencyRun lim calls).WithinLimits lim) ↔ LimitsFit lim := by
  constructor
  · intro h
    by_contra hfit
    obtain ⟨calls, hmono, hbroken⟩ := exists_not_withinLimits hfit
    exact hbroken (h calls hmono)
  · intro hfit calls hmono
    exact hfit.withinLimits hmono

/-- Ten entries at one instant get past a limit of nine a minute. -/
theorem ten_of_nine_per_minute :
    ¬ ∀ lim calls, Nondecreasing calls → (frequencyRun lim calls).WithinLimits lim := by
  intro h
  have hmono : Nondecreasing (List.replicate 10 (.trade 0)) := by
    show (List.replicate 10 0).Pairwise (· ≤ ·)
    decide
  have hle := (h ⟨9, 30, 60⟩ _ hmono).minute 0
  exact absurd hle (by decide +kernel)

/-- The default limits fit. -/
example : LimitsFit ⟨4, 30, 60⟩ := .inr ⟨.inl (by decide), .inl (by decide), .inl (by decide)⟩

end Hedge.Risk
