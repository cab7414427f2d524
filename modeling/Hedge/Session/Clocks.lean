import Hedge.Risk.Engine
import Hedge.Session.Controller

/-!
# The session gate of the risk engine and the window of the controller

Reference: `hedge-risk/src/engine.rs` (`is_within_session`) and
`hedge-session/src/session_controller.rs`.

The two crates read the same `SessionConfig`, each on its own. The gate drops the nanoseconds of the
clock, keeps both ends of the window and is shut at the weekend; the controller compares instants,
leaves the end out and knows no days of the week.
-/

namespace Hedge.Session

open Hedge.Risk (IstReading NaiveTime SessionConfig Weekday isWithinSession)

/-- The day of the week of a day number; day 0 is a Thursday. -/
def weekdayOf (date : ℤ) : Weekday :=
  match (date % 7).toNat with
  | 0 => .thu
  | 1 => .fri
  | 2 => .sat
  | 3 => .sun
  | 4 => .mon
  | 5 => .tue
  | _ => .wed

/-- What the gate reads off the clock at an instant. -/
def istReading (t : Instant) : IstReading :=
  { weekday := weekdayOf t.istDate
    hour := t.istTime.secs / 3600
    minute := t.istTime.secs / 60 % 60
    second := t.istTime.secs % 60 }

/-- Saturdays and Sundays, in Indian time. -/
def IsWeekend (t : Instant) : Prop :=
  (istReading t).weekday = .sat ∨ (istReading t).weekday = .sun

instance (t : Instant) : Decidable (IsWeekend t) := inferInstanceAs (Decidable (_ ∨ _))

/-- The instant is in the last second of the window and no longer in the window. -/
def PastEnd (cfg : SessionConfig) (t : Instant) : Prop :=
  t.istTime.secs = cfg.endIst.secs ∧ cfg.endIst.frac ≤ t.frac ∧
    cfg.startIst ≤ ⟨t.istTime.secs, 0⟩

/-- The instant is in the window and in its first second, which the window has only in part. -/
def PastStart (cfg : SessionConfig) (t : Instant) : Prop :=
  t.istTime.secs = cfg.startIst.secs ∧ 0 < cfg.startIst.frac ∧ cfg.startIst.frac ≤ t.frac ∧
    t.istTime < cfg.endIst

/-- The gate sees the time of day with its nanoseconds cut off. -/
theorem fromHms_istReading (t : Instant) :
    NaiveTime.fromHms (istReading t).hour (istReading t).minute (istReading t).second
      = ⟨t.istTime.secs, 0⟩ := by
  have hsecs : t.istTime.secs / 3600 * 3600 + t.istTime.secs / 60 % 60 * 60 + t.istTime.secs % 60
      = t.istTime.secs := by omega
  rw [NaiveTime.fromHms, istReading, hsecs]

theorem isWithinSession_iff (cfg : SessionConfig) (t : Instant) :
    isWithinSession cfg (istReading t) = true ↔
      ¬ IsWeekend t ∧ cfg.startIst ≤ ⟨t.istTime.secs, 0⟩ ∧ ⟨t.istTime.secs, 0⟩ ≤ cfg.endIst := by
  rw [isWithinSession, fromHms_istReading, IsWeekend]
  split_ifs with h
  · simp [h]
  · simp [h]

/-- On a weekday the gate and the controller differ only after the end of the window, in its second,
and after a start inside a second, in that second. -/
theorem session_clocks_agree_iff (cfg : SessionConfig) (t : Instant) :
    (IsWeekend t → isWithinSession cfg (istReading t) = false) ∧
      (¬ IsWeekend t → ((isWithinSession cfg (istReading t) = true ↔ InWindow cfg t) ↔
        ¬ PastEnd cfg t ∧ ¬ PastStart cfg t)) := by
  have hfrac : t.istTime.frac = t.frac := rfl
  constructor
  · intro h
    rw [Bool.eq_false_iff, ne_eq, isWithinSession_iff]
    exact fun hgate => hgate.1 h
  · intro h
    rw [isWithinSession_iff, inWindow_iff, PastEnd, PastStart]
    simp only [h, not_false_eq_true, true_and, NaiveTime.le_def, NaiveTime.lt_def, hfrac]
    omega

/-- On Monday 2025-12-01 at noon both are open. -/
theorem session_clocks_agree_at_noon :
    isWithinSession Hedge.Risk.Defaults.session
        (istReading (istToUtc 20423 (.fromHms 12 0 0))) = true ↔
      InWindow Hedge.Risk.Defaults.session (istToUtc 20423 (.fromHms 12 0 0)) :=
  ((session_clocks_agree_iff _ _).2 (by decide)).mpr
    ⟨fun h => absurd h.1 (by decide), fun h => absurd h.1 (by decide)⟩

/-- On Monday 2025-12-01 at 15:30:00 the controller has left the window and the gate is open. -/
theorem gate_open_at_session_end :
    ¬ ∀ (cfg : SessionConfig) (t : Instant), cfg.startIst < cfg.endIst →
      (isWithinSession cfg (istReading t) = true ↔ InWindow cfg t) := by
  intro h
  have hagree := h Hedge.Risk.Defaults.session (istToUtc 20423 (.fromHms 15 30 0)) (by decide)
  revert hagree
  decide

end Hedge.Session
