import Hedge.Common.Calendar
import Hedge.Common.ExactFloat
import Hedge.Risk.State

/-!
# The session and war-mode controllers

Reference: `hedge-session/src/session_controller.rs`, `hedge-session/src/controller.rs`,
`hedge-session/src/session_event.rs` and `hedge-session/src/event.rs`.

Both controllers watch a daily window `[start_ist, end_ist)` and announce its edges; they differ in
what their events carry. A UTC instant is its seconds since the epoch and its nanoseconds, as in
`chrono`, where a leap second has a billion nanoseconds and more. `Asia/Kolkata` is the fixed
UTC+05:30 that the source relies on (the zone had other offsets before 1945), so that a local date
and time are one addition away.

A date is its day number; day 0 is 1970-01-01.
-/

namespace Hedge.Session

open Hedge.Common
open Hedge.Risk (NaiveTime SessionConfig)

/-! ## Instants and Indian time -/

/-- `DateTime<Utc>`. -/
structure Instant where
  secs : ℤ
  frac : ℕ
  deriving DecidableEq, Repr

namespace Instant

/-- Instants are compared by their seconds first. -/
instance : LE Instant := ⟨fun a b => a.secs < b.secs ∨ a.secs = b.secs ∧ a.frac ≤ b.frac⟩

instance : LT Instant := ⟨fun a b => a.secs < b.secs ∨ a.secs = b.secs ∧ a.frac < b.frac⟩

instance (a b : Instant) : Decidable (a ≤ b) := inferInstanceAs (Decidable (_ ∨ _))

instance (a b : Instant) : Decidable (a < b) := inferInstanceAs (Decidable (_ ∨ _))

theorem le_def {a b : Instant} :
    a ≤ b ↔ a.secs < b.secs ∨ a.secs = b.secs ∧ a.frac ≤ b.frac := Iff.rfl

theorem lt_def {a b : Instant} :
    a < b ↔ a.secs < b.secs ∨ a.secs = b.secs ∧ a.frac < b.frac := Iff.rfl

/-- Seconds of `Asia/Kolkata` ahead of UTC. -/
def istOffset : ℤ := 5 * 3600 + 30 * 60

/-- The day number of the IST date. -/
def istDate (t : Instant) : ℤ := (t.secs + istOffset) / 86400

/-- The IST time of day. -/
def istTime (t : Instant) : NaiveTime := ⟨((t.secs + istOffset) % 86400).toNat, t.frac⟩

/-- The dates that `chrono` can represent, a day inside either end: years -262143 to 262142. -/
def InRange (t : Instant) : Prop := -8334601142400 ≤ t.secs ∧ t.secs ≤ 8210266790399

instance (t : Instant) : Decidable t.InRange := inferInstanceAs (Decidable (_ ∧ _))

end Instant

/-- `ist_to_utc`. -/
def istToUtc (date : ℤ) (time : NaiveTime) : Instant :=
  ⟨date * 86400 + time.secs - Instant.istOffset, time.frac⟩

/-! ## Schedules -/

/-- `SessionDaySchedule`, and `DaySchedule` of the war-mode controller. -/
structure SessionDaySchedule where
  istDate : ℤ
  startUtc : Instant
  endUtc : Instant
  deriving DecidableEq, Repr

namespace SessionDaySchedule

/-- `SessionDaySchedule::for_date`. -/
def forDate (date : ℤ) (cfg : SessionConfig) : SessionDaySchedule :=
  { istDate := date, startUtc := istToUtc date cfg.startIst, endUtc := istToUtc date cfg.endIst }

/-- `session_id`: the date as `YYYYMMDD` in wrapping `u64` arithmetic. -/
def sessionId (day : SessionDaySchedule) : UInt64 :=
  let date := Date.ofDays day.istDate
  UInt64.ofInt date.year * 10000 + UInt64.ofNat date.month * 100 + UInt64.ofNat date.day

end SessionDaySchedule

/-- `day_for`: the schedule of the IST date of an instant. -/
def dayFor (cfg : SessionConfig) (now : Instant) : SessionDaySchedule :=
  .forDate now.istDate cfg

/-- `in_window` of `reconcile_at`. -/
def InWindow (cfg : SessionConfig) (now : Instant) : Prop :=
  (dayFor cfg now).startUtc ≤ now ∧ now < (dayFor cfg now).endUtc

instance (cfg : SessionConfig) (now : Instant) : Decidable (InWindow cfg now) :=
  inferInstanceAs (Decidable (_ ∧ _))

/-- `next_deadline`. -/
def nextDeadline (cfg : SessionConfig) (now : Instant) : Instant :=
  let today := dayFor cfg now
  if now < today.startUtc then today.startUtc
  else if now < today.endUtc then today.endUtc
  else (SessionDaySchedule.forDate (today.istDate + 1) cfg).startUtc

/-! ## The controllers -/

/-- `SessionState` and `WarModeState`. -/
inductive WindowState where
  | inactive
  | active
  deriving DecidableEq, Repr

/-- `SessionPhase` and `WarModePhase`. -/
inductive Phase where
  | start
  | end
  deriving DecidableEq, Repr

/-- One reconcile and what it meets: the time, the stamp of the event, and the error of the
publisher, if it fails. -/
structure Tick where
  now : Instant
  tsNs : UInt64
  publishError : Option String
  deriving DecidableEq, Repr

/-- `reconcile_at`, which returns the events it has published. The state moves only if the event
is out. -/
def reconcile {ε : Type} (cfg : SessionConfig) (event : Phase → UInt64 → UInt64 → ε)
    (state : WindowState) (tick : Tick) : Except String (List ε) × WindowState :=
  let day := dayFor cfg tick.now
  match state, decide (InWindow cfg tick.now) with
  | .inactive, true =>
    match tick.publishError with
    | some e => (.error e, .inactive)
    | none => (.ok [event .start day.sessionId tick.tsNs], .active)
  | .active, false =>
    match tick.publishError with
    | some e => (.error e, .active)
    | none => (.ok [event .end day.sessionId tick.tsNs], .inactive)
  | .active, true => (.ok [], .active)
  | .inactive, false => (.ok [], .inactive)

/-- `SessionEvent`. -/
structure SessionEvent where
  sessionId : UInt64
  phase : Phase
  tsNs : UInt64
  deriving DecidableEq, Repr

/-- `SessionController::reconcile_at`. -/
def SessionController.reconcileAt (cfg : SessionConfig) (state : WindowState) (tick : Tick) :
    Except String (List SessionEvent) × WindowState :=
  reconcile cfg (fun phase sessionId tsNs => { sessionId, phase, tsNs }) state tick

/-- `WarModeConfig`: its window and the profile it announces. -/
structure WarModeConfig where
  window : SessionConfig
  minConfidence : ExactFloat
  scanMultiplier : ExactFloat

/-- `WarModeEvent`. -/
structure WarModeEvent where
  sessionId : UInt64
  phase : Phase
  minConfidence : ExactFloat
  scanMultiplier : ExactFloat
  tsNs : UInt64

/-- `WarModeController::reconcile_at`. -/
def WarModeController.reconcileAt (cfg : WarModeConfig) (state : WindowState) (tick : Tick) :
    Except String (List WarModeEvent) × WindowState :=
  reconcile cfg.window (fun phase sessionId tsNs =>
    { sessionId, phase, minConfidence := cfg.minConfidence, scanMultiplier := cfg.scanMultiplier,
      tsNs }) state tick

/-! ## Windows and session ids -/

theorem Instant.secs_eq (t : Instant) :
    t.secs = t.istDate * 86400 + t.istTime.secs - istOffset := by
  have hdiv := Int.mul_ediv_add_emod (t.secs + istOffset) 86400
  have hmod := Int.emod_nonneg (t.secs + istOffset) (show (86400 : ℤ) ≠ 0 by norm_num)
  rw [istDate, istTime, Int.toNat_of_nonneg hmod]
  omega

/-- The window of the day in terms of the IST time of day. -/
theorem inWindow_iff (cfg : SessionConfig) (now : Instant) :
    InWindow cfg now ↔ cfg.startIst ≤ now.istTime ∧ now.istTime < cfg.endIst := by
  have hsecs := now.secs_eq
  have hfrac : now.istTime.frac = now.frac := rfl
  simp only [InWindow, dayFor, SessionDaySchedule.forDate, istToUtc, Instant.le_def,
    Instant.lt_def, NaiveTime.le_def, NaiveTime.lt_def, hfrac]
  omega

theorem ofInt_ofNat (n : ℕ) : UInt64.ofInt n = UInt64.ofNat n := by
  apply UInt64.toNat_inj.mp
  rw [UInt64.ofInt, UInt64.toNat_ofNat', UInt64.toNat_ofNat']
  omega

theorem sessionId_eq_ofInt (day : SessionDaySchedule) :
    day.sessionId = UInt64.ofInt ((Date.ofDays day.istDate).year * 10000
      + (Date.ofDays day.istDate).month * 100 + (Date.ofDays day.istDate).day) := by
  rw [UInt64.ofInt_add, UInt64.ofInt_add, UInt64.ofInt_mul, UInt64.ofInt_mul, ofInt_ofNat,
    ofInt_ofNat]
  rfl

theorem ofInt_inj_of_lt {x y : ℤ} (hx : -2 ^ 62 < x ∧ x < 2 ^ 62) (hy : -2 ^ 62 < y ∧ y < 2 ^ 62)
    (h : UInt64.ofInt x = UInt64.ofInt y) : x = y := by
  have hnat := congrArg UInt64.toNat h
  rw [UInt64.ofInt, UInt64.ofInt, UInt64.toNat_ofNat', UInt64.toNat_ofNat'] at hnat
  omega

theorem year_bounds {t : Instant} (h : t.InRange) :
    -300000 ≤ (Date.ofDays t.istDate).year ∧ (Date.ofDays t.istDate).year ≤ 300000 := by
  have hyear := Date.ofDays_year_bounds t.istDate
  rw [Instant.InRange] at h
  simp only [Instant.istDate, Instant.istOffset, Date.epochShift] at hyear ⊢
  omega

/-- Different dates have different session ids. -/
theorem sessionId_inj {cfg : SessionConfig} {a b : Instant} (ha : a.InRange) (hb : b.InRange)
    (h : (dayFor cfg a).sessionId = (dayFor cfg b).sessionId) : a.istDate = b.istDate := by
  have hdates : (dayFor cfg a).istDate = a.istDate ∧ (dayFor cfg b).istDate = b.istDate :=
    ⟨rfl, rfl⟩
  have hyeara := year_bounds ha
  have hyearb := year_bounds hb
  have hfieldsa := Date.ofDays_bounds a.istDate
  have hfieldsb := Date.ofDays_bounds b.istDate
  rw [sessionId_eq_ofInt, sessionId_eq_ofInt, hdates.1, hdates.2] at h
  have hpacked := ofInt_inj_of_lt (by omega) (by omega) h
  apply Date.ofDays_inj
  have hyear : (Date.ofDays a.istDate).year = (Date.ofDays b.istDate).year := by omega
  have hmonth : (Date.ofDays a.istDate).month = (Date.ofDays b.istDate).month := by omega
  have hday : (Date.ofDays a.istDate).day = (Date.ofDays b.istDate).day := by omega
  exact Date.ext hyear hmonth hday

end Hedge.Session
