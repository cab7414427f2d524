import Hedge.Session.Brackets

/-!
# The walk over the transitions

Reference: `hedge-session/src/session_controller.rs`.

`tick_until` reconciles at the start of a stretch of time and then at each deadline before its end.
The deadline after the opening of a day is its closing, and the one after its closing is the opening
of the next day, so that the cursor moves on with every round and meets each transition once
(`tickUntil_visits`).
-/

namespace Hedge.Session

open Hedge.Risk (SessionConfig)

/-- Instants are ordered by their seconds, then by their nanoseconds. -/
instance : LinearOrder Instant where
  le_refl a := Instant.le_def.mpr (.inr ⟨rfl, le_rfl⟩)
  le_trans a b c hab hbc := by
    rw [Instant.le_def] at hab hbc ⊢
    omega
  lt_iff_le_not_ge a b := by
    rw [Instant.lt_def, Instant.le_def, Instant.le_def]
    omega
  le_antisymm a b hab hba := by
    rw [Instant.le_def] at hab hba
    have hsecs : a.secs = b.secs := by omega
    have hfrac : a.frac = b.frac := by omega
    exact congrArg₂ Instant.mk hsecs hfrac
  le_total a b := by
    rw [Instant.le_def, Instant.le_def]
    omega
  toDecidableLE := fun a b => inferInstanceAs (Decidable (_ ∨ _))

/-! ## The loop -/

/-- What the reconciles of a walk meet, by their number: the stamp of the event and the error of the
publisher, if it fails. -/
structure WalkEnv where
  tsNs : ℕ → UInt64
  publishError : ℕ → Option String

/-- The `k`-th reconcile. -/
def WalkEnv.tick (env : WalkEnv) (k : ℕ) (now : Instant) : Tick :=
  ⟨now, env.tsNs k, env.publishError k⟩

/-- What a walk returns and leaves behind: its result, the events published and the instants they
were published for, and the state. -/
structure Walk where
  result : Except String Unit
  emitted : List (Instant × SessionEvent)
  state : WindowState

/-- `reconcile_at(now).await?` and what follows it. -/
def reconcileThen (cfg : SessionConfig) (env : WalkEnv) (k : ℕ) (now : Instant)
    (state : WindowState) (rest : WindowState → Option Walk) : Option Walk :=
  match SessionController.reconcileAt cfg state (env.tick k now) with
  | (.error e, state) => some ⟨.error e, [], state⟩
  | (.ok events, state) => (rest state).map fun walk =>
    { walk with emitted := events.map (fun event => (now, event)) ++ walk.emitted }

/-- The loop of `tick_until`, for at most `fuel` rounds; `none` when they do not suffice. -/
def walkLoop (cfg : SessionConfig) (env : WalkEnv) (limit : Instant) :
    ℕ → ℕ → Instant → WindowState → Option Walk
  | 0, _, _, _ => none
  | fuel + 1, k, cursor, state =>
    let next := nextDeadline cfg cursor
    if limit ≤ next then some ⟨.ok (), [], state⟩
    else reconcileThen cfg env k next state (walkLoop cfg env limit fuel (k + 1) next)

/-- `SessionController::tick_until`. -/
def SessionController.tickUntil (cfg : SessionConfig) (env : WalkEnv) (fuel : ℕ)
    (state : WindowState) (first limit : Instant) : Option Walk :=
  reconcileThen cfg env 0 first state (walkLoop cfg env limit fuel 1 first)

/-- An event as it is announced: its instant, its phase and its session. -/
abbrev Announcement := Instant × Phase × UInt64

/-- What a walk has announced, in order. -/
def Walk.announced (walk : Walk) : List Announcement :=
  walk.emitted.map fun e => (e.1, e.2.phase, e.2.sessionId)

/-- With enough fuel the walk returns `Ok` and has announced these events. -/
def Ends (walk : ℕ → Option Walk) (events : List Announcement) : Prop :=
  ∃ enough, ∀ fuel, enough ≤ fuel →
    ∃ out, walk fuel = some out ∧ out.result = .ok () ∧ out.announced = events

/-! ## Days -/

/-- The window is not empty, and its times are times of day. -/
structure Daily (cfg : SessionConfig) : Prop where
  nonempty : cfg.startIst < cfg.endIst
  within : cfg.endIst.secs < 86400

/-- The start of the window of a day. -/
def opening (cfg : SessionConfig) (date : ℤ) : Instant := istToUtc date cfg.startIst

/-- The end of the window of a day. -/
def closing (cfg : SessionConfig) (date : ℤ) : Instant := istToUtc date cfg.endIst

/-- The session of a day. -/
def sessionOf (cfg : SessionConfig) (date : ℤ) : UInt64 :=
  (SessionDaySchedule.forDate date cfg).sessionId

/-- The window of the day has an instant of `[first, limit)`. -/
def Meets (cfg : SessionConfig) (first limit : Instant) (date : ℤ) : Prop :=
  ∃ t, (opening cfg date ≤ t ∧ t < closing cfg date) ∧ first ≤ t ∧ t < limit

/-- The end of a day, if it comes before the limit. -/
def closingOf (cfg : SessionConfig) (limit : Instant) (date : ℤ) : List Announcement :=
  if closing cfg date < limit then [(closing cfg date, .end, sessionOf cfg date)] else []

/-- What a day is announced with: a `Start` when its window opens, or at the beginning if it is open
already, and an `End` when it closes. -/
def announcementsOf (cfg : SessionConfig) (first limit : Instant) (date : ℤ) : List Announcement :=
  (max first (opening cfg date), .start, sessionOf cfg date) :: closingOf cfg limit date

/-- `n` days from `date` on. -/
def daysFrom (date : ℤ) : ℕ → List ℤ
  | 0 => []
  | n + 1 => date :: daysFrom (date + 1) n

theorem mem_daysFrom {date d : ℤ} {n : ℕ} : d ∈ daysFrom date n ↔ date ≤ d ∧ d < date + n := by
  induction n generalizing date with
  | zero =>
    simp only [daysFrom, List.not_mem_nil, false_iff]
    omega
  | succ n ih =>
    rw [daysFrom, List.mem_cons, ih]
    omega

theorem pairwise_daysFrom (date : ℤ) (n : ℕ) : (daysFrom date n).Pairwise (· < ·) := by
  induction n generalizing date with
  | zero => exact .nil
  | succ n ih =>
    refine .cons (fun d hd => ?_) (ih (date + 1))
    rw [mem_daysFrom] at hd
    omega

/-! ## Deadlines -/

section Deadlines

variable {cfg : SessionConfig}

theorem Daily.start_within (h : Daily cfg) : cfg.startIst.secs < 86400 := by
  have hlt := h.nonempty
  have hwithin := h.within
  rw [Hedge.Risk.NaiveTime.lt_def] at hlt
  omega

/-- Only finitely many windows open before the limit. -/
theorem exists_opening_lt_iff (cfg : SessionConfig) (limit : Instant) (date : ℤ) :
    ∃ n : ℕ, ∀ d, date ≤ d → (opening cfg d < limit ↔ d < date + n) := by
  obtain ⟨bound, hbound⟩ : ∃ bound : ℤ, ∀ d, opening cfg d < limit ↔ d < bound := by
    simp only [opening, istToUtc, Instant.lt_def]
    by_cases hfrac : cfg.startIst.frac < limit.frac
    · exact ⟨(limit.secs + Instant.istOffset - cfg.startIst.secs) / 86400 + 1, fun d => by omega⟩
    · exact ⟨(limit.secs + Instant.istOffset - cfg.startIst.secs - 1) / 86400 + 1,
        fun d => by omega⟩
  refine ⟨(bound - date).toNat, fun d hd => ?_⟩
  rw [hbound]
  omega

theorem opening_lt_closing (h : Daily cfg) (d : ℤ) : opening cfg d < closing cfg d := by
  have hlt := h.nonempty
  rw [Hedge.Risk.NaiveTime.lt_def] at hlt
  simp only [opening, closing, istToUtc, Instant.lt_def]
  omega

/-- The windows lie one after the other. -/
theorem closing_lt_opening (h : Daily cfg) {d d' : ℤ} (hlt : d < d') :
    closing cfg d < opening cfg d' := by
  have hwithin := h.within
  simp only [opening, closing, istToUtc, Instant.lt_def]
  omega

theorem istDate_opening (h : Daily cfg) (d : ℤ) : (opening cfg d).istDate = d :=
  istDate_istToUtc d h.start_within

theorem istDate_closing (h : Daily cfg) (d : ℤ) : (closing cfg d).istDate = d :=
  istDate_istToUtc d h.within

/-- An instant lies between the midnights of its date, so before every later window. -/
theorem lt_opening_of_istDate_lt {t : Instant} {d : ℤ} (h : t.istDate < d) : t < opening cfg d := by
  simp only [opening, istToUtc, Instant.lt_def]
  unfold Instant.istDate at h
  omega

/-- And after every earlier one. -/
theorem closing_lt_of_lt_istDate (h : Daily cfg) {t : Instant} {d : ℤ} (hlt : d < t.istDate) :
    closing cfg d < t := by
  have hwithin := h.within
  simp only [closing, istToUtc, Instant.lt_def]
  unfold Instant.istDate at hlt
  omega

theorem nextDeadline_of_lt {t : Instant} (h : t < opening cfg t.istDate) :
    nextDeadline cfg t = opening cfg t.istDate := if_pos h

theorem nextDeadline_of_inWindow {t : Instant} (h : InWindow cfg t) :
    nextDeadline cfg t = closing cfg t.istDate := by
  obtain ⟨hopen, hclose⟩ := h
  rw [nextDeadline, if_neg (not_lt.mpr hopen), if_pos hclose]
  rfl

theorem nextDeadline_of_ge (h : Daily cfg) {t : Instant} (hclosed : ¬ t < closing cfg t.istDate) :
    nextDeadline cfg t = opening cfg (t.istDate + 1) := by
  have hnot : ¬ t < (dayFor cfg t).startUtc :=
    fun hlt => hclosed (lt_trans hlt (opening_lt_closing h t.istDate))
  rw [nextDeadline, if_neg hnot]
  exact if_neg hclosed

theorem inWindow_opening (h : Daily cfg) (d : ℤ) : InWindow cfg (opening cfg d) := by
  have hlt := opening_lt_closing h d
  rw [InWindow, dayFor, istDate_opening h]
  exact ⟨le_refl (opening cfg d), hlt⟩

theorem not_inWindow_closing (h : Daily cfg) (d : ℤ) : ¬ InWindow cfg (closing cfg d) := by
  rw [InWindow, dayFor, istDate_closing h]
  rintro ⟨-, hlt⟩
  exact lt_irrefl (closing cfg d) hlt

/-- The deadline after an opening is the closing of the day. -/
theorem nextDeadline_opening (h : Daily cfg) (d : ℤ) :
    nextDeadline cfg (opening cfg d) = closing cfg d := by
  rw [nextDeadline_of_inWindow (inWindow_opening h d), istDate_opening h]

/-- The deadline after a closing is the opening of the next day. -/
theorem nextDeadline_closing (h : Daily cfg) (d : ℤ) :
    nextDeadline cfg (closing cfg d) = opening cfg (d + 1) := by
  have hclosed : ¬ closing cfg d < closing cfg (closing cfg d).istDate := by
    rw [istDate_closing h]
    exact lt_irrefl _
  rw [nextDeadline_of_ge h hclosed, istDate_closing h]

theorem idAt_opening (h : Daily cfg) (d : ℤ) : idAt cfg (opening cfg d) = sessionOf cfg d := by
  rw [idAt, dayFor, istDate_opening h]
  rfl

theorem idAt_closing (h : Daily cfg) (d : ℤ) : idAt cfg (closing cfg d) = sessionOf cfg d := by
  rw [idAt, dayFor, istDate_closing h]
  rfl

end Deadlines

/-! ## Rounds -/

section Rounds

variable {cfg : SessionConfig} {env : WalkEnv} {limit cursor : Instant} {k : ℕ}
  {state : WindowState} {events : List Announcement}

/-- A reconcile whose publisher succeeds announces the edge and goes on from the state it leaves. -/
theorem ends_reconcileThen (state : WindowState) (hok : env.publishError k = none) {now : Instant}
    {rest : ℕ → WindowState → Option Walk}
    (h : Ends (fun fuel => rest fuel (stateAt cfg now)) events) :
    Ends (fun fuel => reconcileThen cfg env k now state (rest fuel))
      ((edge (idAt cfg now) state (stateAt cfg now)).map (fun e => (now, e)) ++ events) := by
  obtain ⟨enough, hwalk⟩ := h
  refine ⟨enough, fun fuel hfuel => ?_⟩
  obtain ⟨out, hout, hresult, hannounced⟩ := hwalk fuel hfuel
  rw [← hannounced]
  by_cases hin : InWindow cfg now
  · rw [stateAt, if_pos hin] at hout ⊢
    cases state <;> simp [reconcileThen, SessionController.reconcileAt, reconcile, WalkEnv.tick,
      Walk.announced, edge, idAt, hok, hin, hout, hresult]
  · rw [stateAt, if_neg hin] at hout ⊢
    cases state <;> simp [reconcileThen, SessionController.reconcileAt, reconcile, WalkEnv.tick,
      Walk.announced, edge, idAt, hok, hin, hout, hresult]

/-- The loop returns at the first deadline that is not before the limit. -/
theorem ends_of_limit_le (h : ¬ nextDeadline cfg cursor < limit) :
    Ends (fun fuel => walkLoop cfg env limit fuel k cursor state) [] := by
  have hle : limit ≤ nextDeadline cfg cursor := not_lt.mp h
  refine ⟨1, fun fuel hfuel => ?_⟩
  obtain ⟨fuel, rfl⟩ := Nat.exists_eq_add_of_le' hfuel
  exact ⟨⟨.ok (), [], state⟩, if_pos hle, rfl, rfl⟩

/-- Otherwise it reconciles there and takes another round. -/
theorem ends_of_lt_limit (state : WindowState) (h : nextDeadline cfg cursor < limit)
    (hok : env.publishError k = none)
    (hrest : Ends (fun fuel => walkLoop cfg env limit fuel (k + 1) (nextDeadline cfg cursor)
      (stateAt cfg (nextDeadline cfg cursor))) events) :
    Ends (fun fuel => walkLoop cfg env limit fuel k cursor state)
      ((edge (idAt cfg (nextDeadline cfg cursor)) state (stateAt cfg (nextDeadline cfg cursor))).map
        (fun e => (nextDeadline cfg cursor, e)) ++ events) := by
  have hnot : ¬ limit ≤ nextDeadline cfg cursor := not_le.mpr h
  obtain ⟨enough, hwalk⟩ := ends_reconcileThen state hok hrest
  refine ⟨enough + 1, fun fuel hfuel => ?_⟩
  obtain ⟨fuel, rfl⟩ := Nat.exists_eq_add_of_le' (Nat.le_of_add_left_le hfuel)
  obtain ⟨out, hout, hends⟩ := hwalk fuel (by omega)
  exact ⟨out, (if_neg hnot).trans hout, hends⟩

end Rounds

/-! ## The days of a walk -/

section Days

variable {cfg : SessionConfig} {env : WalkEnv} {limit : Instant}

/-- From inside the window of a day, when `n` more days open before the limit and the walk from an
inactive cursor before them is known. -/
theorem ends_active (h : Daily cfg) (hok : ∀ k, env.publishError k = none) {n : ℕ} {date : ℤ}
    (hopens : ∀ d, date + 1 ≤ d → (opening cfg d < limit ↔ d < date + 1 + n))
    {events : List Announcement}
    (hrest : ∀ k, Ends (fun fuel => walkLoop cfg env limit fuel k (closing cfg date) .inactive) events)
    (hnone : n = 0 → events = []) (k : ℕ) {cursor : Instant}
    (hnext : nextDeadline cfg cursor = closing cfg date) :
    Ends (fun fuel => walkLoop cfg env limit fuel k cursor .active)
      (closingOf cfg limit date ++ events) := by
  by_cases hclose : closing cfg date < limit
  · have hstate : stateAt cfg (closing cfg date) = .inactive := if_neg (not_inWindow_closing h date)
    have hround := ends_of_lt_limit .active (by rwa [hnext]) (hok k)
      (by rw [hnext, hstate]; exact hrest (k + 1))
    rw [hnext, hstate, idAt_closing h] at hround
    rw [closingOf, if_pos hclose]
    exact hround
  · -- a limit before the closing comes before every later opening too
    have hzero : n = 0 := by
      by_contra hne
      have hopen := (hopens (date + 1) le_rfl).mpr (by omega)
      have hlater := closing_lt_opening h (show date < date + 1 by omega)
      exact hclose (hlater.trans hopen)
    rw [closingOf, if_neg hclose, hnone hzero]
    exact ends_of_limit_le (by rwa [hnext])

/-- From an inactive cursor whose next deadline opens a day, with `n` days opening before the limit:
each of them is announced. -/
theorem ends_inactive (h : Daily cfg) (hok : ∀ k, env.publishError k = none) (n : ℕ) {date : ℤ}
    (hopens : ∀ d, date ≤ d → (opening cfg d < limit ↔ d < date + n)) (k : ℕ) {cursor : Instant}
    (hnext : nextDeadline cfg cursor = opening cfg date) :
    Ends (fun fuel => walkLoop cfg env limit fuel k cursor .inactive)
      ((daysFrom date n).flatMap fun d =>
        (opening cfg d, .start, sessionOf cfg d) :: closingOf cfg limit d) := by
  induction n generalizing date k cursor with
  | zero =>
    have hlimit := hopens date le_rfl
    exact ends_of_limit_le (by rw [hnext, hlimit]; omega)
  | succ n ih =>
    have hopen : opening cfg date < limit := (hopens date le_rfl).mpr (by omega)
    have hlater : ∀ d, date + 1 ≤ d → (opening cfg d < limit ↔ d < date + 1 + n) := by
      intro d hd
      rw [hopens d (by omega)]
      omega
    have hstate : stateAt cfg (opening cfg date) = .active := if_pos (inWindow_opening h date)
    have hactive := ends_active h hok hlater
      (fun k => ih hlater k (nextDeadline_closing h date)) (by rintro rfl; rfl) (k + 1)
      (nextDeadline_opening h date)
    have hround := ends_of_lt_limit .inactive (by rwa [hnext]) (hok k)
      (by rw [hnext, hstate]; exact hactive)
    -- the round announces the opening and leaves the walk inside the window
    rw [hnext, hstate, idAt_opening h] at hround
    exact hround

/-- A window meets `[first, limit)` if it opens before its end and closes after its beginning. -/
theorem meets_iff (h : Daily cfg) {first : Instant} (hlt : first < limit) {d : ℤ} :
    Meets cfg first limit d ↔ opening cfg d < limit ∧ first < closing cfg d := by
  constructor
  · rintro ⟨t, ⟨hopen, hclose⟩, hfirst, hlimit⟩
    exact ⟨lt_of_le_of_lt hopen hlimit, lt_of_le_of_lt hfirst hclose⟩
  · rintro ⟨hopen, hclose⟩
    exact ⟨max first (opening cfg d), ⟨le_max_right _ _, max_lt hclose (opening_lt_closing h d)⟩,
      le_max_left _ _, max_lt hlt hopen⟩

/-- The days from `date` on, all of which open after `first`, that open before the limit. -/
theorem mem_daysFrom_iff_meets (h : Daily cfg) {first : Instant} (hlt : first < limit) {n : ℕ}
    {date : ℤ} (hopens : ∀ d, date ≤ d → (opening cfg d < limit ↔ d < date + n))
    (hfuture : ∀ d, date ≤ d → first < opening cfg d) {d : ℤ} :
    d ∈ daysFrom date n ↔ date ≤ d ∧ Meets cfg first limit d := by
  rw [mem_daysFrom, meets_iff h hlt]
  refine and_congr_right fun hd => ?_
  rw [hopens d hd]
  exact (and_iff_left ((hfuture d hd).trans (opening_lt_closing h d))).symm

theorem flatMap_announcementsOf {first : Instant} {n : ℕ} {date : ℤ}
    (hfuture : ∀ d, date ≤ d → first < opening cfg d) :
    (daysFrom date n).flatMap (announcementsOf cfg first limit) =
      (daysFrom date n).flatMap fun d =>
        (opening cfg d, .start, sessionOf cfg d) :: closingOf cfg limit d := by
  refine List.flatMap_congr fun d hd => ?_
  rw [announcementsOf, max_eq_right (hfuture d (mem_daysFrom.mp hd).1).le]

/-- The first window that opens after an instant outside the windows is the next deadline, and every
earlier window is closed. -/
theorem exists_next_opening (h : Daily cfg) {first : Instant} (hout : ¬ InWindow cfg first) :
    ∃ date, nextDeadline cfg first = opening cfg date ∧ (∀ d, date ≤ d → first < opening cfg d) ∧
      ∀ d, d < date → ¬ first < closing cfg d := by
  by_cases hbefore : first < opening cfg first.istDate
  · refine ⟨first.istDate, nextDeadline_of_lt hbefore, fun d hd => ?_, fun d hd => ?_⟩
    · rcases eq_or_lt_of_le hd with rfl | hlater
      · exact hbefore
      · exact lt_opening_of_istDate_lt hlater
    · exact not_lt.mpr (closing_lt_of_lt_istDate h hd).le
  · have hclosed : ¬ first < closing cfg first.istDate :=
      fun hclose => hout ⟨not_lt.mp hbefore, hclose⟩
    refine ⟨first.istDate + 1, nextDeadline_of_ge h hclosed,
      fun d hd => lt_opening_of_istDate_lt hd, fun d hd => ?_⟩
    rcases eq_or_lt_of_le (Int.le_of_lt_add_one hd) with rfl | hearlier
    · exact hclosed
    · exact not_lt.mpr (closing_lt_of_lt_istDate h hearlier).le

/-- A walk that begins inside the window of a day visits that day and those that open before the
limit. -/
theorem exists_days_of_inWindow (h : Daily cfg) (hok : ∀ k, env.publishError k = none)
    {first : Instant} (hlt : first < limit) (hin : InWindow cfg first) :
    ∃ days : List ℤ, days.Pairwise (· < ·) ∧ (∀ d, d ∈ days ↔ Meets cfg first limit d) ∧
      Ends (fun fuel => SessionController.tickUntil cfg env fuel .inactive first limit)
        (days.flatMap (announcementsOf cfg first limit)) := by
  obtain ⟨n, hopens⟩ := exists_opening_lt_iff cfg limit (first.istDate + 1)
  have hfuture : ∀ d, first.istDate + 1 ≤ d → first < opening cfg d :=
    fun d hd => lt_opening_of_istDate_lt hd
  refine ⟨first.istDate :: daysFrom (first.istDate + 1) n, ?_, fun d => ?_, ?_⟩
  · refine .cons (fun d hd => ?_) (pairwise_daysFrom _ n)
    have hle := (mem_daysFrom.mp hd).1
    omega
  · rw [List.mem_cons, mem_daysFrom_iff_meets h hlt hopens hfuture]
    have htoday : Meets cfg first limit first.istDate :=
      (meets_iff h hlt).mpr ⟨lt_of_le_of_lt hin.1 hlt, hin.2⟩
    constructor
    · rintro (rfl | ⟨-, hmeets⟩)
      · exact htoday
      · exact hmeets
    · intro hmeets
      rcases lt_trichotomy d first.istDate with hpast | rfl | hlater
      · have hclosed := closing_lt_of_lt_istDate h hpast
        exact absurd ((meets_iff h hlt).mp hmeets).2 (not_lt.mpr hclosed.le)
      · exact .inl rfl
      · exact .inr ⟨hlater, hmeets⟩
  · have hstate : stateAt cfg first = .active := if_pos hin
    have hopen : opening cfg first.istDate ≤ first := hin.1
    -- the first reconcile announces the open window, and the loop goes on from inside it
    have hloop := ends_active h hok hopens
      (fun k => ends_inactive h hok n hopens k (nextDeadline_closing h first.istDate))
      (by rintro rfl; rfl) 1 (nextDeadline_of_inWindow hin)
    rw [← hstate] at hloop
    have hwalk := ends_reconcileThen .inactive (hok 0) hloop
    rw [hstate] at hwalk
    rw [List.flatMap_cons, flatMap_announcementsOf hfuture, announcementsOf, max_eq_left hopen]
    exact hwalk

/-- A walk that begins outside the windows visits the days that open before the limit, from the next
deadline on. -/
theorem exists_days_of_not_inWindow (h : Daily cfg) (hok : ∀ k, env.publishError k = none)
    {first : Instant} (hlt : first < limit) (hout : ¬ InWindow cfg first) :
    ∃ days : List ℤ, days.Pairwise (· < ·) ∧ (∀ d, d ∈ days ↔ Meets cfg first limit d) ∧
      Ends (fun fuel => SessionController.tickUntil cfg env fuel .inactive first limit)
        (days.flatMap (announcementsOf cfg first limit)) := by
  obtain ⟨date, hnext, hfuture, hpast⟩ := exists_next_opening h hout
  obtain ⟨n, hopens⟩ := exists_opening_lt_iff cfg limit date
  refine ⟨daysFrom date n, pairwise_daysFrom date n, fun d => ?_, ?_⟩
  · rw [mem_daysFrom_iff_meets h hlt hopens hfuture]
    refine and_iff_right_of_imp fun hmeets => ?_
    by_contra hearlier
    exact hpast d (not_le.mp hearlier) ((meets_iff h hlt).mp hmeets).2
  · have hstate : stateAt cfg first = .inactive := if_neg hout
    -- the first reconcile announces nothing
    have hloop := ends_inactive h hok n hopens 1 hnext
    rw [← hstate] at hloop
    have hwalk := ends_reconcileThen .inactive (hok 0) hloop
    rw [hstate] at hwalk
    rw [flatMap_announcementsOf hfuture]
    exact hwalk

/-! ## Order -/

/-- The announcements of a day lie between the beginning of the walk and the end of its window. -/
theorem mem_announcementsOf {first : Instant} {d : ℤ} (h : Daily cfg)
    (hmeets : first < closing cfg d) {e : Announcement} (he : e ∈ announcementsOf cfg first limit d) :
    opening cfg d ≤ e.1 ∧ e.1 ≤ closing cfg d := by
  have hwindow := opening_lt_closing h d
  rcases List.mem_cons.mp he with rfl | he
  · exact ⟨le_max_right _ _, (max_lt hmeets hwindow).le⟩
  · rw [closingOf] at he
    split_ifs at he
    · obtain rfl := List.mem_singleton.mp he
      exact ⟨hwindow.le, le_refl _⟩
    · cases he

theorem pairwise_announcementsOf {first : Instant} {d : ℤ} (h : Daily cfg)
    (hmeets : first < closing cfg d) :
    (announcementsOf cfg first limit d).Pairwise fun a b => a.1 < b.1 := by
  refine .cons (fun e he => ?_) ?_
  · rw [closingOf] at he
    split_ifs at he
    · obtain rfl := List.mem_singleton.mp he
      exact max_lt hmeets (opening_lt_closing h d)
    · cases he
  · rw [closingOf]
    split_ifs
    · exact List.pairwise_singleton _ _
    · exact .nil

/-- The announcements of days in order are in order. -/
theorem pairwise_flatMap_announcementsOf {first : Instant} (h : Daily cfg) {days : List ℤ}
    (hdays : days.Pairwise (· < ·)) (hmeets : ∀ d ∈ days, first < closing cfg d) :
    (days.flatMap (announcementsOf cfg first limit)).Pairwise fun a b => a.1 < b.1 := by
  refine List.pairwise_flatMap.mpr ⟨fun d hd => pairwise_announcementsOf h (hmeets d hd), ?_⟩
  refine hdays.imp_of_mem fun {d d'} hd hd' hlt e he e' he' => ?_
  have hlast := (mem_announcementsOf h (hmeets d hd) he).2
  have hfirst := (mem_announcementsOf h (hmeets d' hd') he').1
  exact lt_of_le_of_lt hlast (lt_of_lt_of_le (closing_lt_opening h hlt) hfirst)

end Days

/-- For every window with its start before its end, every stretch `[first, limit)` and a publisher
that succeeds, the walk of an inactive controller ends: it announces in chronological order, for
exactly the days whose window meets the stretch, one `Start` and, if the window closes before the
limit, one `End` of the same session, and nothing else. -/
theorem tickUntil_visits (cfg : SessionConfig) (env : WalkEnv) (first limit : Instant)
    (h : Daily cfg) (hlt : first < limit) (hok : ∀ k, env.publishError k = none) :
    ∃ days : List ℤ, days.Pairwise (· < ·) ∧ (∀ d, d ∈ days ↔ Meets cfg first limit d) ∧
      (days.flatMap (announcementsOf cfg first limit)).Pairwise (fun a b => a.1 < b.1) ∧
      Ends (fun fuel => SessionController.tickUntil cfg env fuel .inactive first limit)
        (days.flatMap (announcementsOf cfg first limit)) := by
  obtain ⟨days, hsorted, hmem, hends⟩ : ∃ days : List ℤ, days.Pairwise (· < ·) ∧
      (∀ d, d ∈ days ↔ Meets cfg first limit d) ∧
      Ends (fun fuel => SessionController.tickUntil cfg env fuel .inactive first limit)
        (days.flatMap (announcementsOf cfg first limit)) := by
    by_cases hin : InWindow cfg first
    · exact exists_days_of_inWindow h hok hlt hin
    · exact exists_days_of_not_inWindow h hok hlt hin
  refine ⟨days, hsorted, hmem, pairwise_flatMap_announcementsOf h hsorted fun d hd => ?_, hends⟩
  exact ((meets_iff h hlt).mp ((hmem d).mp hd)).2

/-- Two days from 10:00 on, with the default window. -/
theorem tickUntil_visits_two_days :
    let cfg := Hedge.Risk.Defaults.session
    let env : WalkEnv := ⟨fun k => UInt64.ofNat k, fun _ => none⟩
    let first := istToUtc 20423 (.fromHms 10 0 0)
    let limit := istToUtc 20424 (.fromHms 12 0 0)
    ∃ days : List ℤ, days.Pairwise (· < ·) ∧ (∀ d, d ∈ days ↔ Meets cfg first limit d) ∧
      (days.flatMap (announcementsOf cfg first limit)).Pairwise (fun a b => a.1 < b.1) ∧
      Ends (fun fuel => SessionController.tickUntil cfg env fuel .inactive first limit)
        (days.flatMap (announcementsOf cfg first limit)) :=
  tickUntil_visits _ _ _ _ ⟨by decide, by decide⟩ (by decide) (fun _ => rfl)

end Hedge.Session
