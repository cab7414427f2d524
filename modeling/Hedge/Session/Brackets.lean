import Mathlib.Data.List.Chain
import Hedge.Common.Run
import Hedge.Session.Controller

/-!
# Bracketing of session events

Reference: `hedge-session/src/session_controller.rs` and `hedge-session/src/controller.rs`.

A controller remembers only whether it is active. The id of an event is the date of the reconcile
that publishes it, so that a `Start` and its `End` agree as long as the reconcile that follows one
inside a window falls on the same date. A later one closes the session under another id, or finds
itself in the next window and announces nothing at all.
-/

namespace Hedge.Session

open Hedge.Common
open Hedge.Risk (SessionConfig)

/-! ## What a run announces -/

/-- The events that a reconcile has published. -/
def published {ε : Type} : Except String (List ε) → List ε
  | .ok events => events
  | .error _ => []

/-- The events of a run of reconciles from a state. -/
def runEvents {ε : Type} (step : WindowState → Tick → Except String (List ε) × WindowState)
    (state : WindowState) (ticks : List Tick) : List ε :=
  runCollect step (fun s tick => published (step s tick).1) state ticks

/-- The phases alternate from `Start` on, and each `End` has the id of the `Start` before it; the
first argument is the id of the session that is open. -/
def Bracketed : Option UInt64 → List (Phase × UInt64) → Prop
  | _, [] => True
  | none, (phase, id) :: events => phase = .start ∧ Bracketed (some id) events
  | some openId, (phase, id) :: events => phase = .end ∧ id = openId ∧ Bracketed none events

instance decidableBracketed : (openId : Option UInt64) → (events : List (Phase × UInt64)) →
    Decidable (Bracketed openId events)
  | none, [] => .isTrue trivial
  | some _, [] => .isTrue trivial
  | none, (_, id) :: events =>
    have := decidableBracketed (some id) events
    inferInstanceAs (Decidable (_ ∧ _))
  | some _, (_, _) :: events =>
    have := decidableBracketed none events
    inferInstanceAs (Decidable (_ ∧ _ ∧ _))

/-- The id under which an instant is announced. -/
def idAt (cfg : SessionConfig) (now : Instant) : UInt64 := (dayFor cfg now).sessionId

/-- The events of a run are bracketed, and between two reconciles in the windows of different days
there are an `End` of the first day and a `Start` of the second. -/
def WellBracketed {ε : Type} (cfg : SessionConfig)
    (step : WindowState → Tick → Except String (List ε) × WindowState) (view : ε → Phase × UInt64)
    (ticks : List Tick) : Prop :=
  Bracketed none ((runEvents step .inactive ticks).map view) ∧
    ∀ pre a mid b post, ticks = pre ++ a :: (mid ++ b :: post) →
      InWindow cfg a.now → InWindow cfg b.now → a.now.istDate ≠ b.now.istDate →
      [(Phase.end, idAt cfg a.now), (Phase.start, idAt cfg b.now)].Sublist
        ((runEvents step (runState step .inactive (pre ++ [a])) (mid ++ [b])).map view)

/-- A reconcile inside a window is followed by one on the same date. -/
def SameDate (cfg : SessionConfig) (a b : Tick) : Prop :=
  InWindow cfg a.now → b.now.istDate = a.now.istDate

/-! ## Edges of the window -/

/-- The state that a successful reconcile leaves behind. -/
def stateAt (cfg : SessionConfig) (now : Instant) : WindowState :=
  if InWindow cfg now then .active else .inactive

/-- The announcement of a change of state. -/
def edge (id : UInt64) : WindowState → WindowState → List (Phase × UInt64)
  | .inactive, .active => [(.start, id)]
  | .active, .inactive => [(.end, id)]
  | .active, .active => []
  | .inactive, .inactive => []

/-- The announcements of a run in which every event is published. -/
def edges (cfg : SessionConfig) : WindowState → List Tick → List (Phase × UInt64)
  | _, [] => []
  | state, tick :: ticks =>
    edge (idAt cfg tick.now) state (stateAt cfg tick.now) ++ edges cfg (stateAt cfg tick.now) ticks

section Edges

variable {cfg : SessionConfig} {tick : Tick}

@[simp] theorem edges_nil (state : WindowState) : edges cfg state [] = [] := rfl

theorem stateAt_of_inWindow (h : InWindow cfg tick.now) : stateAt cfg tick.now = .active := if_pos h

theorem stateAt_of_not_inWindow (h : ¬ InWindow cfg tick.now) : stateAt cfg tick.now = .inactive :=
  if_neg h

theorem edges_start (h : InWindow cfg tick.now) (ticks : List Tick) :
    edges cfg .inactive (tick :: ticks)
      = (.start, idAt cfg tick.now) :: edges cfg .active ticks := by
  rw [edges, stateAt_of_inWindow h]
  rfl

theorem edges_stay (h : InWindow cfg tick.now) (ticks : List Tick) :
    edges cfg .active (tick :: ticks) = edges cfg .active ticks := by
  rw [edges, stateAt_of_inWindow h]
  rfl

theorem edges_end (h : ¬ InWindow cfg tick.now) (ticks : List Tick) :
    edges cfg .active (tick :: ticks)
      = (.end, idAt cfg tick.now) :: edges cfg .inactive ticks := by
  rw [edges, stateAt_of_not_inWindow h]
  rfl

theorem edges_idle (h : ¬ InWindow cfg tick.now) (ticks : List Tick) :
    edges cfg .inactive (tick :: ticks) = edges cfg .inactive ticks := by
  rw [edges, stateAt_of_not_inWindow h]
  rfl

end Edges

/-! ## The controllers announce the edges -/

section Controllers

variable {ε : Type} {cfg : SessionConfig} {event : Phase → UInt64 → UInt64 → ε}
  {view : ε → Phase × UInt64}

theorem reconcile_state {tick : Tick} (hok : tick.publishError = none) (state : WindowState) :
    (reconcile cfg event state tick).2 = stateAt cfg tick.now := by
  by_cases h : InWindow cfg tick.now
  · cases state <;> simp [reconcile, stateAt, h, hok]
  · cases state <;> simp [reconcile, stateAt, h, hok]

theorem reconcile_published (hview : ∀ phase id tsNs, view (event phase id tsNs) = (phase, id))
    {tick : Tick} (hok : tick.publishError = none) (state : WindowState) :
    (published (reconcile cfg event state tick).1).map view
      = edge (idAt cfg tick.now) state (stateAt cfg tick.now) := by
  by_cases h : InWindow cfg tick.now
  · cases state <;> simp [reconcile, stateAt, published, edge, idAt, h, hok, hview]
  · cases state <;> simp [reconcile, stateAt, published, edge, idAt, h, hok, hview]

theorem runEvents_eq_edges (hview : ∀ phase id tsNs, view (event phase id tsNs) = (phase, id))
    {ticks : List Tick} (hok : ∀ tick ∈ ticks, tick.publishError = none) (state : WindowState) :
    (runEvents (reconcile cfg event) state ticks).map view = edges cfg state ticks := by
  induction ticks generalizing state with
  | nil => rfl
  | cons tick ticks ih =>
    have hhead := hok tick (by simp)
    have htail := ih (fun t ht => hok t (by simp [ht])) (stateAt cfg tick.now)
    rw [runEvents] at htail
    rw [runEvents, runCollect_cons, List.map_append, reconcile_published hview hhead,
      reconcile_state hhead, htail, edges]

theorem runState_append_singleton {pre : List Tick} {a : Tick} (hok : a.publishError = none)
    (ha : InWindow cfg a.now) (state : WindowState) :
    runState (reconcile cfg event) state (pre ++ [a]) = .active := by
  rw [runState_append, runState_cons, runState_nil, reconcile_state hok, stateAt_of_inWindow ha]

end Controllers

/-! ## Runs that stay on the date -/

section Runs

variable {cfg : SessionConfig}

/-- Two reconciles in the windows of different days are separated; the state after the first is
active. -/
def Separated (cfg : SessionConfig) (ticks : List Tick) : Prop :=
  ∀ pre a mid b post, ticks = pre ++ a :: (mid ++ b :: post) →
    InWindow cfg a.now → InWindow cfg b.now → a.now.istDate ≠ b.now.istDate →
    [(Phase.end, idAt cfg a.now), (Phase.start, idAt cfg b.now)].Sublist
      (edges cfg .active (mid ++ [b]))

theorem Separated.tail {a : Tick} {ticks : List Tick} (h : Separated cfg (a :: ticks)) :
    Separated cfg ticks := by
  intro pre b mid c post hsplit
  exact h (a :: pre) b mid c post (by rw [hsplit]; rfl)

theorem idAt_congr {a b : Instant} (h : a.istDate = b.istDate) : idAt cfg a = idAt cfg b := by
  rw [idAt, idAt, dayFor, dayFor, h]

theorem isChain_cons_of_not_inWindow {a : Tick} (ha : ¬ InWindow cfg a.now) {ticks : List Tick}
    (h : ticks.IsChain (SameDate cfg)) : (a :: ticks).IsChain (SameDate cfg) :=
  List.isChain_cons.mpr ⟨fun _ _ hin => absurd hin ha, h⟩

/-- From the inactive state, and from the active state after a reconcile `a` in a window, a run that
stays on the date is bracketed. -/
theorem bracketed_of_isChain (ticks : List Tick) :
    (ticks.IsChain (SameDate cfg) → Bracketed none (edges cfg .inactive ticks)) ∧
      ∀ a, InWindow cfg a.now → (a :: ticks).IsChain (SameDate cfg) →
        Bracketed (some (idAt cfg a.now)) (edges cfg .active ticks) := by
  induction ticks with
  | nil => exact ⟨fun _ => trivial, fun _ _ _ => trivial⟩
  | cons b ticks ih =>
    constructor
    · intro hchain
      by_cases hb : InWindow cfg b.now
      · rw [edges_start hb]
        exact ⟨rfl, ih.2 b hb hchain⟩
      · rw [edges_idle hb]
        exact ih.1 hchain.tail
    · intro a ha hchain
      obtain ⟨hab, htail⟩ := List.isChain_cons_cons.mp hchain
      have hid : idAt cfg b.now = idAt cfg a.now := idAt_congr (hab ha)
      by_cases hb : InWindow cfg b.now
      · rw [edges_stay hb, ← hid]
        exact ih.2 b hb htail
      · rw [edges_end hb]
        exact ⟨rfl, hid, ih.1 htail.tail⟩

/-- A run that stays on the date has announced the session of its last reconcile: from the inactive
state by a `Start`, and after a reconcile `a` in the window of another day by an `End` and a
`Start`. -/
theorem announced_of_isChain {b : Tick} (hb : InWindow cfg b.now) (mid : List Tick) :
    ((mid ++ [b]).IsChain (SameDate cfg) →
        (Phase.start, idAt cfg b.now) ∈ edges cfg .inactive (mid ++ [b])) ∧
      ∀ a, InWindow cfg a.now → (a :: (mid ++ [b])).IsChain (SameDate cfg) →
        a.now.istDate = b.now.istDate ∨
          [(Phase.end, idAt cfg a.now), (Phase.start, idAt cfg b.now)].Sublist
            (edges cfg .active (mid ++ [b])) := by
  induction mid with
  | nil =>
    constructor
    · intro _
      rw [List.nil_append, edges_start hb]
      exact List.mem_cons_self
    · intro a ha hchain
      exact .inl ((List.isChain_cons_cons.mp hchain).1 ha).symm
  | cons c mid ih =>
    rw [List.cons_append]
    constructor
    · intro hchain
      by_cases hc : InWindow cfg c.now
      · rw [edges_start hc]
        rcases ih.2 c hc hchain with hdate | hsub
        · rw [idAt_congr hdate]
          exact List.mem_cons_self
        · exact List.mem_cons_of_mem _ (hsub.subset (by simp))
      · rw [edges_idle hc]
        exact ih.1 hchain.tail
    · intro a ha hchain
      obtain ⟨hac, htail⟩ := List.isChain_cons_cons.mp hchain
      rw [← hac ha, ← idAt_congr (hac ha)]
      by_cases hc : InWindow cfg c.now
      · rw [edges_stay hc]
        exact ih.2 c hc htail
      · rw [edges_end hc]
        refine .inr (List.Sublist.cons_cons _ ?_)
        exact List.singleton_sublist.mpr (ih.1 htail.tail)

theorem separated_of_isChain {ticks : List Tick} (h : ticks.IsChain (SameDate cfg)) :
    Separated cfg ticks := by
  intro pre a mid b post hsplit ha hb hne
  have hright : (a :: (mid ++ b :: post)).IsChain (SameDate cfg) :=
    (hsplit ▸ h).right_of_append
  have hassoc : a :: (mid ++ b :: post) = (a :: (mid ++ [b])) ++ post := by simp
  have hmid : (a :: (mid ++ [b])).IsChain (SameDate cfg) := (hassoc ▸ hright).left_of_append
  exact ((announced_of_isChain hb mid).2 a ha hmid).resolve_left hne

/-- The condition is necessary: a `Start` and an `End` with the same id are on one date, and a
reconcile in the next window announces nothing. -/
theorem isChain_of_bracketed {ticks : List Tick} (hrange : ∀ tick ∈ ticks, tick.now.InRange) :
    (Bracketed none (edges cfg .inactive ticks) → Separated cfg ticks →
        ticks.IsChain (SameDate cfg)) ∧
      ∀ a, a.now.InRange → InWindow cfg a.now →
        Bracketed (some (idAt cfg a.now)) (edges cfg .active ticks) →
        Separated cfg (a :: ticks) → (a :: ticks).IsChain (SameDate cfg) := by
  induction ticks with
  | nil => exact ⟨fun _ _ => .nil, fun _ _ _ _ _ => .singleton _⟩
  | cons b ticks ih =>
    have hbrange := hrange b (by simp)
    replace ih := ih fun tick htick => hrange tick (by simp [htick])
    constructor
    · intro hbracketed hseparated
      by_cases hb : InWindow cfg b.now
      · rw [edges_start hb] at hbracketed
        exact ih.2 b hbrange hb hbracketed.2 hseparated
      · rw [edges_idle hb] at hbracketed
        exact isChain_cons_of_not_inWindow hb (ih.1 hbracketed hseparated.tail)
    · intro a harange ha hbracketed hseparated
      by_cases hb : InWindow cfg b.now
      · have hdate : a.now.istDate = b.now.istDate := by
          by_contra hne
          have hsub := hseparated [] a [] b ticks rfl ha hb hne
          rw [List.nil_append, edges_stay hb, edges_nil] at hsub
          cases hsub
        rw [edges_stay hb, idAt_congr hdate] at hbracketed
        exact List.isChain_cons_cons.mpr
          ⟨fun _ => hdate.symm, ih.2 b hbrange hb hbracketed hseparated.tail⟩
      · rw [edges_end hb] at hbracketed
        obtain ⟨-, hid, hbracketed⟩ := hbracketed
        have hdate : b.now.istDate = a.now.istDate := sessionId_inj hbrange harange hid
        exact List.isChain_cons_cons.mpr ⟨fun _ => hdate,
          isChain_cons_of_not_inWindow hb (ih.1 hbracketed hseparated.tail.tail)⟩

theorem bracketed_separated_iff {ticks : List Tick} (hrange : ∀ tick ∈ ticks, tick.now.InRange) :
    Bracketed none (edges cfg .inactive ticks) ∧ Separated cfg ticks ↔
      ticks.IsChain (SameDate cfg) := by
  constructor
  · rintro ⟨hbracketed, hseparated⟩
    exact (isChain_of_bracketed hrange).1 hbracketed hseparated
  · intro hchain
    exact ⟨(bracketed_of_isChain ticks).1 hchain, separated_of_isChain hchain⟩

end Runs

/-! ## Both controllers -/

theorem wellBracketed_reconcile_iff {ε : Type} {cfg : SessionConfig}
    {event : Phase → UInt64 → UInt64 → ε} {view : ε → Phase × UInt64}
    (hview : ∀ phase id tsNs, view (event phase id tsNs) = (phase, id)) {ticks : List Tick}
    (hok : ∀ tick ∈ ticks, tick.publishError = none)
    (hrange : ∀ tick ∈ ticks, tick.now.InRange) :
    WellBracketed cfg (reconcile cfg event) view ticks ↔ ticks.IsChain (SameDate cfg) := by
  rw [← bracketed_separated_iff hrange, WellBracketed, runEvents_eq_edges hview hok]
  refine and_congr_right fun _ => forall₅_congr fun pre a mid b post => ?_
  refine forall₄_congr fun hsplit ha _ _ => ?_
  have hmid : ∀ tick ∈ mid ++ [b], tick.publishError = none := by
    intro tick htick
    apply hok tick
    rw [hsplit]
    simp only [List.mem_append, List.mem_cons] at htick ⊢
    tauto
  rw [runState_append_singleton (hok a (by simp [hsplit])) ha, runEvents_eq_edges hview hmid]

theorem SessionController.reconcileAt_eq (cfg : SessionConfig) :
    SessionController.reconcileAt cfg
      = reconcile cfg fun phase sessionId tsNs => ⟨sessionId, phase, tsNs⟩ := by
  funext state tick
  rfl

theorem WarModeController.reconcileAt_eq (cfg : WarModeConfig) :
    WarModeController.reconcileAt cfg = reconcile cfg.window fun phase sessionId tsNs =>
      ⟨sessionId, phase, cfg.minConfidence, cfg.scanMultiplier, tsNs⟩ := by
  funext state tick
  rfl

/-- The session events of a run are well bracketed exactly if every reconcile that follows one
inside a window is on the same date. -/
theorem session_events_bracketed_iff (cfg : SessionConfig) (ticks : List Tick)
    (hok : ∀ tick ∈ ticks, tick.publishError = none)
    (hrange : ∀ tick ∈ ticks, tick.now.InRange) :
    WellBracketed cfg (SessionController.reconcileAt cfg)
        (fun event => (event.phase, event.sessionId)) ticks ↔
      ticks.IsChain (SameDate cfg) := by
  rw [SessionController.reconcileAt_eq]
  exact wellBracketed_reconcile_iff (fun _ _ _ => rfl) hok hrange

/-- A session that is joined at 10:00 and left at 15:30. -/
theorem session_events_bracketed_one_day :
    WellBracketed Hedge.Risk.Defaults.session
      (SessionController.reconcileAt Hedge.Risk.Defaults.session)
      (fun event => (event.phase, event.sessionId))
      [⟨istToUtc 20423 (.fromHms 10 0 0), 1, none⟩, ⟨istToUtc 20423 (.fromHms 15 30 0), 2, none⟩] :=
  (session_events_bracketed_iff _ _ (by decide) (by decide)).mpr
    (List.isChain_pair.mpr fun _ => by decide)

/-- A controller that sleeps from 10:00 on 2025-12-01 to 08:00 on the next day closes the session of
the first day under the id of the second. -/
theorem session_closed_under_next_id :
    ¬ ∀ (cfg : SessionConfig) (ticks : List Tick), cfg.startIst < cfg.endIst →
      ticks.IsChain (fun a b => a.now ≤ b.now) → (∀ tick ∈ ticks, tick.publishError = none) →
      (∀ tick ∈ ticks, tick.now.InRange) →
      WellBracketed cfg (SessionController.reconcileAt cfg)
        (fun event => (event.phase, event.sessionId)) ticks := by
  intro h
  have hbracketed := (h Hedge.Risk.Defaults.session
    [⟨istToUtc 20423 (.fromHms 10 0 0), 1, none⟩, ⟨istToUtc 20424 (.fromHms 8 0 0), 2, none⟩]
    (by decide) (List.isChain_pair.mpr (by decide)) (by decide) (by decide)).1
  revert hbracketed
  decide

/-- The same holds of the war-mode controller. -/
theorem war_mode_events_bracketed_iff (cfg : WarModeConfig) (ticks : List Tick)
    (hok : ∀ tick ∈ ticks, tick.publishError = none)
    (hrange : ∀ tick ∈ ticks, tick.now.InRange) :
    WellBracketed cfg.window (WarModeController.reconcileAt cfg)
        (fun event => (event.phase, event.sessionId)) ticks ↔
      ticks.IsChain (SameDate cfg.window) := by
  rw [WarModeController.reconcileAt_eq]
  exact wellBracketed_reconcile_iff (fun _ _ _ => rfl) hok hrange

/-! ## Deadlines -/

/-- The instants at which `tick_until` reconciles after the cursor: it returns at the first deadline
at or after the limit. -/
def tickUntil (cfg : SessionConfig) (limit : Instant) : ℕ → Instant → List Instant
  | 0, _ => []
  | fuel + 1, cursor =>
    let next := nextDeadline cfg cursor
    if limit ≤ next then [] else next :: tickUntil cfg limit fuel next

theorem istDate_istToUtc (date : ℤ) {time : Hedge.Risk.NaiveTime} (h : time.secs < 86400) :
    (istToUtc date time).istDate = date := by
  simp only [istToUtc, Instant.istDate]
  omega

/-- Inside a window the next deadline is the end of that window. -/
theorem istDate_nextDeadline {cfg : SessionConfig} (hend : cfg.endIst.secs < 86400) {now : Instant}
    (h : InWindow cfg now) : (nextDeadline cfg now).istDate = now.istDate := by
  obtain ⟨hstart, hbefore⟩ := h
  have hnot : ¬ now < (dayFor cfg now).startUtc := by
    rw [Instant.lt_def]
    rw [Instant.le_def] at hstart
    omega
  rw [nextDeadline, if_neg hnot, if_pos hbefore]
  exact istDate_istToUtc _ hend

theorem isChain_tickUntil {cfg : SessionConfig} (hend : cfg.endIst.secs < 86400) (limit : Instant)
    {tickAt : Instant → Tick} (hnow : ∀ t, (tickAt t).now = t) (fuel : ℕ) (cursor : Instant) :
    ((cursor :: tickUntil cfg limit fuel cursor).map tickAt).IsChain (SameDate cfg) := by
  induction fuel generalizing cursor with
  | zero => exact .singleton _
  | succ fuel ih =>
    rw [tickUntil]
    split_ifs with hlimit
    · exact .singleton _
    · refine List.isChain_cons_cons.mpr ⟨?_, ih _⟩
      intro hin
      rw [hnow] at hin
      rw [hnow, hnow]
      exact istDate_nextDeadline hend hin

/-- A controller that wakes at its deadlines announces well-bracketed sessions. -/
theorem wellBracketed_tickUntil {cfg : SessionConfig} (hend : cfg.endIst.secs < 86400)
    (limit first : Instant) {tickAt : Instant → Tick} (hnow : ∀ t, (tickAt t).now = t)
    (hok : ∀ t, (tickAt t).publishError = none) (fuel : ℕ)
    (hrange : ∀ t ∈ first :: tickUntil cfg limit fuel first, t.InRange) :
    WellBracketed cfg (SessionController.reconcileAt cfg)
      (fun event => (event.phase, event.sessionId))
      ((first :: tickUntil cfg limit fuel first).map tickAt) := by
  rw [SessionController.reconcileAt_eq]
  refine (wellBracketed_reconcile_iff (fun _ _ _ => rfl) ?_ ?_).mpr
    (isChain_tickUntil hend limit hnow fuel first)
  · intro tick htick
    obtain ⟨t, -, rfl⟩ := List.mem_map.mp htick
    exact hok t
  · intro tick htick
    obtain ⟨t, ht, rfl⟩ := List.mem_map.mp htick
    rw [hnow]
    exact hrange t ht

end Hedge.Session
