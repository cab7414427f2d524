import Hedge.Common.Run
import Hedge.Session.Controller
import Hedge.Signals.Engine

/-!
# War mode of the signal engine

Reference: `run_warmode_subscriber` of `hedge-signals/src/bin/main.rs`, `WarModeEvent` of
`hedge-session/src/event.rs`.

The start and the end events come in over two subscriptions, each in the order of publication, and
the subscriber takes the next event of either. What is left of the order between the two is the
choice of the last event taken.
-/

namespace Hedge.Signals

open Hedge Hedge.Common Hedge.Session

/-! ## Model -/

/-- The text of a phase. -/
def phaseText : Phase → String
  | .start => "start"
  | .end => "end"

/-- A `WarModeEvent` with numbers that JSON can carry. -/
structure WarEvent where
  event : WarModeEvent
  minConfidence_isF32 : event.minConfidence.IsF32
  scanMultiplier_isF32 : event.scanMultiplier.IsF32

/-- The payload of an event. -/
def WarEvent.toJson (e : WarEvent) : Json :=
  .obj [("session_id", .ofU64 e.event.sessionId), ("phase", .str (phaseText e.event.phase)),
    ("min_confidence", .ofF32 e.event.minConfidence),
    ("scan_multiplier", .ofF32 e.event.scanMultiplier), ("ts_ns", .ofU64 e.event.tsNs)]

/-- `WarModePayload`. -/
structure WarModePayload where
  phase : String
  minConfidence : ExactFloat
  scanMultiplier : ExactFloat

/-- The derived `Deserialize`. -/
def WarModePayload.read (v : Json) : Option WarModePayload :=
  if !v.isStruct 3 then none
  else (v.required 0 "phase" Json.asStr).bind fun phase =>
    (v.required 1 "min_confidence" Json.asF32).bind fun minConfidence =>
      (v.required 2 "scan_multiplier" Json.asF32).bind fun scanMultiplier =>
        some ⟨phase, minConfidence, scanMultiplier⟩

/-- The subscriber: the messages of each subscription, the configuration of the engine, and whether
the loop still runs. -/
structure WarModeSubscriber where
  queues : Phase → List Json
  config : SignalEngineConfig
  running : Bool

namespace WarModeSubscriber

/-- The subscriber of a fresh engine. -/
def init : WarModeSubscriber := ⟨fun _ => [], .default, true⟩

/-- The update of the configuration on an event of a subscription. -/
def apply (phase : Phase) (payload : WarModePayload) (cfg : SignalEngineConfig) :
    SignalEngineConfig :=
  match phase with
  | .start => { cfg with warMode := true, warModeMinConfidence := payload.minConfidence }
  | .end => { cfg with warMode := false }

/-- One arm of the `select!`. A payload that does not decode ends the loop. -/
def receive (s : WarModeSubscriber) (phase : Phase) (message : Json) : WarModeSubscriber :=
  match WarModePayload.read message with
  | some payload => { s with config := apply phase payload s.config }
  | none => { s with running := false }

end WarModeSubscriber

/-- An event is published, or the subscriber takes the next one of a subscription. -/
inductive WarModeAction where
  | publish (e : WarEvent)
  | take (phase : Phase)

/-- One step; a subscription without a message is not ready. -/
def WarModeSubscriber.step (s : WarModeSubscriber) : WarModeAction → Option WarModeSubscriber
  | .publish e =>
    let phase := e.event.phase
    some { s with queues := Function.update s.queues phase (s.queues phase ++ [e.toJson]) }
  | .take phase =>
    if !s.running then none
    else match s.queues phase with
      | [] => none
      | message :: rest =>
        some (receive { s with queues := Function.update s.queues phase rest } phase message)

/-! ## Purpose -/

/-- The events published, in order. -/
def publishedEvents (actions : List WarModeAction) : List WarEvent :=
  actions.filterMap fun a => match a with
    | .publish e => some e
    | .take _ => none

/-- The subscriptions taken from, in order. -/
def takes (actions : List WarModeAction) : List Phase :=
  actions.filterMap fun a => match a with
    | .publish _ => none
    | .take phase => some phase

/-- War mode is on exactly if the last event was a start, with the floor of that event. -/
def FollowsLatest (published : List WarEvent) (cfg : SignalEngineConfig) : Prop :=
  (cfg.warMode = true ↔ ∃ e ∈ published.getLast?, e.event.phase = .start) ∧
    ∀ e ∈ published.getLast?, e.event.phase = .start →
      cfg.warModeMinConfidence = e.event.minConfidence

/-! ## Decoding -/

/-- The subscriber reads back what the controller announces. -/
theorem read_toJson (e : WarEvent) :
    WarModePayload.read e.toJson = some
      ⟨phaseText e.event.phase, e.event.minConfidence, e.event.scanMultiplier⟩ := by
  have hfloor := Json.asF32_ofF32 e.minConfidence_isF32
  have hscan := Json.asF32_ofF32 e.scanMultiplier_isF32
  simp [WarModePayload.read, WarEvent.toJson, Json.isStruct, Json.required, Json.structField,
    hfloor, hscan]

/-! ## Runs -/

/-- The published events of a phase. -/
def eventsOf (phase : Phase) (actions : List WarModeAction) : List WarEvent :=
  (publishedEvents actions).filter (·.event.phase = phase)

/-- What holds after the actions: of each phase a first part of the events has been taken, the flag
stands as the last take left it, and the floor is that of the last start taken. -/
structure Drains (actions : List WarModeAction) (s : WarModeSubscriber) : Prop where
  running : s.running = true
  waiting : ∀ phase, s.queues phase =
    ((eventsOf phase actions).drop ((takes actions).count phase)).map WarEvent.toJson
  counted : ∀ phase, (takes actions).count phase ≤ (eventsOf phase actions).length
  flag : s.config.warMode = ((takes actions).getLast? == some .start)
  floor : ∀ e ∈ ((eventsOf .start actions).take ((takes actions).count .start)).getLast?,
    s.config.warModeMinConfidence = e.event.minConfidence

theorem drains_init : Drains [] .init where
  running := rfl
  waiting _ := rfl
  counted _ := Nat.le_refl _
  flag := rfl
  floor _ h := by cases h

section Step

variable {actions : List WarModeAction} {s s' : WarModeSubscriber} {e : WarEvent} {phase : Phase}

theorem takes_publish : takes (actions ++ [.publish e]) = takes actions := by
  simp [takes]

theorem takes_take : takes (actions ++ [.take phase]) = takes actions ++ [phase] := by
  simp [takes]

theorem publishedEvents_publish :
    publishedEvents (actions ++ [.publish e]) = publishedEvents actions ++ [e] := by
  simp [publishedEvents]

theorem publishedEvents_take :
    publishedEvents (actions ++ [.take phase]) = publishedEvents actions := by
  simp [publishedEvents]

theorem eventsOf_publish (other : Phase) : eventsOf other (actions ++ [.publish e]) =
    eventsOf other actions ++ if e.event.phase = other then [e] else [] := by
  rw [eventsOf, publishedEvents_publish, List.filter_append, ← eventsOf]
  by_cases hphase : e.event.phase = other <;> simp [hphase]

theorem eventsOf_take (other : Phase) :
    eventsOf other (actions ++ [.take phase]) = eventsOf other actions := by
  rw [eventsOf, publishedEvents_take, ← eventsOf]

theorem Drains.publish (h : Drains actions s) (hstep : s.step (.publish e) = some s') :
    Drains (actions ++ [.publish e]) s' := by
  cases hstep
  refine ⟨h.running, fun other => ?_, fun other => ?_, ?_, ?_⟩
  · rw [takes_publish, eventsOf_publish, List.drop_append_of_le_length (h.counted other),
      List.map_append, ← h.waiting other]
    by_cases hphase : e.event.phase = other
    · subst hphase
      simp
    · simp [hphase, Function.update_of_ne (Ne.symm hphase)]
  · rw [takes_publish, eventsOf_publish, List.length_append]
    exact Nat.le_trans (h.counted other) (Nat.le_add_right _ _)
  · rw [takes_publish]
    exact h.flag
  · rw [takes_publish, eventsOf_publish, List.take_append_of_le_length (h.counted .start)]
    exact h.floor

/-- A take removes the oldest waiting event of its phase. -/
theorem Drains.step_take (h : Drains actions s) (hstep : s.step (.take phase) = some s') :
    ∃ e es, (eventsOf phase actions).drop ((takes actions).count phase) = e :: es ∧
      s' = { s with
        queues := Function.update s.queues phase (es.map WarEvent.toJson)
        config := WarModeSubscriber.apply phase
          ⟨phaseText e.event.phase, e.event.minConfidence, e.event.scanMultiplier⟩ s.config } := by
  have hwaiting := h.waiting phase
  simp only [WarModeSubscriber.step, h.running, Bool.not_true, Bool.false_eq_true, if_false]
    at hstep
  cases hdrop : (eventsOf phase actions).drop ((takes actions).count phase) with
  | nil =>
    rw [hdrop, List.map_nil] at hwaiting
    rw [hwaiting] at hstep
    cases hstep
  | cons e es =>
    rw [hdrop, List.map_cons] at hwaiting
    rw [hwaiting] at hstep
    simp only [WarModeSubscriber.receive, read_toJson, Option.some.injEq] at hstep
    refine ⟨e, es, rfl, ?_⟩
    rw [h.running]
    exact hstep.symm

theorem Drains.take (h : Drains actions s) (hstep : s.step (.take phase) = some s') :
    Drains (actions ++ [.take phase]) s' := by
  obtain ⟨e, es, hdrop, rfl⟩ := h.step_take hstep
  have hlt : (takes actions).count phase < (eventsOf phase actions).length := by
    by_contra hge
    rw [List.drop_eq_nil_of_le (Nat.not_lt.mp hge)] at hdrop
    cases hdrop
  have hcount : ∀ other, (takes (actions ++ [.take phase])).count other =
      (takes actions).count other + if phase = other then 1 else 0 := by
    intro other
    rw [takes_take, List.count_append, List.count_singleton]
    simp
  refine ⟨h.running, fun other => ?_, fun other => ?_, ?_, ?_⟩
  · rw [eventsOf_take, hcount]
    by_cases hphase : phase = other
    · subst hphase
      rw [if_pos rfl, ← List.drop_drop, hdrop]
      simp
    · rw [if_neg hphase, Nat.add_zero, ← h.waiting other]
      exact Function.update_of_ne (Ne.symm hphase) _ _
  · rw [eventsOf_take, hcount]
    have hle := h.counted other
    split_ifs with hphase
    · subst hphase
      omega
    · omega
  · rw [takes_take, List.getLast?_concat]
    cases phase <;> rfl
  · rw [eventsOf_take, hcount]
    cases phase with
    | start =>
      intro last hlast
      rw [if_pos rfl, List.take_add_one, List.getElem?_eq_getElem hlt] at hlast
      have hfirst : (eventsOf .start actions)[(takes actions).count .start] = e := by
        have hhead := congrArg List.head? hdrop
        rw [List.head?_drop, List.getElem?_eq_getElem hlt] at hhead
        exact Option.some.inj hhead
      rw [hfirst] at hlast
      simp only [Option.toList_some, List.getLast?_concat, Option.mem_def,
        Option.some.injEq] at hlast
      rw [← hlast]
      rfl
    | «end» => exact h.floor

end Step

/-- Every run keeps the account. -/
theorem drains_of_run {actions : List WarModeAction} {s : WarModeSubscriber}
    (h : runEnabled WarModeSubscriber.step .init actions = some s) : Drains actions s := by
  induction actions using List.reverseRecOn generalizing s with
  | nil =>
    cases h
    exact drains_init
  | append_singleton actions a ih =>
    obtain ⟨t, ht, hstep⟩ := runEnabled_concat h
    cases a with
    | publish e => exact (ih ht).publish hstep
    | take phase => exact (ih ht).take hstep

/-! ## Once both subscriptions are empty -/

section Drained

variable {actions : List WarModeAction} {s : WarModeSubscriber}

/-- All events of a phase have been taken. -/
theorem Drains.count_eq (h : Drains actions s) {phase : Phase} (hempty : s.queues phase = []) :
    (takes actions).count phase = (eventsOf phase actions).length := by
  have hwaiting := h.waiting phase
  rw [hempty] at hwaiting
  have hdrop := List.drop_eq_nil_iff.mp (List.map_eq_nil_iff.mp hwaiting.symm)
  have hle := h.counted phase
  omega

/-- Something was taken exactly if something was published. -/
theorem Drains.takes_eq_nil_iff (h : Drains actions s) (hempty : ∀ phase, s.queues phase = []) :
    takes actions = [] ↔ publishedEvents actions = [] := by
  constructor
  · intro hnone
    refine List.eq_nil_iff_forall_not_mem.mpr fun e he => ?_
    have hcount := h.count_eq (hempty e.event.phase)
    rw [hnone, List.count_nil] at hcount
    have hevent : e ∈ eventsOf e.event.phase actions := List.mem_filter.mpr ⟨he, by simp⟩
    exact absurd (List.length_pos_of_mem hevent) (by omega)
  · intro hnone
    refine List.eq_nil_iff_forall_not_mem.mpr fun phase hphase => ?_
    have hcount := h.count_eq (hempty phase)
    rw [eventsOf, hnone, List.filter_nil, List.length_nil] at hcount
    exact absurd (List.count_pos_iff.mpr hphase) (by omega)

/-- The floor is that of the last start. -/
theorem Drains.floor_eq (h : Drains actions s) (hempty : s.queues .start = []) {e : WarEvent}
    (hlast : e ∈ (publishedEvents actions).getLast?) (hphase : e.event.phase = .start) :
    s.config.warModeMinConfidence = e.event.minConfidence := by
  refine h.floor e ?_
  rw [h.count_eq hempty, List.take_length, eventsOf]
  obtain ⟨rest, hrest⟩ := List.getLast?_eq_some_iff.mp hlast
  rw [hrest, List.filter_append]
  simp [hphase]

end Drained

/-- Once both subscriptions are empty, war mode follows the latest event exactly if the last event
taken is of the subject of the last one published. -/
theorem followsLatest_iff {actions : List WarModeAction} {s : WarModeSubscriber}
    (hrun : runEnabled WarModeSubscriber.step .init actions = some s)
    (hempty : ∀ phase, s.queues phase = []) :
    FollowsLatest (publishedEvents actions) s.config ↔
      (takes actions).getLast? = (publishedEvents actions).getLast?.map (·.event.phase) := by
  have hdrains := drains_of_run hrun
  have hnone := hdrains.takes_eq_nil_iff hempty
  have hfloor : ∀ e ∈ (publishedEvents actions).getLast?, e.event.phase = .start →
      s.config.warModeMinConfidence = e.event.minConfidence :=
    fun e hlast hphase => hdrains.floor_eq (hempty .start) hlast hphase
  rw [FollowsLatest, and_iff_left hfloor, hdrains.flag, beq_iff_eq]
  cases htakes : (takes actions).getLast? with
  | none =>
    rw [hnone.mp (List.getLast?_eq_none_iff.mp htakes)]
    simp
  | some phase =>
    cases hpub : (publishedEvents actions).getLast? with
    | none =>
      rw [hnone.mpr (List.getLast?_eq_none_iff.mp hpub)] at htakes
      cases htakes
    | some e => cases phase <;> cases hphase : e.event.phase <;> simp [hphase]

/-- An event of one session. -/
def warEvent (phase : Phase) (tsNs : UInt64) : WarEvent :=
  ⟨⟨1, phase, .fin (3 / 4), .fin 2, tsNs⟩, show (ExactFloat.fin (3 / 4)).IsF32 by decide +kernel,
    show (ExactFloat.fin 2).IsF32 by decide +kernel⟩

/-- A start and an end, each taken as it comes. -/
def inOrder : List WarModeAction :=
  [.publish (warEvent .start 1), .take .start, .publish (warEvent .end 2), .take .end]

theorem followsLatest_inOrder :
    ∃ s, runEnabled WarModeSubscriber.step .init inOrder = some s ∧
      FollowsLatest (publishedEvents inOrder) s.config :=
  ⟨_, rfl, (followsLatest_iff rfl (by intro phase; cases phase <;> rfl)).mpr rfl⟩

/-- A start and an end are published and taken in the other order. -/
def overtaken : List WarModeAction :=
  [.publish (warEvent .start 1), .publish (warEvent .end 2), .take .end, .take .start]

/-- Starts and ends take turns. -/
def Alternates (published : List WarEvent) : Prop :=
  published.IsChain fun e e' => e.event.phase ≠ e'.event.phase

/-- War mode stays on after the end. -/
theorem overtaken_stays_on :
    (∃ s, runEnabled WarModeSubscriber.step .init overtaken = some s ∧
      (∀ phase, s.queues phase = []) ∧ s.config.warMode = true ∧
      (publishedEvents overtaken).getLast?.map (·.event.phase) = some .end) ∧
    ¬ ∀ (actions : List WarModeAction) (s : WarModeSubscriber), Alternates (publishedEvents actions) →
      runEnabled WarModeSubscriber.step .init actions = some s →
      (∀ phase, s.queues phase = []) → FollowsLatest (publishedEvents actions) s.config := by
  obtain ⟨s, hrun, hempty, hon⟩ : ∃ s, runEnabled WarModeSubscriber.step .init overtaken = some s ∧
      (∀ phase, s.queues phase = []) ∧ s.config.warMode = true :=
    ⟨_, rfl, by intro phase; cases phase <;> rfl, rfl⟩
  refine ⟨⟨s, hrun, hempty, hon, rfl⟩, fun h => ?_⟩
  have halternates : Alternates (publishedEvents overtaken) := by
    simp [Alternates, publishedEvents, overtaken, warEvent]
  obtain ⟨e, he, hphase⟩ := (h _ s halternates hrun hempty).1.mp hon
  cases he
  cases hphase

end Hedge.Signals
