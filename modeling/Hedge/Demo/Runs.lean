import Hedge.Demo.Coordinator

/-!
# Runs of the demo process

Reference: `hedge-demo-synth/src/suppression.rs`.

The registry keeps one deadline for each subject. `sent_iff_quiet` says what the deadlines come to
over a run, for the subject itself and for no other one.
-/

namespace Hedge.Demo

open Hedge.Common

variable {parse : List UInt8 → Option Json}

/-! ## Quiet subjects -/

/-- The time an event takes. -/
def DemoEvent.duration : DemoEvent → ℕ
  | .elapse ns => ns
  | _ => 0

/-- The time that passes in some events. -/
def elapsed (events : List DemoEvent) : ℕ := (events.map DemoEvent.duration).sum

/-- Since the last real message on the subject the window has passed. -/
def Quiet (parse : List UInt8 → Option Json) (events : List DemoEvent) (subject : String) : Prop :=
  ∀ pre payload post, events = pre ++ .message subject payload :: post →
    isSynthEcho parse payload = false → defaultSuppressionWindow ≤ elapsed post

/-- Only the subscriber changes the registry. -/
theorem registry_next {s : DemoState} {event : DemoEvent}
    (hmessage : ∀ subject payload, event ≠ .message subject payload) :
    (s.next parse event).registry = s.registry := by
  cases event with
  | message subject payload => exact absurd rfl (hmessage subject payload)
  | signal draws =>
    unfold DemoState.next
    dsimp only
    split_ifs <;> rfl
  | trade draws =>
    unfold DemoState.next
    dsimp only
    split <;> rfl
  | elapse _ | other _ _ | proceed => rfl

theorem now_next (s : DemoState) (event : DemoEvent) :
    (s.next parse event).now = s.now + event.duration := by
  cases event with
  | message subject payload =>
    unfold DemoState.next
    dsimp only
    split_ifs <;> rfl
  | signal draws =>
    unfold DemoState.next
    dsimp only
    split_ifs <;> rfl
  | trade draws =>
    unfold DemoState.next
    dsimp only
    split <;> rfl
  | elapse _ | other _ _ | proceed => rfl

theorem window_after (events : List DemoEvent) :
    (after parse events).registry.window = defaultSuppressionWindow := by
  refine runState_invariant_all (DemoState.step parse)
    (fun s => s.registry.window = defaultSuppressionWindow) (fun s event hs => ?_) rfl events
  by_cases hmessage : ∃ subject payload, event = .message subject payload
  · obtain ⟨subject, payload, rfl⟩ := hmessage
    show (s.next parse (.message subject payload)).registry.window = defaultSuppressionWindow
    unfold DemoState.next
    dsimp only
    split_ifs
    · rw [SuppressionRegistry.window_recordMessage, hs]
    · exact hs
  · push Not at hmessage
    show (s.next parse event).registry.window = defaultSuppressionWindow
    rw [registry_next hmessage, hs]

/-- Anything but a real message on a subject leaves its deadline as it is. -/
theorem allowPublish_next {s : DemoState} {event : DemoEvent} {subject : String}
    (hreal : ∀ payload, event = .message subject payload → isSynthEcho parse payload = true)
    (now : ℕ) :
    (s.next parse event).registry.allowPublish now subject
      = s.registry.allowPublish now subject := by
  by_cases hmessage : ∃ other payload, event = .message other payload
  · obtain ⟨other, payload, rfl⟩ := hmessage
    unfold DemoState.next
    dsimp only
    split_ifs
    · by_cases hother : other = subject
      · rw [hother, SuppressionRegistry.recordMessage_of_echo _ _ (hreal payload (by rw [hother]))]
      · exact SuppressionRegistry.allowPublish_recordMessage_ne _ _ (Ne.symm hother) ..
    · rfl
  · push Not at hmessage
    rw [registry_next hmessage]

/-- The deadline of a subject, a while after a run: the window has passed since each real message
on the subject, counting the while. -/
theorem allowPublish_after {subject : String} (hheard : heard subject = true)
    (events : List DemoEvent) (wait : ℕ) :
    (after parse events).registry.allowPublish ((after parse events).now + wait) subject = true ↔
      ∀ pre event post, events = pre ++ event :: post → ∀ payload,
        event = .message subject payload → isSynthEcho parse payload = false →
          defaultSuppressionWindow ≤ elapsed post + wait := by
  induction events using List.reverseRecOn generalizing wait with
  | nil => exact iff_of_true rfl forall_split_nil
  | append_singleton events event ih =>
    have helapsed : ∀ post : List DemoEvent,
        elapsed (post ++ [event]) + wait = elapsed post + (event.duration + wait) := by
      intro post
      simp only [elapsed, List.map_append, List.sum_append, List.map_singleton, List.sum_singleton]
      omega
    rw [forall_split_snoc_iff, after_concat, now_next, Nat.add_assoc]
    simp only [helapsed]
    rw [← ih]
    by_cases hreal : ∃ payload, event = .message subject payload ∧ isSynthEcho parse payload = false
    · -- the message sets the deadline anew, and the earlier ones are older
      obtain ⟨payload, rfl, hreal⟩ := hreal
      have hset : ((after parse events).next parse (.message subject payload)).registry
          = (after parse events).registry.recordMessage parse (after parse events).now subject
            payload := congrArg DemoState.registry (if_pos hheard)
      rw [hset, SuppressionRegistry.allowPublish_recordMessage_self _ _ hreal, window_after,
        decide_eq_true_eq, Nat.add_le_add_iff_left]
      constructor
      · intro hwindow
        refine ⟨(ih _).mpr fun _ _ _ _ _ _ _ => hwindow.trans (Nat.le_add_left _ _), ?_⟩
        intro _ _ _
        exact hwindow
      · rintro ⟨-, hlast⟩
        exact hlast payload rfl hreal
    · have hecho : ∀ payload, event = .message subject payload →
          isSynthEcho parse payload = true := by
        intro payload hevent
        by_contra hnot
        exact hreal ⟨payload, hevent, Bool.not_eq_true _ ▸ hnot⟩
      rw [allowPublish_next hecho, and_iff_left]
      intro payload hevent hfalse
      rw [hecho payload hevent] at hfalse
      cases hfalse

/-- After a run a subject is free exactly if it is quiet. -/
theorem free_after_iff {subject : String} (hheard : heard subject = true)
    (events : List DemoEvent) :
    (after parse events).free subject = true ↔ Quiet parse events subject := by
  have h := @allowPublish_after parse subject hheard events 0
  rw [Nat.add_zero] at h
  rw [DemoState.free, h]
  constructor
  · intro hall pre payload post hsplit
    exact hall pre _ post hsplit payload rfl
  · rintro hall pre event post hsplit payload rfl
    exact hall pre payload post hsplit

/-! ## What is sent -/

/-- What waits to be published is on subjects that the subscriber hears of, and marked. -/
theorem pending_after (parse : List UInt8 → Option Json) (events : List DemoEvent) :
    ∀ message ∈ (after parse events).pending,
      heard message.1 = true ∧ isSynth message.2 = true := by
  refine runState_invariant_all (DemoState.step parse)
    (fun s => ∀ message ∈ s.pending, heard message.1 = true ∧ isSynth message.2 = true)
    (fun s event hs => ?_) (by simp [DemoState.init]) events
  show ∀ message ∈ (s.next parse event).pending, heard message.1 = true ∧ isSynth message.2 = true
  cases event with
  | trade draws =>
    unfold DemoState.next
    dsimp only
    split
    · intro message hmem
      exact ⟨heard_processSignal hmem, isSynth_processSignal hmem⟩
    · exact hs
  | proceed => exact fun message hmem => hs message (List.mem_of_mem_tail hmem)
  | message subject payload =>
    unfold DemoState.next
    dsimp only
    split_ifs <;> exact hs
  | signal draws =>
    unfold DemoState.next
    dsimp only
    split_ifs <;> exact hs
  | elapse _ | other _ _ => exact hs

theorem offered_after {events : List DemoEvent} {event : DemoEvent} {message : String × Json}
    (hmem : message ∈ (after parse events).offered event) :
    heard message.1 = true ∧ isSynth message.2 = true := by
  cases event with
  | other subject documents =>
    obtain ⟨document, -, rfl⟩ := List.mem_map.mp hmem
    exact ⟨heard_text subject, isSynth_synthTag document.unmarked⟩
  | signal draws =>
    have hheard : heard "sig.emitted" = true := heard_self (by decide)
    unfold DemoState.offered at hmem
    dsimp only at hmem
    split_ifs at hmem
    · cases hmem
    · rw [List.mem_singleton.mp hmem]
      exact ⟨hheard, isSynth_synthTag (by simp)⟩
  | proceed =>
    refine pending_after parse events message ?_
    rw [DemoState.offered, Option.mem_toList] at hmem
    exact List.mem_of_mem_head? hmem
  | elapse _ | message _ _ | trade _ => cases hmem

/-- **When the demo speaks.** In every run a message that a generator has ready is sent exactly if
five seconds have passed since each message that the subscriber handled on the very same subject
without the mark; and all that is sent carries the mark. -/
theorem sent_iff_quiet (parse : List UInt8 → Option Json) (events : List DemoEvent)
    (event : DemoEvent) (message : String × Json) :
    (message ∈ ((after parse events).step parse event).1 ↔
      message ∈ (after parse events).offered event ∧ Quiet parse events message.1) ∧
    (message ∈ ((after parse events).step parse event).1 → isSynth message.2 = true) := by
  have hmem : message ∈ ((after parse events).step parse event).1 ↔
      message ∈ (after parse events).offered event ∧
        (after parse events).free message.1 = true := List.mem_filter
  constructor
  · rw [hmem]
    refine and_congr_right fun hoffered => ?_
    exact free_after_iff (offered_after hoffered).1 events
  · intro hsent
    exact (offered_after (hmem.mp hsent).1).2

end Hedge.Demo
