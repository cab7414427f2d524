import Hedge.Common.Json
import Mathlib.Data.List.AList

/-!
# Making way for a real publisher

Reference: `hedge-demo-synth/src/suppression.rs`, `synth_tag` in `hedge-demo-synth/src/derive.rs`.

Everything the demo publishes carries the mark `_synth`. A message without the mark shows that a real
publisher is there, and holds back what the demo has for the same subject until five seconds later.
An `Instant` is a number of nanoseconds. The registry's views for tests are left out.
-/

namespace Hedge.Demo

open Hedge.Common

/-- `DEFAULT_SUPPRESSION_WINDOW`. -/
def defaultSuppressionWindow : ℕ := 5000000000

/-- What is known of the real publisher of a subject. -/
structure SubjectState where
  lastRealSeenAt : Option ℕ
  suppressedUntil : Option ℕ

structure SuppressionRegistry where
  map : AList fun _ : String => SubjectState
  window : ℕ

/-! ## The mark -/

/-- `synth_tag`. -/
def synthTag : Json → Json
  | .obj fields => .obj (fields ++ [("_synth", .bool true)])
  | v => v

/-- The mark of a document. -/
def isSynth (v : Json) : Bool := ((v.get "_synth").bind Json.asBool).getD false

/-- `is_synth_echo`: what does not parse comes from a real publisher. -/
def isSynthEcho (parse : List UInt8 → Option Json) (payload : List UInt8) : Bool :=
  match parse payload with
  | none => false
  | some v => isSynth v

/-- A tagged document carries the mark, unless it had a field of that name. -/
theorem isSynth_synthTag {fields : List (String × Json)} (h : "_synth" ∉ fields.map Prod.fst) :
    isSynth (synthTag (.obj fields)) = true := by
  have hget : ((Json.obj (fields ++ [("_synth", .bool true)])).get "_synth") = some (.bool true) := by
    induction fields with
    | nil => rfl
    | cons field fields ih =>
      rw [List.map_cons, List.mem_cons, not_or] at h
      obtain ⟨name, v⟩ := field
      rw [List.cons_append, Json.get_obj_cons, if_neg h.1, ih h.2]
  rw [isSynth, synthTag, hget]
  rfl

/-- The tag changes no other field. -/
theorem get_synthTag {fields : List (String × Json)} {key : String} (h : key ≠ "_synth") :
    (synthTag (.obj fields)).get key = (Json.obj fields).get key := by
  rw [synthTag]
  induction fields with
  | nil => rw [List.nil_append, Json.get_obj_cons, if_neg h]
  | cons field fields ih =>
    obtain ⟨name, v⟩ := field
    rw [List.cons_append, Json.get_obj_cons, Json.get_obj_cons, ih]

/-! ## The registry -/

namespace SuppressionRegistry

/-- `with_window`. -/
def withWindow (window : ℕ) : SuppressionRegistry := ⟨∅, window⟩

/-- `SuppressionRegistry::new`. -/
def new : SuppressionRegistry := withWindow defaultSuppressionWindow

variable (parse : List UInt8 → Option Json) (registry : SuppressionRegistry)

/-- `record_message` at the time `now`. -/
def recordMessage (now : ℕ) (subject : String) (payload : List UInt8) : SuppressionRegistry :=
  if isSynthEcho parse payload then registry
  else { registry with map := registry.map.insert subject ⟨some now, some (now + registry.window)⟩ }

/-- `allow_publish` at the time `now`. -/
def allowPublish (now : ℕ) (subject : String) : Bool :=
  match registry.map.lookup subject with
  | none => true
  | some state => match state.suppressedUntil with
    | none => true
    | some deadline => deadline ≤ now

@[simp] theorem window_recordMessage (now : ℕ) (subject : String) (payload : List UInt8) :
    (registry.recordMessage parse now subject payload).window = registry.window := by
  unfold recordMessage
  split_ifs <;> rfl

theorem recordMessage_of_echo {payload : List UInt8} (h : isSynthEcho parse payload = true)
    (now : ℕ) (subject : String) :
    registry.recordMessage parse now subject payload = registry := if_pos h

/-- A real message sets the deadline of its subject. -/
theorem allowPublish_recordMessage_self {payload : List UInt8}
    (h : isSynthEcho parse payload = false) (seenAt now : ℕ) (subject : String) :
    (registry.recordMessage parse seenAt subject payload).allowPublish now subject
      = decide (seenAt + registry.window ≤ now) := by
  rw [recordMessage, h, if_neg Bool.false_ne_true, allowPublish]
  simp only [AList.lookup_insert]

/-- No other subject is held back by a message. -/
theorem allowPublish_recordMessage_ne {subject other : String} (hne : other ≠ subject)
    (seenAt now : ℕ) (payload : List UInt8) :
    (registry.recordMessage parse seenAt subject payload).allowPublish now other
      = registry.allowPublish now other := by
  unfold recordMessage
  split_ifs
  · rfl
  · simp only [allowPublish, AList.lookup_insert_ne hne]

/-- Waiting never takes a permission back. -/
theorem allowPublish_mono {now later : ℕ} (hle : now ≤ later) {subject : String}
    (h : registry.allowPublish now subject = true) :
    registry.allowPublish later subject = true := by
  unfold allowPublish at h ⊢
  split
  · rfl
  · rename_i state hstate
    rw [hstate] at h
    dsimp only at h
    split
    · rfl
    · rename_i deadline hdeadline
      rw [hdeadline] at h
      exact decide_eq_true (le_trans (of_decide_eq_true h) hle)

end SuppressionRegistry

end Hedge.Demo
