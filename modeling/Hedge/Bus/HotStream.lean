import Hedge.Common.Run
import Hedge.Core.Types
import Mathlib.Tactic.Common

/-!
# Hot streams

Reference: `hedge-bus/src/redis_stream.rs`.

The consumer reads new entries of its group: the server delivers each of them once and keeps it
pending until it is acknowledged. A batch is decoded as a whole, so one entry that does not decode
costs the consumer the others of its batch, and what a consumer had in hand when it stopped is
pending for a reader that never asks for what is pending.

The server numbers the entries of a stream in order; an id is that number.
-/

namespace Hedge.Bus

open Hedge.Common

/-! ## Entries -/

/-- The value of a field; `other` is what does not convert to bytes. -/
inductive RedisValue where
  | bytes (bs : List UInt8)
  | other
deriving DecidableEq

/-- An entry as the server returns it. -/
structure RawEntry where
  map : Map String RedisValue

/-- A decoded entry. -/
structure StreamEntry (T : Type*) where
  id : ℕ
  payload : T

/-- The errors of reading a batch. -/
inductive BusError where
  | decode (message : String)
  | malformedEntry (id : ℕ) (reason : String)
deriving DecidableEq

/-- `PAYLOAD_FIELD`. -/
def payloadField : String := "payload"

section Entries

variable {T : Type*} (decode : List UInt8 → Except BusError T)

/-- The decoding of one entry of a batch. -/
def decodeEntry (entry : RawEntry × ℕ) : Except BusError (StreamEntry T) :=
  match entry.1.map.lookup payloadField with
  | none => .error (.malformedEntry entry.2 "missing `payload` field")
  | some .other => .error (.malformedEntry entry.2 "non-binary `payload` field")
  | some (.bytes bs) => match decode bs with
    | .error e => .error e
    | .ok payload => .ok ⟨entry.2, payload⟩

/-- The entry is well formed. -/
def RawEntry.Decodes (e : RawEntry) : Prop :=
  ∃ bs payload, e.map.lookup payloadField = some (.bytes bs) ∧ decode bs = .ok payload

/-- A well-formed entry decodes under its id, and any other one is an error. -/
theorem decodeEntry_outcome (entry : RawEntry × ℕ) :
    (entry.1.Decodes decode ∧ ∃ payload, decodeEntry decode entry = .ok ⟨entry.2, payload⟩) ∨
      (¬ entry.1.Decodes decode ∧ ∃ e, decodeEntry decode entry = .error e) := by
  unfold decodeEntry RawEntry.Decodes
  rcases entry.1.map.lookup payloadField with _ | ⟨bs⟩ | _
  · exact .inr ⟨by simp, _, rfl⟩
  · cases hdecode : decode bs with
    | error e =>
      refine .inr ⟨?_, e, by simp only [hdecode]⟩
      rintro ⟨bs', payload, hbs, hpayload⟩
      cases hbs
      rw [hdecode] at hpayload
      cases hpayload
    | ok payload => exact .inl ⟨⟨bs, payload, rfl, hdecode⟩, payload, by simp only [hdecode]⟩
  · exact .inr ⟨by simp, _, rfl⟩

/-- A batch decodes, with the ids it has, exactly if each of its entries does. -/
theorem decodeEntries_outcome (batch : List (RawEntry × ℕ)) :
    ((∀ entry ∈ batch, entry.1.Decodes decode) ∧
      ∃ out, batch.mapM (decodeEntry decode) = .ok out ∧ out.map (·.id) = batch.map Prod.snd) ∨
    ((∃ entry ∈ batch, ¬ entry.1.Decodes decode) ∧
      ∃ e, batch.mapM (decodeEntry decode) = .error e) := by
  induction batch with
  | nil => exact .inl ⟨by simp, [], rfl, rfl⟩
  | cons entry batch ih =>
    rw [List.mapM_cons]
    rcases decodeEntry_outcome decode entry with ⟨hdecodes, payload, hentry⟩ | ⟨hdecodes, e, hentry⟩
    · rw [hentry]
      rcases ih with ⟨hall, out, hout, hids⟩ | ⟨⟨bad, hmem, hbad⟩, e, he⟩
      · rw [hout]
        refine .inl ⟨List.forall_mem_cons.mpr ⟨hdecodes, hall⟩, ⟨entry.2, payload⟩ :: out, rfl, ?_⟩
        rw [List.map_cons, List.map_cons, hids]
      · rw [he]
        exact .inr ⟨⟨bad, List.mem_cons_of_mem _ hmem, hbad⟩, e, rfl⟩
    · rw [hentry]
      exact .inr ⟨⟨entry, List.mem_cons_self, hdecodes⟩, e, rfl⟩

end Entries

/-! ## The stream and its group -/

/-- A consumer group: how many entries it was past or has been delivered, and what is pending. -/
structure ConsumerGroup where
  lastDelivered : ℕ
  pending : List ℕ
deriving DecidableEq

/-- `ensure_group`: a new group starts at the current end, and one that exists is left alone. -/
def ensureGroup (entries : List RawEntry) : Option ConsumerGroup → ConsumerGroup
  | none => ⟨entries.length, []⟩
  | some group => group

/-- The stream, its group, and what the running consumer has been returned. -/
structure HotStream where
  entries : List RawEntry
  group : ConsumerGroup
  /-- The ids the running consumer got in batches. -/
  held : List ℕ
  /-- The ids that were acknowledged. -/
  acked : List ℕ

/-- What can happen. -/
inductive HotAction where
  | xadd (e : RawEntry)
  | nextBatch (maxCount : ℕ)
  | ack (id : ℕ)
  | restart

namespace HotStream

/-- The first consumer joins a stream. -/
def join (entries : List RawEntry) : HotStream := ⟨entries, ensureGroup entries none, [], []⟩

/-- The entries that were not delivered, with their ids. -/
def undelivered (s : HotStream) : List (RawEntry × ℕ) :=
  s.entries.zipIdx.drop s.group.lastDelivered

/-- What the server delivers next; a count of zero is no limit. -/
def batch (s : HotStream) (maxCount : ℕ) : List (RawEntry × ℕ) :=
  if maxCount = 0 then s.undelivered else s.undelivered.take maxCount

section Step

variable {T : Type*} (decode : List UInt8 → Except BusError T)

/-- `next_batch`: the server delivers the batch whether or not it decodes. -/
def nextBatch (s : HotStream) (maxCount : ℕ) : Except BusError (List (StreamEntry T)) × HotStream :=
  let batch := s.batch maxCount
  let reply := batch.mapM (decodeEntry decode)
  (reply, { s with
    group := ⟨s.group.lastDelivered + batch.length, s.group.pending ++ batch.map Prod.snd⟩
    held := match reply with
      | .ok out => s.held ++ out.map (·.id)
      | .error _ => s.held })

/-- `ack`; the id of an entry that is not pending changes nothing. -/
def ack (s : HotStream) (id : ℕ) : HotStream :=
  if id ∈ s.group.pending then
    { s with
      group := { s.group with pending := s.group.pending.filter (· ≠ id) }
      acked := s.acked ++ [id] }
  else s

/-- One action; only `nextBatch` has a reply. -/
def hotStep (s : HotStream) :
    HotAction → Option (Except BusError (List (StreamEntry T))) × HotStream
  | .xadd e => (none, { s with entries := s.entries ++ [e] })
  | .nextBatch maxCount => (some (s.nextBatch decode maxCount).1, (s.nextBatch decode maxCount).2)
  | .ack id => (none, s.ack id)
  | .restart => (none, { s with group := ensureGroup s.entries (some s.group), held := [] })

/-- Some number of further calls returns the entry. -/
def Deliverable (s : HotStream) (id : ℕ) : Prop :=
  ∃ sizes : List ℕ, ∃ out, some (.ok out) ∈ runOutputs (hotStep decode) s (sizes.map .nextBatch) ∧
    id ∈ out.map (·.id)

/-- No well-formed entry that came after the group and was not acknowledged is lost: it can still be
delivered, or the running consumer has it. -/
def AtLeastOnce (start : ℕ) (s : HotStream) : Prop :=
  ∀ id e, start ≤ id → s.entries[id]? = some e → e.Decodes decode → id ∉ s.acked →
    s.Deliverable decode id ∨ id ∈ s.held

/-- The action loses nothing: a batch is not mixed, and at a restart every well-formed entry in hand
has been acknowledged. -/
def LosesNothing (s : HotStream) : HotAction → Prop
  | .nextBatch maxCount => (∀ entry ∈ s.batch maxCount, entry.1.Decodes decode) ∨
      ∀ entry ∈ s.batch maxCount, ¬ entry.1.Decodes decode
  | .restart => ∀ id ∈ s.held, ∀ e, s.entries[id]? = some e → e.Decodes decode → id ∈ s.acked
  | _ => True

end Step

/-! ## Batches -/

section Batch

variable {s : HotStream}

theorem mem_take_undelivered_iff {count id : ℕ} {e : RawEntry} :
    (e, id) ∈ s.undelivered.take count ↔
      s.entries[id]? = some e ∧ s.group.lastDelivered ≤ id ∧
        id < s.group.lastDelivered + count := by
  simp only [undelivered, List.mem_iff_getElem?, List.getElem?_take, List.getElem?_drop,
    List.getElem?_zipIdx]
  constructor
  · rintro ⟨k, hk⟩
    split_ifs at hk with hlt
    obtain ⟨e', he', hpair⟩ := Option.map_eq_some_iff.mp hk
    cases hpair
    refine ⟨?_, by omega, by omega⟩
    rw [Nat.zero_add]
    exact he'
  · rintro ⟨he, hle, hlt⟩
    refine ⟨id - s.group.lastDelivered, ?_⟩
    rw [if_pos (by omega), Nat.add_sub_cancel' hle, he, Nat.zero_add]
    rfl

theorem batch_eq_take (maxCount : ℕ) :
    s.batch maxCount = s.undelivered.take (s.batch maxCount).length := by
  unfold batch
  split_ifs
  · exact List.take_length.symm
  · rw [List.length_take, List.take_eq_take_iff]
    omega

theorem length_batch_le_undelivered (maxCount : ℕ) :
    (s.batch maxCount).length ≤ s.undelivered.length := by
  unfold batch
  split_ifs
  · exact Nat.le_refl _
  · exact List.length_take_le' _ _

/-- A batch is the entries from the last delivered one on. -/
theorem mem_batch_iff {maxCount id : ℕ} {e : RawEntry} :
    (e, id) ∈ s.batch maxCount ↔ s.entries[id]? = some e ∧ s.group.lastDelivered ≤ id ∧
      id < s.group.lastDelivered + (s.batch maxCount).length := by
  rw [batch_eq_take, mem_take_undelivered_iff, List.length_take,
    Nat.min_eq_left (length_batch_le_undelivered maxCount)]

theorem length_batch_le (maxCount : ℕ) :
    (s.batch maxCount).length ≤ s.entries.length - s.group.lastDelivered := by
  have hall : s.undelivered.length = s.entries.length - s.group.lastDelivered := by
    rw [undelivered, List.length_drop, List.length_zipIdx]
  exact (length_batch_le_undelivered maxCount).trans hall.le

/-- The ids of a batch. -/
theorem mem_batchIds_iff (hle : s.group.lastDelivered ≤ s.entries.length) {maxCount id : ℕ} :
    id ∈ (s.batch maxCount).map Prod.snd ↔ s.group.lastDelivered ≤ id ∧
      id < s.group.lastDelivered + (s.batch maxCount).length := by
  have hlength := length_batch_le (s := s) maxCount
  rw [List.mem_map]
  constructor
  · rintro ⟨⟨e, id⟩, hmem, rfl⟩
    exact (mem_batch_iff.mp hmem).2
  · rintro ⟨hlow, hhigh⟩
    have hlt : id < s.entries.length := by omega
    exact ⟨(s.entries[id], id), mem_batch_iff.mpr ⟨List.getElem?_eq_getElem hlt, hlow, hhigh⟩, rfl⟩

end Batch

/-! ## Where an entry is -/

/-- An entry that came after the group is delivered in order, and is then pending until it is
acknowledged. -/
structure Tracked (start : ℕ) (s : HotStream) : Prop where
  start_le : start ≤ s.group.lastDelivered
  delivered_le : s.group.lastDelivered ≤ s.entries.length
  acked_lt : ∀ id ∈ s.acked, id < s.group.lastDelivered
  held_mem : ∀ id ∈ s.held, start ≤ id ∧ id < s.group.lastDelivered
  pending_iff : ∀ id, id ∈ s.group.pending ↔
    start ≤ id ∧ id < s.group.lastDelivered ∧ id ∉ s.acked

theorem tracked_join (entries : List RawEntry) : Tracked entries.length (join entries) where
  start_le := Nat.le_refl _
  delivered_le := Nat.le_refl _
  acked_lt _ h := absurd h List.not_mem_nil
  held_mem _ h := absurd h List.not_mem_nil
  pending_iff id := by
    refine iff_of_false List.not_mem_nil ?_
    rintro ⟨hle, hlt, -⟩
    exact absurd hlt (Nat.not_lt.mpr hle)

section Track

variable {T : Type*} {decode : List UInt8 → Except BusError T} {start : ℕ} {s : HotStream}

/-- What a call does to what is in hand. -/
theorem held_nextBatch (decode : List UInt8 → Except BusError T) (s : HotStream) (maxCount : ℕ) :
    ((∀ entry ∈ s.batch maxCount, entry.1.Decodes decode) ∧
      (s.nextBatch decode maxCount).2.held = s.held ++ (s.batch maxCount).map Prod.snd) ∨
    ((∃ entry ∈ s.batch maxCount, ¬ entry.1.Decodes decode) ∧
      (s.nextBatch decode maxCount).2.held = s.held) := by
  rcases decodeEntries_outcome decode (s.batch maxCount) with
    ⟨hall, out, hout, hids⟩ | ⟨hbad, e, he⟩
  · refine .inl ⟨hall, ?_⟩
    rw [← hids]
    simp only [HotStream.nextBatch, hout]
  · refine .inr ⟨hbad, ?_⟩
    simp only [HotStream.nextBatch, he]

theorem Tracked.nextBatch (h : Tracked start s) (maxCount : ℕ) :
    Tracked start (s.nextBatch decode maxCount).2 := by
  have hlength := length_batch_le (s := s) maxCount
  have hle := h.delivered_le
  have hstart := h.start_le
  refine ⟨h.start_le.trans (Nat.le_add_right _ _), ?_, ?_, ?_, ?_⟩
  · show s.group.lastDelivered + (s.batch maxCount).length ≤ s.entries.length
    omega
  · intro id hid
    exact Nat.lt_add_right _ (h.acked_lt id hid)
  · intro id hid
    show start ≤ id ∧ id < s.group.lastDelivered + (s.batch maxCount).length
    have hold : id ∈ s.held → start ≤ id ∧ id < s.group.lastDelivered := h.held_mem id
    rcases held_nextBatch decode s maxCount with ⟨-, hheld⟩ | ⟨-, hheld⟩
    · rw [hheld, List.mem_append, mem_batchIds_iff hle] at hid
      rcases hid with hid | ⟨hlow, hhigh⟩
      · exact ⟨(hold hid).1, Nat.lt_add_right _ (hold hid).2⟩
      · exact ⟨hstart.trans hlow, hhigh⟩
    · rw [hheld] at hid
      exact ⟨(hold hid).1, Nat.lt_add_right _ (hold hid).2⟩
  · intro id
    show id ∈ s.group.pending ++ (s.batch maxCount).map Prod.snd ↔ start ≤ id ∧
      id < s.group.lastDelivered + (s.batch maxCount).length ∧ id ∉ s.acked
    rw [List.mem_append, h.pending_iff, mem_batchIds_iff hle]
    have hacked := h.acked_lt id
    constructor
    · rintro (⟨hlow, hhigh, hnot⟩ | ⟨hlow, hhigh⟩)
      · exact ⟨hlow, by omega, hnot⟩
      · exact ⟨by omega, hhigh, fun hid => absurd (hacked hid) (by omega)⟩
    · rintro ⟨hlow, hhigh, hnot⟩
      by_cases hold : id < s.group.lastDelivered
      · exact .inl ⟨hlow, hold, hnot⟩
      · exact .inr ⟨by omega, hhigh⟩

theorem Tracked.ack (h : Tracked start s) (id : ℕ) : Tracked start (s.ack id) := by
  unfold HotStream.ack
  split_ifs with hpending
  · refine ⟨h.start_le, h.delivered_le, ?_, h.held_mem, ?_⟩
    · intro other hother
      rcases List.mem_append.mp hother with hother | hother
      · exact h.acked_lt other hother
      · rw [List.mem_singleton.mp hother]
        exact ((h.pending_iff id).mp hpending).2.1
    · intro other
      show other ∈ s.group.pending.filter (· ≠ id) ↔
        start ≤ other ∧ other < s.group.lastDelivered ∧ other ∉ s.acked ++ [id]
      rw [List.mem_filter, h.pending_iff, decide_eq_true_eq, List.mem_append, List.mem_singleton,
        not_or]
      tauto
  · exact h

/-- One step. -/
theorem tracked_hotStep (h : Tracked start s) (a : HotAction) :
    Tracked start (hotStep decode s a).2 := by
  cases a with
  | xadd e =>
    refine ⟨h.start_le, h.delivered_le.trans ?_, h.acked_lt, h.held_mem, h.pending_iff⟩
    show s.entries.length ≤ (s.entries ++ [e]).length
    rw [List.length_append]
    exact Nat.le_add_right _ _
  | nextBatch maxCount => exact h.nextBatch maxCount
  | ack id => exact h.ack id
  | restart =>
    exact ⟨h.start_le, h.delivered_le, h.acked_lt, fun _ hid => absurd hid List.not_mem_nil,
      h.pending_iff⟩

/-! ## What can still be delivered -/

/-- A reply holds entries from the last delivered one on only. -/
theorem le_of_mem_reply {maxCount id : ℕ} {out : List (StreamEntry T)}
    (hout : (s.nextBatch decode maxCount).1 = .ok out) (hid : id ∈ out.map (·.id)) :
    s.group.lastDelivered ≤ id := by
  rcases decodeEntries_outcome decode (s.batch maxCount) with ⟨-, out', hout', hids⟩ | ⟨-, e, he⟩
  · cases hout.symm.trans hout'
    rw [hids] at hid
    obtain ⟨⟨e, id⟩, hmem, rfl⟩ := List.mem_map.mp hid
    exact (mem_batch_iff.mp hmem).2.1
  · cases hout.symm.trans he

theorem le_of_deliverable {id : ℕ} (h : s.Deliverable decode id) : s.group.lastDelivered ≤ id := by
  obtain ⟨sizes, out, hreply, hid⟩ := h
  induction sizes generalizing s with
  | nil => cases hreply
  | cons maxCount sizes ih =>
    rcases List.mem_cons.mp hreply with hnow | hlater
    · exact le_of_mem_reply (Option.some.inj hnow).symm hid
    · exact (Nat.le_add_right _ _).trans (ih hlater)

/-- A well-formed entry that was not delivered comes in a batch of its own after those before it. -/
theorem deliverable_of_le {id : ℕ} {e : RawEntry} (he : s.entries[id]? = some e)
    (hdecodes : e.Decodes decode) (hle : s.group.lastDelivered ≤ id) :
    s.Deliverable decode id := by
  obtain ⟨n, hn⟩ := Nat.exists_eq_add_of_le hle
  have hlt : id < s.entries.length := (List.getElem?_eq_some_iff.mp he).1
  have hone : ∀ t : HotStream, t.group.lastDelivered < t.entries.length →
      (t.batch 1).length = 1 := by
    intro t ht
    rw [batch, if_neg Nat.one_ne_zero, undelivered, List.length_take, List.length_drop,
      List.length_zipIdx]
    omega
  induction n generalizing s with
  | zero =>
    have hmem : (e, id) ∈ s.batch 1 := by
      rw [mem_batch_iff, hone s (by omega)]
      exact ⟨he, hle, by omega⟩
    obtain ⟨entry, hbatch⟩ := List.length_eq_one_iff.mp (hone s (by omega))
    rw [hbatch, List.mem_singleton] at hmem
    rcases decodeEntries_outcome decode (s.batch 1) with
      ⟨-, out, hout, hids⟩ | ⟨⟨bad, hbad, hno⟩, -⟩
    · refine ⟨[1], out, List.mem_cons.mpr (.inl (congrArg some hout.symm)), ?_⟩
      rw [hids, hbatch, ← hmem]
      exact List.mem_cons_self
    · rw [hbatch, List.mem_singleton] at hbad
      rw [hbad, ← hmem] at hno
      exact absurd hdecodes hno
  | succ n ih =>
    obtain ⟨sizes, out, hreply, hid⟩ := ih (s := (s.nextBatch decode 1).2) he
      (by show s.group.lastDelivered + (s.batch 1).length ≤ id; rw [hone s (by omega)]; omega)
      (by show id = s.group.lastDelivered + (s.batch 1).length + n; rw [hone s (by omega)]; omega)
      hlt
    exact ⟨1 :: sizes, out, List.mem_cons_of_mem _ hreply, hid⟩

/-! ## What is lost -/

/-- The running consumer has every well-formed entry that is pending. -/
def PendingHeld (decode : List UInt8 → Except BusError T) (s : HotStream) : Prop :=
  ∀ id e, s.entries[id]? = some e → e.Decodes decode → id ∈ s.group.pending → id ∈ s.held

/-- The entries that can be lost are the pending ones. -/
theorem atLeastOnce_iff (h : Tracked start s) :
    AtLeastOnce decode start s ↔ PendingHeld decode s := by
  constructor
  · intro honce id e he hdecodes hpending
    obtain ⟨hstart, hlt, hnot⟩ := (h.pending_iff id).mp hpending
    rcases honce id e hstart he hdecodes hnot with hdeliverable | hheld
    · exact absurd (le_of_deliverable hdeliverable) (Nat.not_le.mpr hlt)
    · exact hheld
  · intro hheld id e hstart he hdecodes hnot
    by_cases hlt : id < s.group.lastDelivered
    · exact .inr (hheld id e he hdecodes ((h.pending_iff id).mpr ⟨hstart, hlt, hnot⟩))
    · exact .inl (deliverable_of_le he hdecodes (Nat.not_lt.mp hlt))

/-- A call keeps what is pending in hand exactly if its batch is not mixed. -/
theorem pendingHeld_nextBatch_iff (h : Tracked start s) (hheld : PendingHeld decode s)
    (maxCount : ℕ) : PendingHeld decode (s.nextBatch decode maxCount).2 ↔
      LosesNothing decode s (.nextBatch maxCount) := by
  rcases held_nextBatch decode s maxCount with ⟨hall, hin⟩ | ⟨⟨bad, hbad, hno⟩, hin⟩
  · refine iff_of_true ?_ (.inl hall)
    intro id e he hdecodes hpending
    rw [hin, List.mem_append]
    rcases List.mem_append.mp hpending with hold | hnew
    · exact .inl (hheld id e he hdecodes hold)
    · exact .inr hnew
  · constructor
    · intro hkept
      refine .inr fun entry hentry hdecodes => ?_
      have hmem := mem_batch_iff.mp hentry
      -- it is pending now, and not in hand
      have hid := hkept entry.2 entry.1 hmem.1 hdecodes
        (List.mem_append_right _ (List.mem_map_of_mem hentry))
      rw [hin] at hid
      exact absurd (h.held_mem _ hid).2 (Nat.not_lt.mpr hmem.2.1)
    · rintro (hall | hnone)
      · exact absurd (hall bad hbad) hno
      · intro id e he hdecodes hpending
        rw [hin]
        rcases List.mem_append.mp hpending with hold | hnew
        · exact hheld id e he hdecodes hold
        · have hids := (mem_batchIds_iff h.delivered_le).mp hnew
          exact absurd hdecodes (hnone (e, id) (mem_batch_iff.mpr ⟨he, hids⟩))

/-- A restart keeps what is pending in hand exactly if nothing in hand was pending. -/
theorem pendingHeld_restart_iff (h : Tracked start s) (hheld : PendingHeld decode s) :
    PendingHeld decode (hotStep decode s .restart).2 ↔ LosesNothing decode s .restart := by
  constructor
  · intro hkept id hid e he hdecodes
    by_contra hnot
    obtain ⟨hlow, hhigh⟩ := h.held_mem id hid
    have hpending := (h.pending_iff id).mpr ⟨hlow, hhigh, hnot⟩
    exact absurd (hkept id e he hdecodes hpending) List.not_mem_nil
  · intro hacked id e he hdecodes hpending
    have hnot := ((h.pending_iff id).mp hpending).2.2
    exact absurd (hacked id (hheld id e he hdecodes hpending) e he hdecodes) hnot

/-- One step: what is pending stays in hand exactly if the action loses nothing. -/
theorem pendingHeld_hotStep_iff (h : Tracked start s) (hheld : PendingHeld decode s)
    (a : HotAction) : PendingHeld decode (hotStep decode s a).2 ↔ LosesNothing decode s a := by
  cases a with
  | xadd e =>
    refine iff_of_true ?_ trivial
    intro id e' he' hdecodes hpending
    have hlt := (((h.pending_iff id).mp hpending).2.1).trans_le h.delivered_le
    refine hheld id e' ?_ hdecodes hpending
    rw [← he']
    exact (List.getElem?_append_left hlt).symm
  | nextBatch maxCount => exact pendingHeld_nextBatch_iff h hheld maxCount
  | ack id =>
    refine iff_of_true ?_ trivial
    show PendingHeld decode (s.ack id)
    unfold HotStream.ack
    split_ifs
    · intro other e he hdecodes hpending
      exact hheld other e he hdecodes (List.mem_of_mem_filter hpending)
    · exact hheld
  | restart => exact pendingHeld_restart_iff h hheld

end Track

/-- For every codec and every run: no well-formed entry is lost at any time exactly if no action of
the run loses one. -/
theorem at_least_once_iff {T : Type*} (decode : List UInt8 → Except BusError T)
    (entries : List RawEntry) (acts : List HotAction) :
    (∀ pre post, acts = pre ++ post →
      AtLeastOnce decode entries.length (runState (hotStep decode) (join entries) pre)) ↔
    ∀ pre a post, acts = pre ++ a :: post →
      LosesNothing decode (runState (hotStep decode) (join entries) pre) a := by
  have htracked : ∀ pre, Tracked entries.length (runState (hotStep decode) (join entries) pre) :=
    runState_invariant_all (hotStep decode) (Tracked entries.length)
      (fun _ a h => tracked_hotStep h a) (tracked_join entries)
  rw [← runState_forall_iff (hotStep decode) (Tracked entries.length) (PendingHeld decode)
    (LosesNothing decode) (fun _ a h => tracked_hotStep h a)
    (fun _ a h hheld => pendingHeld_hotStep_iff h hheld a) (tracked_join entries)
    (fun _ _ _ _ hpending => absurd hpending List.not_mem_nil)]
  exact forall_congr' fun pre => forall_congr' fun post => forall_congr' fun _ =>
    atLeastOnce_iff (htracked pre)

/-- Payloads of one byte. -/
def decodeByte : List UInt8 → Except BusError UInt8
  | [b] => .ok b
  | _ => .error (.decode "one byte")

/-- A good entry and one without its field. -/
def goodThenBad : List HotAction :=
  [.xadd ⟨(∅ : Map String RedisValue).insert payloadField (.bytes [7])⟩, .xadd ⟨∅⟩, .nextBatch 2]

/-- The good entry is lost with the other one of its batch. -/
theorem entry_lost_with_its_batch :
    ¬ ∀ pre post, goodThenBad = pre ++ post →
      AtLeastOnce decodeByte 0 (runState (hotStep decodeByte) (join []) pre) := by
  intro h
  have hsplit : goodThenBad = goodThenBad ++ [] := (List.append_nil _).symm
  rcases h goodThenBad [] hsplit 0 _ (Nat.le_refl _) rfl ⟨[7], 7, by decide, rfl⟩ (by decide) with
    hdeliverable | hheld
  · exact absurd (le_of_deliverable hdeliverable) (by decide)
  · revert hheld
    decide

end HotStream

end Hedge.Bus
