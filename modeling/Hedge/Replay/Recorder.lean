import Hedge.Replay.Player
import Hedge.Replay.RoundTrip

/-!
# The recorder

Reference: `hedge-replay/src/recorder.rs`.

A call of `record` stamps a record with the next sequence number, appends it to the segments and
publishes it on the Redis stream, if one is attached. A call is given with what the environment does
in it: the clock readings, the step of the append that fails, and whether `XADD` fails.

The counter moves only at the end of a call that succeeds altogether. A record that is on disk when
`XADD` fails has used its number, and the next record gets the same one: `ledger_gap_free`.
-/

namespace Hedge.Replay

open Hedge.Common

/-- `Recorder`. -/
structure Recorder where
  sessionId : UInt64
  store : Store
  redisProducer : Bool
  nextSeq : UInt64
  bytesWritten : UInt64
  recordsAppended : UInt64

/-- A call of `record` and what happens in it. -/
structure RecordCall where
  kind : RecordKind
  payload : List UInt8
  monotonicNs : UInt64
  wallclockUtc : Int64
  fault : Option IoStep
  xaddError : Option String
  deriving DecidableEq, Repr

namespace Recorder

/-- `Recorder::new`, or `Recorder::with_redis` with a producer, on an empty root. -/
def new (sessionId maxSegmentBytes : UInt64) (redisProducer : Bool) : Recorder :=
  { sessionId, store := .new maxSegmentBytes, redisProducer, nextSeq := 0, bytesWritten := 0,
    recordsAppended := 0 }

/-- `Recorder::record_raw`, with the step of the append that fails and the error of `XADD`. -/
def recordRaw (codec : RecordCodec) (fault : Option IoStep) (xaddError : Option String)
    (recorder : Recorder) (record : ReplayRecord) : Except ReplayError UInt64 × Recorder :=
  if record.sequenceNo ≠ recorder.nextSeq then
    (.error (.sequenceInvariant recorder.sessionId recorder.nextSeq record.sequenceNo), recorder)
  else if record.sessionId ≠ recorder.sessionId then
    (.error (.config ("record.session_id (" ++ toString record.sessionId ++
      ") does not match recorder.session_id (" ++ toString recorder.sessionId ++ ")")), recorder)
  else
    match recorder.store.append codec fault record with
    | (.error e, store) => (.error (.segmentIo e), { recorder with store })
    | (.ok _, store) =>
      let bytesWritten := recorder.bytesWritten.saturatingAdd (Store.frameSize codec record)
      let recorder := { recorder with store, bytesWritten }
      match recorder.redisProducer, xaddError with
      | true, some message => (.error (.bus message), recorder)
      | _, _ =>
        (.ok recorder.nextSeq,
          { recorder with
            nextSeq := recorder.nextSeq.saturatingAdd 1
            recordsAppended := recorder.recordsAppended.saturatingAdd 1 })

/-- The record that a call of `record` builds. -/
def stamp (recorder : Recorder) (call : RecordCall) : ReplayRecord :=
  { sessionId := recorder.sessionId
    sequenceNo := recorder.nextSeq
    monotonicNs := call.monotonicNs
    wallclockUtc := call.wallclockUtc
    kind := call.kind
    payload := call.payload }

/-- `Recorder::record`. -/
def record (codec : RecordCodec) (recorder : Recorder) (call : RecordCall) :
    Except ReplayError UInt64 × Recorder :=
  recorder.recordRaw codec call.fault call.xaddError (recorder.stamp call)

/-! ## One call -/

/-- The append of the call succeeds: the record is on disk. -/
def Appends (codec : RecordCodec) (recorder : Recorder) (call : RecordCall) : Prop :=
  (recorder.store.append codec call.fault (recorder.stamp call)).1.isOk = true

instance (codec : RecordCodec) (recorder : Recorder) (call : RecordCall) :
    Decidable (recorder.Appends codec call) :=
  inferInstanceAs (Decidable (_ = true))

/-- `XADD` fails in the call. -/
def XaddFails (recorder : Recorder) (call : RecordCall) : Prop :=
  recorder.redisProducer = true ∧ call.xaddError ≠ none

instance (recorder : Recorder) (call : RecordCall) : Decidable (recorder.XaddFails call) :=
  inferInstanceAs (Decidable (_ ∧ _))

/-- The fields a call may change, after it. -/
structure After (codec : RecordCodec) (recorder : Recorder) (call : RecordCall)
    (nextSeq : UInt64) (after : Recorder) : Prop where
  store : after.store = (recorder.store.append codec call.fault (recorder.stamp call)).2
  sessionId : after.sessionId = recorder.sessionId
  nextSeq : after.nextSeq = nextSeq

/-- A call uses its number up if the record is on disk and has been published. -/
theorem record_cases (codec : RecordCodec) (recorder : Recorder) (call : RecordCall) :
    (¬ (recorder.Appends codec call ∧ ¬ recorder.XaddFails call) ∧
      After codec recorder call recorder.nextSeq (recorder.record codec call).2) ∨
    (recorder.Appends codec call ∧ ¬ recorder.XaddFails call ∧
      After codec recorder call (recorder.nextSeq.saturatingAdd 1)
        (recorder.record codec call).2) := by
  have hseq : ¬ (recorder.stamp call).sequenceNo ≠ recorder.nextSeq := not_not.mpr rfl
  have hsession : ¬ (recorder.stamp call).sessionId ≠ recorder.sessionId := not_not.mpr rfl
  rw [record, recordRaw, if_neg hseq, if_neg hsession]
  rcases happend : recorder.store.append codec call.fault (recorder.stamp call) with
    ⟨result, store⟩
  cases result with
  | error e =>
    have hfails : ¬ recorder.Appends codec call := by
      rw [Appends, happend]
      exact Bool.false_ne_true
    exact .inl ⟨fun h => hfails h.1, by rw [happend], rfl, rfl⟩
  | ok path =>
    have happends : recorder.Appends codec call := by
      rw [Appends, happend]
      rfl
    cases hredis : recorder.redisProducer with
    | false =>
      have hxadd : ¬ recorder.XaddFails call := by
        rintro ⟨htrue, -⟩
        rw [hredis] at htrue
        cases htrue
      exact .inr ⟨happends, hxadd, by rw [happend], rfl, rfl⟩
    | true =>
      cases herror : call.xaddError with
      | none =>
        have hxadd : ¬ recorder.XaddFails call := fun h => h.2 herror
        exact .inr ⟨happends, hxadd, by rw [happend], rfl, rfl⟩
      | some message =>
        have hxadd : recorder.XaddFails call := ⟨hredis, by rw [herror]; exact Option.some_ne_none _⟩
        exact .inl ⟨fun h => h.2 hxadd, by rw [happend], rfl, rfl⟩

/-! ## Sequence numbers over a run -/

/-- The recorder after a run of calls. -/
def after (codec : RecordCodec) (recorder : Recorder) (calls : List RecordCall) : Recorder :=
  runState (record codec) recorder calls

/-- The record a call puts on disk. -/
def written (codec : RecordCodec) (recorder : Recorder) (call : RecordCall) : List ReplayRecord :=
  if recorder.Appends codec call then [recorder.stamp call] else []

/-- The records a run puts on disk, in order. -/
def writtenBy (codec : RecordCodec) (recorder : Recorder) (calls : List RecordCall) :
    List ReplayRecord :=
  runCollect (record codec) (written codec) recorder calls

/-- No record follows on disk after one that was appended while its `XADD` failed. -/
def NoReuse (codec : RecordCodec) (recorder : Recorder) (calls : List RecordCall) : Prop :=
  ∀ pre a mid b post, calls = pre ++ a :: (mid ++ b :: post) →
    (recorder.after codec pre).Appends codec a → (recorder.after codec pre).XaddFails a →
    ¬ (recorder.after codec (pre ++ a :: mid)).Appends codec b

variable {codec : RecordCodec} {recorder : Recorder} {call : RecordCall} {calls : List RecordCall}

theorem writtenBy_cons_of_appends (h : recorder.Appends codec call) :
    recorder.writtenBy codec (call :: calls)
      = recorder.stamp call :: (recorder.record codec call).2.writtenBy codec calls := by
  rw [writtenBy, runCollect_cons, written, if_pos h, List.singleton_append, writtenBy]

theorem writtenBy_cons_of_not (h : ¬ recorder.Appends codec call) :
    recorder.writtenBy codec (call :: calls)
      = (recorder.record codec call).2.writtenBy codec calls := by
  rw [writtenBy, runCollect_cons, written, if_neg h, List.nil_append, writtenBy]

/-- Nothing is written exactly if no append succeeds. -/
theorem writtenBy_eq_nil_iff :
    recorder.writtenBy codec calls = [] ↔
      ∀ pre b post, calls = pre ++ b :: post → ¬ (recorder.after codec pre).Appends codec b := by
  rw [List.eq_nil_iff_forall_not_mem, writtenBy]
  refine forall_mem_runCollect_iff.trans ?_
  refine forall_congr' fun pre => forall_congr' fun b => forall_congr' fun post =>
    forall_congr' fun _ => ?_
  rw [written, ← after]
  split_ifs with h
  · simp [h]
  · simp [h]

theorem noReuse_cons :
    recorder.NoReuse codec (call :: calls) ↔
      (recorder.Appends codec call → recorder.XaddFails call →
        (recorder.record codec call).2.writtenBy codec calls = []) ∧
      (recorder.record codec call).2.NoReuse codec calls := by
  constructor
  · intro h
    refine ⟨fun happends hxadd => writtenBy_eq_nil_iff.mpr fun pre b post hsplit => ?_, ?_⟩
    · exact h [] call pre b post (by rw [hsplit]; rfl) happends hxadd
    · intro pre a mid b post hsplit
      exact h (call :: pre) a mid b post (by rw [hsplit]; rfl)
  · rintro ⟨hhead, htail⟩ pre a mid b post hsplit happends hxadd
    cases pre with
    | nil =>
      obtain ⟨rfl, hcalls⟩ := List.cons_eq_cons.mp hsplit
      exact writtenBy_eq_nil_iff.mp (hhead happends hxadd) mid b post hcalls
    | cons c pre =>
      obtain ⟨rfl, hcalls⟩ := List.cons_eq_cons.mp hsplit
      exact htail pre a mid b post hcalls happends hxadd

/-- The first record a run writes has the number the recorder stands at. -/
theorem head_writtenBy {first : ReplayRecord} {rest : List ReplayRecord}
    (h : recorder.writtenBy codec calls = first :: rest) : first.sequenceNo = recorder.nextSeq := by
  induction calls generalizing recorder with
  | nil => cases h
  | cons call calls ih =>
    by_cases happends : recorder.Appends codec call
    · rw [writtenBy_cons_of_appends happends] at h
      rw [← (List.cons_eq_cons.mp h).1]
      rfl
    · rw [writtenBy_cons_of_not happends] at h
      rcases record_cases codec recorder call with ⟨-, hafter⟩ | ⟨hok, -, -⟩
      · rw [ih h, hafter.nextSeq]
      · exact absurd hok happends

/-- The records written are numbered from where the recorder stands, without gap or repetition. -/
def Numbered (codec : RecordCodec) (recorder : Recorder) (calls : List RecordCall) : Prop :=
  (recorder.writtenBy codec calls).map (·.sequenceNo.toNat)
    = List.range' recorder.nextSeq.toNat (recorder.writtenBy codec calls).length

theorem numbered_cons_of_appends (happends : recorder.Appends codec call) :
    recorder.Numbered codec (call :: calls) ↔
      ((recorder.record codec call).2.writtenBy codec calls).map (·.sequenceNo.toNat)
        = List.range' (recorder.nextSeq.toNat + 1)
            ((recorder.record codec call).2.writtenBy codec calls).length := by
  rw [Numbered, writtenBy_cons_of_appends happends, List.map_cons, List.length_cons,
    List.range'_succ, List.cons_eq_cons]
  exact and_iff_right rfl

theorem numbered_of_noReuse (h : recorder.NoReuse codec calls)
    (hlen : recorder.nextSeq.toNat + calls.length < 2 ^ 64) : recorder.Numbered codec calls := by
  induction calls generalizing recorder with
  | nil => rfl
  | cons call calls ih =>
    obtain ⟨hlast, hrest⟩ := noReuse_cons.mp h
    rw [List.length_cons] at hlen
    rcases record_cases codec recorder call with ⟨hnot, hafter⟩ | ⟨happends, -, hafter⟩
    · have hih := ih hrest (by rw [hafter.nextSeq]; omega)
      by_cases happends : recorder.Appends codec call
      · -- on disk, but not published: nothing follows
        have hxadd : recorder.XaddFails call := by
          by_contra hxadd
          exact hnot ⟨happends, hxadd⟩
        rw [numbered_cons_of_appends happends, hlast happends hxadd]
        rfl
      · rw [Numbered, writtenBy_cons_of_not happends, ← hafter.nextSeq]
        exact hih
    · have hnext : (recorder.record codec call).2.nextSeq.toNat = recorder.nextSeq.toNat + 1 := by
        have hone : (1 : UInt64).toNat = 1 := rfl
        rw [hafter.nextSeq, UInt64.toNat_saturatingAdd, hone]
        omega
      have hih := ih hrest (by omega)
      rw [Numbered, hnext] at hih
      exact (numbered_cons_of_appends happends).mpr hih

theorem noReuse_of_numbered (h : recorder.Numbered codec calls) : recorder.NoReuse codec calls := by
  induction calls generalizing recorder with
  | nil => exact fun pre a mid b post hsplit => by simp at hsplit
  | cons call calls ih =>
    rw [noReuse_cons]
    by_cases happends : recorder.Appends codec call
    · rw [numbered_cons_of_appends happends] at h
      cases hrest : (recorder.record codec call).2.writtenBy codec calls with
      | nil =>
        refine ⟨fun _ _ => rfl, fun pre a mid b post hsplit happends' => ?_⟩
        exact absurd happends' (writtenBy_eq_nil_iff.mp hrest pre a _ hsplit)
      | cons first rest =>
        -- the next record on disk has the next number, so the counter has moved
        have hnext : (recorder.record codec call).2.nextSeq.toNat = recorder.nextSeq.toNat + 1 := by
          rw [hrest, List.map_cons, List.length_cons, List.range'_succ, head_writtenBy hrest] at h
          exact (List.cons_eq_cons.mp h).1
        refine ⟨fun _ hxadd => ?_, ih ?_⟩
        · rcases record_cases codec recorder call with ⟨-, hafter⟩ | ⟨-, hnot, -⟩
          · rw [hafter.nextSeq] at hnext
            omega
          · exact absurd hxadd hnot
        · rwa [Numbered, hnext]
    · have hsame : (recorder.record codec call).2.nextSeq = recorder.nextSeq := by
        rcases record_cases codec recorder call with ⟨-, hafter⟩ | ⟨hok, -, -⟩
        · exact hafter.nextSeq
        · exact absurd hok happends
      rw [Numbered, writtenBy_cons_of_not happends, ← hsame] at h
      exact ⟨fun hok => absurd hok happends, ih h⟩

/-! ## The ledger reads back -/

/-- Each call makes one append. -/
def storeOp (recorder : Recorder) (call : RecordCall) : StoreOp :=
  .append call.fault (recorder.stamp call)

theorem store_record (codec : RecordCodec) (recorder : Recorder) (call : RecordCall) :
    (recorder.record codec call).2.store
      = ((recorder.storeOp call).step codec recorder.store).2 := by
  rcases record_cases codec recorder call with ⟨-, hafter⟩ | ⟨-, -, hafter⟩
  · exact hafter.store
  · exact hafter.store

theorem sessionId_after (codec : RecordCodec) (recorder : Recorder) (calls : List RecordCall) :
    (recorder.after codec calls).sessionId = recorder.sessionId := by
  refine runState_invariant_all (record codec) (fun r => r.sessionId = recorder.sessionId) ?_ rfl
    calls
  intro r call hsession
  rw [← hsession]
  rcases record_cases codec r call with ⟨-, hafter⟩ | ⟨-, -, hafter⟩
  · exact hafter.sessionId
  · exact hafter.sessionId

/-- The archives of all records of the run fit their frames. -/
def Fits (codec : RecordCodec) (recorder : Recorder) (calls : List RecordCall) : Prop :=
  ∀ pre call post, calls = pre ++ call :: post →
    codec.Fits ((recorder.after codec pre).stamp call)

/-- Every size rotation of the run gets a number of four digits. -/
def Room (codec : RecordCodec) (recorder : Recorder) (calls : List RecordCall) : Prop :=
  ∀ pre call post, calls = pre ++ call :: post →
    Store.Room codec (recorder.after codec pre).store ((recorder.after codec pre).stamp call)

/-- The session of the recorder reads back as what the run wrote. -/
theorem readSession_after {sessionId maxSegmentBytes : UInt64} {redisProducer : Bool}
    (hfits : (new sessionId maxSegmentBytes redisProducer).Fits codec calls)
    (hroom : (new sessionId maxSegmentBytes redisProducer).Room codec calls)
    (chunks : ℕ → List ℕ) :
    readSession codec
        ((new sessionId maxSegmentBytes redisProducer).after codec calls).store.dropped chunks
        sessionId
      = .ok ((new sessionId maxSegmentBytes redisProducer).writtenBy codec calls) := by
  have hread := readSession_run (record codec) Recorder.store storeOp (store_record codec) rfl
    hfits hroom chunks sessionId
  refine hread.trans (congrArg Except.ok ?_)
  refine runCollect_congr (fun r => r.sessionId = sessionId) (A := fun _ => True) ?_ ?_ rfl
    fun _ _ => trivial
  · intro r call _ hsession
    exact (sessionId_after codec r [call]).trans hsession
  · intro r call _ hsession
    have hrecord : (r.storeOp call).recordFor sessionId = [r.stamp call] := if_pos hsession
    rw [StoreOp.stored, hrecord, written]
    rfl

end Recorder

/-- The check of the player passes if the numbers are the positions. -/
theorem Player.firstGap_eq_none {sessionId : UInt64} {i : ℕ} {records : List ReplayRecord}
    (h : records.map (·.sequenceNo.toNat) = List.range' i records.length) :
    Player.firstGap sessionId i records = none := by
  induction records generalizing i with
  | nil => rfl
  | cons record records ih =>
    rw [List.map_cons, List.length_cons, List.range'_succ] at h
    obtain ⟨hhead, htail⟩ := List.cons_eq_cons.mp h
    have hnumber : record.sequenceNo = UInt64.ofNat i := by rw [← hhead, UInt64.ofNat_toNat]
    rw [Player.firstGap, if_neg (not_not.mpr hnumber), ih htail]

/-- The records on disk are numbered 0, 1, 2, … without gap or repetition, and the player opens the
session with all of them. -/
def GapFree (codec : RecordCodec) (sessionId maxSegmentBytes : UInt64) (redisProducer : Bool)
    (calls : List RecordCall) : Prop :=
  ((Recorder.new sessionId maxSegmentBytes redisProducer).writtenBy codec calls).map
      (·.sequenceNo.toNat)
    = List.range ((Recorder.new sessionId maxSegmentBytes redisProducer).writtenBy codec
        calls).length ∧
  ∀ chunks speed, Player.openSession codec
      ((Recorder.new sessionId maxSegmentBytes redisProducer).after codec calls).store.dropped
      chunks sessionId speed
    = .ok
      { sessionId
        records := (Recorder.new sessionId maxSegmentBytes redisProducer).writtenBy codec calls
        cursor := 0
        defaultSpeed := speed }

/-- **The ledger under failures.** Whatever fails in the calls of a fresh recorder, its ledger is
gap-free if no record is appended after one whose `XADD` failed, there are fewer than `2 ^ 64`
calls, every size rotation gets a number of four digits and every archive fits its frame; and it is
so only if no record is appended after one whose `XADD` failed. -/
theorem ledger_gap_free (codec : RecordCodec) (sessionId maxSegmentBytes : UInt64)
    (redisProducer : Bool) (calls : List RecordCall) :
    ((Recorder.new sessionId maxSegmentBytes redisProducer).NoReuse codec calls →
      calls.length < 2 ^ 64 →
      (Recorder.new sessionId maxSegmentBytes redisProducer).Room codec calls →
      (Recorder.new sessionId maxSegmentBytes redisProducer).Fits codec calls →
      GapFree codec sessionId maxSegmentBytes redisProducer calls) ∧
    (GapFree codec sessionId maxSegmentBytes redisProducer calls →
      (Recorder.new sessionId maxSegmentBytes redisProducer).NoReuse codec calls) := by
  have hzero : (Recorder.new sessionId maxSegmentBytes redisProducer).nextSeq.toNat = 0 := rfl
  constructor
  · intro hreuse hlen hroom hfits
    have hnumbered := Recorder.numbered_of_noReuse hreuse (by omega)
    rw [Recorder.Numbered, hzero] at hnumbered
    refine ⟨by rw [hnumbered, List.range_eq_range'], fun chunks speed => ?_⟩
    rw [Player.openSession, Recorder.readSession_after hfits hroom]
    simp only [Player.fromRecords, Player.firstGap_eq_none hnumbered]
  · rintro ⟨hnumbers, -⟩
    apply Recorder.noReuse_of_numbered
    rw [Recorder.Numbered, hzero, hnumbers, List.range_eq_range']

/-- A call that records a tick. -/
def tickCall (fault : Option IoStep) (xaddError : Option String) : RecordCall :=
  { kind := .tick, payload := [1, 2, 3], monotonicNs := 0, wallclockUtc := 0, fault, xaddError }

/-- A failed append in front and a failed `XADD` at the end leave no gap. -/
theorem ledger_gap_free_of_last_xadd :
    GapFree rkyvLayout 7 100 true
      [tickCall (some .openFile) none, tickCall none none, tickCall none (some "timeout")] := by
  have hlast : ∀ pre a rest, [tickCall (some .openFile) none, tickCall none none,
        tickCall none (some "timeout")] = pre ++ a :: rest →
      a.xaddError ≠ none → rest = [] := by
    refine forall_split_cons (by decide) (forall_split_cons (by decide) ?_)
    exact forall_split_cons (by decide) forall_split_nil
  refine (ledger_gap_free rkyvLayout 7 100 true _).1 ?_ (by decide) ?_ ?_
  · intro pre a mid b post hsplit _ hxadd
    exact absurd (hlast pre a _ hsplit hxadd.2) (by simp)
  · refine forall_split_cons (by decide) (forall_split_cons (by decide) ?_)
    exact forall_split_cons (by decide) forall_split_nil
  · refine forall_split_cons (by decide) (forall_split_cons (by decide) ?_)
    exact forall_split_cons (by decide) forall_split_nil

/-- `XADD` fails for the first record, and the second record gets the number zero as well. -/
theorem sequence_number_reused :
    ((Recorder.new 7 1073741824 true).writtenBy rkyvLayout
        [tickCall none (some "timeout"), tickCall none none]).map (·.sequenceNo) = [0, 0] ∧
      ¬ GapFree rkyvLayout 7 1073741824 true
        [tickCall none (some "timeout"), tickCall none none] := by
  refine ⟨by decide, fun h => ?_⟩
  exact absurd h.1 (by decide)

end Hedge.Replay
