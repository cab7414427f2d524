import Hedge.Common.Run
import Hedge.Replay.Store

/-!
# The ledger over runs of its writers

A run is a list of appends, each with the step the operating system fails, if any, and of changes of
the writer. Whatever fails, the records of the successful appends are on disk in append order
(`exists_holds_run`), and they read back as long as no session has more than 9999 segments
(`readSession_run`).

Not every append succeeds, even where the file system works. `store_round_trip` gives the condition:
the file of the session must be open, or the session be a new one. `recovers_iff` does the same for
failing rotations: a failed size rotation closes the file, and the writer then never gets back into
the session.
-/

namespace Hedge.Replay

open Hedge.Common

/-- One use of the store: an append, or a new writer on the same root. -/
inductive StoreOp where
  | append (fault : Option IoStep) (record : ReplayRecord)
  | reopen (maxSegmentBytes : UInt64)
  deriving DecidableEq, Repr

namespace StoreOp

/-- The effect of an operation, and whether it succeeds. -/
def step (codec : RecordCodec) (store : Store) : StoreOp → Bool × Store
  | .append fault record =>
    let (result, store) := store.append codec fault record
    (result.isOk, store)
  | .reopen maxSegmentBytes => (true, store.reopen maxSegmentBytes)

/-- The record an operation is to append to the session. -/
def recordFor (session : UInt64) : StoreOp → List ReplayRecord
  | .append _ record => if record.sessionId = session then [record] else []
  | .reopen _ => []

/-- The record an operation does append to the session. -/
def stored (codec : RecordCodec) (session : UInt64) (store : Store) (op : StoreOp) :
    List ReplayRecord :=
  if (step codec store op).1 then recordFor session op else []

/-- The archive of the operation's record fits a frame. -/
def Fits (codec : RecordCodec) : StoreOp → Prop
  | .append _ record => codec.Fits record
  | .reopen _ => True

instance (codec : RecordCodec) : (op : StoreOp) → Decidable (op.Fits codec)
  | .append _ record => inferInstanceAs (Decidable (codec.Fits record))
  | .reopen _ => .isTrue trivial

/-- A size rotation of the operation gets a number of four digits. -/
def Room (codec : RecordCodec) (store : Store) : StoreOp → Prop
  | .append _ record => Store.Room codec store record
  | .reopen _ => True

instance (codec : RecordCodec) (store : Store) : (op : StoreOp) → Decidable (op.Room codec store)
  | .append _ record => inferInstanceAs (Decidable (Store.Room codec store record))
  | .reopen _ => .isTrue trivial

end StoreOp

/-- The store after a run that starts with a new writer on an empty root. -/
def storeAfter (codec : RecordCodec) (maxSegmentBytes : UInt64) (ops : List StoreOp) : Store :=
  runState (StoreOp.step codec) (.new maxSegmentBytes) ops

/-- The records a run appends to a session, in order. -/
def storedBy (codec : RecordCodec) (maxSegmentBytes : UInt64) (session : UInt64)
    (ops : List StoreOp) : List ReplayRecord :=
  runCollect (StoreOp.step codec) (StoreOp.stored codec session) (.new maxSegmentBytes) ops

variable {codec : RecordCodec} {store : Store} {parts : UInt64 → List (List ReplayRecord)}

/-! ## Every run keeps the appended records -/

namespace Store

theorem not_isOk_of_error {α : Type} {result : Except IoError α} (h : ∃ e, result = .error e) :
    result.isOk = false := by
  obtain ⟨e, rfl⟩ := h
  rfl

theorem isOk_of_ok {α : Type} {result : Except IoError α} (h : ∃ a, result = .ok a) :
    result.isOk = true := by
  obtain ⟨a, rfl⟩ := h
  rfl

/-- An append adds its record to the session if it succeeds and changes no record otherwise. -/
theorem append_spec (h : Holds codec store parts) (fault : Option IoStep) (record : ReplayRecord) :
    ∃ parts', Holds codec (append codec fault store record).2 parts' ∧
      (∀ session, (parts' session).flatten = (parts session).flatten ++
        StoreOp.stored codec session store (.append fault record)) ∧
      (Room codec store record → (∀ session, (parts session).length ≤ 9999) →
        ∀ session, (parts' session).length ≤ 9999) := by
  have hstored : ∀ session, StoreOp.stored codec session store (.append fault record)
      = if (append codec fault store record).1.isOk then
          if record.sessionId = session then [record] else []
        else [] := fun _ => rfl
  -- the parts of the record's session are replaced, the others stay
  have hreplace : ∀ {segs : List (List ReplayRecord)} {added : List ReplayRecord},
      segs.flatten = (parts record.sessionId).flatten ++ added → ∀ session,
      (Function.update parts record.sessionId segs session).flatten
        = (parts session).flatten ++ if record.sessionId = session then added else [] := by
    intro segs added hsegs session
    by_cases hsession : record.sessionId = session
    · rw [← hsession, Function.update_self, if_pos rfl, hsegs]
    · rw [Function.update_of_ne (Ne.symm hsession), if_neg hsession, List.append_nil]
  have hlength : ∀ {segs : List (List ReplayRecord)}, segs.length ≤ 9999 →
      (∀ session, (parts session).length ≤ 9999) →
      ∀ session, (Function.update parts record.sessionId segs session).length ≤ 9999 := by
    intro segs hsegs hparts session
    by_cases hsession : session = record.sessionId
    · rwa [hsession, Function.update_self]
    · rw [Function.update_of_ne hsession]
      exact hparts session
  rcases append_cases h fault record with
    ⟨segs, hrolled, -, ⟨-, hok, hholds⟩ | ⟨-, herror, hholds⟩⟩ | ⟨herror, -, hholds, -, -⟩
  · refine ⟨_, hholds, fun session => ?_, fun hroom hparts => hlength ?_ hparts⟩
    · rw [hstored, isOk_of_ok hok, if_pos rfl]
      refine hreplace ?_ session
      rw [flatten_addLast hrolled.ne_nil, hrolled.flatten_eq]
    · rw [length_addLast hrolled.ne_nil]
      exact hrolled.length_le hroom (hparts _)
  · -- a write that fails after the roll may have added an empty part
    refine ⟨_, hholds, fun session => ?_, fun hroom hparts => hlength ?_ hparts⟩
    · have hsame := hreplace (hrolled.flatten_eq.trans (List.append_nil _).symm) session
      rw [ite_self] at hsame
      rw [hstored, not_isOk_of_error herror, hsame]
      rfl
    · exact hrolled.length_le hroom (hparts _)
  · refine ⟨parts, hholds, fun session => ?_, fun _ hparts => hparts⟩
    rw [hstored, not_isOk_of_error herror]
    exact (List.append_nil _).symm

end Store

theorem StoreOp.step_spec (h : store.Holds codec parts) (op : StoreOp) :
    ∃ parts', (op.step codec store).2.Holds codec parts' ∧
      (∀ session, (parts' session).flatten
        = (parts session).flatten ++ op.stored codec session store) ∧
      (op.Room codec store → (∀ session, (parts session).length ≤ 9999) →
        ∀ session, (parts' session).length ≤ 9999) := by
  cases op with
  | append fault record => exact Store.append_spec h fault record
  | reopen maxSegmentBytes =>
    exact ⟨parts, h.reopen maxSegmentBytes, fun _ => (List.append_nil _).symm, fun _ hle => hle⟩

/-! A machine that uses the store makes a store operation in each of its steps. -/

section Client

variable {σ α β : Type*} (step : σ → α → β × σ) (storeOf : σ → Store) (opOf : σ → α → StoreOp)

/-- After every run each session is on disk with the records that were appended to it, in order. -/
theorem exists_holds_run
    (hstep : ∀ s a, storeOf (step s a).2 = ((opOf s a).step codec (storeOf s)).2) {s : σ}
    (h : (storeOf s).Holds codec parts) (as : List α) :
    ∃ parts', (storeOf (runState step s as)).Holds codec parts' ∧
      (∀ session, (parts' session).flatten = (parts session).flatten ++
        runCollect step (fun s a => (opOf s a).stored codec session (storeOf s)) s as) ∧
      ((∀ pre a post, as = pre ++ a :: post →
          (opOf (runState step s pre) a).Room codec (storeOf (runState step s pre))) →
        (∀ session, (parts session).length ≤ 9999) →
        ∀ session, (parts' session).length ≤ 9999) := by
  induction as generalizing s parts with
  | nil => exact ⟨parts, h, fun _ => (List.append_nil _).symm, fun _ hle => hle⟩
  | cons a as ih =>
    obtain ⟨mid, hmid, hflatten, hlength⟩ := (opOf s a).step_spec h
    rw [← hstep] at hmid
    obtain ⟨parts', hholds, hflatten', hlength'⟩ := ih hmid
    refine ⟨parts', hholds, fun session => ?_, fun hroom hparts => ?_⟩
    · rw [hflatten', hflatten, runCollect_cons, List.append_assoc]
    · refine hlength' (fun pre b post hsplit => ?_) (hlength (hroom [] a as rfl) hparts)
      exact hroom (a :: pre) b post (by rw [hsplit]; rfl)

theorem StoreOp.fits_of_mem_stored {session : UInt64} {op : StoreOp} (h : op.Fits codec) :
    ∀ record ∈ op.stored codec session store, codec.Fits record := by
  intro record hmem
  rw [StoreOp.stored] at hmem
  split_ifs at hmem
  · cases op with
    | append fault r =>
      rw [StoreOp.recordFor] at hmem
      split_ifs at hmem
      · rw [List.mem_singleton.mp hmem]
        exact h
      · cases hmem
    | reopen => cases hmem
  · cases hmem

/-- With room in the file names every session reads back as it was appended, also across failures. -/
theorem readSession_run
    (hstep : ∀ s a, storeOf (step s a).2 = ((opOf s a).step codec (storeOf s)).2) {s : σ}
    {maxSegmentBytes : UInt64} (hnew : storeOf s = .new maxSegmentBytes) {as : List α}
    (hfits : ∀ pre a post, as = pre ++ a :: post → (opOf (runState step s pre) a).Fits codec)
    (hroom : ∀ pre a post, as = pre ++ a :: post →
      (opOf (runState step s pre) a).Room codec (storeOf (runState step s pre)))
    (chunks : ℕ → List ℕ) (session : UInt64) :
    readSession codec (storeOf (runState step s as)).dropped chunks session
      = .ok (runCollect step (fun s a => (opOf s a).stored codec session (storeOf s)) s as) := by
  obtain ⟨parts, hholds, hflatten, hlength⟩ :=
    exists_holds_run step storeOf opOf hstep (hnew ▸ Store.holds_new codec maxSegmentBytes) as
  have hstored : (parts session).flatten
      = runCollect step (fun s a => (opOf s a).stored codec session (storeOf s)) s as :=
    hflatten session
  rw [← hstored]
  refine readSession_numbered (hholds.files session) ?_ ?_ chunks
  · rw [hstored, forall_mem_runCollect_iff]
    exact fun pre a post hsplit => StoreOp.fits_of_mem_stored (hfits pre a post hsplit)
  · exact hlength hroom (fun _ => Nat.zero_le _) session

end Client

theorem exists_holds_storeAfter (codec : RecordCodec) (maxSegmentBytes : UInt64)
    (ops : List StoreOp) : ∃ parts, (storeAfter codec maxSegmentBytes ops).Holds codec parts := by
  obtain ⟨parts, h, -, -⟩ := exists_holds_run (StoreOp.step codec) id (fun _ op => op)
    (fun _ _ => rfl) (Store.holds_new codec maxSegmentBytes) ops
  exact ⟨parts, h⟩

theorem storeAfter_concat (codec : RecordCodec) (maxSegmentBytes : UInt64) (ops : List StoreOp)
    (op : StoreOp) : storeAfter codec maxSegmentBytes (ops ++ [op])
      = (op.step codec (storeAfter codec maxSegmentBytes ops)).2 :=
  runState_append _ ops [op]

theorem readSession_storeAfter {maxSegmentBytes : UInt64} {ops : List StoreOp}
    (hfits : ∀ op ∈ ops, op.Fits codec)
    (hroom : ∀ pre op post, ops = pre ++ op :: post →
      op.Room codec (storeAfter codec maxSegmentBytes pre)) (chunks : ℕ → List ℕ)
    (session : UInt64) :
    readSession codec (storeAfter codec maxSegmentBytes ops).dropped chunks session
      = .ok (storedBy codec maxSegmentBytes session ops) :=
  readSession_run (StoreOp.step codec) id (fun _ op => op) (fun _ _ => rfl) rfl
    (fun pre op post hsplit => hfits op (by simp [hsplit])) hroom chunks session

/-! ## Appends on a working file system -/

namespace Store

/-- The writer can go on with the session: its file is open, or it has no segment yet. -/
def Continues (store : Store) (session : UInt64) : Prop :=
  store.OpenFor session ∨ store.disk.files session = []

instance (store : Store) (session : UInt64) : Decidable (store.Continues session) :=
  inferInstanceAs (Decidable (_ ∨ _))

theorem Holds.files_eq_nil_iff (h : Holds codec store parts) (session : UInt64) :
    store.disk.files session = [] ↔ parts session = [] := by
  have hnames : (store.dropped.files session).map Prod.fst
      = (store.disk.files session).map Prod.fst := by
    cases hfile : store.writer.activeFile with
    | none => rw [dropped_of_none hfile]
    | some file =>
      rw [dropped_of_some hfile, Disk.files_append]
      split_ifs with hsession
      · rw [Dir.map_fst_appendTo, hsession]
      · rfl
  have hlength := congrArg List.length hnames
  rw [h.files, numbered, map_fst_numberedFrom, List.length_map, List.length_map,
    List.length_range'] at hlength
  rw [← List.length_eq_zero_iff, ← hlength, List.length_eq_zero_iff]

/-- An append that succeeds goes on with its session. -/
theorem Holds.continues_of_isOk (h : Holds codec store parts) {fault : Option IoStep}
    {record : ReplayRecord} (hok : (append codec fault store record).1.isOk = true) :
    store.Continues record.sessionId := by
  rw [Continues, h.files_eq_nil_iff]
  rcases append_cases h fault record with ⟨segs, hrolled, -, -⟩ | ⟨herror, -, -, -, -⟩
  · exact hrolled.openFor_or_nil
  · rw [not_isOk_of_error herror] at hok
    cases hok

/-- Where the file system works, an append that goes on with its session succeeds. -/
theorem Holds.isOk_of_continues (h : Holds codec store parts) {record : ReplayRecord}
    (hroom : Room codec store record) (hcontinues : store.Continues record.sessionId) :
    (append codec none store record).1.isOk = true := by
  rw [Continues, h.files_eq_nil_iff] at hcontinues
  rcases append_cases h none record with
    ⟨segs, -, -, ⟨-, hok, -⟩ | ⟨hfault, -⟩⟩ | ⟨-, -, -, -, hnone⟩
  · exact isOk_of_ok hok
  · cases hfault
  · rcases hnone rfl with ⟨hopen, hsize, hidx⟩ | ⟨hclosed, hne⟩
    · have hlt := UInt32.lt_iff_toNat_lt.mp (hroom hopen hsize)
      rw [hidx] at hlt
      exact absurd hlt (by decide)
    · rcases hcontinues with hopen | hnil
      · exact absurd hopen hclosed
      · exact absurd hnil hne

end Store

namespace StoreOp

/-- The step of the operation that the operating system fails. -/
def fault : StoreOp → Option IoStep
  | .append fault _ => fault
  | .reopen _ => none

/-- The writer can go on with the session of the operation. -/
def Continues (store : Store) : StoreOp → Prop
  | .append _ record => store.Continues record.sessionId
  | .reopen _ => True

instance (store : Store) : (op : StoreOp) → Decidable (op.Continues store)
  | .append _ record => inferInstanceAs (Decidable (store.Continues record.sessionId))
  | .reopen _ => .isTrue trivial

theorem continues_of_success (h : store.Holds codec parts) {op : StoreOp}
    (hok : (op.step codec store).1 = true) : op.Continues store := by
  cases op with
  | append fault record => exact h.continues_of_isOk hok
  | reopen => trivial

theorem success_of_continues (h : store.Holds codec parts) {op : StoreOp}
    (hworks : op.fault = none) (hroom : op.Room codec store) (hcontinues : op.Continues store) :
    (op.step codec store).1 = true := by
  cases op with
  | append fault record =>
    obtain rfl : fault = none := hworks
    exact h.isOk_of_continues hroom hcontinues
  | reopen => rfl

end StoreOp

/-- A run stores what it was to store if each of its operations succeeds. -/
theorem runCollect_stored_of_success {session : UInt64} {ops : List StoreOp}
    (h : ∀ pre op post, ops = pre ++ op :: post →
      (op.step codec (runState (StoreOp.step codec) store pre)).1 = true) :
    runCollect (StoreOp.step codec) (StoreOp.stored codec session) store ops
      = ops.flatMap (StoreOp.recordFor session) := by
  induction ops generalizing store with
  | nil => rfl
  | cons op ops ih =>
    have hhead : op.stored codec session store = op.recordFor session := if_pos (h [] op ops rfl)
    rw [runCollect_cons, List.flatMap_cons, hhead, ih]
    intro pre b post hsplit
    exact h (op :: pre) b post (by rw [hsplit]; rfl)

/-- Every append of the run succeeds, and each session reads back as its records in append order. -/
def RoundTrips (codec : RecordCodec) (maxSegmentBytes : UInt64) (ops : List StoreOp) : Prop :=
  (∀ pre op post, ops = pre ++ op :: post →
    (op.step codec (storeAfter codec maxSegmentBytes pre)).1 = true) ∧
  ∀ chunks session, readSession codec (storeAfter codec maxSegmentBytes ops).dropped chunks session
    = .ok (ops.flatMap (StoreOp.recordFor session))

/-- **Round trip of the segment store.** Where the file system works, a run round trips if every
append goes on with its session, every size rotation gets a number of four digits, and every archive
fits its frame; and it does so only if every append goes on with its session. -/
theorem store_round_trip (codec : RecordCodec) (maxSegmentBytes : UInt64) {ops : List StoreOp}
    (hworks : ∀ op ∈ ops, op.fault = none) :
    ((∀ op ∈ ops, op.Fits codec) →
      (∀ pre op post, ops = pre ++ op :: post →
        op.Continues (storeAfter codec maxSegmentBytes pre) ∧
          op.Room codec (storeAfter codec maxSegmentBytes pre)) →
      RoundTrips codec maxSegmentBytes ops) ∧
    (RoundTrips codec maxSegmentBytes ops →
      ∀ pre op post, ops = pre ++ op :: post →
        op.Continues (storeAfter codec maxSegmentBytes pre)) := by
  have hholds := exists_holds_storeAfter codec maxSegmentBytes
  constructor
  · intro hfits hcond
    have hsuccess : ∀ pre op post, ops = pre ++ op :: post →
        (op.step codec (storeAfter codec maxSegmentBytes pre)).1 = true := by
      intro pre op post hsplit
      obtain ⟨parts, h⟩ := hholds pre
      obtain ⟨hcontinues, hroom⟩ := hcond pre op post hsplit
      exact StoreOp.success_of_continues h (hworks op (by simp [hsplit])) hroom hcontinues
    refine ⟨hsuccess, fun chunks session => ?_⟩
    rw [← runCollect_stored_of_success hsuccess]
    exact readSession_storeAfter hfits
      (fun pre op post hsplit => (hcond pre op post hsplit).2) chunks session
  · intro hround pre op post hsplit
    obtain ⟨parts, h⟩ := hholds pre
    exact StoreOp.continues_of_success h (hround.1 pre op post hsplit)

/-- A record without payload. -/
def bareRecord (sessionId sequenceNo : UInt64) : ReplayRecord :=
  { sessionId, sequenceNo, monotonicNs := 0, wallclockUtc := 0, kind := .tick, payload := [] }

theorem store_round_trip_two_sessions :
    RoundTrips rkyvLayout 100
      [.append none (bareRecord 1 0), .append none (bareRecord 1 1), .append none (bareRecord 2 0),
        .reopen 100, .append none (bareRecord 3 0)] := by
  refine (store_round_trip rkyvLayout 100 (by decide)).1 (by decide) ?_
  refine forall_split_cons (by decide) (forall_split_cons (by decide) ?_)
  refine forall_split_cons (by decide) (forall_split_cons (by decide) ?_)
  exact forall_split_cons (by decide) forall_split_nil

/-- A session that is left and taken up again. -/
theorem revisited_session_refused :
    ¬ RoundTrips rkyvLayout 1073741824
      [.append none (bareRecord 1 0), .append none (bareRecord 2 0),
        .append none (bareRecord 1 1)] := by
  intro h
  have hlast := h.1 [.append none (bareRecord 1 0), .append none (bareRecord 2 0)]
    (.append none (bareRecord 1 1)) [] rfl
  exact absurd hlast (by decide)

/-! ## Rotations that fail -/

namespace StoreOp

/-- An append to the session of which the operating system may fail the opening of a segment. -/
def IsAppendTo (session : UInt64) : StoreOp → Prop
  | .append fault record =>
    record.sessionId = session ∧ (fault = none ∨ fault = some .createDir ∨ fault = some .openFile)
  | .reopen _ => False

instance (session : UInt64) : (op : StoreOp) → Decidable (op.IsAppendTo session)
  | .append _ _ => inferInstanceAs (Decidable (_ ∧ _))
  | .reopen _ => .isFalse id

/-- The append has to roll for its size, and the operating system fails it. -/
def RollFails (codec : RecordCodec) (store : Store) : StoreOp → Prop
  | .append fault record =>
    store.OpenFor record.sessionId ∧ store.SizeOverflow codec record ∧ fault ≠ none
  | .reopen _ => False

instance (codec : RecordCodec) (store : Store) :
    (op : StoreOp) → Decidable (op.RollFails codec store)
  | .append _ _ => inferInstanceAs (Decidable (_ ∧ _ ∧ _))
  | .reopen _ => .isFalse id

variable {session : UInt64}

theorem IsAppendTo.continues_iff {op : StoreOp} (hop : op.IsAppendTo session) :
    op.Continues store ↔ store.Continues session := by
  cases op with
  | append fault record => rw [Continues, hop.1]
  | reopen => exact hop.elim

/-- The writer cannot go on with a session whose segments are all closed. -/
theorem not_continues_of_closed (h : store.Holds codec parts)
    (hclosed : store.writer.activeFile = none) (hne : parts session ≠ []) :
    ¬ store.Continues session := by
  rw [Store.Continues, h.files_eq_nil_iff]
  rintro (hopen | hnil)
  · exact Store.not_openFor_of_none hclosed session hopen
  · exact hne hnil

/-- A failed size rotation fails the append and closes the session for good. -/
theorem stuck_of_rollFails (h : store.Holds codec parts) {op : StoreOp}
    (hop : op.IsAppendTo session) (hfails : op.RollFails codec store) :
    (op.step codec store).1 = false ∧ ¬ (op.step codec store).2.Continues session := by
  cases op with
  | reopen => exact hop.elim
  | append fault record =>
    obtain ⟨rfl, hfault⟩ := hop
    obtain ⟨hopen, hsize, hne⟩ := hfails
    obtain ⟨-, hparts⟩ := h.openFor hopen
    rcases Store.append_cases h fault record with ⟨segs, hrolled, -, -⟩ | ⟨herror, hclosed, hholds, -⟩
    · cases hrolled with
      | same _ _ hfits => exact absurd hsize hfits
      | next _ _ _ hno =>
        rcases hfault with hnone | hdir | hfile
        · exact absurd hnone hne
        · exact absurd hdir hno.1
        · exact absurd hfile hno.2
      | first hclosed _ => exact absurd hopen hclosed
    · exact ⟨Store.not_isOk_of_error herror, not_continues_of_closed hholds hclosed hparts⟩

/-- An append to a session the writer cannot go on with leaves it so. -/
theorem stuck_of_not_continues (h : store.Holds codec parts) {op : StoreOp}
    (hop : op.IsAppendTo session) (hstuck : ¬ store.Continues session) :
    ¬ (op.step codec store).2.Continues session := by
  cases op with
  | reopen => exact hop.elim
  | append fault record =>
    obtain ⟨rfl, -⟩ := hop
    rw [Store.Continues, h.files_eq_nil_iff] at hstuck
    rcases Store.append_cases h fault record with ⟨segs, hrolled, -, -⟩ | ⟨-, hclosed, hholds, -⟩
    · exact absurd hrolled.openFor_or_nil hstuck
    · exact not_continues_of_closed hholds hclosed (not_or.mp hstuck).2

/-- Any other append leaves the session such that the writer can go on with it. -/
theorem continues_step (h : store.Holds codec parts) {op : StoreOp}
    (hop : op.IsAppendTo session) (hroom : op.Room codec store) (hcontinues : store.Continues session)
    (hrolls : ¬ op.RollFails codec store) : (op.step codec store).2.Continues session := by
  cases op with
  | reopen => exact hop.elim
  | append fault record =>
    obtain ⟨rfl, hfault⟩ := hop
    by_cases hnone : fault = none
    · -- the append succeeds
      subst hnone
      have hok := h.isOk_of_continues hroom hcontinues
      rcases Store.append_cases h none record with ⟨segs, -, hopen, -⟩ | ⟨herror, -⟩
      · exact .inl hopen
      · rw [Store.not_isOk_of_error herror] at hok
        cases hok
    · rcases Store.append_cases h fault record with ⟨segs, -, hopen, -⟩ | ⟨-, -, hholds, hsize, -⟩
      · exact .inl hopen
      · -- a failure that is not a size rotation: there was no segment yet
        have hclosed : ¬ store.OpenFor record.sessionId :=
          fun hopen => hrolls ⟨hopen, hsize hopen, hnone⟩
        rw [Store.Continues, h.files_eq_nil_iff] at hcontinues
        have hnil := hcontinues.resolve_left hclosed
        exact .inr ((hholds.files_eq_nil_iff _).mpr hnil)

end StoreOp

section Recovery

variable {session maxSegmentBytes : UInt64} {ops : List StoreOp}

/-- Once the writer cannot go on with the session it never can again. -/
theorem not_continues_append {pre mid : List StoreOp} (hops : ∀ op ∈ mid, op.IsAppendTo session)
    (hstuck : ¬ (storeAfter codec maxSegmentBytes pre).Continues session) :
    ¬ (storeAfter codec maxSegmentBytes (pre ++ mid)).Continues session := by
  induction mid using List.reverseRecOn with
  | nil => rwa [List.append_nil]
  | append_singleton mid op ih =>
    obtain ⟨parts, h⟩ := exists_holds_storeAfter codec maxSegmentBytes (pre ++ mid)
    rw [← List.append_assoc, storeAfter_concat]
    refine StoreOp.stuck_of_not_continues h (hops op (by simp)) (ih fun b hb => ?_)
    exact hops b (List.mem_append_left _ hb)

/-- While no size rotation fails the writer can go on with the session. -/
theorem continues_storeAfter (hops : ∀ op ∈ ops, op.IsAppendTo session)
    (hroom : ∀ pre op post, ops = pre ++ op :: post →
      op.Room codec (storeAfter codec maxSegmentBytes pre))
    (hrolls : ∀ pre op post, ops = pre ++ op :: post →
      ¬ op.RollFails codec (storeAfter codec maxSegmentBytes pre)) :
    (storeAfter codec maxSegmentBytes ops).Continues session := by
  refine runState_invariant_along (StoreOp.step codec) (Store.Continues · session) (.inr rfl) ?_
  intro pre op post hsplit hcontinues
  obtain ⟨parts, h⟩ := exists_holds_storeAfter codec maxSegmentBytes pre
  exact StoreOp.continues_step h (hops op (by simp [hsplit])) (hroom pre op post hsplit) hcontinues
    (hrolls pre op post hsplit)

end Recovery

/-- After a failed append every append on a working file system succeeds, and what was appended
successfully reads back. -/
def Recovers (codec : RecordCodec) (maxSegmentBytes session : UInt64) (ops : List StoreOp) : Prop :=
  (∀ pre a mid b post, ops = pre ++ a :: (mid ++ b :: post) →
    (a.step codec (storeAfter codec maxSegmentBytes pre)).1 = false → b.fault = none →
    (b.step codec (storeAfter codec maxSegmentBytes (pre ++ a :: mid))).1 = true) ∧
  ∀ chunks, readSession codec (storeAfter codec maxSegmentBytes ops).dropped chunks session
    = .ok (storedBy codec maxSegmentBytes session ops)

/-- **Recovery from a failed rotation.** The appends to one session recover from failures to open a
segment if no size rotation that fails is followed by an append on a working file system, every size
rotation gets a number of four digits, and every archive fits its frame; and they recover only if
no size rotation that fails is followed by an append on a working file system. -/
theorem append_recovers (codec : RecordCodec) (maxSegmentBytes session : UInt64)
    {ops : List StoreOp} (hops : ∀ op ∈ ops, op.IsAppendTo session) :
    ((∀ pre a mid b post, ops = pre ++ a :: (mid ++ b :: post) →
        a.RollFails codec (storeAfter codec maxSegmentBytes pre) → b.fault ≠ none) →
      (∀ pre op post, ops = pre ++ op :: post →
        op.Room codec (storeAfter codec maxSegmentBytes pre)) →
      (∀ op ∈ ops, op.Fits codec) →
      Recovers codec maxSegmentBytes session ops) ∧
    (Recovers codec maxSegmentBytes session ops →
      ∀ pre a mid b post, ops = pre ++ a :: (mid ++ b :: post) →
        a.RollFails codec (storeAfter codec maxSegmentBytes pre) → b.fault ≠ none) := by
  constructor
  · intro hcond hroom hfits
    refine ⟨?_, fun chunks => readSession_storeAfter hfits hroom chunks session⟩
    intro pre a mid b post hsplit _ hworks
    have hsplit' : ops = (pre ++ a :: mid) ++ b :: post := by rw [hsplit]; simp
    have hb := hops b (by simp [hsplit])
    obtain ⟨parts, h⟩ := exists_holds_storeAfter codec maxSegmentBytes (pre ++ a :: mid)
    -- no size rotation before `b` has failed
    have hcontinues : (storeAfter codec maxSegmentBytes (pre ++ a :: mid)).Continues session := by
      refine continues_storeAfter (fun op hop => hops op ?_) (fun pre' op post' heq => ?_)
        fun pre' op post' heq hfails => ?_
      · rw [hsplit']
        exact List.mem_append_left _ hop
      · exact hroom pre' op (post' ++ b :: post) (by rw [hsplit', heq]; simp)
      · exact hcond pre' op post' b post (by rw [hsplit', heq]; simp) hfails hworks
    exact StoreOp.success_of_continues h hworks (hroom _ _ _ hsplit')
      (hb.continues_iff.mpr hcontinues)
  · rintro ⟨hrecovers, -⟩ pre a mid b post hsplit hfails hworks
    have hb := hops b (by simp [hsplit])
    obtain ⟨parts, h⟩ := exists_holds_storeAfter codec maxSegmentBytes pre
    obtain ⟨parts', h'⟩ := exists_holds_storeAfter codec maxSegmentBytes (pre ++ a :: mid)
    obtain ⟨herror, hstuck⟩ := StoreOp.stuck_of_rollFails h (hops a (by simp [hsplit])) hfails
    rw [← storeAfter_concat] at hstuck
    have hmid : ∀ op ∈ mid, op.IsAppendTo session := fun op hop => hops op (by simp [hsplit, hop])
    have hstill := not_continues_append hmid hstuck
    rw [List.append_assoc, List.singleton_append] at hstill
    have hok := hrecovers pre a mid b post hsplit herror hworks
    exact hstill (hb.continues_iff.mp (StoreOp.continues_of_success h' hok))

/-- A failure to open the first segment is made good by the next append. -/
theorem append_recovers_from_first_failure :
    Recovers rkyvLayout 100 1
      [.append (some .openFile) (bareRecord 1 0), .append none (bareRecord 1 0),
        .append none (bareRecord 1 1), .append (some .createDir) (bareRecord 1 2)] := by
  have hlast : ∀ pre a rest, [StoreOp.append (some .openFile) (bareRecord 1 0),
        .append none (bareRecord 1 0), .append none (bareRecord 1 1),
        .append (some .createDir) (bareRecord 1 2)] = pre ++ a :: rest →
      a.RollFails rkyvLayout (storeAfter rkyvLayout 100 pre) → rest = [] := by
    refine forall_split_cons (by decide) (forall_split_cons (by decide) ?_)
    exact forall_split_cons (by decide) (forall_split_cons (by decide) forall_split_nil)
  refine (append_recovers rkyvLayout 100 1 (by decide)).1 ?_ ?_ (by decide)
  · intro pre a mid b post hsplit hfails
    exact absurd (hlast pre a _ hsplit hfails) (by simp)
  · refine forall_split_cons (by decide) (forall_split_cons (by decide) ?_)
    exact forall_split_cons (by decide) (forall_split_cons (by decide) forall_split_nil)

/-- The size rotation of the second append fails, and the third append fails although the file
system works again. -/
theorem append_wedged_by_failed_rotation :
    ¬ Recovers rkyvLayout 100 1
      [.append none (bareRecord 1 0), .append (some .openFile) (bareRecord 1 1),
        .append none (bareRecord 1 1)] := by
  intro h
  have hlast := h.1 [.append none (bareRecord 1 0)] (.append (some .openFile) (bareRecord 1 1)) []
    (.append none (bareRecord 1 1)) [] rfl (by decide) rfl
  exact absurd hlast (by decide)

end Hedge.Replay
