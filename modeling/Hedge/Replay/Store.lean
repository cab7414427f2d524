import Hedge.Replay.Ledger

/-!
# What an append does to the ledger

`Holds store parts` says that, once the pending bytes are flushed, each session is on disk as its
`parts`, and that an open file is the last segment of the active session. Every append keeps it,
whatever step of it fails (`append_spec`): the record is added to its session if the append
succeeds, and no record changes otherwise.

An append that no step fails succeeds exactly if the file of its session is open or the session has
no segment yet (`append_isOk_iff`). The writer cannot return to a session with segments once its
file is closed: it starts over with the number one, and that file exists.
-/

namespace Hedge.Replay

open Hedge.Common

variable {codec : RecordCodec}

/-! ## The tree under the operations -/

namespace Dir

@[simp] theorem map_fst_appendTo (dir : Dir) (name : FileName) (bytes : List UInt8) :
    (appendTo dir name bytes).map Prod.fst = dir.map Prod.fst := by
  rw [appendTo, List.map_map]
  refine List.map_congr_left fun file _ => ?_
  rw [Function.comp_apply]
  split_ifs <;> rfl

@[simp] theorem appendTo_nil (dir : Dir) (name : FileName) : appendTo dir name [] = dir := by
  rw [appendTo]
  conv_rhs => rw [← List.map_id dir]
  refine List.map_congr_left fun file _ => ?_
  rw [List.append_nil, ite_self, id]

theorem appendTo_appendTo (dir : Dir) (name : FileName) (bytes bytes' : List UInt8) :
    appendTo (appendTo dir name bytes) name bytes' = appendTo dir name (bytes ++ bytes') := by
  rw [appendTo, appendTo, appendTo, List.map_map]
  refine List.map_congr_left fun file _ => ?_
  rw [Function.comp_apply]
  split_ifs with h
  · rw [List.append_assoc]
  · rfl

theorem appendTo_of_notMem {dir : Dir} {name : FileName} (h : name ∉ dir.map Prod.fst)
    (bytes : List UInt8) : appendTo dir name bytes = dir := by
  rw [appendTo]
  conv_rhs => rw [← List.map_id dir]
  refine List.map_congr_left fun file hfile => ?_
  have hne : file.1 ≠ name := by
    rintro rfl
    exact h (List.mem_map_of_mem hfile)
  rw [if_neg hne, id]

end Dir

namespace Disk

theorem files_setFiles (disk : Disk) (session other : UInt64) (files : Dir) :
    (disk.setFiles session files).files other
      = if other = session then files else disk.files other := by
  have hfiles : (disk.setFiles session files).files other
      = (Function.update disk.dir session (some files) other).getD [] := rfl
  rw [hfiles]
  split_ifs with h
  · rw [h, Function.update_self, Option.getD_some]
  · rw [Function.update_of_ne h, Disk.files]

@[simp] theorem files_createDirAll (disk : Disk) (session other : UInt64) :
    (disk.createDirAll session).files other = disk.files other := by
  rw [createDirAll, files_setFiles]
  split_ifs with h
  · rw [h]
  · rfl

theorem files_append (disk : Disk) (session other : UInt64) (name : FileName)
    (bytes : List UInt8) :
    (disk.append session name bytes).files other
      = if other = session then Dir.appendTo (disk.files session) name bytes
        else disk.files other :=
  files_setFiles ..

theorem files_append_congr {disk disk' : Disk} (h : ∀ other, disk.files other = disk'.files other)
    (session other : UInt64) (name : FileName) (bytes : List UInt8) :
    (disk.append session name bytes).files other
      = (disk'.append session name bytes).files other := by
  rw [files_append, files_append, h, h]

theorem files_append_append (disk : Disk) (session other : UInt64) (name : FileName)
    (bytes bytes' : List UInt8) :
    ((disk.append session name bytes).append session name bytes').files other
      = (disk.append session name (bytes ++ bytes')).files other := by
  simp only [files_append, if_true, Dir.appendTo_appendTo]
  split_ifs <;> rfl

end Disk

/-- What a buffered write adds to the file once it is flushed. -/
theorem SegmentFile.files_flush_writeAll (file : SegmentFile) (disk : Disk) (bytes : List UInt8)
    (other : UInt64) :
    ((file.writeAll disk bytes).1.flush (file.writeAll disk bytes).2).2.files other
      = (disk.append file.session file.name (file.pending ++ bytes)).files other := by
  rw [writeAll]
  split_ifs with hfits hspare hdirect hdirect
  · rfl
  · simp only [flush, Disk.files_append_append, List.append_nil]
  · simp only [flush, Disk.files_append_append, List.nil_append]
  · have hnil : file.pending = [] := by
      rw [← List.length_eq_zero_iff]
      have hcap : capacity = 8192 := rfl
      omega
    simp only [flush, Disk.files_append_append, hnil, List.append_nil, List.nil_append]
  · rfl

theorem SegmentFile.writeAll_same_file (file : SegmentFile) (disk : Disk) (bytes : List UInt8) :
    (file.writeAll disk bytes).1.session = file.session ∧
      (file.writeAll disk bytes).1.name = file.name := by
  rw [writeAll]
  split_ifs <;> exact ⟨rfl, rfl⟩

/-- Two buffered writes add up. -/
theorem SegmentFile.files_flush_writeAll_writeAll (file : SegmentFile) (disk : Disk)
    (bytes bytes' : List UInt8) (other : UInt64) :
    (((file.writeAll disk bytes).1.writeAll (file.writeAll disk bytes).2 bytes').1.flush
        ((file.writeAll disk bytes).1.writeAll (file.writeAll disk bytes).2 bytes').2).2.files other
      = ((disk.append file.session file.name file.pending).append file.session file.name
          (bytes ++ bytes')).files other := by
  have hfirst := file.files_flush_writeAll disk bytes
  obtain ⟨hsession, hname⟩ := file.writeAll_same_file disk bytes
  generalize file.writeAll disk bytes = out at *
  rw [flush, hsession, hname] at hfirst
  rw [files_flush_writeAll, hsession, hname, ← Disk.files_append_append,
    Disk.files_append_congr hfirst, Disk.files_append_append, Disk.files_append_append,
    List.append_assoc]

/-! ## Numbered directories under the operations -/

theorem framesOf_concat (records : List ReplayRecord) (record : ReplayRecord) :
    framesOf codec (records ++ [record])
      = framesOf codec records ++ writeFramed (codec.encodeRecord record) := by
  simp [framesOf]

/-- A write at the end of the last segment adds to its records. -/
theorem appendTo_numbered_concat (parts : List (List ReplayRecord)) (records : List ReplayRecord)
    (record : ReplayRecord) :
    Dir.appendTo (numbered codec (parts ++ [records])) (segName (parts.length + 1))
        (writeFramed (codec.encodeRecord record))
      = numbered codec (parts ++ [records ++ [record]]) := by
  have hnotMem : segName (parts.length + 1) ∉ (numbered codec parts).map Prod.fst := by
    rw [segName_mem_numbered]
    omega
  rw [numbered_concat, numbered_concat, Dir.appendTo, List.map_append, ← Dir.appendTo,
    Dir.appendTo_of_notMem hnotMem, framesOf_concat]
  simp

/-! ## The invariant of the writer -/

namespace Store

/-- Each session is on disk as its `parts`, and the open file is the last segment of the active
session. -/
structure Holds (codec : RecordCodec) (store : Store) (parts : UInt64 → List (List ReplayRecord)) :
    Prop where
  files : ∀ session, store.dropped.files session = numbered codec (parts session)
  active : ∀ file ∈ store.writer.activeFile,
    store.writer.activeSession = some file.session ∧
      file.name = segName (parts file.session).length ∧
      store.writer.activeSegmentIdx.toNat = (parts file.session).length ∧
      parts file.session ≠ []

variable {store : Store} {parts : UInt64 → List (List ReplayRecord)}

theorem dropped_of_none (h : store.writer.activeFile = none) : store.dropped = store.disk := by
  simp only [dropped, closeActive, h]

theorem dropped_of_some {file : SegmentFile} (h : store.writer.activeFile = some file) :
    store.dropped = store.disk.append file.session file.name file.pending := by
  simp [dropped, closeActive, h, SegmentFile.flush]

theorem Holds.of_none (hfile : store.writer.activeFile = none)
    (h : ∀ session, store.disk.files session = numbered codec (parts session)) :
    Holds codec store parts := by
  refine ⟨fun session => ?_, fun file hmem => ?_⟩
  · rw [dropped_of_none hfile, h]
  · rw [hfile] at hmem
    cases hmem

theorem holds_new (codec : RecordCodec) (maxSegmentBytes : UInt64) :
    Holds codec (.new maxSegmentBytes) fun _ => [] :=
  .of_none rfl fun _ => rfl

theorem Holds.reopen (h : Holds codec store parts) (maxSegmentBytes : UInt64) :
    Holds codec (store.reopen maxSegmentBytes) parts :=
  .of_none rfl h.files

/-! ## Closing and opening segments -/

/-- A store whose file has been flushed and forgotten. -/
structure Closed (store closed : Store) : Prop where
  activeFile : closed.writer.activeFile = none
  activeSession : closed.writer.activeSession = store.writer.activeSession
  activeSegmentIdx : closed.writer.activeSegmentIdx = store.writer.activeSegmentIdx
  disk : closed.disk = store.dropped

/-- `close_active` flushes and forgets the file, also when it fails. -/
theorem closeActive_cases (fault : Option IoStep) (store : Store) :
    ∃ result closed, store.closeActive fault = (result, closed) ∧ Closed store closed ∧
      (result = .ok () ∨ (∃ e, result = .error e) ∧ fault = some .sync) := by
  cases hfile : store.writer.activeFile with
  | none =>
    refine ⟨.ok (), { store with writer.activeBytes := 0 }, ?_, ?_, .inl rfl⟩
    · simp only [closeActive, hfile]
    · exact ⟨hfile, rfl, rfl, (dropped_of_none hfile).symm⟩
  | some file =>
    have hdisk := dropped_of_some hfile
    by_cases hfault : fault = some .sync
    · refine ⟨_, ⟨{ store.writer with activeFile := none }, store.dropped⟩, ?_,
        ⟨rfl, rfl, rfl, rfl⟩, .inr ⟨⟨⟨.other, none⟩, rfl⟩, hfault⟩⟩
      simp [closeActive, hfile, hfault, SegmentFile.flush, hdisk]
    · refine ⟨_, ⟨{ store.writer with activeFile := none, activeBytes := 0 }, store.dropped⟩, ?_,
        ⟨rfl, rfl, rfl, rfl⟩, .inl rfl⟩
      simp [closeActive, hfile, hfault, SegmentFile.flush, hdisk]

theorem Holds.files_closed {closed : Store} (h : Holds codec store parts)
    (hclosed : Closed store closed) (session : UInt64) :
    closed.disk.files session = numbered codec (parts session) := by
  rw [hclosed.disk, h.files]

/-- The store after a failed attempt to open a segment. -/
structure Failed (codec : RecordCodec) (parts : UInt64 → List (List ReplayRecord))
    (result : Except IoError Unit) (store : Store) : Prop where
  isError : ∃ e, result = .error e
  closed : store.writer.activeFile = none
  holds : Holds codec store parts

/-- The store after a fresh segment of the session has been opened. -/
structure Opened (codec : RecordCodec) (parts : UInt64 → List (List ReplayRecord))
    (session : UInt64) (fault : Option IoStep) (result : Except IoError Unit) (store : Store) :
    Prop where
  noFault : fault ≠ some .createDir ∧ fault ≠ some .openFile
  isOk : result = .ok ()
  activeSession : store.writer.activeSession = some session
  isOpen : store.writer.activeFile.isSome
  holds : Holds codec store (Function.update parts session (parts session ++ [[]]))

/-- `open_next_segment` after the last segment, or at the number one: it opens a fresh segment
exactly in the first case, unless a step fails or the numbers have run out. -/
theorem openNextSegment_cases (store : Store) {session : UInt64}
    (hsession : store.writer.activeSession = some session)
    (hfile : store.writer.activeFile = none)
    (hfiles : ∀ session, store.disk.files session = numbered codec (parts session))
    (hidx : store.writer.activeSegmentIdx.toNat = 0 ∨
      store.writer.activeSegmentIdx.toNat = (parts session).length) (fault : Option IoStep) :
    (Opened codec parts session fault (openNextSegment fault store session).1
        (openNextSegment fault store session).2 ∧
      store.writer.activeSegmentIdx.toNat = (parts session).length) ∨
    (Failed codec parts (openNextSegment fault store session).1
        (openNextSegment fault store session).2 ∧
      (fault = none → store.writer.activeSegmentIdx.toNat ≠ (parts session).length ∨
        store.writer.activeSegmentIdx.toNat = 2 ^ 32 - 1)) := by
  set idx := store.writer.activeSegmentIdx with hidxdef
  have hnext : (idx.saturatingAdd 1).toNat = min (idx.toNat + 1) (2 ^ 32 - 1) :=
    UInt32.toNat_saturatingAdd idx 1
  have hlt := idx.toNat_lt
  by_cases hdir : fault = some .createDir
  · refine .inr ⟨?_, fun h => by rw [h] at hdir; cases hdir⟩
    simp only [openNextSegment, if_pos hdir]
    exact ⟨⟨_, rfl⟩, hfile, .of_none hfile hfiles⟩
  by_cases hopen : fault = some .openFile
  · refine .inr ⟨?_, fun h => by rw [h] at hopen; cases hopen⟩
    simp only [openNextSegment, if_neg hdir, if_pos hopen]
    exact ⟨⟨_, rfl⟩, hfile, .of_none hfile fun s => by rw [Disk.files_createDirAll, hfiles]⟩
  have hcreate : (store.disk.createDirAll session).createNew session
        (segName (idx.saturatingAdd 1).toNat)
      = if 0 < (idx.saturatingAdd 1).toNat ∧ (idx.saturatingAdd 1).toNat ≤ (parts session).length
        then none
        else some ((store.disk.createDirAll session).setFiles session
          (numbered codec (parts session) ++ [(segName (idx.saturatingAdd 1).toNat, [])])) := by
    simp only [Disk.createNew, Disk.files_createDirAll, hfiles, segName_mem_numbered]
  simp only [openNextSegment, if_neg hdir, if_neg hopen, ← hidxdef]
  split_ifs at hcreate with htaken
  · -- the name is taken: the index was reset or has saturated
    rw [hcreate]
    refine .inr ⟨⟨⟨_, rfl⟩, hfile, .of_none hfile fun s => ?_⟩, fun _ => by omega⟩
    rw [Disk.files_createDirAll, hfiles]
  · -- the name is free, so it is the one after the last
    have hlast : idx.toNat = (parts session).length := by omega
    have hnum : (idx.saturatingAdd 1).toNat = (parts session).length + 1 := by omega
    rw [hcreate]
    refine .inl ⟨⟨⟨hdir, hopen⟩, rfl, hsession, rfl, fun other => ?_, ?_⟩, hlast⟩
    · rw [dropped_of_some rfl, Disk.files_append, Dir.appendTo_nil, Disk.files_setFiles,
        Disk.files_setFiles, if_pos rfl]
      split_ifs with h
      · rw [h, Function.update_self, numbered_concat, hnum]
        rfl
      · rw [Disk.files_createDirAll, hfiles, Function.update_of_ne h]
    · intro file hmem
      obtain rfl : _ = file := Option.some.inj hmem
      rw [Function.update_self, List.length_append]
      exact ⟨hsession, by rw [hnum]; rfl, hnum, by simp⟩

/-- `open_next_segment` at the number one, in a session that should not have any. -/
theorem openFirstSegment_cases (store : Store) {session : UInt64}
    (hsession : store.writer.activeSession = some session)
    (hfile : store.writer.activeFile = none)
    (hfiles : ∀ session, store.disk.files session = numbered codec (parts session))
    (hidx : store.writer.activeSegmentIdx = 0) (fault : Option IoStep) :
    (Opened codec parts session fault (openNextSegment fault store session).1
        (openNextSegment fault store session).2 ∧ parts session = []) ∨
    (Failed codec parts (openNextSegment fault store session).1
        (openNextSegment fault store session).2 ∧ (fault = none → parts session ≠ [])) := by
  have hzero : store.writer.activeSegmentIdx.toNat = 0 := by rw [hidx]; rfl
  rcases openNextSegment_cases store hsession hfile hfiles (.inl hzero) fault with
    ⟨hopened, hlast⟩ | ⟨hfailed, hnone⟩
  · rw [hzero] at hlast
    exact .inl ⟨hopened, List.length_eq_zero_iff.mp hlast.symm⟩
  · refine .inr ⟨hfailed, fun hfault hnil => ?_⟩
    have := hnone hfault
    rw [hnil, hzero] at this
    simp at this

/-! ## Rotation -/

/-- The writer has the file of the session open. -/
def OpenFor (store : Store) (session : UInt64) : Prop :=
  store.writer.activeSession = some session ∧ store.writer.activeFile.isSome

instance (store : Store) (session : UInt64) : Decidable (store.OpenFor session) :=
  inferInstanceAs (Decidable (_ ∧ _))

theorem not_openFor_of_none (h : store.writer.activeFile = none) (session : UInt64) :
    ¬ store.OpenFor session := by
  rintro ⟨-, hopen⟩
  rw [h] at hopen
  cases hopen

/-- An open file is the last segment of its session. -/
theorem Holds.openFor {session : UInt64} (h : Holds codec store parts)
    (hopen : store.OpenFor session) :
    store.writer.activeSegmentIdx.toNat = (parts session).length ∧ parts session ≠ [] := by
  obtain ⟨file, hfile⟩ := Option.isSome_iff_exists.mp hopen.2
  obtain ⟨hactive, -, hidx, hne⟩ := h.active file hfile
  rw [Option.some.inj (hopen.1.symm.trans hactive)]
  exact ⟨hidx, hne⟩

/-- Why a rotation fails where the file system works: the numbers of the session have run out, or
it has segments and none of them is open. -/
def Blocked (codec : RecordCodec) (store : Store) (parts : UInt64 → List (List ReplayRecord))
    (record : ReplayRecord) : Prop :=
  store.OpenFor record.sessionId ∧ SizeOverflow codec store record ∧
      store.writer.activeSegmentIdx.toNat = 2 ^ 32 - 1 ∨
    ¬ store.OpenFor record.sessionId ∧ parts record.sessionId ≠ []

/-- What a rotation that has to open a segment leaves: a fresh segment after the last one of the
session, or a failure with every record in place and the file closed. -/
def Rotated (codec : RecordCodec) (fault : Option IoStep) (store : Store)
    (parts : UInt64 → List (List ReplayRecord)) (record : ReplayRecord)
    (out : Except IoError Unit × Store) : Prop :=
  (Opened codec parts record.sessionId fault out.1 out.2 ∧
    (store.OpenFor record.sessionId ∧ SizeOverflow codec store record ∧
        store.writer.activeSegmentIdx.toNat = (parts record.sessionId).length ∨
      ¬ store.OpenFor record.sessionId ∧ parts record.sessionId = [])) ∨
  (Failed codec parts out.1 out.2 ∧
    (store.OpenFor record.sessionId → SizeOverflow codec store record) ∧
    (fault = none → Blocked codec store parts record))

section Rotation

variable {fault : Option IoStep} {record : ReplayRecord}

theorem Closed.failed {closed : Store} (h : Holds codec store parts) (hclosed : Closed store closed)
    (e : IoError) : Failed codec parts (.error e) closed :=
  ⟨⟨e, rfl⟩, hclosed.activeFile, .of_none hclosed.activeFile (h.files_closed hclosed)⟩

/-- A rotation that starts the numbers over opens a segment only in a session without any. -/
theorem rotated_of_first (hnot : ¬ store.OpenFor record.sessionId) {start : Store}
    (hsession : start.writer.activeSession = some record.sessionId)
    (hfile : start.writer.activeFile = none)
    (hfiles : ∀ session, start.disk.files session = numbered codec (parts session))
    (hidx : start.writer.activeSegmentIdx = 0) :
    Rotated codec fault store parts record (openNextSegment fault start record.sessionId) := by
  rcases openFirstSegment_cases start hsession hfile hfiles hidx fault with
    ⟨hopened, hnil⟩ | ⟨hfailed, hne⟩
  · exact .inl ⟨hopened, .inr ⟨hnot, hnil⟩⟩
  · exact .inr ⟨hfailed, fun hopen => absurd hopen hnot, fun hfault => .inr ⟨hnot, hne hfault⟩⟩

/-- The size budget: the next number of the same session. -/
theorem rotated_of_overflow (h : Holds codec store parts)
    (hsession : store.writer.activeSession = some record.sessionId)
    (hoverflow : SizeOverflow codec store record) :
    Rotated codec fault store parts record (rotate codec fault store record) := by
  obtain ⟨result, closed, hclose, hclosed, hresult⟩ := closeActive_cases fault store
  have hopen : store.OpenFor record.sessionId := ⟨hsession, hoverflow.1⟩
  obtain ⟨hidx, -⟩ := h.openFor hopen
  rw [rotate, if_neg (not_not.mpr hsession), if_pos hoverflow, hclose]
  rcases hresult with rfl | ⟨⟨e, rfl⟩, rfl⟩
  · have hidx' := hidx
    rw [← hclosed.activeSession] at hsession
    rw [← hclosed.activeSegmentIdx] at hidx'
    rcases openNextSegment_cases closed hsession hclosed.activeFile (h.files_closed hclosed)
      (.inr hidx') fault with ⟨hopened, -⟩ | ⟨hfailed, hnone⟩
    · exact .inl ⟨hopened, .inl ⟨hopen, hoverflow, hidx⟩⟩
    · refine .inr ⟨hfailed, fun _ => hoverflow, fun hfault => .inl ⟨hopen, hoverflow, ?_⟩⟩
      rw [← hclosed.activeSegmentIdx]
      exact (hnone hfault).resolve_left (not_not.mpr hidx')
  · exact .inr ⟨hclosed.failed h e, fun _ => hoverflow, nofun⟩

/-- A file that was lost: the numbers of the session start over. -/
theorem rotated_of_none (h : Holds codec store parts)
    (hsession : store.writer.activeSession = some record.sessionId)
    (hoverflow : ¬ SizeOverflow codec store record) (hfile : store.writer.activeFile = none) :
    Rotated codec fault store parts record (rotate codec fault store record) := by
  have hfiles : ∀ session, store.disk.files session = numbered codec (parts session) := by
    rw [← dropped_of_none hfile]
    exact h.files
  rw [rotate, if_neg (not_not.mpr hsession), if_neg hoverflow, if_pos (by rw [hfile]; rfl)]
  exact rotated_of_first (not_openFor_of_none hfile _) hsession hfile hfiles rfl

/-- Another session: its own numbers, from one. -/
theorem rotated_of_ne (h : Holds codec store parts)
    (hsession : store.writer.activeSession ≠ some record.sessionId) :
    Rotated codec fault store parts record (rotate codec fault store record) := by
  obtain ⟨result, closed, hclose, hclosed, hresult⟩ := closeActive_cases fault store
  have hnot : ¬ store.OpenFor record.sessionId := fun hopen => hsession hopen.1
  have hfiles := h.files_closed hclosed
  rw [rotate, if_pos hsession, hclose]
  rcases hresult with rfl | ⟨⟨e, rfl⟩, rfl⟩
  · exact rotated_of_first hnot rfl hclosed.activeFile hfiles rfl
  · exact .inr ⟨hclosed.failed h e, fun hopen => absurd hopen hnot, nofun⟩

end Rotation

/-- What the rotation of an append does: nothing to an open file with room for the record, or what
`Rotated` says. -/
theorem rotate_cases (h : Holds codec store parts) (fault : Option IoStep) (record : ReplayRecord) :
    (store.OpenFor record.sessionId ∧ ¬ SizeOverflow codec store record ∧
      rotate codec fault store record = (.ok (), store)) ∨
    Rotated codec fault store parts record (rotate codec fault store record) := by
  by_cases hsession : store.writer.activeSession = some record.sessionId
  · by_cases hoverflow : SizeOverflow codec store record
    · exact .inr (rotated_of_overflow h hsession hoverflow)
    · cases hfile : store.writer.activeFile with
      | none => exact .inr (rotated_of_none h hsession hoverflow hfile)
      | some file =>
        refine .inl ⟨⟨hsession, by rw [hfile]; rfl⟩, hoverflow, ?_⟩
        rw [rotate, if_neg (not_not.mpr hsession), if_neg hoverflow, hfile]
        rfl
  · exact .inr (rotated_of_ne h hsession)

/-! ## Writing and appending -/

/-- Adds a record to the last segment. -/
def addLast (parts : List (List ReplayRecord)) (record : ReplayRecord) :
    List (List ReplayRecord) :=
  parts.dropLast ++ [parts.getLastD [] ++ [record]]

theorem flatten_addLast {parts : List (List ReplayRecord)} (h : parts ≠ []) (record : ReplayRecord) :
    (addLast parts record).flatten = parts.flatten ++ [record] := by
  obtain ⟨init, last, rfl⟩ : ∃ init last, parts = init ++ [last] :=
    ⟨_, _, (List.dropLast_append_getLast h).symm⟩
  simp [addLast]

theorem length_addLast {parts : List (List ReplayRecord)} (h : parts ≠ []) (record : ReplayRecord) :
    (addLast parts record).length = parts.length := by
  have hpos := List.length_pos_iff.mpr h
  simp only [addLast, List.length_append, List.length_dropLast, List.length_singleton]
  omega

theorem appendTo_numbered {parts : List (List ReplayRecord)} (h : parts ≠ []) (record : ReplayRecord) :
    Dir.appendTo (numbered codec parts) (segName parts.length)
        (writeFramed (codec.encodeRecord record))
      = numbered codec (addLast parts record) := by
  obtain ⟨init, last, rfl⟩ : ∃ init last, parts = init ++ [last] :=
    ⟨_, _, (List.dropLast_append_getLast h).symm⟩
  have hadd : addLast (init ++ [last]) record = init ++ [last ++ [record]] := by simp [addLast]
  rw [hadd, ← appendTo_numbered_concat, List.length_append, List.length_singleton]

/-- The write of an append into an open file. -/
theorem writeRecord_cases {session : UInt64} (h : Holds codec store parts)
    (hopen : store.OpenFor session) (fault : Option IoStep) (record : ReplayRecord) :
    (fault = some .write ∧ (∃ e, writeRecord codec fault store record = (.error e, store))) ∨
    (fault ≠ some .write ∧ (∃ path, (writeRecord codec fault store record).1 = .ok path) ∧
      (writeRecord codec fault store record).2.OpenFor session ∧
      Holds codec (writeRecord codec fault store record).2
        (Function.update parts session (addLast (parts session) record))) := by
  obtain ⟨file, hfile⟩ := Option.isSome_iff_exists.mp hopen.2
  obtain ⟨hactive, hname, hidx, hne⟩ := h.active file hfile
  obtain rfl : session = file.session := Option.some.inj (hopen.1.symm.trans hactive)
  by_cases hfault : fault = some .write
  · refine .inl ⟨hfault, ⟨.other, none⟩, ?_⟩
    simp only [writeRecord, hfile, if_pos hfault]
  · set first := file.writeAll store.disk (toBe 4 (codec.encodeRecord record).length) with hfirst
    set second := first.1.writeAll first.2 (codec.encodeRecord record) with hsecond
    obtain ⟨hsession₁, hname₁⟩ :=
      file.writeAll_same_file store.disk (toBe 4 (codec.encodeRecord record).length)
    obtain ⟨hsession₂, hname₂⟩ := first.1.writeAll_same_file first.2 (codec.encodeRecord record)
    rw [← hfirst] at hsession₁ hname₁
    rw [← hsecond, hsession₁] at hsession₂
    rw [← hsecond, hname₁] at hname₂
    refine .inr ⟨hfault, ?_⟩
    simp only [writeRecord, hfile, if_neg hfault, ← hfirst, ← hsecond]
    refine ⟨⟨_, rfl⟩, ⟨hactive, rfl⟩, fun other => ?_, ?_⟩
    · have hwritten := file.files_flush_writeAll_writeAll store.disk
        (toBe 4 (codec.encodeRecord record).length) (codec.encodeRecord record) other
      rw [← hfirst, ← hsecond, ← writeFramed, ← dropped_of_some hfile, Disk.files_append] at hwritten
      rw [dropped_of_some rfl]
      refine hwritten.trans ?_
      rw [h.files, h.files, hname]
      split_ifs with hother
      · rw [hother, Function.update_self, appendTo_numbered hne]
      · rw [Function.update_of_ne hother]
    · intro file' hmem
      obtain rfl : second.1 = file' := Option.some.inj hmem
      rw [hsession₂, Function.update_self, length_addLast hne]
      refine ⟨hactive, hname₂.trans hname, hidx, ?_⟩
      simp [addLast]

/-- The segments of the record's session when the record is about to be written: as they were, or
with a fresh one at the end. -/
inductive Rolled (codec : RecordCodec) (fault : Option IoStep) (store : Store)
    (record : ReplayRecord) (segs : List (List ReplayRecord)) : List (List ReplayRecord) → Prop
  | same (hopen : store.OpenFor record.sessionId) (hne : segs ≠ [])
      (hsize : ¬ SizeOverflow codec store record) : Rolled codec fault store record segs segs
  | next (hopen : store.OpenFor record.sessionId) (hsize : SizeOverflow codec store record)
      (hidx : store.writer.activeSegmentIdx.toNat = segs.length)
      (hfault : fault ≠ some .createDir ∧ fault ≠ some .openFile) :
      Rolled codec fault store record segs (segs ++ [[]])
  | first (hclosed : ¬ store.OpenFor record.sessionId) (hnil : segs = []) :
      Rolled codec fault store record segs (segs ++ [[]])

section Rolled

variable {fault : Option IoStep} {record : ReplayRecord} {segs segs' : List (List ReplayRecord)}

theorem Rolled.ne_nil (h : Rolled codec fault store record segs segs') : segs' ≠ [] := by
  cases h with
  | same _ hne _ => exact hne
  | next => simp
  | first => simp

theorem Rolled.openFor_or_nil (h : Rolled codec fault store record segs segs') :
    store.OpenFor record.sessionId ∨ segs = [] := by
  cases h with
  | same hopen _ _ => exact .inl hopen
  | next hopen _ _ _ => exact .inl hopen
  | first _ hnil => exact .inr hnil

theorem Rolled.flatten_eq (h : Rolled codec fault store record segs segs') :
    segs'.flatten = segs.flatten := by
  cases h with
  | same => rfl
  | next => simp
  | first => simp

/-- A size rotation for the record still gets a number of four digits. -/
def Room (codec : RecordCodec) (store : Store) (record : ReplayRecord) : Prop :=
  store.OpenFor record.sessionId → SizeOverflow codec store record →
    store.writer.activeSegmentIdx < 9999

instance (codec : RecordCodec) (store : Store) (record : ReplayRecord) :
    Decidable (Room codec store record) :=
  inferInstanceAs (Decidable (_ → _ → _))

theorem Rolled.length_le (h : Rolled codec fault store record segs segs')
    (hroom : Room codec store record) (hle : segs.length ≤ 9999) : segs'.length ≤ 9999 := by
  cases h with
  | same => exact hle
  | next hopen hsize hidx _ =>
    have hlt := UInt32.lt_iff_toNat_lt.mp (hroom hopen hsize)
    rw [hidx] at hlt
    rw [List.length_append, List.length_singleton]
    exact hlt
  | first _ hnil => simp [hnil]

end Rolled

/-- What an append leaves once its rotation is done: the record at the end of the last of `segs`, or
`segs` as they are and an error. -/
def Written (codec : RecordCodec) (fault : Option IoStep)
    (parts : UInt64 → List (List ReplayRecord)) (record : ReplayRecord)
    (segs : List (List ReplayRecord)) (out : Except IoError (UInt64 × FileName) × Store) : Prop :=
  out.2.OpenFor record.sessionId ∧
    (fault ≠ some .write ∧ (∃ path, out.1 = .ok path) ∧
        Holds codec out.2 (Function.update parts record.sessionId (addLast segs record)) ∨
      fault = some .write ∧ (∃ e, out.1 = .error e) ∧
        Holds codec out.2 (Function.update parts record.sessionId segs))

theorem written_of_rotate {fault : Option IoStep} {record : ReplayRecord} {store' : Store}
    {segs : List (List ReplayRecord)} (hrotate : rotate codec fault store record = (.ok (), store'))
    (hopen : store'.OpenFor record.sessionId)
    (hholds : Holds codec store' (Function.update parts record.sessionId segs)) :
    Written codec fault parts record segs (append codec fault store record) := by
  rw [append, hrotate]
  rcases writeRecord_cases hholds hopen fault record with
    ⟨hfault, e, herror⟩ | ⟨hfault, hok, hopen', hholds'⟩
  · simp only [herror]
    exact ⟨hopen, .inr ⟨hfault, ⟨e, rfl⟩, hholds⟩⟩
  · rw [Function.update_self, Function.update_idem] at hholds'
    exact ⟨hopen', .inl ⟨hfault, hok, hholds'⟩⟩

/-- What an append does. It writes the record to the last segment of its session, which may be a
fresh one, or fails there, or fails in the rotation with the file closed. -/
theorem append_cases (h : Holds codec store parts) (fault : Option IoStep) (record : ReplayRecord) :
    (∃ segs, Rolled codec fault store record (parts record.sessionId) segs ∧
      Written codec fault parts record segs (append codec fault store record)) ∨
    ((∃ e, (append codec fault store record).1 = .error e) ∧
      (append codec fault store record).2.writer.activeFile = none ∧
      Holds codec (append codec fault store record).2 parts ∧
      (store.OpenFor record.sessionId → SizeOverflow codec store record) ∧
      (fault = none → Blocked codec store parts record)) := by
  rcases rotate_cases h fault record with ⟨hopen, hsize, heq⟩ | ⟨hopened, hwhy⟩ | ⟨hfailed, hnone⟩
  · refine .inl ⟨_, .same hopen (h.openFor hopen).2 hsize, written_of_rotate heq hopen ?_⟩
    rwa [Function.update_eq_self]
  · refine .inl ⟨parts record.sessionId ++ [[]], ?_, written_of_rotate (Prod.ext hopened.isOk rfl)
      ⟨hopened.activeSession, hopened.isOpen⟩ hopened.holds⟩
    rcases hwhy with ⟨hopen, hsize, hidx⟩ | ⟨hclosed, hnil⟩
    · exact .next hopen hsize hidx hopened.noFault
    · exact .first hclosed hnil
  · refine .inr ?_
    obtain ⟨⟨e, herror⟩, hclosed, hholds⟩ := hfailed
    have happend : append codec fault store record
        = (.error e, (rotate codec fault store record).2) := by
      rw [append, ← Prod.eta (rotate codec fault store record), herror]
    rw [happend]
    exact ⟨⟨e, rfl⟩, hclosed, hholds, hnone⟩

end Store

end Hedge.Replay
