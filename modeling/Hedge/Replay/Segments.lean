import Hedge.Common.Decimal
import Hedge.Common.Machine
import Hedge.Replay.Record
import Mathlib.Data.List.Sort

/-!
# Segment files: the writer and the reader of the ledger

Reference: `hedge-replay/src/segments.rs`.

The writer keeps one segment file open and rolls to the next one on a change of session and when the
file would outgrow its budget. The directory tree is explicit: a directory for each session, with
its files in the order of their creation (the reader sorts what `read_dir` lists). A file is written
through a `BufWriter` of 8 KiB, whose pending bytes reach the disk when it is full, flushed or
dropped.

An operation takes the step at which the operating system makes it fail, if there is one; such a
step has no effect on the disk. `create_new` fails by itself where the file exists.
-/

namespace Hedge.Replay

open Hedge.Common

/-! ## The directory tree -/

abbrev FileName := List Char

/-- `format!("seg-{:04}.rkyv", idx)`. -/
def segName (idx : ℕ) : FileName := "seg-".toList ++ (decimal 4 idx ++ ".rkyv".toList)

/-- The files of a directory and what they hold. -/
abbrev Dir := List (FileName × List UInt8)

/-- The directory after a write at the end of one of its files. -/
def Dir.appendTo (dir : Dir) (name : FileName) (bytes : List UInt8) : Dir :=
  dir.map fun file => if file.1 = name then (file.1, file.2 ++ bytes) else file

/-- The tree under the root directory: the directory of each session, where it exists. -/
structure Disk where
  dir : UInt64 → Option Dir

namespace Disk

/-- The empty root directory. -/
def empty : Disk := ⟨fun _ => none⟩

/-- The files of a session; none if it has no directory. -/
def files (disk : Disk) (session : UInt64) : Dir := (disk.dir session).getD []

/-- The bytes of one file. -/
def contents (disk : Disk) (session : UInt64) (name : FileName) : Option (List UInt8) :=
  (disk.files session).lookup name

/-- Replaces the files of a session's directory. -/
def setFiles (disk : Disk) (session : UInt64) (files : Dir) : Disk :=
  ⟨Function.update disk.dir session (some files)⟩

/-- `create_dir_all`. -/
def createDirAll (disk : Disk) (session : UInt64) : Disk :=
  disk.setFiles session (disk.files session)

/-- `create_new(true)`: an empty file, unless the name is taken. -/
def createNew (disk : Disk) (session : UInt64) (name : FileName) : Option Disk :=
  if name ∈ (disk.files session).map Prod.fst then none
  else some (disk.setFiles session (disk.files session ++ [(name, [])]))

/-- A write at the end of one file. -/
def append (disk : Disk) (session : UInt64) (name : FileName) (bytes : List UInt8) : Disk :=
  disk.setFiles session (Dir.appendTo (disk.files session) name bytes)

end Disk

/-! ## Buffered files -/

/-- `BufWriter<File>`: the file behind it and the bytes it has not yet written. -/
structure SegmentFile where
  session : UInt64
  name : FileName
  pending : List UInt8
  deriving DecidableEq, Repr

namespace SegmentFile

/-- The capacity of a `BufWriter`. -/
def capacity : ℕ := 8192

/-- `flush`: the pending bytes reach the file. -/
def flush (file : SegmentFile) (disk : Disk) : SegmentFile × Disk :=
  ({ file with pending := [] }, disk.append file.session file.name file.pending)

/-- `write_all` of `BufWriter`: what does not fit flushes the buffer first, and a write of the
buffer's size or more goes to the file directly. -/
def writeAll (file : SegmentFile) (disk : Disk) (bytes : List UInt8) : SegmentFile × Disk :=
  if bytes.length < capacity - file.pending.length then
    ({ file with pending := file.pending ++ bytes }, disk)
  else
    let (file, disk) :=
      if capacity - file.pending.length < bytes.length then file.flush disk else (file, disk)
    if capacity ≤ bytes.length then (file, disk.append file.session file.name bytes)
    else ({ file with pending := file.pending ++ bytes }, disk)

end SegmentFile

/-! ## The writer -/

/-- `SegmentWriter`, less its root directory. -/
structure SegmentWriter where
  maxSegmentBytes : UInt64
  activeSession : Option UInt64
  activeSegmentIdx : UInt32
  activeFile : Option SegmentFile
  activeBytes : UInt64
  deriving DecidableEq, Repr

/-- `SegmentWriter::new`. -/
def SegmentWriter.new (maxSegmentBytes : UInt64) : SegmentWriter :=
  { maxSegmentBytes, activeSession := none, activeSegmentIdx := 0, activeFile := none,
    activeBytes := 0 }

/-- A writer and the tree it writes to. -/
structure Store where
  writer : SegmentWriter
  disk : Disk

/-- The steps of an append that the operating system may fail. -/
inductive IoStep where
  | sync
  | createDir
  | openFile
  | write
  deriving DecidableEq, Repr

namespace Store

/-- A new writer on an empty root. -/
def new (maxSegmentBytes : UInt64) : Store := ⟨.new maxSegmentBytes, .empty⟩

/-- `close_active`. A flush that fails leaves its bytes to the drop of the `BufWriter`, which flushes
again, so that the pending bytes reach the file either way; the byte count is not reset then. -/
def closeActive (fault : Option IoStep) (store : Store) : Except IoError Unit × Store :=
  match store.writer.activeFile with
  | some file =>
    let disk := (file.flush store.disk).2
    let writer := { store.writer with activeFile := none }
    if fault = some .sync then (.error ⟨.other, none⟩, ⟨writer, disk⟩)
    else (.ok (), ⟨{ writer with activeBytes := 0 }, disk⟩)
  | none => (.ok (), { store with writer := { store.writer with activeBytes := 0 } })

/-- `open_next_segment`, in the directory of the session that was made active. -/
def openNextSegment (fault : Option IoStep) (store : Store) (session : UInt64) :
    Except IoError Unit × Store :=
  let idx := store.writer.activeSegmentIdx.saturatingAdd 1
  let store := { store with writer := { store.writer with activeSegmentIdx := idx } }
  if fault = some .createDir then (.error ⟨.other, none⟩, store)
  else
    let store := { store with disk := store.disk.createDirAll session }
    let name := segName idx.toNat
    if fault = some .openFile then (.error ⟨.other, none⟩, store)
    else
      match store.disk.createNew session name with
      | none => (.error ⟨.alreadyExists, none⟩, store)
      | some disk =>
        let file : SegmentFile := { session, name, pending := [] }
        (.ok (), ⟨{ store.writer with activeFile := some file, activeBytes := 0 }, disk⟩)

/-- The size of a record's frame. -/
def frameSize (codec : RecordCodec) (record : ReplayRecord) : UInt64 :=
  4 + UInt64.ofNat (codec.encodeRecord record).length

/-- `size_overflow`: the open file would outgrow its budget by the record. -/
def SizeOverflow (codec : RecordCodec) (store : Store) (record : ReplayRecord) : Prop :=
  store.writer.activeFile.isSome ∧
    store.writer.maxSegmentBytes < store.writer.activeBytes.saturatingAdd (frameSize codec record)

instance (codec : RecordCodec) (store : Store) (record : ReplayRecord) :
    Decidable (SizeOverflow codec store record) :=
  inferInstanceAs (Decidable (_ ∧ _))

/-- The rotation of `append`: what it does before the record is written. -/
def rotate (codec : RecordCodec) (fault : Option IoStep) (store : Store) (record : ReplayRecord) :
    Except IoError Unit × Store :=
  if store.writer.activeSession ≠ some record.sessionId then
    match store.closeActive fault with
    | (.error e, store) => (.error e, store)
    | (.ok _, store) =>
      let writer :=
        { store.writer with activeSession := some record.sessionId, activeSegmentIdx := 0 }
      openNextSegment fault { store with writer } record.sessionId
  else if SizeOverflow codec store record then
    match store.closeActive fault with
    | (.error e, store) => (.error e, store)
    | (.ok _, store) => openNextSegment fault store record.sessionId
  else if store.writer.activeFile.isNone then
    let writer := { store.writer with activeSegmentIdx := 0 }
    openNextSegment fault { store with writer } record.sessionId
  else (.ok (), store)

/-- The write of `append`: `write_framed` into the open file. -/
def writeRecord (codec : RecordCodec) (fault : Option IoStep) (store : Store)
    (record : ReplayRecord) : Except IoError (UInt64 × FileName) × Store :=
  match store.writer.activeFile with
  | none => (.error ⟨.other, some "open_next_segment leaves the file open"⟩, store)
  | some file =>
    if fault = some .write then (.error ⟨.other, none⟩, store)
    else
      let archive := codec.encodeRecord record
      let (file, disk) := file.writeAll store.disk (toBe 4 archive.length)
      let (file, disk) := file.writeAll disk archive
      let activeBytes := store.writer.activeBytes.saturatingAdd (frameSize codec record)
      (.ok (record.sessionId, segName store.writer.activeSegmentIdx.toNat),
        ⟨{ store.writer with activeFile := some file, activeBytes }, disk⟩)

/-- `SegmentWriter::append`: the path the record was written to. -/
def append (codec : RecordCodec) (fault : Option IoStep) (store : Store) (record : ReplayRecord) :
    Except IoError (UInt64 × FileName) × Store :=
  match rotate codec fault store record with
  | (.error e, store) => (.error e, store)
  | (.ok _, store) => writeRecord codec fault store record

/-- The tree once the writer has been dropped: `Drop` closes the active file. -/
def dropped (store : Store) : Disk := (store.closeActive none).2.disk

/-- The writer is dropped and another one opened on the same root. -/
def reopen (store : Store) (maxSegmentBytes : UInt64) : Store :=
  ⟨.new maxSegmentBytes, store.dropped⟩

end Store

/-! ## The reader -/

/-- `SegmentReader`, with the session whose directory its paths lie in. -/
structure SegmentReader where
  session : UInt64
  segments : List FileName
  active : Option Reader
  activeIdx : ℕ
  deriving DecidableEq, Repr

/-- The names `open_session` keeps: those that start with `seg-` and end in `.rkyv`. -/
def isSegName (name : FileName) : Bool :=
  "seg-".toList.isPrefixOf name && ".rkyv".toList.isSuffixOf name

namespace SegmentReader

/-- `SegmentReader::open_session`. -/
def openSession (disk : Disk) (session : UInt64) : SegmentReader :=
  let names := ((disk.files session).map Prod.fst).filter isSegName
  { session, segments := names.insertionSort (· ≤ ·), active := none, activeIdx := 0 }

/-- The open reader of the active segment; the file is opened if there is none, and it is `none`
past the last segment. `chunks` gives the sizes of the reads on each segment. -/
def openActive (disk : Disk) (chunks : ℕ → List ℕ) (reader : SegmentReader) :
    Except IoError (Option Reader) :=
  match reader.active with
  | some inp => .ok (some inp)
  | none =>
    match reader.segments[reader.activeIdx]? with
    | none => .ok none
    | some name =>
      match disk.contents reader.session name with
      | none => .error ⟨.notFound, none⟩
      | some bytes => .ok (some { bytes, chunks := chunks reader.activeIdx })

/-- The loop of `next_record`, for at most `fuel` segments. -/
def nextRecordLoop (codec : RecordCodec) (disk : Disk) (chunks : ℕ → List ℕ) :
    ℕ → SegmentReader → Except IoError (Option ReplayRecord) × SegmentReader
  | 0, reader => (.ok none, reader)
  | fuel + 1, reader =>
    match reader.openActive disk chunks with
    | .error e => (.error e, reader)
    | .ok none => (.ok none, reader)
    | .ok (some inp) =>
      match readFramed inp with
      | (.error e, inp) => (.error e, { reader with active := some inp })
      | (.ok (some bytes), inp) =>
        match codec.decodeRecord bytes with
        | some record => (.ok (some record), { reader with active := some inp })
        | none =>
          (.error ⟨.invalidData, some "corrupt rkyv frame in segment"⟩,
            { reader with active := some inp })
      | (.ok none, _) =>
        nextRecordLoop codec disk chunks fuel
          { reader with active := none, activeIdx := reader.activeIdx + 1 }

/-- `next_record`. Each round but the last leaves a segment behind. -/
def nextRecord (codec : RecordCodec) (disk : Disk) (chunks : ℕ → List ℕ) (reader : SegmentReader) :
    Except IoError (Option ReplayRecord) × SegmentReader :=
  nextRecordLoop codec disk chunks (reader.segments.length + 1) reader

/-- The loop of `read_all`, for at most `fuel` calls of `next_record`. -/
def readAllLoop (codec : RecordCodec) (disk : Disk) (chunks : ℕ → List ℕ) :
    ℕ → SegmentReader → Except IoError (List ReplayRecord)
  | 0, _ => .error ⟨.other, some "out of fuel"⟩
  | fuel + 1, reader =>
    match reader.nextRecord codec disk chunks with
    | (.error e, _) => .error e
    | (.ok none, _) => .ok []
    | (.ok (some record), reader) =>
      match readAllLoop codec disk chunks fuel reader with
      | .error e => .error e
      | .ok records => .ok (record :: records)

end SegmentReader

/-- `open_session` and `read_all`: every record of a session. A record takes up four bytes at least,
so that the bytes of the session's files bound the number of rounds. -/
def readSession (codec : RecordCodec) (disk : Disk) (chunks : ℕ → List ℕ) (session : UInt64) :
    Except IoError (List ReplayRecord) :=
  let bytes := ((disk.files session).map fun file => file.2.length).sum
  (SegmentReader.openSession disk session).readAllLoop codec disk chunks (bytes + 1)

end Hedge.Replay
