import Hedge.Common.Bytes
import Hedge.Common.Reader

/-!
# Replay records and their framing

Reference: `hedge-replay/src/record.rs`.

A record is archived by `rkyv`, which is not part of the repository: `RecordCodec` holds the two
functions the crate calls and what they promise. In a segment file each archive stands behind its
length in four big-endian bytes. `writeFramed` truncates the length to 32 bits as the cast does, so
only archives shorter than `2 ^ 32` bytes can be read back.

`readFramed` reads from any `Reader`, with whatever short reads it makes; `readFramed_eq` says that
its result is a function of the bytes alone.
-/

namespace Hedge.Replay

open Hedge.Common

/-! ## Records -/

/-- `AISource`: where an AI decision came from. -/
inductive AISource where
  | ranking
  | regime
  | news
  | psychology
  | priority
  | journal
  | governance
  | other
  deriving DecidableEq, Repr

/-- `RecordKind`. -/
inductive RecordKind where
  | tick
  | orderBook
  | openInterest
  | newsEvent
  | signalEmitted
  | riskDecision
  | orderSubmitted
  | orderModified
  | orderCancelled
  | fill
  | traderAction
  | aiDecision (source : AISource)
  | marketConditionSnapshot
  deriving DecidableEq, Repr

/-- `ReplayRecord`. -/
structure ReplayRecord where
  sessionId : UInt64
  sequenceNo : UInt64
  monotonicNs : UInt64
  wallclockUtc : Int64
  kind : RecordKind
  payload : List UInt8
  deriving DecidableEq, Repr

/-- `encode_record` and `decode_record`: `rkyv`'s archive of a record and its checked reading. Both
keep the lengths inside an archive in 32 bits, and what was archived within them reads back. -/
structure RecordCodec where
  encodeRecord : ReplayRecord → List UInt8
  decodeRecord : List UInt8 → Option ReplayRecord
  decode_encode : ∀ record, (encodeRecord record).length < 2 ^ 32 →
    decodeRecord (encodeRecord record) = some record

/-- The archive of the record is short enough for the 32-bit length of its frame. -/
def RecordCodec.Fits (codec : RecordCodec) (record : ReplayRecord) : Prop :=
  (codec.encodeRecord record).length < 2 ^ 32

instance (codec : RecordCodec) (record : ReplayRecord) : Decidable (codec.Fits record) :=
  inferInstanceAs (Decidable (_ < _))

/-! ## Errors -/

/-- The `std::io::ErrorKind`s that occur. -/
inductive ErrorKind where
  | unexpectedEof
  | invalidData
  | alreadyExists
  | notFound
  | other
  deriving DecidableEq, Repr

/-- `std::io::Error`: its kind, and its text where the crate or the library gives one. -/
structure IoError where
  kind : ErrorKind
  message : Option String
  deriving DecidableEq, Repr

/-! ## Framing -/

/-- `write_framed`: what it appends to the output. -/
def writeFramed (archive : List UInt8) : List UInt8 := toBe 4 archive.length ++ archive

@[simp] theorem length_writeFramed (archive : List UInt8) :
    (writeFramed archive).length = 4 + archive.length := by
  rw [writeFramed, List.length_append, length_toBe]

/-- `read_exact` into a buffer of `n` bytes. -/
def readExact (inp : Reader) (n : ℕ) : Except IoError (List UInt8) × Reader :=
  let (buf, inp) := inp.fill n
  if buf.length < n then
    (.error ⟨.unexpectedEof, some "failed to fill whole buffer"⟩, inp)
  else (.ok buf, inp)

/-- The part of `read_framed` after the length prefix. -/
def readArchive (lenBuf : List UInt8) (inp : Reader) :
    Except IoError (Option (List UInt8)) × Reader :=
  match readExact inp (ofBe lenBuf) with
  | (.error e, inp) => (.error e, inp)
  | (.ok buf, inp) => (.ok (some buf), inp)

/-- `read_framed`. -/
def readFramed (inp : Reader) : Except IoError (Option (List UInt8)) × Reader :=
  let (head, inp) := inp.read 4
  if head.length = 0 then (.ok none, inp)
  else if head.length = 4 then readArchive head inp
  else
    -- the loop over `read` that completes the prefix
    let (more, inp) := inp.fill (4 - head.length)
    if head.length + more.length < 4 then
      (.error ⟨.unexpectedEof, some "truncated length prefix"⟩, inp)
    else readArchive (head ++ more) inp

/-! ## Reading is independent of the reads -/

/-- The frame at the front of a byte string, and the bytes left after reading it. -/
def frontFrame (bytes : List UInt8) : Except IoError (Option (List UInt8)) × List UInt8 :=
  if bytes = [] then (.ok none, [])
  else if bytes.length < 4 then
    (.error ⟨.unexpectedEof, some "truncated length prefix"⟩, [])
  else
    let len := ofBe (bytes.take 4)
    let rest := bytes.drop 4
    if rest.length < len then
      (.error ⟨.unexpectedEof, some "failed to fill whole buffer"⟩, [])
    else (.ok (some (rest.take len)), rest.drop len)

theorem readArchive_eq (lenBuf : List UInt8) (inp : Reader) :
    ((readArchive lenBuf inp).1, (readArchive lenBuf inp).2.bytes)
      = if inp.bytes.length < ofBe lenBuf then
          (.error ⟨.unexpectedEof, some "failed to fill whole buffer"⟩, [])
        else (.ok (some (inp.bytes.take (ofBe lenBuf))), inp.bytes.drop (ofBe lenBuf)) := by
  simp only [readArchive, readExact, Reader.fill_fst, List.length_take]
  by_cases hshort : inp.bytes.length < ofBe lenBuf
  · rw [if_pos hshort, if_pos (by omega)]
    simp [List.drop_eq_nil_of_le hshort.le]
  · rw [if_neg hshort, if_neg (by omega)]
    simp

/-- What `read_framed` returns and leaves depends on the bytes of the stream only. -/
theorem readFramed_eq (inp : Reader) :
    ((readFramed inp).1, (readFramed inp).2.bytes) = frontFrame inp.bytes := by
  have hlen := inp.length_read 4
  have hle := inp.readLen_le 4
  have hle' := inp.readLen_le_length 4
  by_cases hnil : inp.bytes = []
  · have hzero : inp.readLen 4 = 0 := Reader.readLen_eq_zero.mpr (.inr hnil)
    simp [readFramed, frontFrame, Reader.read, hnil, hzero]
  have hpos : inp.readLen 4 ≠ 0 := by
    intro hzero
    rcases Reader.readLen_eq_zero.mp hzero with h | h
    · cases h
    · exact hnil h
  simp only [readFramed, hlen, if_neg hpos]
  by_cases hfull : inp.readLen 4 = 4
  · have hlong : ¬ inp.bytes.length < 4 := by omega
    rw [if_pos hfull, readArchive_eq, frontFrame, if_neg hnil, if_neg hlong]
    simp only [Reader.read, hfull]
  · rw [if_neg hfull]
    simp only [Reader.fill_fst, List.length_take]
    have hrest : (inp.read 4).2.bytes.length = inp.bytes.length - inp.readLen 4 := by
      simp [Reader.read]
    by_cases hlong : inp.bytes.length < 4
    · rw [if_pos (by omega), frontFrame, if_neg hnil, if_pos hlong]
      rw [Reader.bytes_fill, List.drop_eq_nil_of_le (by omega)]
    · have hhead : (inp.read 4).1 ++ (inp.read 4).2.bytes.take (4 - inp.readLen 4)
          = inp.bytes.take 4 := by
        simp only [Reader.read]
        rw [← List.take_add, Nat.add_sub_cancel' hle]
      have hdrop : (inp.read 4).2.bytes.drop (4 - inp.readLen 4) = inp.bytes.drop 4 := by
        simp only [Reader.read]
        rw [List.drop_drop, Nat.add_sub_cancel' hle]
      rw [if_neg (by omega), readArchive_eq, frontFrame, if_neg hnil, if_neg hlong,
        Reader.bytes_fill, hhead, hdrop]

theorem frontFrame_writeFramed {archive : List UInt8} (h : archive.length < 2 ^ 32)
    (rest : List UInt8) : frontFrame (writeFramed archive ++ rest) = (.ok (some archive), rest) := by
  have hlen : (writeFramed archive ++ rest).length = 4 + archive.length + rest.length := by
    rw [List.length_append, length_writeFramed]
  have hnil : writeFramed archive ++ rest ≠ [] := by
    intro hnil
    rw [hnil] at hlen
    simp at hlen
    omega
  have hhead : (writeFramed archive ++ rest).take 4 = toBe 4 archive.length := by
    rw [writeFramed, List.append_assoc, List.take_left' (length_toBe _ _)]
  have hrest : (writeFramed archive ++ rest).drop 4 = archive ++ rest := by
    rw [writeFramed, List.append_assoc, List.drop_left' (length_toBe _ _)]
  have hval : ofBe (toBe 4 archive.length) = archive.length :=
    ofBe_toBe_of_lt (lt_of_lt_of_eq h (by norm_num))
  rw [frontFrame, if_neg hnil, if_neg (by omega)]
  simp only [hhead, hrest, hval]
  rw [if_neg (by simp), List.take_left, List.drop_left]

/-- A frame reads back as it was written. -/
theorem readFramed_writeFramed {inp : Reader} {archive rest : List UInt8}
    (h : archive.length < 2 ^ 32) (hbytes : inp.bytes = writeFramed archive ++ rest) :
    (readFramed inp).1 = .ok (some archive) ∧ (readFramed inp).2.bytes = rest := by
  have heq := readFramed_eq inp
  rw [hbytes, frontFrame_writeFramed h] at heq
  exact Prod.mk.inj heq

/-- At the end of the stream `read_framed` reports a clean end. -/
theorem readFramed_nil {inp : Reader} (h : inp.bytes = []) : (readFramed inp).1 = .ok none := by
  have heq := readFramed_eq inp
  rw [h] at heq
  exact (Prod.mk.inj heq).1

/-! ## The layout of an archive -/

/-- The tag byte of a kind, and the byte of its source. -/
def kindBytes : RecordKind → UInt8 × UInt8
  | .tick => (0, 0)
  | .orderBook => (1, 0)
  | .openInterest => (2, 0)
  | .newsEvent => (3, 0)
  | .signalEmitted => (4, 0)
  | .riskDecision => (5, 0)
  | .orderSubmitted => (6, 0)
  | .orderModified => (7, 0)
  | .orderCancelled => (8, 0)
  | .fill => (9, 0)
  | .traderAction => (10, 0)
  | .aiDecision .ranking => (11, 0)
  | .aiDecision .regime => (11, 1)
  | .aiDecision .news => (11, 2)
  | .aiDecision .psychology => (11, 3)
  | .aiDecision .priority => (11, 4)
  | .aiDecision .journal => (11, 5)
  | .aiDecision .governance => (11, 6)
  | .aiDecision .other => (11, 255)
  | .marketConditionSnapshot => (12, 0)

/-- The kind with the given bytes, if they are valid. -/
def kindOfBytes (tag source : UInt8) : Option RecordKind :=
  [.tick, .orderBook, .openInterest, .newsEvent, .signalEmitted, .riskDecision, .orderSubmitted,
    .orderModified, .orderCancelled, .fill, .traderAction, .aiDecision .ranking,
    .aiDecision .regime, .aiDecision .news, .aiDecision .psychology, .aiDecision .priority,
    .aiDecision .journal, .aiDecision .governance, .aiDecision .other,
    .marketConditionSnapshot].find? fun kind => kindBytes kind = (tag, source)

theorem kindOfBytes_kindBytes (kind : RecordKind) :
    kindOfBytes (kindBytes kind).1 (kindBytes kind).2 = some kind := by
  cases kind with
  | aiDecision source => cases source <;> rfl
  | _ => rfl

/-- The root object of an archive, 48 bytes at its end: four 64-bit fields, the relative pointer to
the payload with the payload's length, the kind, and padding. -/
def archiveRoot (record : ReplayRecord) (offset : ℕ) : List UInt8 :=
  toLe 8 record.sessionId.toNat ++ (toLe 8 record.sequenceNo.toNat ++
    (toLe 8 record.monotonicNs.toNat ++ (toLe 8 record.wallclockUtc.toUInt64.toNat ++
      (toLe 4 (2 ^ 32 - (offset + 32)) ++ (toLe 4 record.payload.length ++
        ((kindBytes record.kind).1 :: (kindBytes record.kind).2 :: List.replicate 6 0))))))

@[simp] theorem length_archiveRoot (record : ReplayRecord) (offset : ℕ) :
    (archiveRoot record offset).length = 48 := by
  simp [archiveRoot]

/-- An archive: the payload, padding to a multiple of eight bytes, and the root. -/
def archiveOf (record : ReplayRecord) : List UInt8 :=
  let body := record.payload ++ List.replicate ((8 - record.payload.length % 8) % 8) 0
  body ++ archiveRoot record body.length

/-- The record of an archive. -/
def recordOf (bytes : List UInt8) : Option ReplayRecord :=
  let root := bytes.drop (bytes.length - 48)
  if bytes.length < 48 then none
  else
    (kindOfBytes (root.getD 40 0) (root.getD 41 0)).map fun kind =>
      { sessionId := .ofNat (ofLe (root.take 8))
        sequenceNo := .ofNat (ofLe ((root.drop 8).take 8))
        monotonicNs := .ofNat (ofLe ((root.drop 16).take 8))
        wallclockUtc := (UInt64.ofNat (ofLe ((root.drop 24).take 8))).toInt64
        kind
        payload := bytes.take (ofLe ((root.drop 36).take 4)) }

theorem ofNat_ofLe_toLe (x : UInt64) : UInt64.ofNat (ofLe (toLe 8 x.toNat)) = x := by
  rw [ofLe_toLe_of_lt (lt_of_lt_of_eq x.toNat_lt (by norm_num)), UInt64.ofNat_toNat]

theorem recordOf_archiveOf (record : ReplayRecord) (h : (archiveOf record).length < 2 ^ 32) :
    recordOf (archiveOf record) = some record := by
  have hpayload : record.payload.length < 256 ^ 4 := by
    simp [archiveOf] at h
    omega
  set body := record.payload ++ List.replicate ((8 - record.payload.length % 8) % 8) 0 with hbody
  have harchive : archiveOf record = body ++ archiveRoot record body.length := rfl
  have hlen : (archiveOf record).length = body.length + 48 := by
    rw [harchive, List.length_append, length_archiveRoot]
  have hroot : (archiveOf record).drop ((archiveOf record).length - 48)
      = archiveRoot record body.length := by
    rw [hlen, Nat.add_sub_cancel, harchive, List.drop_left]
  have htake : (archiveOf record).take record.payload.length = record.payload := by
    rw [harchive, hbody, List.append_assoc, List.take_left]
  have hkind : kindOfBytes ((archiveRoot record body.length).getD 40 0)
      ((archiveRoot record body.length).getD 41 0) = some record.kind := by
    rw [← kindOfBytes_kindBytes record.kind]
    simp [archiveRoot]
  rw [recordOf, if_neg (by omega), hroot, hkind, Option.map_some]
  simp [archiveRoot, List.drop_append, ofNat_ofLe_toLe, htake, ofLe_toLe_of_lt hpayload,
    List.drop_of_length_le]

/-- The archives of `rkyv` on the platform the crate targets: a payload in front and the root with
the fixed-size fields at the end, where the reader starts. -/
def rkyvLayout : RecordCodec where
  encodeRecord := archiveOf
  decodeRecord := recordOf
  decode_encode := recordOf_archiveOf

end Hedge.Replay
