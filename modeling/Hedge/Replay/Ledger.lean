import Hedge.Replay.Segments

/-!
# What a session's directory holds

A session is on disk as `parts : List (List ReplayRecord)`, the records of its segments in the order
of their numbers; `numbered` is the directory that holds them. The reader returns the records of the
segments one after another (`readSession_numbered`) as long as the numbers fit the four digits of
the file names: up to 9999 segments the order of the names is the order of the numbers.
-/

namespace Hedge.Replay

open Hedge.Common

variable {codec : RecordCodec}

/-! ## Segment names -/

theorem segName_inj {i j : ℕ} (h : segName i = segName j) : i = j :=
  decimal_inj (List.append_cancel_right (List.append_cancel_left h))

theorem segName_lt {i j : ℕ} (hij : i < j) (hj : j ≤ 9999) : segName i < segName j :=
  List.append_left_lt (decimal_append_lt (by norm_num) hij (by omega) _)

@[simp] theorem isSegName_segName (i : ℕ) : isSegName (segName i) = true := by
  rw [isSegName, Bool.and_eq_true, List.isPrefixOf_iff_prefix, List.isSuffixOf_iff_suffix]
  refine ⟨List.prefix_append _ _, ?_⟩
  rw [segName, ← List.append_assoc]
  exact List.suffix_append _ _

/-! ## Directories of numbered segments -/

/-- The bytes of a segment with the given records. -/
def framesOf (codec : RecordCodec) (records : List ReplayRecord) : List UInt8 :=
  records.flatMap fun record => writeFramed (codec.encodeRecord record)

/-- The files of segments numbered from `k` on. -/
def numberedFrom (codec : RecordCodec) : ℕ → List (List ReplayRecord) → Dir
  | _, [] => []
  | k, records :: parts => (segName k, framesOf codec records) :: numberedFrom codec (k + 1) parts

/-- The directory of a session with the given segments. -/
def numbered (codec : RecordCodec) (parts : List (List ReplayRecord)) : Dir :=
  numberedFrom codec 1 parts

theorem map_fst_numberedFrom (k : ℕ) (parts : List (List ReplayRecord)) :
    (numberedFrom codec k parts).map Prod.fst = (List.range' k parts.length).map segName := by
  induction parts generalizing k with
  | nil => rfl
  | cons records parts ih =>
    rw [numberedFrom, List.map_cons, ih, List.length_cons, List.range'_succ, List.map_cons]

theorem numberedFrom_append (k : ℕ) (parts parts' : List (List ReplayRecord)) :
    numberedFrom codec k (parts ++ parts')
      = numberedFrom codec k parts ++ numberedFrom codec (k + parts.length) parts' := by
  induction parts generalizing k with
  | nil => rfl
  | cons records parts ih =>
    rw [List.cons_append, numberedFrom, numberedFrom, ih, List.cons_append, List.length_cons,
      Nat.add_right_comm, Nat.add_assoc]

theorem numbered_concat (parts : List (List ReplayRecord)) (records : List ReplayRecord) :
    numbered codec (parts ++ [records])
      = numbered codec parts ++ [(segName (parts.length + 1), framesOf codec records)] := by
  rw [numbered, numberedFrom_append, Nat.add_comm 1]
  rfl

/-- The name with number `i` is taken exactly if there are `i` segments. -/
theorem segName_mem_numbered {parts : List (List ReplayRecord)} {i : ℕ} :
    segName i ∈ (numbered codec parts).map Prod.fst ↔ 0 < i ∧ i ≤ parts.length := by
  rw [numbered, map_fst_numberedFrom, List.mem_map]
  constructor
  · rintro ⟨j, hj, hname⟩
    rw [List.mem_range'_1, segName_inj hname] at hj
    omega
  · intro h
    exact ⟨i, List.mem_range'_1.mpr (by omega), rfl⟩

theorem nodup_map_fst_numbered (parts : List (List ReplayRecord)) :
    ((numbered codec parts).map Prod.fst).Nodup := by
  rw [numbered, map_fst_numberedFrom]
  exact List.Nodup.map (fun _ _ => segName_inj) List.nodup_range'

/-- Up to 9999 segments the sorted names are the names in the order of the numbers. -/
theorem insertionSort_numbered {parts : List (List ReplayRecord)} (h : parts.length ≤ 9999) :
    (((numbered codec parts).map Prod.fst).filter isSegName).insertionSort (· ≤ ·)
      = (numbered codec parts).map Prod.fst := by
  have hall : ∀ name ∈ (numbered codec parts).map Prod.fst, isSegName name = true := by
    intro name hname
    rw [numbered, map_fst_numberedFrom] at hname
    obtain ⟨i, -, rfl⟩ := List.mem_map.mp hname
    exact isSegName_segName i
  rw [List.filter_eq_self.mpr hall]
  apply List.Pairwise.insertionSort_eq
  rw [numbered, map_fst_numberedFrom, List.pairwise_map]
  refine List.Pairwise.imp_of_mem ?_ (List.pairwise_lt_range' 1)
  intro i j _ hj hij
  rw [List.mem_range'_1] at hj
  exact le_of_lt (segName_lt hij (by omega))

/-! ## Reading a session -/

/-- In a directory without repeated names a lookup finds each file. -/
theorem lookup_eq_of_mem {dir : Dir} (hnodup : (dir.map Prod.fst).Nodup) {file : FileName × List UInt8}
    (hmem : file ∈ dir) : dir.lookup file.1 = some file.2 := by
  induction dir with
  | nil => cases hmem
  | cons head dir ih =>
    rw [List.map_cons, List.nodup_cons] at hnodup
    rcases List.mem_cons.mp hmem with rfl | hmem
    · exact List.lookup_cons_self
    · have hne : file.1 ≠ head.1 := by
        intro heq
        exact hnodup.1 (heq ▸ List.mem_map_of_mem hmem)
      rw [List.lookup_cons, beq_false_of_ne hne]
      exact ih hnodup.2 hmem

namespace SegmentReader

/-- The files named by the first list hold the records of the second. -/
abbrev Holding (codec : RecordCodec) (disk : Disk) (session : UInt64) :
    List FileName → List (List ReplayRecord) → Prop :=
  List.Forall₂ fun name records => disk.contents session name = some (framesOf codec records)

theorem holding_numberedFrom {disk : Disk} {session : UInt64} {k : ℕ}
    {parts : List (List ReplayRecord)}
    (h : ∀ file ∈ numberedFrom codec k parts, disk.contents session file.1 = some file.2) :
    Holding codec disk session ((numberedFrom codec k parts).map Prod.fst) parts := by
  induction parts generalizing k with
  | nil => exact .nil
  | cons records parts ih =>
    refine .cons (h _ List.mem_cons_self) (ih ?_)
    exact fun file hfile => h file (List.mem_cons_of_mem _ hfile)

/-- The reader stands in an open segment with the records `cur` left, and the segments after it hold
`parts`. -/
structure Positioned (codec : RecordCodec) (disk : Disk) (reader : SegmentReader)
    (cur : List ReplayRecord) (parts : List (List ReplayRecord)) : Prop where
  active : ∃ inp, reader.active = some inp ∧ inp.bytes = framesOf codec cur
  rest : Holding codec disk reader.session (reader.segments.drop (reader.activeIdx + 1)) parts

variable {disk : Disk} {chunks : ℕ → List ℕ} {reader : SegmentReader}

/-- Opening the next segment is part of the round that reads from it. -/
theorem nextRecordLoop_open (reader : SegmentReader) {name : FileName} {bytes : List UInt8}
    (hactive : reader.active = none)
    (hname : reader.segments[reader.activeIdx]? = some name)
    (hbytes : disk.contents reader.session name = some bytes) (fuel : ℕ) :
    nextRecordLoop codec disk chunks (fuel + 1) reader
      = nextRecordLoop codec disk chunks (fuel + 1)
          { reader with active := some { bytes, chunks := chunks reader.activeIdx } } := by
  simp only [nextRecordLoop, openActive, hactive, hname, hbytes]

theorem nextRecordLoop_end (hactive : reader.active = none)
    (hend : reader.segments.drop reader.activeIdx = []) (fuel : ℕ) :
    nextRecordLoop codec disk chunks fuel reader = (.ok none, reader) := by
  have hname : reader.segments[reader.activeIdx]? = none :=
    List.getElem?_eq_none (List.drop_eq_nil_iff.mp hend)
  cases fuel with
  | zero => rfl
  | succ fuel => simp only [nextRecordLoop, openActive, hactive, hname]

theorem nextRecordLoop_empty {inp : Reader} (hactive : reader.active = some inp)
    (hbytes : inp.bytes = []) (fuel : ℕ) :
    nextRecordLoop codec disk chunks (fuel + 1) reader
      = nextRecordLoop codec disk chunks fuel
          { reader with active := none, activeIdx := reader.activeIdx + 1 } := by
  have hread : readFramed inp = (.ok none, (readFramed inp).2) := by
    rw [← readFramed_nil hbytes]
  simp only [nextRecordLoop, openActive, hactive]
  rw [hread]

/-- What a call of `next_record` does: it returns the first record that is left and stands behind
it. -/
structure Advances (codec : RecordCodec) (disk : Disk) (records : List ReplayRecord)
    (out : Except IoError (Option ReplayRecord) × SegmentReader) : Prop where
  result : out.1 = .ok records.head?
  positioned : records ≠ [] → ∃ cur parts,
    Positioned codec disk out.2 cur parts ∧ cur ++ parts.flatten = records.tail

theorem nextRecordLoop_cons {record : ReplayRecord} {cur : List ReplayRecord}
    {parts : List (List ReplayRecord)}
    (hpos : Positioned codec disk reader (record :: cur) parts) (hfits : codec.Fits record)
    (fuel : ℕ) :
    Advances codec disk (record :: cur ++ parts.flatten)
      (nextRecordLoop codec disk chunks (fuel + 1) reader) := by
  obtain ⟨inp, hactive, hbytes⟩ := hpos.active
  have hsplit : inp.bytes = writeFramed (codec.encodeRecord record) ++ framesOf codec cur := hbytes
  obtain ⟨hframe, hrest⟩ := readFramed_writeFramed hfits hsplit
  have hread : readFramed inp
      = (.ok (some (codec.encodeRecord record)), (readFramed inp).2) := by
    rw [← hframe]
  have hnext : nextRecordLoop codec disk chunks (fuel + 1) reader
      = (.ok (some record), { reader with active := some (readFramed inp).2 }) := by
    simp only [nextRecordLoop, openActive, hactive]
    rw [hread]
    simp only [codec.decode_encode record hfits]
  rw [hnext]
  exact ⟨rfl, fun _ => ⟨cur, parts, ⟨⟨_, rfl, hrest⟩, hpos.rest⟩, rfl⟩⟩

/-- `next_record` passes over empty segments. -/
theorem nextRecordLoop_positioned {cur : List ReplayRecord} {parts : List (List ReplayRecord)}
    (hpos : Positioned codec disk reader cur parts)
    (hfits : ∀ record ∈ cur ++ parts.flatten, codec.Fits record) {fuel : ℕ}
    (hfuel : parts.length < fuel) :
    Advances codec disk (cur ++ parts.flatten)
      (nextRecordLoop codec disk chunks fuel reader) := by
  induction parts generalizing reader cur fuel with
  | nil =>
    obtain ⟨fuel, rfl⟩ : ∃ n, fuel = n + 1 := ⟨fuel - 1, by omega⟩
    cases cur with
    | cons record cur => exact nextRecordLoop_cons hpos (hfits _ (by simp)) fuel
    | nil =>
      obtain ⟨inp, hactive, hbytes⟩ := hpos.active
      have hend : reader.segments.drop (reader.activeIdx + 1) = [] :=
        List.forall₂_nil_right_iff.mp hpos.rest
      rw [nextRecordLoop_empty hactive hbytes, nextRecordLoop_end rfl hend]
      exact ⟨rfl, fun h => absurd rfl h⟩
  | cons records parts ih =>
    obtain ⟨fuel, rfl⟩ : ∃ n, fuel = n + 1 + 1 := ⟨fuel - 2, by simp at hfuel; omega⟩
    cases cur with
    | cons record cur => exact nextRecordLoop_cons hpos (hfits _ (by simp)) _
    | nil =>
      obtain ⟨inp, hactive, hbytes⟩ := hpos.active
      obtain ⟨name, names, hname, hnames, hdrop⟩ := List.forall₂_cons_right_iff.mp hpos.rest
      have hget : reader.segments[reader.activeIdx + 1]? = some name := by
        rw [← List.head?_drop, hdrop, List.head?_cons]
      have hrest : reader.segments.drop (reader.activeIdx + 1 + 1) = names := by
        rw [← List.drop_drop, hdrop, List.drop_one, List.tail_cons]
      have hopen : nextRecordLoop codec disk chunks (fuel + 1)
            { reader with active := none, activeIdx := reader.activeIdx + 1 }
          = nextRecordLoop codec disk chunks (fuel + 1)
              { reader with
                active := some ⟨framesOf codec records, chunks (reader.activeIdx + 1)⟩
                activeIdx := reader.activeIdx + 1 } :=
        nextRecordLoop_open
          { reader with active := none, activeIdx := reader.activeIdx + 1 } rfl hget hname fuel
      have hnext : Positioned codec disk
          { reader with
            active := some ⟨framesOf codec records, chunks (reader.activeIdx + 1)⟩
            activeIdx := reader.activeIdx + 1 } records parts :=
        ⟨⟨_, rfl, rfl⟩, hrest ▸ hnames⟩
      rw [nextRecordLoop_empty hactive hbytes, hopen]
      exact ih hnext hfits (by simpa using hfuel)

/-- `read_all` returns every record that is left. -/
theorem readAllLoop_positioned {cur : List ReplayRecord} {parts : List (List ReplayRecord)}
    (hpos : Positioned codec disk reader cur parts)
    (hfits : ∀ record ∈ cur ++ parts.flatten, codec.Fits record) {fuel : ℕ}
    (hfuel : (cur ++ parts.flatten).length < fuel) :
    readAllLoop codec disk chunks fuel reader = .ok (cur ++ parts.flatten) := by
  induction fuel generalizing reader cur parts with
  | zero => cases hfuel
  | succ fuel ih =>
    have hsegments : parts.length < reader.segments.length + 1 := by
      rw [← hpos.rest.length_eq, List.length_drop]
      omega
    have hadv : Advances codec disk (cur ++ parts.flatten)
        (reader.nextRecord codec disk chunks) :=
      nextRecordLoop_positioned hpos hfits hsegments
    obtain ⟨hresult, hpositioned⟩ := hadv
    generalize hrecords : cur ++ parts.flatten = records at *
    rw [readAllLoop]
    generalize reader.nextRecord codec disk chunks = out at *
    obtain ⟨result, reader'⟩ := out
    cases records with
    | nil =>
      obtain rfl : result = .ok none := hresult
      rfl
    | cons record records =>
      obtain rfl : result = .ok (some record) := hresult
      obtain ⟨cur', parts', hpos', hleft⟩ := hpositioned (List.cons_ne_nil _ _)
      rw [List.tail_cons] at hleft
      have hrest := ih hpos'
        (by rw [hleft]; exact fun r hr => hfits r (List.mem_cons_of_mem _ hr))
        (by rw [hleft]; simpa using hfuel)
      rw [hleft] at hrest
      simp only [hrest]

/-- `read_all` of a reader that has opened nothing yet. -/
theorem readAllLoop_closed {parts : List (List ReplayRecord)} (hactive : reader.active = none)
    (hrest : Holding codec disk reader.session (reader.segments.drop reader.activeIdx) parts)
    (hfits : ∀ record ∈ parts.flatten, codec.Fits record) {fuel : ℕ}
    (hfuel : parts.flatten.length < fuel) :
    readAllLoop codec disk chunks fuel reader = .ok parts.flatten := by
  obtain ⟨fuel, rfl⟩ : ∃ n, fuel = n + 1 := ⟨fuel - 1, by omega⟩
  cases parts with
  | nil =>
    have hend := List.forall₂_nil_right_iff.mp hrest
    rw [readAllLoop, nextRecord, nextRecordLoop_end hactive hend]
    rfl
  | cons records parts =>
    obtain ⟨name, names, hname, hnames, hdrop⟩ := List.forall₂_cons_right_iff.mp hrest
    have hget : reader.segments[reader.activeIdx]? = some name := by
      rw [← List.head?_drop, hdrop, List.head?_cons]
    have hafter : reader.segments.drop (reader.activeIdx + 1) = names := by
      rw [← List.drop_drop, hdrop, List.drop_one, List.tail_cons]
    have hopen : reader.nextRecord codec disk chunks
        = ({ reader with active := some ⟨framesOf codec records, chunks reader.activeIdx⟩ } :
            SegmentReader).nextRecord codec disk chunks :=
      nextRecordLoop_open reader hactive hget hname _
    have hpos : Positioned codec disk
        { reader with active := some ⟨framesOf codec records, chunks reader.activeIdx⟩ }
        records parts :=
      ⟨⟨_, rfl, rfl⟩, hafter ▸ hnames⟩
    rw [readAllLoop, hopen, ← readAllLoop]
    exact readAllLoop_positioned hpos hfits hfuel

end SegmentReader

theorem length_le_length_framesOf (codec : RecordCodec) (records : List ReplayRecord) :
    records.length ≤ (framesOf codec records).length := by
  induction records with
  | nil => exact Nat.zero_le _
  | cons record records ih =>
    rw [framesOf, List.flatMap_cons, List.length_append, length_writeFramed, List.length_cons]
    rw [framesOf] at ih
    omega

theorem length_flatten_le_sum (codec : RecordCodec) (k : ℕ) (parts : List (List ReplayRecord)) :
    parts.flatten.length
      ≤ ((numberedFrom codec k parts).map fun file => file.2.length).sum := by
  induction parts generalizing k with
  | nil => exact Nat.le_refl _
  | cons records parts ih =>
    rw [List.flatten_cons, List.length_append, numberedFrom, List.map_cons, List.sum_cons]
    exact Nat.add_le_add (length_le_length_framesOf codec records) (ih (k + 1))

/-- A directory with up to 9999 numbered segments reads back as their records in order. -/
theorem readSession_numbered {disk : Disk} {session : UInt64} {parts : List (List ReplayRecord)}
    (hfiles : disk.files session = numbered codec parts)
    (hfits : ∀ record ∈ parts.flatten, codec.Fits record) (hroom : parts.length ≤ 9999)
    (chunks : ℕ → List ℕ) : readSession codec disk chunks session = .ok parts.flatten := by
  have hbytes := length_flatten_le_sum codec 1 parts
  have hholding : SegmentReader.Holding codec disk session
      ((numbered codec parts).map Prod.fst) parts := by
    apply SegmentReader.holding_numberedFrom
    intro file hfile
    rw [Disk.contents, hfiles]
    exact lookup_eq_of_mem (nodup_map_fst_numbered parts) hfile
  rw [readSession, SegmentReader.openSession, hfiles, insertionSort_numbered hroom]
  exact SegmentReader.readAllLoop_closed rfl hholding hfits (Nat.lt_succ_of_le hbytes)

end Hedge.Replay
