import Hedge.Replay.Record

/-!
# A stream of frames

Reference: `hedge-replay/src/record.rs`.

A segment is one frame after another, and a crash can cut it anywhere. However the stream hands out
its bytes, reading it gives the frames that are whole, then a clean end if the cut is between two
frames and an error if it is inside one (`framed_stream`).
-/

namespace Hedge.Replay

open Hedge.Common

/-- What `read_framed` returns. -/
abbrev FrameResult := Except IoError (Option (List UInt8))

/-- What `n` calls of `read_framed` return, one after the other. -/
def readMany : ℕ → Reader → List FrameResult
  | 0, _ => []
  | n + 1, inp => (readFramed inp).1 :: readMany n (readFramed inp).2

/-- The stream that `write_framed` makes of the archives. -/
def framedStream (archives : List (List UInt8)) : List UInt8 := archives.flatMap writeFramed

/-- The bytes end where a frame does. -/
def AtBoundary (archives : List (List UInt8)) (bytes : List UInt8) : Prop :=
  ∃ k, bytes = framedStream (archives.take k)

/-- Reading gives the archives and then `last`; after that, however often it is called, a clean
end. -/
def Reads (archives : List (List UInt8)) (last : FrameResult) (inp : Reader) : Prop :=
  ∀ n, readMany (archives.length + 1 + n) inp =
    archives.map (fun archive => .ok (some archive)) ++ last :: List.replicate n (.ok none)

/-- The bytes hold the first `k` frames, and not all of the next one. -/
def Holds (archives : List (List UInt8)) (k : ℕ) (bytes : List UInt8) : Prop :=
  ∃ part, bytes = framedStream (archives.take k) ++ part ∧
    ∀ archive ∈ archives[k]?, part.length < (writeFramed archive).length

/-- Reading gives the `k` archives whose frames are whole and then `last`: a clean end exactly at a
boundary, and an error inside a frame. -/
structure ReadsWhole (archives : List (List UInt8)) (inp : Reader) (k : ℕ) (last : FrameResult) :
    Prop where
  reads : Reads (archives.take k) last inp
  holds : Holds archives k inp.bytes
  clean : AtBoundary archives inp.bytes → last = .ok none
  torn : ¬ AtBoundary archives inp.bytes → ∃ e, last = .error e

section Stream

variable {archive : List UInt8} {archives : List (List UInt8)} {inp : Reader}

@[simp] theorem framedStream_nil : framedStream [] = [] := rfl

@[simp] theorem framedStream_cons :
    framedStream (archive :: archives) = writeFramed archive ++ framedStream archives := rfl

/-! ## The end of a stream -/

/-- A stream at its end stays there. -/
theorem readMany_of_nil (h : inp.bytes = []) (n : ℕ) :
    readMany n inp = List.replicate n (.ok none) := by
  induction n generalizing inp with
  | zero => rfl
  | succ n ih =>
    have heq := readFramed_eq inp
    rw [h] at heq
    obtain ⟨hresult, hrest⟩ := Prod.mk.inj heq
    rw [readMany, hresult, ih hrest, List.replicate_succ]

/-- A stream whose first call returns `last` and reaches the end. -/
theorem reads_nil {last : FrameResult} (h : frontFrame inp.bytes = (last, [])) :
    Reads [] last inp := by
  intro n
  have heq := readFramed_eq inp
  rw [h] at heq
  obtain ⟨hresult, hrest⟩ := Prod.mk.inj heq
  rw [List.length_nil, Nat.zero_add, Nat.add_comm, readMany, hresult, readMany_of_nil hrest]
  rfl

/-- A stream that starts with a whole frame. -/
theorem reads_cons {rest : List UInt8} {last : FrameResult} (hsmall : archive.length < 2 ^ 32)
    (hbytes : inp.bytes = writeFramed archive ++ rest)
    (h : Reads archives last (readFramed inp).2) : Reads (archive :: archives) last inp := by
  intro n
  obtain ⟨hresult, -⟩ := readFramed_writeFramed hsmall hbytes
  have hlen : (archive :: archives).length + 1 + n = archives.length + 1 + n + 1 := by
    rw [List.length_cons]
    omega
  rw [hlen, readMany, hresult, h n]
  rfl

/-- A frame that is cut short is an error, and leaves nothing. -/
theorem frontFrame_truncated {bytes rest : List UInt8} (hsmall : archive.length < 2 ^ 32)
    (hsplit : bytes ++ rest = writeFramed archive) (hne : bytes ≠ []) (hrest : rest ≠ []) :
    ∃ e, frontFrame bytes = (.error e, []) := by
  have hlen := congrArg List.length hsplit
  rw [List.length_append, length_writeFramed] at hlen
  have hpos := List.length_pos_iff.mpr hrest
  rw [frontFrame, if_neg hne]
  by_cases hprefix : bytes.length < 4
  · rw [if_pos hprefix]
    exact ⟨_, rfl⟩
  · -- the length is whole, so it is the length of the archive and asks for more than is left
    have hwhole : (bytes ++ rest).take 4 = bytes.take 4 :=
      List.take_append_of_le_length (by omega)
    have hhead : bytes.take 4 = toBe 4 archive.length := by
      rw [← hwhole, hsplit, writeFramed, List.take_left' (length_toBe _ _)]
    have hval : ofBe (bytes.take 4) = archive.length := by
      rw [hhead]
      exact ofBe_toBe_of_lt (lt_of_lt_of_eq hsmall (by norm_num))
    rw [if_neg hprefix]
    dsimp only
    rw [hval, if_pos (by rw [List.length_drop]; omega)]
    exact ⟨_, rfl⟩

/-! ## Boundaries -/

theorem atBoundary_cons_append {tail : List UInt8} :
    AtBoundary (archive :: archives) (writeFramed archive ++ tail) ↔ AtBoundary archives tail := by
  constructor
  · rintro ⟨k, hk⟩
    cases k with
    | zero =>
      have hlen := congrArg List.length hk
      simp at hlen
    | succ k => exact ⟨k, List.append_cancel_left hk⟩
  · rintro ⟨k, rfl⟩
    exact ⟨k + 1, rfl⟩

/-- Inside the first frame there is no boundary but its start. -/
theorem atBoundary_cons_of_length_lt (archives : List (List UInt8)) {bytes : List UInt8}
    (hlt : bytes.length < (writeFramed archive).length) :
    AtBoundary (archive :: archives) bytes ↔ bytes = [] := by
  constructor
  · rintro ⟨k, rfl⟩
    cases k with
    | zero => rfl
    | succ k =>
      simp only [List.take_succ_cons, framedStream_cons, List.length_append] at hlt
      omega
  · rintro rfl
    exact ⟨0, rfl⟩

end Stream

/-! ## Reading a cut stream -/

/-- A whole frame in front of a stream. -/
theorem ReadsWhole.cons {archive : List UInt8} {archives : List (List UInt8)} {inp : Reader}
    {tail : List UInt8} {k : ℕ} {last : FrameResult} (hsmall : archive.length < 2 ^ 32)
    (hbytes : inp.bytes = writeFramed archive ++ tail)
    (h : ReadsWhole archives (readFramed inp).2 k last) :
    ReadsWhole (archive :: archives) inp (k + 1) last := by
  obtain ⟨-, hleft⟩ := readFramed_writeFramed hsmall hbytes
  have hboundary : AtBoundary (archive :: archives) inp.bytes ↔
      AtBoundary archives (readFramed inp).2.bytes := by
    rw [hbytes, hleft, atBoundary_cons_append]
  refine ⟨reads_cons hsmall hbytes h.reads, ?_, fun hat => h.clean (hboundary.mp hat),
    fun hnot => h.torn (mt hboundary.mpr hnot)⟩
  obtain ⟨part, hpart, hnext⟩ := h.holds
  refine ⟨part, ?_, hnext⟩
  rw [hbytes, ← hleft, hpart, List.take_succ_cons, framedStream_cons, List.append_assoc]

/-- A stream that ends inside its first frame. -/
theorem readsWhole_of_cut (archives : List (List UInt8)) {archive : List UInt8} {inp : Reader}
    {more : List UInt8} (hsmall : archive.length < 2 ^ 32)
    (hframe : inp.bytes ++ more = writeFramed archive) (hmore : more ≠ []) :
    ∃ last, ReadsWhole (archive :: archives) inp 0 last := by
  have hpos := List.length_pos_iff.mpr hmore
  have hlt : inp.bytes.length < (writeFramed archive).length := by
    rw [← hframe, List.length_append]
    omega
  have hholds : Holds (archive :: archives) 0 inp.bytes := by
    refine ⟨inp.bytes, rfl, fun archive' hnext => ?_⟩
    cases hnext
    exact hlt
  have hboundary := atBoundary_cons_of_length_lt archives hlt
  by_cases hstart : inp.bytes = []
  · exact ⟨.ok none, reads_nil (by rw [hstart]; rfl), hholds, fun _ => rfl,
      fun hnot => absurd (hboundary.mpr hstart) hnot⟩
  · obtain ⟨e, he⟩ := frontFrame_truncated hsmall hframe hstart hmore
    exact ⟨.error e, reads_nil he, hholds, fun hat => absurd (hboundary.mp hat) hstart,
      fun _ => ⟨e, rfl⟩⟩

/-- Whatever part of the stream is left, the whole frames of it are read, and all of them are whole
if nothing is missing. -/
theorem exists_readsWhole {archives : List (List UInt8)}
    (hsmall : ∀ archive ∈ archives, archive.length < 2 ^ 32) {inp : Reader} {rest : List UInt8}
    (hsplit : inp.bytes ++ rest = framedStream archives) :
    ∃ k last, ReadsWhole archives inp k last ∧ (rest = [] → archives.take k = archives) := by
  induction archives generalizing inp with
  | nil =>
    obtain ⟨hbytes, -⟩ := List.append_eq_nil_iff.mp hsplit
    refine ⟨0, .ok none, ⟨reads_nil (by rw [hbytes]; rfl), ⟨[], by rw [hbytes]; rfl, nofun⟩,
      fun _ => rfl, fun hnot => absurd ⟨0, hbytes⟩ hnot⟩, fun _ => rfl⟩
  | cons archive archives ih =>
    obtain ⟨hhead, htail⟩ := List.forall_mem_cons.mp hsmall
    rcases lt_or_ge inp.bytes.length (writeFramed archive).length with hlt | hge
    · -- the cut is inside the first frame
      obtain ⟨more, hframe, hmore⟩ : ∃ more, inp.bytes ++ more = writeFramed archive ∧
          rest = more ++ framedStream archives := by
        rcases List.append_eq_append_iff.mp hsplit with ⟨more, hframe, hmore⟩ | ⟨tail, hbytes, -⟩
        · exact ⟨more, hframe.symm, hmore⟩
        · rw [hbytes, List.length_append] at hlt
          omega
      have hne : more ≠ [] := by
        rintro rfl
        rw [← hframe, List.append_nil] at hlt
        exact lt_irrefl _ hlt
      obtain ⟨last, hreads⟩ := readsWhole_of_cut archives hhead hframe hne
      refine ⟨0, last, hreads, fun hnil => absurd hnil ?_⟩
      rw [hmore]
      exact List.append_ne_nil_of_left_ne_nil hne _
    · -- the first frame is whole
      obtain ⟨tail, hbytes⟩ : ∃ tail, inp.bytes = writeFramed archive ++ tail := by
        refine ⟨inp.bytes.drop (writeFramed archive).length, ?_⟩
        have hprefix := congrArg (List.take (writeFramed archive).length) hsplit
        rw [List.take_append_of_le_length hge, framedStream_cons, List.take_left] at hprefix
        rw [← hprefix, List.length_take_of_le hge, List.take_append_drop]
      obtain ⟨-, hleft⟩ := readFramed_writeFramed hhead hbytes
      have hrest : (readFramed inp).2.bytes ++ rest = framedStream archives := by
        rw [hbytes, framedStream_cons, List.append_assoc] at hsplit
        rw [hleft]
        exact List.append_cancel_left hsplit
      obtain ⟨k, last, hreads, hall⟩ := ih htail hrest
      refine ⟨k + 1, last, hreads.cons hhead hbytes, fun hnil => ?_⟩
      rw [List.take_succ_cons, hall hnil]

/-- For every list of byte strings that fit a frame and every way of handing out the bytes: reading
their stream returns them all and then a clean end, and reading a prefix of it returns those whose
frames are whole and then a clean end if the cut is at a frame boundary and an error otherwise. -/
theorem framed_stream (archives : List (List UInt8))
    (hsmall : ∀ archive ∈ archives, archive.length < 2 ^ 32) (inp : Reader) (rest : List UInt8)
    (hsplit : inp.bytes ++ rest = framedStream archives) :
    (rest = [] → Reads archives (.ok none) inp) ∧ ∃ k last, ReadsWhole archives inp k last := by
  obtain ⟨k, last, hreads, hall⟩ := exists_readsWhole hsmall hsplit
  refine ⟨fun hnil => ?_, k, last, hreads⟩
  have hboundary : AtBoundary archives inp.bytes := by
    refine ⟨archives.length, ?_⟩
    rw [List.take_length, ← hsplit, hnil, List.append_nil]
  -- a whole stream ends at a boundary, where the last result is a clean end
  have hmany := hreads.reads
  rwa [hall hnil, hreads.clean hboundary] at hmany

/-- Two frames cut inside the second, read a byte and two at a time. -/
theorem framed_stream_cut :
    let rest : List UInt8 := [0, 2, 8, 9]
    let inp : Reader := ⟨[0, 0, 0, 1, 7, 0, 0], [1, 2]⟩
    (rest = [] → Reads [[7], [8, 9]] (.ok none) inp) ∧
      ∃ k last, ReadsWhole [[7], [8, 9]] inp k last :=
  framed_stream [[7], [8, 9]] (by decide) ⟨[0, 0, 0, 1, 7, 0, 0], [1, 2]⟩ [0, 2, 8, 9] (by decide)

end Hedge.Replay
