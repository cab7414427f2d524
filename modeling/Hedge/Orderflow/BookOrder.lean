import Hedge.Orderflow.Engine

/-!
# The live book in any order of delivery

Reference: `hedge-orderflow/src/book.rs`.

An update that is not newer than the book is dropped, so after any deliveries the book shows the
newest of them (`Shows`). A stamp of zero means that there is no update yet, which is why the
payloads are stamped from one on.
-/

namespace Hedge.Orderflow

open Hedge Hedge.Common

namespace LiveBook

/-- The book of an update. -/
def ofUpdate (book : OrderBook) : LiveBook :=
  ⟨book.bidLevels.take maxBookLevels, book.askLevels.take maxBookLevels, book.tsNs⟩

/-- The book after some deliveries. -/
def delivered (books : List OrderBook) : LiveBook := runState apply .new books

/-- The deliveries that are reported applied, in order. -/
def applied (books : List OrderBook) : List OrderBook :=
  runCollect apply (fun live book => if (live.apply book).1 then [book] else []) .new books

@[simp] theorem delivered_concat (books : List OrderBook) (book : OrderBook) :
    delivered (books ++ [book]) = ((delivered books).apply book).2 :=
  runState_append _ _ _

theorem applied_concat (books : List OrderBook) (book : OrderBook) :
    applied (books ++ [book]) =
      applied books ++ if ((delivered books).apply book).1 then [book] else [] :=
  runCollect_concat _ _ _

theorem apply_of_newer {live : LiveBook} {book : OrderBook}
    (h : live.lastSeq = 0 ∨ live.lastSeq.toNat < book.tsNs.toNat) :
    live.apply book = (true, ofUpdate book) := by
  refine if_neg fun hdrop => ?_
  rcases h with hzero | hnewer
  · exact hdrop.2 hzero
  · exact absurd (UInt64.le_iff_toNat_le.mp hdrop.1) (by omega)

theorem apply_of_older {live : LiveBook} {book : OrderBook} (hpos : 0 < live.lastSeq.toNat)
    (h : book.tsNs.toNat ≤ live.lastSeq.toNat) : live.apply book = (false, live) := by
  refine if_pos ⟨UInt64.le_iff_toNat_le.mpr h, fun hzero => ?_⟩
  rw [hzero] at hpos
  exact absurd hpos (Nat.lt_irrefl 0)

/-- The book shows the newest delivery, which was applied. -/
structure Shows (books : List OrderBook) : Prop where
  applied_subset : applied books ⊆ books
  empty : books = [] → delivered books = .new
  latest : ∀ book ∈ books, ∃ latest ∈ applied books,
    book.tsNs.toNat ≤ latest.tsNs.toNat ∧ delivered books = ofUpdate latest

/-- An update is newer than all that were applied, or older than the book. -/
theorem Shows.newer_or_older {books : List OrderBook} (h : Shows books)
    (hpos : ∀ book ∈ books, 0 < book.tsNs.toNat) (book : OrderBook) :
    ((∀ old ∈ applied books, old.tsNs.toNat < book.tsNs.toNat) ∧
        (delivered books).apply book = (true, ofUpdate book)) ∨
      (∃ latest ∈ applied books, book.tsNs.toNat ≤ latest.tsNs.toNat ∧
        delivered books = ofUpdate latest ∧
        (delivered books).apply book = (false, delivered books)) := by
  cases hbooks : books with
  | nil =>
    refine .inl ⟨fun old hold => absurd hold List.not_mem_nil, apply_of_newer (.inl rfl)⟩
  | cons first rest =>
    rw [← hbooks]
    obtain ⟨latest, hmem, -, hbook⟩ := h.latest first (hbooks ▸ List.mem_cons_self)
    have hstamp : (delivered books).lastSeq = latest.tsNs := by rw [hbook]; rfl
    rcases Nat.lt_or_ge latest.tsNs.toNat book.tsNs.toNat with hnewer | hle
    · refine .inl ⟨fun old hold => ?_, apply_of_newer (.inr (hstamp ▸ hnewer))⟩
      obtain ⟨other, -, hold', hother⟩ := h.latest old (h.applied_subset hold)
      have hsame : other.tsNs = latest.tsNs := by
        rw [← hstamp, hother]
        rfl
      rw [hsame] at hold'
      omega
    · refine .inr ⟨latest, hmem, hle, hbook, apply_of_older ?_ (hstamp ▸ hle)⟩
      rw [hstamp]
      exact hpos latest (h.applied_subset hmem)

theorem shows (books : List OrderBook) (hpos : ∀ book ∈ books, 0 < book.tsNs.toNat) :
    Shows books := by
  induction books using List.reverseRecOn with
  | nil => exact ⟨List.Subset.refl _, fun _ => rfl, fun book hmem => absurd hmem List.not_mem_nil⟩
  | append_singleton books book ih =>
    have hpos' : ∀ old ∈ books, 0 < old.tsNs.toNat := fun old hold => hpos old (by simp [hold])
    have hshows := ih hpos'
    have hgrow : applied books ⊆ books ++ [book] := fun old hold => by
      simp [hshows.applied_subset hold]
    have hempty : books ++ [book] = [] → delivered (books ++ [book]) = .new :=
      fun hnil => absurd hnil (by simp)
    rcases hshows.newer_or_older hpos' book with ⟨hnewer, happly⟩ | ⟨latest, hmem, hle, hbook, happly⟩
    · have happlied : applied (books ++ [book]) = applied books ++ [book] := by
        rw [applied_concat, happly]
        rfl
      refine ⟨?_, hempty, fun other hother => ⟨book, ?_, ?_, by rw [delivered_concat, happly]⟩⟩
      · rw [happlied]
        exact List.append_subset.mpr ⟨hgrow, by simp⟩
      · simp [happlied]
      · rcases List.mem_append.mp hother with hold | hlast
        · obtain ⟨newest, hnewest, hle, -⟩ := hshows.latest other hold
          exact hle.trans (hnewer newest hnewest).le
        · rw [List.mem_singleton.mp hlast]
    · have happlied : applied (books ++ [book]) = applied books := by
        rw [applied_concat, happly]
        exact List.append_nil _
      have hsame : delivered (books ++ [book]) = delivered books := by rw [delivered_concat, happly]
      refine ⟨by rwa [happlied], hempty, fun other hother => ?_⟩
      rw [happlied, hsame]
      rcases List.mem_append.mp hother with hold | hlast
      · exact hshows.latest other hold
      · rw [List.mem_singleton.mp hlast]
        exact ⟨latest, hmem, hle, hbook⟩

/-- Deliveries of stamped payloads leave the book of one that no other is newer than. -/
theorem exists_delivered_eq {books : List OrderBook} (hpos : ∀ book ∈ books, 0 < book.tsNs.toNat)
    (hne : books ≠ []) :
    ∃ newest ∈ books, (∀ book ∈ books, book.tsNs.toNat ≤ newest.tsNs.toNat) ∧
      delivered books = ofUpdate newest := by
  obtain ⟨first, hfirst⟩ := List.exists_mem_of_ne_nil books hne
  have hshows := shows books hpos
  obtain ⟨newest, hmem, -, hbook⟩ := hshows.latest first hfirst
  refine ⟨newest, hshows.applied_subset hmem, fun book hmem' => ?_, hbook⟩
  obtain ⟨other, -, hle, hother⟩ := hshows.latest book hmem'
  rw [hbook] at hother
  exact hle.trans (congrArg (fun live => live.lastSeq.toNat) hother).ge

/-- Deliveries of payloads with distinct stamps leave the book of the newest one. -/
theorem delivered_eq_of_newest {books deliveries : List OrderBook}
    (hdistinct : (books.map OrderBook.tsNs).Nodup) (hpos : ∀ book ∈ books, 0 < book.tsNs.toNat)
    (hsame : ∀ book, book ∈ deliveries ↔ book ∈ books) {newest : OrderBook} (hmem : newest ∈ books)
    (hmax : ∀ book ∈ books, book.tsNs.toNat ≤ newest.tsNs.toNat) :
    delivered deliveries = ofUpdate newest := by
  have hpos' : ∀ book ∈ deliveries, 0 < book.tsNs.toNat :=
    fun book hbook => hpos book ((hsame book).mp hbook)
  have hnewest := (hsame newest).mpr hmem
  obtain ⟨shown, hshown, hle, hbook⟩ := exists_delivered_eq hpos' (List.ne_nil_of_mem hnewest)
  have hstamp : shown.tsNs = newest.tsNs :=
    UInt64.toNat_inj.mp (Nat.le_antisymm (hmax shown ((hsame shown).mp hshown)) (hle newest hnewest))
  rw [hbook, List.inj_on_of_nodup_map hdistinct ((hsame shown).mp hshown) hmem hstamp]

/-- A payload is applied exactly when it is newer than all that were applied before it. -/
theorem apply_fst_iff {books : List OrderBook} (hpos : ∀ book ∈ books, 0 < book.tsNs.toNat)
    (book : OrderBook) :
    ((delivered books).apply book).1 = true ↔
      ∀ old ∈ applied books, old.tsNs.toNat < book.tsNs.toNat := by
  rcases (shows books hpos).newer_or_older hpos book with
    ⟨hnewer, happly⟩ | ⟨latest, hmem, hle, -, happly⟩
  · rw [happly]
    exact iff_of_true rfl hnewer
  · rw [happly]
    exact iff_of_false Bool.false_ne_true fun hnewer => absurd (hnewer latest hmem) (by omega)

/-- The payloads in any order, some of them repeated, leave the book of the newest one; a payload is
applied exactly when it is newer than all that were applied before it. -/
theorem delivered_order_independent (books : List OrderBook)
    (hdistinct : (books.map OrderBook.tsNs).Nodup) (hpos : ∀ book ∈ books, 1 ≤ book.tsNs.toNat) :
    ∃ final : LiveBook,
      (books = [] → final = .new) ∧
      (∀ latest ∈ books, (∀ book ∈ books, book.tsNs.toNat ≤ latest.tsNs.toNat) →
        final = ⟨latest.bidLevels.take maxBookLevels, latest.askLevels.take maxBookLevels,
          latest.tsNs⟩) ∧
      ∀ deliveries : List OrderBook, (∀ book, book ∈ deliveries ↔ book ∈ books) →
        delivered deliveries = final ∧
        ∀ earlier book later, deliveries = earlier ++ book :: later →
          (((delivered earlier).apply book).1 = true ↔
            ∀ old ∈ applied earlier, old.tsNs.toNat < book.tsNs.toNat) := by
  refine ⟨delivered books, ?_, fun latest hmem hmax => ?_, fun deliveries hsame => ⟨?_, ?_⟩⟩
  · rintro rfl
    rfl
  · exact delivered_eq_of_newest hdistinct hpos (fun _ => Iff.rfl) hmem hmax
  · rcases eq_or_ne books [] with rfl | hne
    · have hnone : deliveries = [] := List.eq_nil_iff_forall_not_mem.mpr fun book hmem =>
        List.not_mem_nil ((hsame book).mp hmem)
      rw [hnone]
    · obtain ⟨newest, hmem, hmax, hbook⟩ := exists_delivered_eq hpos hne
      rw [hbook, delivered_eq_of_newest hdistinct hpos hsame hmem hmax]
  · intro earlier book later hsplit
    refine apply_fst_iff (fun old hold => hpos old ((hsame old).mp ?_)) book
    rw [hsplit]
    exact List.mem_append_left _ hold

/-- A book of one bid. -/
def oneBid (pricePaise : Int64) (tsNs : UInt64) : OrderBook := ⟨1, [⟨pricePaise, 10, 1⟩], [], tsNs⟩

/-- Two payloads, the newer one delivered first and again at the end. -/
theorem delivered_order_independent_two :
    delivered [oneBid 101 2, oneBid 100 1, oneBid 101 2] = ofUpdate (oneBid 101 2) := by
  have hstamps : ∀ book ∈ [oneBid 100 1, oneBid 101 2],
      1 ≤ book.tsNs.toNat ∧ book.tsNs.toNat ≤ (oneBid 101 2).tsNs.toNat := by
    simp [oneBid]
  obtain ⟨final, -, hlatest, hrun⟩ := delivered_order_independent [oneBid 100 1, oneBid 101 2]
    (by decide) fun book hmem => (hstamps book hmem).1
  have hfinal := hlatest (oneBid 101 2) (by simp) fun book hmem => (hstamps book hmem).2
  have hsame : ∀ book, book ∈ [oneBid 101 2, oneBid 100 1, oneBid 101 2] ↔
      book ∈ [oneBid 100 1, oneBid 101 2] := by
    intro book
    simp only [List.mem_cons, List.not_mem_nil, or_false]
    tauto
  exact (hrun _ hsame).1.trans hfinal

end LiveBook

end Hedge.Orderflow
