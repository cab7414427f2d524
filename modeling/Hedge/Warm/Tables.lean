import Hedge.Common.Log
import Hedge.Common.Run
import Hedge.Warm.Cache
import Mathlib.Data.Finset.Dedup
import Mathlib.Data.Finset.Card
import Mathlib.Data.List.DropRight

/-!
# Which symbols a table keeps

Reference: `hedge-warmcache/src/snapshot.rs`.

A table that is full replaces its first entry. That is the oldest one the first time; from then on
the first entry is the newest, and it is replaced again. `slots` says which symbols a table holds
after a log of insertions. They are the newest ones as long as at most one insertion has gone past
the bound (`mem_slots_iff_of_le`), and never again after that: the second symbol of the log stays
(`second_mem_slots`) and is among the newest no more (`Fresh.second_notMem_rtake`).
-/

namespace Hedge.Warm

open Hedge Hedge.Common

/-! ## Logs of insertions -/

/-- The symbols of a table after the insertions of a log: past the bound each goes over the first. -/
def slots (log : List SymbolId) : List SymbolId :=
  if log.length ≤ maxTrackedSymbols then log
  else log.getLast?.toList ++ (log.take maxTrackedSymbols).tail

/-- Each symbol of a log is inserted into a table that does not hold it. -/
def Fresh (log : List SymbolId) : Prop :=
  ∀ earlier sym later, log = earlier ++ sym :: later → sym ∉ slots earlier

theorem fresh_concat_iff {log : List SymbolId} {sym : SymbolId} :
    Fresh (log ++ [sym]) ↔ Fresh log ∧ sym ∉ slots log :=
  forall_split_concat_iff

theorem slots_of_le {log : List SymbolId} (h : log.length ≤ maxTrackedSymbols) : slots log = log :=
  if_pos h

theorem slots_concat {log : List SymbolId} (h : maxTrackedSymbols ≤ log.length) (sym : SymbolId) :
    slots (log ++ [sym]) = sym :: (log.take maxTrackedSymbols).tail := by
  rw [slots, if_neg (by rw [List.length_append, List.length_singleton]; omega),
    List.getLast?_concat, List.take_append_of_le_length h]
  rfl

/-- A write over the first entry. -/
theorem set_zero_slots {log : List SymbolId} (h : maxTrackedSymbols ≤ log.length) (sym : SymbolId) :
    (slots log).set 0 sym = sym :: (log.take maxTrackedSymbols).tail := by
  have hpos : 0 < maxTrackedSymbols := by decide
  unfold slots
  split_ifs with hshort
  · rw [List.take_of_length_le hshort]
    cases log with
    | nil => exact absurd hpos (Nat.not_lt.mpr h)
    | cons first log => rfl
  · obtain ⟨init, last, rfl⟩ := List.eq_nil_or_concat' log |>.resolve_left
      (List.length_pos_iff.mp (by omega))
    rw [List.getLast?_concat]
    rfl

theorem length_slots (log : List SymbolId) :
    (slots log).length = min log.length maxTrackedSymbols := by
  rcases Nat.lt_or_ge maxTrackedSymbols log.length with hlong | hshort
  · obtain ⟨init, sym, rfl⟩ := List.eq_nil_or_concat' log |>.resolve_left
      (List.length_pos_iff.mp (by omega))
    rw [List.length_append, List.length_singleton] at hlong
    have hpos : 0 < maxTrackedSymbols := by decide
    rw [slots_concat (by omega), List.length_cons, List.length_tail, List.length_take,
      List.length_append, List.length_singleton]
    omega
  · rw [slots_of_le hshort, Nat.min_eq_left hshort]

/-- A log up to one insertion past the bound has no symbol twice. -/
theorem Fresh.nodup {log : List SymbolId} (h : Fresh log)
    (hlen : log.length ≤ maxTrackedSymbols + 1) : log.Nodup := by
  induction log using List.reverseRecOn with
  | nil => exact List.nodup_nil
  | append_singleton log sym ih =>
    rw [List.length_append, List.length_singleton] at hlen
    obtain ⟨hfresh, hsym⟩ := fresh_concat_iff.mp h
    rw [slots_of_le (by omega)] at hsym
    rw [← List.concat_eq_append]
    exact (ih hfresh (by omega)).concat hsym

/-- Past the bound by one, the table holds what was inserted after the first symbol. -/
theorem mem_slots_succ {log : List SymbolId} (hlen : log.length = maxTrackedSymbols + 1)
    (sym : SymbolId) : sym ∈ slots log ↔ sym ∈ log.tail := by
  obtain ⟨init, last, rfl⟩ := List.eq_nil_or_concat' log |>.resolve_left
    (List.length_pos_iff.mp (by omega))
  rw [List.length_append, List.length_singleton] at hlen
  have hinit : init.length = maxTrackedSymbols := by omega
  have hne : init ≠ [] := List.length_pos_iff.mp (hinit ▸ (by decide : 0 < maxTrackedSymbols))
  rw [slots_concat hinit.ge, List.take_of_length_le hinit.le, List.tail_append_of_ne_nil hne,
    List.mem_cons, List.mem_append, List.mem_singleton, or_comm]

/-- Without its first symbol, a log up to two insertions past the bound has no symbol twice. -/
theorem Fresh.nodup_tail {log : List SymbolId} (h : Fresh log)
    (hlen : log.length ≤ maxTrackedSymbols + 2) : log.tail.Nodup := by
  rcases Nat.lt_or_ge (maxTrackedSymbols + 1) log.length with hlong | hshort
  · obtain ⟨init, last, rfl⟩ := List.eq_nil_or_concat' log |>.resolve_left
      (List.length_pos_iff.mp (by omega))
    rw [List.length_append, List.length_singleton] at hlong hlen
    obtain ⟨hfresh, hlast⟩ := fresh_concat_iff.mp h
    rw [mem_slots_succ (by omega)] at hlast
    rw [List.tail_append_of_ne_nil (List.length_pos_iff.mp (by omega)), ← List.concat_eq_append]
    exact ((hfresh.nodup (by omega)).sublist (List.tail_sublist init)).concat hlast
  · exact (h.nodup hshort).sublist (List.tail_sublist log)

/-- The second symbol of a log stays in the table. -/
theorem second_mem_slots (first second : SymbolId) (rest : List SymbolId) :
    second ∈ slots (first :: second :: rest) := by
  unfold slots
  split_ifs
  · simp
  · refine List.mem_append_right _ ?_
    exact List.mem_cons_self

theorem Fresh.second_notMem {first second : SymbolId} {rest : List SymbolId}
    (h : Fresh (first :: second :: rest)) : second ∉ rest := by
  intro hmem
  obtain ⟨earlier, later, rfl⟩ := List.append_of_mem hmem
  exact h (first :: second :: earlier) second later rfl (second_mem_slots first second earlier)

/-- The last symbols of a list are those of its end. -/
theorem rtake_append_of_le {α : Type*} {k : ℕ} {l₂ : List α} (h : k ≤ l₂.length) (l₁ : List α) :
    (l₁ ++ l₂).rtake k = l₂.rtake k := by
  have hskip : (l₁ ++ l₂).length - k = l₁.length + (l₂.length - k) := by
    rw [List.length_append]
    omega
  rw [List.rtake, List.rtake, hskip, List.drop_length_add_append]

/-- Two insertions past the bound, the second symbol is not one of the newest. -/
theorem Fresh.second_notMem_rtake {first second : SymbolId} {rest : List SymbolId}
    (h : Fresh (first :: second :: rest)) (hlong : maxTrackedSymbols ≤ rest.length) :
    second ∉ (first :: second :: rest).dedup.rtake maxTrackedSymbols := by
  have hsecond := h.second_notMem
  -- The symbols after the second one already fill the bound.
  have hmany : maxTrackedSymbols ≤ rest.dedup.length := by
    have hshort : Fresh (first :: second :: rest.take maxTrackedSymbols) := by
      intro earlier sym later hsplit
      refine h earlier sym (later ++ rest.drop maxTrackedSymbols) ?_
      rw [← List.cons_append, ← List.append_assoc, ← hsplit, List.cons_append, List.cons_append,
        List.take_append_drop]
    have hnodup : (rest.take maxTrackedSymbols).Nodup := by
      refine (List.nodup_cons.mp (hshort.nodup_tail ?_)).2
      simp
    calc maxTrackedSymbols = (rest.take maxTrackedSymbols).length := by
          rw [List.length_take, Nat.min_eq_left hlong]
      _ = (rest.take maxTrackedSymbols).toFinset.card := (List.toFinset_card_of_nodup hnodup).symm
      _ ≤ rest.toFinset.card := Finset.card_le_card fun x hx =>
          List.mem_toFinset.mpr (List.mem_of_mem_take (List.mem_toFinset.mp hx))
      _ = rest.dedup.length := List.card_toFinset rest
  have hdedup : ∃ before, (first :: second :: rest).dedup = before ++ rest.dedup := by
    rw [List.dedup_cons, List.dedup_cons, if_neg hsecond]
    split_ifs
    · exact ⟨[second], rfl⟩
    · exact ⟨[first, second], rfl⟩
  obtain ⟨before, hdedup⟩ := hdedup
  rw [hdedup, rtake_append_of_le hmany]
  intro hmem
  exact hsecond (List.mem_dedup.mp (List.mem_of_mem_drop hmem))

/-- Up to one insertion past the bound the table holds the newest symbols. -/
theorem mem_slots_iff_of_le {log : List SymbolId} (h : Fresh log)
    (hlen : log.length ≤ maxTrackedSymbols + 1) (sym : SymbolId) :
    sym ∈ slots log ↔ sym ∈ log.dedup.rtake maxTrackedSymbols := by
  rw [(h.nodup hlen).dedup, List.rtake]
  rcases Nat.lt_or_ge maxTrackedSymbols log.length with hlong | hshort
  · rw [mem_slots_succ (by omega), ← List.drop_one]
    have hone : log.length - maxTrackedSymbols = 1 := by omega
    rw [hone]
  · rw [slots_of_le hshort, Nat.sub_eq_zero_of_le hshort, List.drop_zero]

/-- The table of a log holds the newest symbols exactly as long as at most one insertion has gone
past the bound. -/
theorem slots_newest_iff {log : List SymbolId} (h : Fresh log) :
    (∀ sym, sym ∈ slots log ↔ sym ∈ log.dedup.rtake maxTrackedSymbols) ↔
      log.length ≤ maxTrackedSymbols + 1 := by
  constructor
  · intro hnewest
    by_contra hlong
    match log, h, hnewest with
    | [], _, _ => simp at hlong
    | [_], _, _ => exact hlong (Nat.succ_le_succ (Nat.zero_le _))
    | first :: second :: rest, h, hnewest =>
      rw [List.length_cons, List.length_cons] at hlong
      exact h.second_notMem_rtake (by omega) ((hnewest second).mp (second_mem_slots _ _ _))
  · exact mem_slots_iff_of_le h

/-! ## Tables -/

section Table

variable {α : Type*}

/-- The symbols of a table. -/
def keys (table : List (SymbolId × α)) : List SymbolId := table.map Prod.fst

/-- One write as a step of a machine without outputs. -/
def writeStep (table : List (SymbolId × α)) (write : SymbolId × α) :
    Unit × List (SymbolId × α) :=
  ((), Snapshot.put table write.1 write.2)

/-- An empty table after some writes. -/
def written (writes : List (SymbolId × α)) : List (SymbolId × α) := runState writeStep [] writes

/-- The symbols that the writes insert, in order; a write of a held symbol overwrites its value. -/
def inserted (writes : List (SymbolId × α)) : List SymbolId :=
  runCollect writeStep (fun table write => if write.1 ∈ keys table then [] else [write.1]) [] writes

/-- The last value written for a symbol. -/
def lastWritten (writes : List (SymbolId × α)) (sym : SymbolId) : Option α :=
  (writes.reverse.find? fun write => write.1 = sym).map Prod.snd

@[simp] theorem written_concat (writes : List (SymbolId × α)) (write : SymbolId × α) :
    written (writes ++ [write]) = Snapshot.put (written writes) write.1 write.2 :=
  runState_append _ _ _

theorem inserted_concat (writes : List (SymbolId × α)) (write : SymbolId × α) :
    inserted (writes ++ [write]) =
      inserted writes ++ if write.1 ∈ keys (written writes) then [] else [write.1] :=
  runCollect_concat _ _ _

theorem lastWritten_concat (writes : List (SymbolId × α)) (write : SymbolId × α) (sym : SymbolId) :
    lastWritten (writes ++ [write]) sym =
      if sym = write.1 then some write.2 else lastWritten writes sym := by
  rw [lastWritten, find?_reverse_concat Prod.fst]
  split_ifs <;> rfl

/-- A held symbol is overwritten in its place. -/
theorem put_of_mem {table : List (SymbolId × α)} {sym : SymbolId} (h : sym ∈ keys table)
    (value : α) :
    ∃ i, ∃ hi : i < table.length, table[i].1 = sym ∧
      Snapshot.put table sym value = table.set i (sym, value) := by
  obtain ⟨entry, hmem, rfl⟩ := List.mem_map.mp h
  cases hfound : table.findIdx? fun e => e.1 = entry.1 with
  | none =>
    have hmissing := List.findIdx?_eq_none_iff.mp hfound entry hmem
    simp at hmissing
  | some i =>
    obtain ⟨hi, hkey, -⟩ := List.findIdx?_eq_some_iff_getElem.mp hfound
    refine ⟨i, hi, of_decide_eq_true hkey, ?_⟩
    rw [Snapshot.put, hfound]

/-- Another symbol goes to the end, or over the first entry of a full table. -/
theorem put_of_notMem {table : List (SymbolId × α)} {sym : SymbolId} (h : sym ∉ keys table)
    (value : α) :
    Snapshot.put table sym value =
      if table.length < maxTrackedSymbols then table ++ [(sym, value)]
      else table.set 0 (sym, value) := by
  have hmissing : (table.findIdx? fun entry => entry.1 = sym) = none := by
    refine List.findIdx?_eq_none_iff.mpr fun entry hmem => decide_eq_false ?_
    rintro rfl
    exact h (List.mem_map_of_mem hmem)
  rw [Snapshot.put, hmissing]

/-- The symbols of a table after a write. -/
theorem keys_put (table : List (SymbolId × α)) (sym : SymbolId) (value : α) :
    keys (Snapshot.put table sym value) =
      if sym ∈ keys table then keys table
      else if table.length < maxTrackedSymbols then keys table ++ [sym]
      else (keys table).set 0 sym := by
  split_ifs with hheld hroom
  · obtain ⟨i, hi, hkey, hput⟩ := put_of_mem hheld value
    have hi' : i < (table.map Prod.fst).length := by rwa [List.length_map]
    have hsame : (table.map Prod.fst).get ⟨i, hi'⟩ = sym := by
      rw [List.get_eq_getElem, List.getElem_map, hkey]
    rw [hput, keys, List.map_set, ← hsame]
    exact List.set_getElem_self hi'
  · rw [put_of_notMem hheld, if_pos hroom, keys, List.map_append]
    rfl
  · rw [put_of_notMem hheld, if_neg hroom, keys, List.map_set]
    rfl

/-- What a table holds after the writes is what the log of their insertions says. -/
theorem keys_written (writes : List (SymbolId × α)) :
    Fresh (inserted writes) ∧ keys (written writes) = slots (inserted writes) := by
  induction writes using List.reverseRecOn with
  | nil =>
    refine ⟨fun earlier sym later hsplit => ?_, rfl⟩
    exact absurd hsplit (by simp [inserted])
  | append_singleton writes write ih =>
    obtain ⟨hfresh, hkeys⟩ := ih
    have hlength : (written writes).length = (slots (inserted writes)).length := by
      rw [← hkeys, keys, List.length_map]
    rw [length_slots] at hlength
    rw [inserted_concat, written_concat, keys_put]
    split_ifs with hheld hroom
    · rw [List.append_nil]
      exact ⟨hfresh, hkeys⟩
    · refine ⟨fresh_concat_iff.mpr ⟨hfresh, hkeys ▸ hheld⟩, ?_⟩
      rw [hkeys, slots_of_le (by omega), slots_of_le]
      rw [List.length_append, List.length_singleton]
      omega
    · refine ⟨fresh_concat_iff.mpr ⟨hfresh, hkeys ▸ hheld⟩, ?_⟩
      rw [hkeys, slots_concat (by omega), set_zero_slots (by omega)]

/-- The entries of a table after a write, no symbol being there twice. -/
theorem mem_of_mem_put {table : List (SymbolId × α)} (hnodup : (keys table).Nodup) {sym : SymbolId}
    {value : α} {entry : SymbolId × α} (h : entry ∈ Snapshot.put table sym value) :
    entry = (sym, value) ∨ entry ∈ table ∧ entry.1 ≠ sym := by
  by_cases hheld : sym ∈ keys table
  · obtain ⟨i, hi, hkey, hput⟩ := put_of_mem hheld value
    rw [hput] at h
    obtain ⟨j, hj, rfl⟩ := List.mem_iff_getElem.mp h
    rw [List.length_set] at hj
    by_cases hij : i = j
    · subst hij
      exact .inl (List.getElem_set_self _)
    · rw [List.getElem_set_ne hij]
      refine .inr ⟨List.getElem_mem hj, fun hsame => hij ?_⟩
      have hi' : i < (keys table).length := by rwa [keys, List.length_map]
      have hj' : j < (keys table).length := by rwa [keys, List.length_map]
      have hinj : (keys table)[i] = (keys table)[j] ↔ i = j := hnodup.getElem_inj_iff
      refine hinj.mp ?_
      simp only [keys, List.getElem_map, hkey, hsame]
  · have hother : entry ∈ table → entry.1 ≠ sym := by
      rintro hmem rfl
      exact hheld (List.mem_map_of_mem hmem)
    rw [put_of_notMem hheld] at h
    split_ifs at h
    · rcases List.mem_append.mp h with hold | hnew
      · exact .inr ⟨hold, hother hold⟩
      · exact .inl (List.mem_singleton.mp hnew)
    · rcases List.mem_or_eq_of_mem_set h with hold | hnew
      · exact .inr ⟨hold, hother hold⟩
      · exact .inl hnew

theorem nodup_keys_put {table : List (SymbolId × α)} (hnodup : (keys table).Nodup) (sym : SymbolId)
    (value : α) : (keys (Snapshot.put table sym value)).Nodup := by
  rw [keys_put]
  split_ifs with hheld hroom
  · exact hnodup
  · rw [← List.concat_eq_append]
    exact hnodup.concat hheld
  · cases htable : keys table with
    | nil => exact List.nodup_nil
    | cons first rest =>
      rw [htable] at hnodup hheld
      exact List.nodup_cons.mpr
        ⟨fun hmem => hheld (List.mem_cons_of_mem _ hmem), (List.nodup_cons.mp hnodup).2⟩

theorem nodup_keys_written (writes : List (SymbolId × α)) : (keys (written writes)).Nodup := by
  induction writes using List.reverseRecOn with
  | nil => exact List.nodup_nil
  | append_singleton writes write ih =>
    rw [written_concat]
    exact nodup_keys_put ih _ _

/-- A held symbol has the value last written for it. -/
theorem lastWritten_of_mem {writes : List (SymbolId × α)} {entry : SymbolId × α}
    (h : entry ∈ written writes) : lastWritten writes entry.1 = some entry.2 := by
  induction writes using List.reverseRecOn with
  | nil => exact absurd h List.not_mem_nil
  | append_singleton writes write ih =>
    rw [written_concat] at h
    rw [lastWritten_concat]
    rcases mem_of_mem_put (nodup_keys_written writes) h with rfl | ⟨hold, hne⟩
    · exact if_pos rfl
    · rw [if_neg hne]
      exact ih hold

/-- A table keeps no symbol twice and no more than the bound, a held symbol reads the value last
written for it and any other symbol the default. -/
theorem written_kept (writes : List (SymbolId × α)) (dflt : α) :
    (keys (written writes)).Nodup
      ∧ (written writes).length ≤ maxTrackedSymbols
      ∧ ∀ sym, some (Snapshot.find (written writes) sym dflt) =
          if sym ∈ keys (written writes) then lastWritten writes sym else some dflt := by
  refine ⟨nodup_keys_written writes, ?_, fun sym => ?_⟩
  · have hlength : (written writes).length = (keys (written writes)).length :=
      (List.length_map _).symm
    rw [hlength, (keys_written writes).2, length_slots]
    exact Nat.min_le_right _ _
  · rw [Snapshot.find]
    cases hfound : (written writes).find? fun entry => entry.1 = sym with
    | none =>
      have hmissing : sym ∉ keys (written writes) := by
        intro hmem
        obtain ⟨entry, hentry, rfl⟩ := List.mem_map.mp hmem
        simpa using List.find?_eq_none.mp hfound entry hentry
      rw [if_neg hmissing]
      rfl
    | some entry =>
      have hmem := List.mem_of_find?_eq_some hfound
      have hkey : entry.1 = sym := by simpa using List.find?_some hfound
      subst hkey
      have hheld : entry.1 ∈ keys (written writes) := List.mem_map_of_mem hmem
      rw [if_pos hheld, lastWritten_of_mem hmem]
      rfl

/-! ## When the newest symbols are kept -/

/-- The table of some writes holds the symbols inserted last. -/
def HoldsNewest (writes : List (SymbolId × α)) : Prop :=
  ∀ sym, sym ∈ keys (written writes) ↔ sym ∈ (inserted writes).dedup.rtake maxTrackedSymbols

/-- Once one symbol more than the bound has been written, only symbols are written that were written
before, and not the first of them. -/
def Settled (syms : List SymbolId) : Prop :=
  ∀ earlier sym later, syms = earlier ++ sym :: later →
    maxTrackedSymbols < earlier.dedup.length → sym ∈ earlier ∧ earlier.head? ≠ some sym

theorem settled_concat_iff {syms : List SymbolId} {sym : SymbolId} :
    Settled (syms ++ [sym]) ↔
      Settled syms ∧ (maxTrackedSymbols < syms.dedup.length → sym ∈ syms ∧ syms.head? ≠ some sym) :=
  forall_split_concat_iff (P := fun earlier sym =>
    maxTrackedSymbols < earlier.dedup.length → sym ∈ earlier ∧ earlier.head? ≠ some sym)

theorem keys_subset_inserted (writes : List (SymbolId × α)) :
    keys (written writes) ⊆ inserted writes := by
  rw [(keys_written writes).2]
  intro sym hmem
  unfold slots at hmem
  split_ifs at hmem
  · exact hmem
  · rcases List.mem_append.mp hmem with hlast | hold
    · exact List.mem_of_getLast? (Option.mem_toList.mp hlast)
    · exact List.mem_of_mem_take (List.mem_of_mem_tail hold)

theorem keys_concat (writes : List (SymbolId × α)) (write : SymbolId × α) :
    keys (writes ++ [write]) = keys writes ++ [write.1] :=
  List.map_append

/-- The symbols inserted are those written. -/
theorem mem_inserted_iff (writes : List (SymbolId × α)) :
    ∀ sym, sym ∈ inserted writes ↔ sym ∈ keys writes := by
  induction writes using List.reverseRecOn with
  | nil => exact fun _ => Iff.rfl
  | append_singleton writes write ih =>
    intro sym
    rw [inserted_concat, keys_concat, List.mem_append, List.mem_append, ih]
    split_ifs with hheld
    · have hwritten : write.1 ∈ keys writes := (ih write.1).mp (keys_subset_inserted writes hheld)
      rw [List.mem_singleton]
      constructor
      · rintro (hmem | hmem)
        · exact .inl hmem
        · exact absurd hmem List.not_mem_nil
      · rintro (hmem | rfl)
        · exact .inl hmem
        · exact .inl hwritten
    · exact Iff.rfl

theorem head?_inserted (writes : List (SymbolId × α)) :
    (inserted writes).head? = (keys writes).head? := by
  cases writes with
  | nil => rfl
  | cons write writes => rfl

/-- Up to one insertion past the bound, the log counts the symbols written. -/
theorem length_inserted_of_le {writes : List (SymbolId × α)}
    (h : (inserted writes).length ≤ maxTrackedSymbols + 1) :
    (keys writes).dedup.length = (inserted writes).length := by
  have hnodup := (keys_written writes).1.nodup h
  rw [← List.card_toFinset, ← List.toFinset_card_of_nodup hnodup]
  congr 1
  ext sym
  rw [List.mem_toFinset, List.mem_toFinset, mem_inserted_iff]

/-- One insertion past the bound, the table holds every symbol written but the first. -/
theorem mem_keys_written_iff {writes : List (SymbolId × α)}
    (hfull : (inserted writes).length = maxTrackedSymbols + 1) (sym : SymbolId) :
    sym ∈ keys (written writes) ↔ sym ∈ keys writes ∧ (keys writes).head? ≠ some sym := by
  have hnodup := (keys_written writes).1.nodup hfull.le
  rw [(keys_written writes).2, mem_slots_succ hfull, ← head?_inserted, ← mem_inserted_iff]
  cases hlog : inserted writes with
  | nil => simp
  | cons first rest =>
    rw [hlog, List.nodup_cons] at hnodup
    rw [List.tail_cons, List.head?_cons, List.mem_cons, ne_eq, Option.some.injEq]
    constructor
    · intro hmem
      refine ⟨.inr hmem, ?_⟩
      rintro rfl
      exact hnodup.1 hmem
    · rintro ⟨rfl | hmem, hne⟩
      · exact absurd rfl hne
      · exact hmem

theorem length_inserted_concat (writes : List (SymbolId × α)) (write : SymbolId × α) :
    (inserted (writes ++ [write])).length =
      (inserted writes).length + if write.1 ∈ keys (written writes) then 0 else 1 := by
  rw [inserted_concat]
  split_ifs <;> simp

/-- At most one insertion has gone past the bound exactly when the writes are settled. -/
theorem settled_iff_length_le (writes : List (SymbolId × α)) :
    Settled (keys writes) ↔ (inserted writes).length ≤ maxTrackedSymbols + 1 := by
  induction writes using List.reverseRecOn with
  | nil => exact iff_of_true forall_split_nil (Nat.zero_le _)
  | append_singleton writes write ih =>
    rw [keys_concat, settled_concat_iff, ih, length_inserted_concat]
    rcases Nat.lt_or_ge (maxTrackedSymbols + 1) (inserted writes).length with hlong | hshort
    · exact iff_of_false (fun h => absurd h.1 (by omega)) (by omega)
    · rw [length_inserted_of_le hshort]
      rcases Nat.lt_or_ge maxTrackedSymbols (inserted writes).length with hpast | hroom
      · -- The write is one of the symbols after the first, which the table holds.
        rw [← mem_keys_written_iff (by omega)]
        split_ifs with hmem
        · exact iff_of_true ⟨hshort, fun _ => hmem⟩ (by omega)
        · exact iff_of_false (fun h => hmem (h.2 hpast)) (by omega)
      · refine iff_of_true ⟨hshort, fun hpast => absurd hpast (by omega)⟩ ?_
        split_ifs <;> omega

/-- The table holds the newest symbols exactly when the writes are settled. -/
theorem holdsNewest_iff (writes : List (SymbolId × α)) :
    HoldsNewest writes ↔ Settled (keys writes) := by
  obtain ⟨hfresh, hkeys⟩ := keys_written writes
  rw [HoldsNewest, hkeys, slots_newest_iff hfresh, settled_iff_length_le]

end Table

/-! ## Snapshots -/

/-- An update of a snapshot. -/
inductive SnapshotUpdate where
  | marketStability (value : ExactFloat) (tsNs : UInt64)
  | traderStability (value : ExactFloat) (tsNs : UInt64)
  | priority (sym : SymbolId) (tier : Priority)
  | newsImpact (sym : SymbolId) (value : NewsImpactSnapshot)

namespace Snapshot

def update (s : Snapshot) : SnapshotUpdate → Snapshot
  | .marketStability value tsNs => s.withMarketStability value tsNs
  | .traderStability value tsNs => s.withTraderStability value tsNs
  | .priority sym tier => s.withPriority sym tier
  | .newsImpact sym value => s.withNewsImpact sym value

/-- The neutral snapshot after some updates. -/
def updated (updates : List SnapshotUpdate) : Snapshot := updates.foldl update neutral

/-- The writes to the priorities. -/
def priorityWrites (updates : List SnapshotUpdate) : List (SymbolId × Priority) :=
  updates.flatMap fun
    | .priority sym tier => [(sym, tier)]
    | _ => []

/-- The writes to the news impacts, which are set within their ranges. -/
def newsWrites (updates : List SnapshotUpdate) : List (SymbolId × NewsImpactSnapshot) :=
  updates.flatMap fun
    | .newsImpact sym value => [(sym, value.clamped)]
    | _ => []

/-- The tables of a snapshot are those of the writes to them. -/
theorem tables_updated (updates : List SnapshotUpdate) :
    (updated updates).priority = written (priorityWrites updates)
      ∧ (updated updates).newsImpact = written (newsWrites updates) := by
  induction updates using List.reverseRecOn with
  | nil => exact ⟨rfl, rfl⟩
  | append_singleton updates update ih =>
    obtain ⟨hpriority, hnews⟩ := ih
    rw [updated, List.foldl_concat, ← updated, priorityWrites, newsWrites, List.flatMap_append,
      List.flatMap_append, ← priorityWrites, ← newsWrites, List.flatMap_singleton,
      List.flatMap_singleton]
    cases update with
    | marketStability value tsNs =>
      rw [List.append_nil, List.append_nil]
      exact ⟨hpriority, hnews⟩
    | traderStability value tsNs =>
      rw [List.append_nil, List.append_nil]
      exact ⟨hpriority, hnews⟩
    | priority sym tier =>
      rw [List.append_nil, written_concat, ← hpriority]
      exact ⟨rfl, hnews⟩
    | newsImpact sym value =>
      rw [List.append_nil, written_concat, ← hnews]
      exact ⟨hpriority, rfl⟩

end Snapshot

open Snapshot

/-- A table of the newest symbols: none twice, no more than the bound, the ones inserted last, each
with its last value, all others reading the default. -/
def KeepsNewest {α : Type*} (table : List (SymbolId × α)) (read : SymbolId → α) (dflt : α)
    (writes : List (SymbolId × α)) : Prop :=
  (keys table).Nodup
    ∧ table.length ≤ maxTrackedSymbols
    ∧ (∀ sym, sym ∈ keys table ↔ sym ∈ (inserted writes).dedup.rtake maxTrackedSymbols)
    ∧ ∀ sym, some (read sym) = if sym ∈ keys table then lastWritten writes sym else some dflt

theorem keepsNewest_written_iff {α : Type*} (dflt : α) (writes : List (SymbolId × α)) :
    KeepsNewest (written writes) (fun sym => find (written writes) sym dflt) dflt writes ↔
      Settled (keys writes) := by
  obtain ⟨hnodup, hlength, hread⟩ := written_kept writes dflt
  rw [← holdsNewest_iff]
  constructor
  · rintro ⟨-, -, hnewest, -⟩
    exact hnewest
  · intro hnewest
    exact ⟨hnodup, hlength, hnewest, hread⟩

theorem priority_keepsNewest_iff (updates : List SnapshotUpdate) :
    KeepsNewest (updated updates).priority (updated updates).priorityOf .p3
        (priorityWrites updates) ↔ Settled (keys (priorityWrites updates)) := by
  have hread : (updated updates).priorityOf =
      fun sym => find (written (priorityWrites updates)) sym .p3 := by
    funext sym
    rw [priorityOf, (tables_updated updates).1]
  rw [hread, (tables_updated updates).1, keepsNewest_written_iff]

theorem newsImpact_keepsNewest_iff (updates : List SnapshotUpdate) :
    KeepsNewest (updated updates).newsImpact (updated updates).newsImpactOf .neutral
        (newsWrites updates) ↔ Settled (keys (newsWrites updates)) := by
  have hread : (updated updates).newsImpactOf =
      fun sym => find (written (newsWrites updates)) sym .neutral := by
    funext sym
    rw [newsImpactOf, (tables_updated updates).2]
  rw [hread, (tables_updated updates).2, keepsNewest_written_iff]

/-- Both tables keep the newest symbols exactly as long as the writes to them are settled. -/
theorem tables_keepNewest_iff (updates : List SnapshotUpdate) :
    (KeepsNewest (updated updates).priority (updated updates).priorityOf .p3
        (priorityWrites updates) ↔ Settled (keys (priorityWrites updates)))
      ∧ (KeepsNewest (updated updates).newsImpact (updated updates).newsImpactOf .neutral
        (newsWrites updates) ↔ Settled (keys (newsWrites updates))) :=
  ⟨priority_keepsNewest_iff updates, newsImpact_keepsNewest_iff updates⟩

/-- The first symbols by number, each moved to the top tier once. -/
def promoted (count : ℕ) : List SnapshotUpdate :=
  (List.range count).map fun i => .priority ⟨UInt32.ofNat (i + 1)⟩ .p1

theorem keys_promoted (count : ℕ) :
    keys (priorityWrites (promoted count)) =
      (List.range count).map fun i => ⟨UInt32.ofNat (i + 1)⟩ := by
  rw [promoted, priorityWrites, List.flatMap_map, keys, List.map_flatMap]
  exact List.flatMap_pure_eq_map _ _

/-- Two symbols past the bound, the table still holds the second symbol, and not the last but
one. -/
theorem not_keepsNewest_promoted :
    ¬ KeepsNewest (updated (promoted 514)).priority (updated (promoted 514)).priorityOf .p3
      (priorityWrites (promoted 514)) := by
  rw [priority_keepsNewest_iff, keys_promoted]
  intro hsettled
  have hinj : ∀ i < 514, ∀ j < 514,
      (⟨UInt32.ofNat (i + 1)⟩ : SymbolId) = ⟨UInt32.ofNat (j + 1)⟩ → i = j := by
    intro i hi j hj heq
    have hval : (UInt32.ofNat (i + 1)).toNat = (UInt32.ofNat (j + 1)).toNat :=
      congrArg (fun sym : SymbolId => sym.raw.toNat) heq
    rw [UInt32.toNat_ofNat', UInt32.toNat_ofNat'] at hval
    omega
  have hnodup : ((List.range 513).map fun i => (⟨UInt32.ofNat (i + 1)⟩ : SymbolId)).Nodup := by
    refine List.nodup_range.map_on fun i hi j hj heq => ?_
    rw [List.mem_range] at hi hj
    exact hinj i (by omega) j (by omega) heq
  have hlast := hsettled ((List.range 513).map fun i => ⟨UInt32.ofNat (i + 1)⟩) ⟨UInt32.ofNat 514⟩ []
    (by rw [List.range_succ, List.map_append]; rfl)
    (by rw [hnodup.dedup, List.length_map, List.length_range]; decide)
  obtain ⟨i, hi, heq⟩ := List.mem_map.mp hlast.1
  rw [List.mem_range] at hi
  have hsame := hinj i (by omega) 513 (by omega) heq
  omega

end Hedge.Warm
