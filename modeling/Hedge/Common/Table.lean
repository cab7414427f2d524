import Mathlib.Data.List.Induction
import Mathlib.Data.List.Nodup

/-!
# Tables with a unique key

The rows of a database table in which no two have the same key. An upsert replaces the row with the
key of the new one, or adds it. What a table holds after any number of upserts is told by `get`: the
last row that was written for the key, or what was there before.
-/

namespace Hedge.Common

variable {ρ κ : Type*} [DecidableEq κ]

/-- The last row with a key. -/
def lastWith (key : ρ → κ) (k : κ) (rows : List ρ) : Option ρ := rows.reverse.find? fun r => key r = k

section LastWith

variable {key : ρ → κ} {k : κ} {r : ρ} {rows : List ρ}

theorem lastWith_concat : lastWith key k (rows ++ [r]) = if key r = k then some r else
    lastWith key k rows := by
  rw [lastWith, List.reverse_append, List.reverse_singleton, List.singleton_append,
    List.find?_cons, lastWith]
  split <;> simp_all

theorem lastWith_append (rows' : List ρ) :
    lastWith key k (rows ++ rows') = (lastWith key k rows').or (lastWith key k rows) := by
  rw [lastWith, List.reverse_append, List.find?_append]
  rfl

theorem isSome_lastWith_iff : (lastWith key k rows).isSome = true ↔ ∃ r ∈ rows, key r = k := by
  simp [lastWith]

end LastWith

/-- A table with a unique key. -/
structure Table (key : ρ → κ) where
  rows : List ρ
  nodup : (rows.map key).Nodup

namespace Table

variable {key : ρ → κ}

/-- The empty table. -/
def empty : Table key where
  rows := []
  nodup := List.nodup_nil

/-- The row with a key. -/
def get (t : Table key) (k : κ) : Option ρ := t.rows.find? fun r => key r = k

/-- A list with the row in the place of the one with its key. -/
def replace (key : ρ → κ) (row : ρ) (rows : List ρ) : List ρ :=
  rows.map fun r => if key r = key row then row else r

theorem map_key_replace (row : ρ) (rows : List ρ) :
    (replace key row rows).map key = rows.map key := by
  rw [replace, List.map_map]
  refine List.map_congr_left fun r _ => ?_
  show key (if key r = key row then row else r) = key r
  split_ifs with h
  · exact h.symm
  · rfl

/-- `INSERT … ON CONFLICT DO UPDATE` of all other columns. -/
def upsert (t : Table key) (row : ρ) : Table key :=
  if h : key row ∈ t.rows.map key then
    ⟨replace key row t.rows, by rw [map_key_replace]; exact t.nodup⟩
  else
    ⟨t.rows ++ [row], by
      rw [List.map_append, List.map_singleton, List.nodup_append]
      refine ⟨t.nodup, List.nodup_singleton _, ?_⟩
      rintro k hk k' hk' rfl
      exact h (List.mem_singleton.mp hk' ▸ hk)⟩

/-- The upserts of some rows, one after the other. -/
def upsertAll (t : Table key) (rows : List ρ) : Table key := rows.foldl upsert t

variable {t : Table key} {k : κ} {r : ρ}

/-- The row with a key is the one row of the table that has it. -/
theorem get_eq_some_iff : t.get k = some r ↔ r ∈ t.rows ∧ key r = k := by
  constructor
  · intro h
    exact ⟨List.mem_of_find?_eq_some h, by simpa using List.find?_some h⟩
  · rintro ⟨hmem, rfl⟩
    obtain ⟨found, hfound⟩ : ∃ found, t.get (key r) = some found := by
      rw [← Option.isSome_iff_exists, get, List.find?_isSome]
      exact ⟨r, hmem, decide_eq_true rfl⟩
    have hkey : key found = key r := by simpa using List.find?_some hfound
    rw [hfound, List.inj_on_of_nodup_map t.nodup (List.mem_of_find?_eq_some hfound) hmem hkey]

theorem mem_rows_iff : r ∈ t.rows ↔ t.get (key r) = some r := by
  rw [get_eq_some_iff]
  exact (and_iff_left rfl).symm

theorem mem_rows_upsert {row : ρ} :
    r ∈ (t.upsert row).rows ↔ r = row ∨ r ∈ t.rows ∧ key r ≠ key row := by
  unfold upsert
  split_ifs with h
  · obtain ⟨old, hold, hkey⟩ := List.mem_map.mp h
    show r ∈ replace key row t.rows ↔ _
    rw [replace, List.mem_map]
    constructor
    · rintro ⟨r', hr', rfl⟩
      split_ifs with heq
      · exact .inl rfl
      · exact .inr ⟨hr', heq⟩
    · rintro (rfl | ⟨hr, hne⟩)
      · exact ⟨old, hold, if_pos hkey⟩
      · exact ⟨r, hr, if_neg hne⟩
  · show r ∈ t.rows ++ [row] ↔ _
    rw [List.mem_append, List.mem_singleton, or_comm]
    refine or_congr_right ⟨fun hr => ⟨hr, fun heq => h ?_⟩, And.left⟩
    exact heq ▸ List.mem_map_of_mem hr

theorem get_upsert (row : ρ) : (t.upsert row).get k = if key row = k then some row else t.get k := by
  refine Option.ext fun r => ?_
  rw [get_eq_some_iff, mem_rows_upsert]
  split_ifs with h
  · rw [Option.some.injEq]
    constructor
    · rintro ⟨rfl | ⟨-, hne⟩, hk⟩
      · rfl
      · exact absurd (hk.trans h.symm) hne
    · rintro rfl
      exact ⟨.inl rfl, h⟩
  · rw [get_eq_some_iff]
    constructor
    · rintro ⟨rfl | ⟨hr, -⟩, hk⟩
      · exact absurd hk h
      · exact ⟨hr, hk⟩
    · rintro ⟨hr, rfl⟩
      exact ⟨.inr ⟨hr, Ne.symm h⟩, rfl⟩

/-- After some upserts a key has the last of their rows, or the row it had. -/
theorem get_upsertAll (rows : List ρ) :
    (t.upsertAll rows).get k = (lastWith key k rows).or (t.get k) := by
  induction rows using List.reverseRecOn with
  | nil => rfl
  | append_singleton rows row ih =>
    rw [upsertAll, List.foldl_append, List.foldl_cons, List.foldl_nil, get_upsert, lastWith_concat,
      ← upsertAll, ih]
    split_ifs <;> rfl

theorem mem_of_mem_upsertAll {rows : List ρ} (h : r ∈ (t.upsertAll rows).rows) :
    r ∈ rows ∨ r ∈ t.rows := by
  rw [mem_rows_iff, get_upsertAll, Option.or_eq_some_iff] at h
  rcases h with h | ⟨-, h⟩
  · exact .inl (List.mem_reverse.mp (List.mem_of_find?_eq_some h))
  · exact .inr (mem_rows_iff.mpr h)

/-- A key that has a row keeps one. -/
theorem isSome_get_upsertAll (rows : List ρ) (h : (t.get k).isSome = true) :
    ((t.upsertAll rows).get k).isSome = true := by
  rw [get_upsertAll, Option.isSome_or, h, Bool.or_true]

end Table

/-! ## Batches -/

/-- `xs[start : start + n]` for every `start` in `range(0, len(xs), n)`. -/
def batches {α : Type*} (n : ℕ) (xs : List α) : List (List α) :=
  (List.range ((xs.length + n - 1) / n)).map fun i => (xs.drop (i * n)).take n

theorem flatten_batches {α : Type*} {n : ℕ} (hn : 0 < n) (xs : List α) :
    (batches n xs).flatten = xs := by
  have hprefix : ∀ m : ℕ, ((List.range m).map fun i => (xs.drop (i * n)).take n).flatten
      = xs.take (m * n) := by
    intro m
    induction m with
    | zero => simp
    | succ m ih =>
      rw [List.range_succ, List.map_append, List.flatten_append, ih, List.map_singleton,
        List.flatten_singleton, Nat.add_mul, Nat.one_mul, List.take_add]
  rw [batches, hprefix]
  refine List.take_of_length_le ?_
  have hdiv := Nat.div_add_mod (xs.length + n - 1) n
  have hmod := Nat.mod_lt (xs.length + n - 1) hn
  rw [Nat.mul_comm] at hdiv
  omega

end Hedge.Common
