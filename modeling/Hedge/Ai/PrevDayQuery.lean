import Hedge.Ai.PrevDayRuns

/-!
# Queries of the previous-day memory

Reference: `_handle_query` in `hedge_warm_ai/prev_day/engine.py`, `read_prev_day_memory` in
`hedge_memory_rag/timescale/readers.py`.

A query by id reads the newest row. A query by name asks for one row of the last 90 days and takes
the last of what it gets; the rows come oldest first, and the one it gets is the oldest. So a symbol
that has rows of two days in the window is answered by name with the day that is over
(`symbol_answered_newest_iff`).
-/

namespace Hedge.Ai.PrevDay

open Hedge.Common

variable {table : PrevDayTable}

/-! ## What the two readers return -/

/-- Rows of one id and time are one row. -/
theorem eq_of_key {row row' : PreviousDayMemoryRow} (h : row ∈ table.rows) (h' : row' ∈ table.rows)
    (hid : row.symbolId = row'.symbolId) (hts : row.ts = row'.ts) : row = row' := by
  have hkey : row.key = row'.key := Prod.ext hid hts
  rw [Table.mem_rows_iff] at h h'
  rw [hkey, h'] at h
  exact (Option.some.inj h).symm

theorem readPrevDayMemoryLatest_eq_some_iff {id : ℤ} {row : PreviousDayMemoryRow} :
    readPrevDayMemoryLatest table id = some row ↔
      (row ∈ table.rows ∧ (row.symbolId : ℤ) = id) ∧
        ∀ other ∈ table.rows, (other.symbolId : ℤ) = id → other.ts ≤ row.ts := by
  have hmem : ∀ r, r ∈ (table.rows.filter fun row => (row.symbolId : ℤ) = id) ↔
      r ∈ table.rows ∧ (r.symbolId : ℤ) = id := by
    intro r
    rw [List.mem_filter, decide_eq_true_eq]
  rw [readPrevDayMemoryLatest, head?_mergeSort_byKey_eq_some_iff, hmem]
  · refine and_congr_right fun _ => forall_congr' fun other => ?_
    rw [hmem, and_imp]
    rfl
  · intro r hr r' hr' hts
    obtain ⟨hin, hid⟩ := (hmem r).mp hr
    obtain ⟨hin', hid'⟩ := (hmem r').mp hr'
    exact eq_of_key hin hin' (by omega) (OrderDual.toDual_inj.mp hts)

/-- A row of the name that the window of a query holds. -/
structure InWindow (table : PrevDayTable) (nowUs : ℤ) (symbol : String)
    (row : PreviousDayMemoryRow) : Prop where
  mem : row ∈ table.rows
  symbol_eq : row.symbol = symbol
  start_le : windowStart nowUs ≤ row.ts
  lt_now : row.ts < nowUs

/-- A query by name reads at most one row, the oldest of the window. -/
theorem answerSymbol_eq {nowUs : ℤ} {symbol : String} :
    (answerSymbol table nowUs symbol = none ∧ ∀ row, ¬ InWindow table nowUs symbol row) ∨
    ∃ oldest, InWindow table nowUs symbol oldest ∧
      (∀ row, InWindow table nowUs symbol row → oldest.ts ≤ row.ts) ∧
      answerSymbol table nowUs symbol = some (buildPrevDayEvent oldest) := by
  have hmem : ∀ r, r ∈ (table.rows.filter fun row => windowStart nowUs ≤ row.ts ∧
      row.ts < nowUs ∧ row.symbol = symbol) ↔ InWindow table nowUs symbol r := by
    intro r
    rw [List.mem_filter, decide_eq_true_eq]
    exact ⟨fun ⟨hin, hstart, hend, hsymbol⟩ => ⟨hin, hsymbol, hstart, hend⟩,
      fun h => ⟨h.mem, h.start_le, h.lt_now, h.symbol_eq⟩⟩
  have hone : ∀ rows : List PreviousDayMemoryRow, (rows.take 1).getLast? = rows.head? := by
    intro rows
    cases rows <;> rfl
  rw [answerSymbol, readPrevDayMemory, hone]
  cases hhead : ((table.rows.filter fun row => windowStart nowUs ≤ row.ts ∧ row.ts < nowUs ∧
      row.symbol = symbol).mergeSort (byKey fun row => toLex (row.ts, row.symbolId))).head? with
  | none =>
    rw [head?_mergeSort_byKey_eq_none_iff] at hhead
    refine .inl ⟨rfl, fun row hrow => ?_⟩
    rw [← hmem, hhead] at hrow
    cases hrow
  | some oldest =>
    obtain ⟨hin, hleast⟩ := isLeast_of_head?_mergeSort hhead
    refine .inr ⟨oldest, (hmem _).mp hin, fun row hrow => ?_, rfl⟩
    rcases Prod.Lex.toLex_le_toLex.mp (hleast row ((hmem row).mpr hrow)) with hlt | ⟨heq, -⟩
    · exact hlt.le
    · exact heq.le

/-! ## Names and ids -/

/-- The record is of a newest row of the name in the window. -/
def AnsweredNewest (table : PrevDayTable) (nowUs : ℤ) (symbol : String) : Prop :=
  ∃ newest, InWindow table nowUs symbol newest ∧
    (∀ row, InWindow table nowUs symbol row → row.ts ≤ newest.ts) ∧
    answerSymbol table nowUs symbol = some (buildPrevDayEvent newest)

/-- **Queries by name.** After every run of the engine a query by name is answered with the newest
record of the last 90 days exactly if there are rows of that name in them, all of one date; a query
by id is always answered with the newest. -/
theorem symbol_answered_newest_iff (cfg : PrevDayConfig) (actions : List Action) (nowUs : ℤ)
    (symbol : String) (id : ℤ) :
    let table := (PrevDayMemoryEngine.after cfg actions).table
    (AnsweredNewest table nowUs symbol ↔
      (∃ row, InWindow table nowUs symbol row) ∧
        ∀ row row', InWindow table nowUs symbol row → InWindow table nowUs symbol row' →
          row.sessionDate = row'.sessionDate) ∧
    ∀ event, answerId table id = some event ↔
      ∃ newest ∈ table.rows, (newest.symbolId : ℤ) = id ∧ event = buildPrevDayEvent newest ∧
        ∀ row ∈ table.rows, (row.symbolId : ℤ) = id → row.sessionDate ≤ newest.sessionDate := by
  intro table
  have hts : ∀ row ∈ table.rows, row.ts = row.sessionDate * dayUs := by
    intro row hrow
    obtain ⟨rows, hrows, hmem⟩ := (PrevDayMemoryEngine.inv_after cfg actions).table row hrow
    exact (PrevDayMemoryEngine.consistent_of_answered hrows hmem).ts_eq
  have hle : ∀ row ∈ table.rows, ∀ row' ∈ table.rows,
      row.ts ≤ row'.ts ↔ row.sessionDate ≤ row'.sessionDate := by
    intro row hrow row' hrow'
    rw [hts row hrow, hts row' hrow', dayUs]
    omega
  constructor
  · rcases @answerSymbol_eq table nowUs symbol with
      ⟨-, hempty⟩ | ⟨oldest, holdest, hleast, hanswer⟩
    · refine iff_of_false ?_ fun ⟨⟨row, hrow⟩, _⟩ => hempty row hrow
      rintro ⟨newest, hnewest, -⟩
      exact hempty newest hnewest
    · constructor
      · rintro ⟨newest, hnewest, hgreatest, hnewer⟩
        refine ⟨⟨newest, hnewest⟩, ?_⟩
        -- the record names the date of the oldest row and of the newest one
        have hdate : oldest.sessionDate = newest.sessionDate := by
          rw [hanswer] at hnewer
          exact congrArg PreviousDayMemory.sessionDate (Option.some.inj hnewer)
        have hbetween : ∀ row, InWindow table nowUs symbol row →
            row.sessionDate = newest.sessionDate := by
          intro row hrow
          have hlow := (hle oldest holdest.mem row hrow.mem).mp (hleast row hrow)
          have hhigh := (hle row hrow.mem newest hnewest.mem).mp (hgreatest row hrow)
          omega
        intro row row' hrow hrow'
        rw [hbetween row hrow, hbetween row' hrow']
      · rintro ⟨-, hsame⟩
        refine ⟨oldest, holdest, fun row hrow => ?_, hanswer⟩
        rw [hle row hrow.mem oldest holdest.mem, hsame row oldest hrow holdest]
  · intro event
    rw [answerId, Option.map_eq_some_iff]
    constructor
    · rintro ⟨newest, hread, rfl⟩
      obtain ⟨⟨hin, hid⟩, hgreatest⟩ := readPrevDayMemoryLatest_eq_some_iff.mp hread
      exact ⟨newest, hin, hid, rfl, fun row hrow hrid =>
        (hle row hrow newest hin).mp (hgreatest row hrow hrid)⟩
    · rintro ⟨newest, hin, hid, rfl, hgreatest⟩
      refine ⟨newest, readPrevDayMemoryLatest_eq_some_iff.mpr ⟨⟨hin, hid⟩, ?_⟩, rfl⟩
      exact fun row hrow hrid => (hle row hrow newest hin).mpr (hgreatest row hrow hrid)

end Hedge.Ai.PrevDay
