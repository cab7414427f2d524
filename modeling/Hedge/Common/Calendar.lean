import Mathlib.Data.Int.Order.Basic
import Mathlib.Tactic.Linarith

/-!
# Civil dates

The proleptic Gregorian calendar on day numbers, with day 0 on 1970-01-01. A date is computed from
its day number by counting cycles of 400, 100 and 4 years and single years, all of which start on
1 March: the leap day is then the last day of its year, and of every longer cycle that has it.

`Date.toDays` goes back by the usual closed formula, so that a date determines its day number
(`Date.ofDays_inj`).
-/

namespace Hedge.Common

/-- A calendar date. -/
@[ext]
structure Date where
  year : ℤ
  month : ℕ
  day : ℕ
  deriving DecidableEq, Repr

namespace Date

/-- Days from 0000-03-01 to 1970-01-01. -/
def epochShift : ℤ := 719468

/-- The position of a day in the cycles that start on 1 March: the 400-year cycle, the century, the
four-year cycle and the year within them, and the day of that year. -/
structure Cycles where
  era : ℤ
  century : ℕ
  quad : ℕ
  year : ℕ
  dayOfYear : ℕ
  deriving DecidableEq, Repr

/-- The cycles of a day number. The last century of 400 years and the last year of four are a day
longer than the others. -/
def Cycles.ofDays (n : ℤ) : Cycles :=
  let z := n + epochShift
  let dayOfEra := (z % 146097).toNat
  let century := min (dayOfEra / 36524) 3
  let dayOfCentury := dayOfEra - century * 36524
  let quad := dayOfCentury / 1461
  let dayOfQuad := dayOfCentury % 1461
  let year := min (dayOfQuad / 365) 3
  { era := z / 146097, century, quad, year, dayOfYear := dayOfQuad - year * 365 }

/-- The year of the cycles, counted from 1 March. -/
def Cycles.marchYear (c : Cycles) : ℤ := c.era * 400 + (c.century * 100 + c.quad * 4 + c.year : ℕ)

/-- The month from March on: the lengths repeat with 31, 30, 31, 30, 31, which are 153 days. -/
def marchMonth (dayOfYear : ℕ) : ℕ := (5 * dayOfYear + 2) / 153

/-- The day of the year on which a month counted from March begins. -/
def monthStart (marchMonth : ℕ) : ℕ := (153 * marchMonth + 2) / 5

/-- The date with the given day number. -/
def ofDays (n : ℤ) : Date :=
  let c := Cycles.ofDays n
  let mp := marchMonth c.dayOfYear
  let month := if mp < 10 then mp + 3 else mp - 9
  { year := c.marchYear + if month ≤ 2 then 1 else 0
    month
    day := c.dayOfYear - monthStart mp + 1 }

/-- The day number of a date. -/
def toDays (date : Date) : ℤ :=
  let y := if date.month ≤ 2 then date.year - 1 else date.year
  let yearOfEra := y % 400
  let mp := if 2 < date.month then date.month - 3 else date.month + 9
  y / 400 * 146097 + (yearOfEra * 365 + yearOfEra / 4 - yearOfEra / 100)
    + (monthStart mp + (date.day - 1) : ℕ) - epochShift

/-- The cycles of a day stay in their ranges and add up to it. -/
theorem Cycles.ofDays_spec (n : ℤ) :
    (ofDays n).century ≤ 3 ∧ (ofDays n).quad ≤ 24 ∧ (ofDays n).year ≤ 3 ∧
      (ofDays n).dayOfYear ≤ 365 ∧
      n + epochShift = (ofDays n).era * 146097 + (((ofDays n).century * 36524
        + (ofDays n).quad * 1461 + (ofDays n).year * 365 + (ofDays n).dayOfYear : ℕ) : ℤ) := by
  have hlow : 0 ≤ (n + epochShift) % 146097 := Int.emod_nonneg _ (by norm_num)
  have hhigh : (n + epochShift) % 146097 < 146097 := Int.emod_lt_of_pos _ (by norm_num)
  have hdiv := Int.mul_ediv_add_emod (n + epochShift) 146097
  simp only [ofDays]
  generalize hz : (n + epochShift) % 146097 = r at *
  generalize n + epochShift = z at *
  obtain ⟨d, rfl⟩ := Int.eq_ofNat_of_zero_le hlow
  simp only [Int.toNat_natCast]
  omega

theorem marchMonth_le {dayOfYear : ℕ} (h : dayOfYear ≤ 365) : marchMonth dayOfYear ≤ 11 := by
  rw [marchMonth]
  omega

theorem monthStart_marchMonth_le (dayOfYear : ℕ) :
    monthStart (marchMonth dayOfYear) ≤ dayOfYear := by
  rw [monthStart, marchMonth]
  omega

theorem toDays_ofDays (n : ℤ) : (ofDays n).toDays = n := by
  obtain ⟨hcentury, hquad, hyear, hday, hsum⟩ := Cycles.ofDays_spec n
  simp only [ofDays]
  generalize Cycles.ofDays n = c at *
  have hmonth := marchMonth_le hday
  have hstart := monthStart_marchMonth_le c.dayOfYear
  generalize marchMonth c.dayOfYear = mp at *
  generalize hmonthOf : (if mp < 10 then mp + 3 else mp - 9) = month
  -- the year and the month counted from March come back
  have hyearBack : (if month ≤ 2 then c.marchYear + (if month ≤ 2 then 1 else 0) - 1
      else c.marchYear + if month ≤ 2 then 1 else 0) = c.marchYear := by
    split_ifs <;> omega
  have hmonthBack : (if 2 < month then month - 3 else month + 9) = mp := by
    subst hmonthOf
    split_ifs <;> omega
  have hera : c.marchYear / 400 = c.era := by
    rw [Cycles.marchYear]
    omega
  have hyearOfEra : c.marchYear % 400 = (c.century * 100 + c.quad * 4 + c.year : ℕ) := by
    rw [Cycles.marchYear]
    omega
  have hquads : ((c.century * 100 + c.quad * 4 + c.year : ℕ) : ℤ) / 4
      = c.century * 25 + c.quad := by omega
  have hcenturies : ((c.century * 100 + c.quad * 4 + c.year : ℕ) : ℤ) / 100 = c.century := by omega
  simp only [toDays, hyearBack, hmonthBack, hera, hyearOfEra, hquads, hcenturies]
  push_cast at hsum ⊢
  omega

/-- Days with the same date are the same. -/
theorem ofDays_inj {n m : ℤ} (h : ofDays n = ofDays m) : n = m := by
  rw [← toDays_ofDays n, h, toDays_ofDays]

/-- The months and days of a date are in their ranges. -/
theorem ofDays_bounds (n : ℤ) :
    1 ≤ (ofDays n).month ∧ (ofDays n).month ≤ 12 ∧ 1 ≤ (ofDays n).day ∧ (ofDays n).day ≤ 31 := by
  obtain ⟨-, -, -, hday, -⟩ := Cycles.ofDays_spec n
  have hmonth := marchMonth_le hday
  simp only [ofDays]
  refine ⟨?_, ?_, by omega, ?_⟩
  · split_ifs <;> omega
  · split_ifs <;> omega
  · rw [monthStart, marchMonth]
    omega

/-- A date lies in the 400 years of its cycle. -/
theorem ofDays_year_bounds (n : ℤ) :
    (n + epochShift) / 146097 * 400 ≤ (ofDays n).year ∧
      (ofDays n).year ≤ (n + epochShift) / 146097 * 400 + 400 := by
  obtain ⟨hcentury, hquad, hyear, -, -⟩ := Cycles.ofDays_spec n
  have hera : (Cycles.ofDays n).era = (n + epochShift) / 146097 := rfl
  simp only [ofDays, Cycles.marchYear, ← hera]
  constructor <;> split_ifs <;> omega

example : ofDays 0 = ⟨1970, 1, 1⟩ ∧ ofDays 19782 = ⟨2024, 2, 29⟩ ∧ ofDays 20423 = ⟨2025, 12, 1⟩ := by
  decide

end Date

end Hedge.Common
