import Mathlib.Tactic.IntervalCases
import IronFix.Lib.Spans

/-!
# The Gregorian calendar from 1970

Days are counted year by year and month by month. A date carries that it
exists; its number orders dates (`Date.number_lt_iff`), and every number is the
number of a date (`dateOf`).
-/

namespace Lib.Gregorian

open Lib.Spans

def isLeap (year : Nat) : Bool := year % 4 = 0 && (year % 100 != 0 || year % 400 = 0)

def monthLength (year : Nat) : Nat → Nat
  | 2 => if isLeap year then 29 else 28
  | 4 | 6 | 9 | 11 => 30
  | _ => 31

def yearLength (year : Nat) : Nat := if isLeap year then 366 else 365

/-- The first year. -/
def epochYear : Nat := 1970

/-- Days from the first of January 1970 to the first of January. -/
def daysBeforeYear (year : Nat) : Nat := start (fun n => yearLength (epochYear + n)) (year - epochYear)

/-- Days from the first of January to the first of the month. -/
def daysBeforeMonth (year month : Nat) : Nat := start (fun n => monthLength year (n + 1)) (month - 1)

/-- Days from the first of January 1970. -/
def dayNumber (year month day : Nat) : Nat :=
  daysBeforeYear year + daysBeforeMonth year month + (day - 1)

/-- A date that exists. -/
structure Date where
  year : Nat
  month : Nat
  day : Nat
  fromEpoch : epochYear ≤ year
  isMonth : 1 ≤ month ∧ month ≤ 12
  isDay : 1 ≤ day ∧ day ≤ monthLength year month

def Date.number (date : Date) : Nat := dayNumber date.year date.month date.day

theorem yearLength_pos (year : Nat) : 0 < yearLength year := by
  unfold yearLength
  split <;> decide

theorem monthLength_pos (year month : Nat) : 0 < monthLength year month := by
  unfold monthLength
  split
  · split <;> decide
  all_goals decide

/-- The months fill the year. -/
theorem daysBeforeMonth_year (year : Nat) : daysBeforeMonth year 13 = yearLength year := by
  simp only [daysBeforeMonth, start, monthLength, yearLength]
  split <;> rfl

/-- The leap years before are counted by division. -/
theorem daysBeforeYear_eq {year : Nat} (fromEpoch : epochYear ≤ year) :
    daysBeforeYear year + 719162 =
      365 * (year - 1) + (year - 1) / 4 - (year - 1) / 100 + (year - 1) / 400 := by
  induction year, fromEpoch using Nat.le_induction with
  | base => rfl
  | succ year fromEpoch ih =>
      unfold epochYear at fromEpoch
      have grown : daysBeforeYear (year + 1) = daysBeforeYear year + yearLength year := by
        unfold daysBeforeYear epochYear
        rw [show year + 1 - 1970 = (year - 1970) + 1 by omega, start,
          show 1970 + (year - 1970) = year by omega]
      obtain ⟨before, rfl⟩ : ∃ before, year = before + 1 := ⟨year - 1, by omega⟩
      have century : before / 100 ≤ before / 4 := Nat.div_le_div_left (by decide) (by decide)
      rw [grown, Nat.add_sub_cancel, Nat.succ_div, Nat.succ_div, Nat.succ_div]
      rw [Nat.add_sub_cancel] at ih
      have leap : yearLength (before + 1) = 365 +
          (if 4 ∣ before + 1 then 1 else 0) - (if 100 ∣ before + 1 then 1 else 0) +
            (if 400 ∣ before + 1 then 1 else 0) := by
        by_cases four : (before + 1) % 4 = 0
        · by_cases hundred : (before + 1) % 100 = 0
          · by_cases fourHundred : (before + 1) % 400 = 0
            · simp [yearLength, isLeap, Nat.dvd_iff_mod_eq_zero, four, hundred, fourHundred]
            · simp [yearLength, isLeap, Nat.dvd_iff_mod_eq_zero, four, hundred, fourHundred]
          · have fourHundred : (before + 1) % 400 ≠ 0 := by omega
            simp [yearLength, isLeap, Nat.dvd_iff_mod_eq_zero, four, hundred, fourHundred]
        · have hundred : (before + 1) % 100 ≠ 0 := by omega
          have fourHundred : (before + 1) % 400 ≠ 0 := by omega
          simp [yearLength, isLeap, Nat.dvd_iff_mod_eq_zero, four, hundred, fourHundred]
      have whole : 100 ∣ before + 1 → 4 ∣ before + 1 := by omega
      rw [leap]
      split <;> split <;> omega

namespace Date

variable {one two : Date}

theorem offset_lt (date : Date) :
    daysBeforeMonth date.year date.month + (date.day - 1) < yearLength date.year := by
  have inside := end_le (w := fun n => monthLength date.year (n + 1))
    (show date.month - 1 < 12 by have := date.isMonth; omega)
  have whole := daysBeforeMonth_year date.year
  unfold daysBeforeMonth at whole ⊢
  simp only [show date.month - 1 + 1 = date.month by have := date.isMonth; omega] at inside
  have := date.isDay
  have : start (fun n => monthLength date.year (n + 1)) (13 - 1) =
    start (fun n => monthLength date.year (n + 1)) 12 := rfl
  omega

/-- Dates are ordered by year, then month, then day. -/
theorem number_lt_iff : one.number < two.number ↔
    one.year < two.year ∨ one.year = two.year ∧
      (one.month < two.month ∨ one.month = two.month ∧ one.day < two.day) := by
  have years := lt_iff (w := fun n => yearLength (epochYear + n)) (m := one.year - epochYear)
    (n := two.year - epochYear)
    (by rw [Nat.add_sub_cancel' one.fromEpoch]; exact one.offset_lt)
    (by rw [Nat.add_sub_cancel' two.fromEpoch]; exact two.offset_lt)
  have fromEpoch := one.fromEpoch
  have fromEpoch' := two.fromEpoch
  unfold number dayNumber
  rw [Nat.add_assoc, Nat.add_assoc]
  refine years.trans ?_
  rw [show one.year - epochYear < two.year - epochYear ↔ one.year < two.year by omega,
    show one.year - epochYear = two.year - epochYear ↔ one.year = two.year by omega]
  refine or_congr_right (and_congr_right fun same => ?_)
  obtain ⟨first, _⟩ := one.isMonth
  obtain ⟨first', _⟩ := two.isMonth
  obtain ⟨day, last⟩ := one.isDay
  obtain ⟨day', last'⟩ := two.isDay
  have months := lt_iff (w := fun n => monthLength one.year (n + 1)) (m := one.month - 1)
    (n := two.month - 1) (r := one.day - 1) (s := two.day - 1)
    (by rw [Nat.sub_add_cancel first]; omega) (by rw [Nat.sub_add_cancel first', same]; omega)
  unfold daysBeforeMonth
  rw [← same]
  refine months.trans ?_
  omega

/-- A day has one date. -/
theorem number_eq_iff : one.number = two.number ↔
    one.year = two.year ∧ one.month = two.month ∧ one.day = two.day := by
  have less : one.number < two.number ↔ _ := number_lt_iff
  have greater : two.number < one.number ↔ _ := number_lt_iff
  constructor
  · intro same
    rw [same] at less greater
    have notLess := fun holds => Nat.lt_irrefl _ (less.mpr holds)
    have notGreater := fun holds => Nat.lt_irrefl _ (greater.mpr holds)
    omega
  · rintro ⟨year, month, day⟩
    unfold number
    rw [year, month, day]

end Date

/-- The date of a day. -/
def dateOf (number : Nat) : Nat × Nat × Nat :=
  let (years, dayOfYear) := locate (fun n => yearLength (epochYear + n)) (number + 1) 0 number
  let (months, dayOfMonth) :=
    locate (fun n => monthLength (epochYear + years) (n + 1)) (dayOfYear + 1) 0 dayOfYear
  (epochYear + years, months + 1, dayOfMonth + 1)

theorem dateOf_spec (number : Nat) : ∃ date : Date,
    dateOf number = (date.year, date.month, date.day) ∧ date.number = number := by
  obtain ⟨inYear, year⟩ := locate_spec (w := fun n => yearLength (epochYear + n))
    (fun n => yearLength_pos _) (Nat.lt_succ_self number) 0
  generalize located : locate (fun n => yearLength (epochYear + n)) (number + 1) 0 number = first at *
  obtain ⟨years, dayOfYear⟩ := first
  obtain ⟨inMonth, month⟩ := locate_spec
    (w := fun n => monthLength (epochYear + years) (n + 1))
    (fun n => monthLength_pos _ _) (Nat.lt_succ_self dayOfYear) 0
  generalize located' : locate (fun n => monthLength (epochYear + years) (n + 1)) (dayOfYear + 1) 0
    dayOfYear = second at *
  obtain ⟨months, dayOfMonth⟩ := second
  simp only [start, Nat.zero_add] at inYear year inMonth month
  have few : months < 12 := by
    by_contra many
    have whole := daysBeforeMonth_year (epochYear + years)
    have reaches := start_mono (w := fun n => monthLength (epochYear + years) (n + 1))
      (Nat.le_of_not_lt many)
    unfold daysBeforeMonth at whole
    have : start (fun n => monthLength (epochYear + years) (n + 1)) (13 - 1) =
      start (fun n => monthLength (epochYear + years) (n + 1)) 12 := rfl
    omega
  refine ⟨⟨epochYear + years, months + 1, dayOfMonth + 1, Nat.le_add_right _ _, ⟨by omega, by omega⟩,
    ⟨by omega, by omega⟩⟩, ?_, ?_⟩
  · unfold dateOf
    rw [located]
    dsimp only
    rw [located']
  · show dayNumber (epochYear + years) (months + 1) (dayOfMonth + 1) = number
    unfold dayNumber daysBeforeYear daysBeforeMonth
    rw [Nat.add_sub_cancel_left, Nat.add_sub_cancel, Nat.add_sub_cancel, Nat.add_assoc, month, year]

end Lib.Gregorian
