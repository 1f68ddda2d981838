import IronFix.Lib.Gregorian
import IronFix.Session.UtcTimestamp

/-!
# The instant a UTCTimestamp names

The parser's own arithmetic (eras of 400 years, months from March on) counts the
days of the Gregorian calendar, and its checked operations never overflow on a
date and time of day that exist.
-/

namespace IronFix.Session

open Lib.Decimal Lib.Gregorian Lib.Spans

variable {year month day hour minute second fractionMillis : Nat}

/-- A date and time of day that exist, a leap second included. -/
structure CivilTime (year month day hour minute second : Nat) : Prop where
  fromEpoch : 1970 ≤ year
  toLast : year ≤ 9999
  isMonth : 1 ≤ month ∧ month ≤ 12
  isDay : 1 ≤ day ∧ day ≤ monthLength year month
  hour : hour ≤ 23
  minute : minute ≤ 59
  second : second ≤ 60

/-- Milliseconds from the epoch. -/
def countMillis (year month day hour minute second fractionMillis : Nat) : Nat :=
  (dayNumber year month day * 86400 + hour * 3600 + minute * 60 + second) * 1000 + fractionMillis

theorem daysInMonth_eq (isMonth : 1 ≤ month ∧ month ≤ 12) :
    daysInMonth year month = some (monthLength year month) := by
  obtain ⟨first, last⟩ := isMonth
  have leap : isLeap year = true ↔ year % 4 = 0 ∧ (year % 100 ≠ 0 ∨ year % 400 = 0) := by
    simp [isLeap]
  unfold daysInMonth
  simp only [← leap]
  by_cases isLeapYear : isLeap year = true
  · interval_cases month <;> simp [monthLength, MONTH_LENGTHS, isLeapYear]
  · interval_cases month <;> simp [monthLength, MONTH_LENGTHS, isLeapYear]

/-- The months from March on, with the leap day last. -/
theorem daysBeforeMonth_shifted (isMonth : 1 ≤ month ∧ month ≤ 12) :
    daysBeforeMonth year month + 306 =
      if 2 < month then yearLength year + (153 * (month - 3) + 2) / 5
      else (153 * (month + 9) + 2) / 5 := by
  obtain ⟨first, last⟩ := isMonth
  by_cases leap : isLeap year = true
  · interval_cases month <;> simp [daysBeforeMonth, start, monthLength, yearLength, leap]
  · interval_cases month <;> simp [daysBeforeMonth, start, monthLength, yearLength, leap]

/-- Within eras of 400 years. -/
theorem era_days (shifted dayOfYear : Nat) :
    shifted / 400 * 146097 + ((shifted - shifted / 400 * 400) * 365 +
        (shifted - shifted / 400 * 400) / 4 - (shifted - shifted / 400 * 400) / 100 + dayOfYear) =
      365 * shifted + shifted / 4 - shifted / 100 + shifted / 400 + dayOfYear := by
  generalize isEra : shifted / 400 = era
  obtain ⟨yearOfEra, rfl⟩ : ∃ yearOfEra, shifted = era * 400 + yearOfEra :=
    ⟨shifted - era * 400, by omega⟩
  rw [Nat.add_sub_cancel_left]
  omega

theorem daysFromCivil_eq (fromEpoch : 1970 ≤ year) (isMonth : 1 ≤ month ∧ month ≤ 12)
    (isDay : 1 ≤ day) : daysFromCivil year month day = some (dayNumber year month day) := by
  have months := @daysBeforeMonth_shifted year month isMonth
  unfold daysFromCivil
  by_cases late : 2 < month
  · have years := daysBeforeYear_eq (show 1970 ≤ year + 1 from Nat.le_succ_of_le fromEpoch)
    have grown : daysBeforeYear (year + 1) = daysBeforeYear year + yearLength year := by
      unfold daysBeforeYear epochYear
      rw [show year + 1 - 1970 = (year - 1970) + 1 by omega, start,
        show 1970 + (year - 1970) = year by omega]
    have early : ¬month ≤ 2 := Nat.not_le.mpr late
    rw [if_pos late] at months
    rw [Nat.add_sub_cancel] at years
    simp only [early, late, if_true, if_false, Option.bind_eq_bind, Option.bind_some, era_days]
    have counted : 365 * year + year / 4 - year / 100 + year / 400 +
        ((153 * (month - 3) + 2) / 5 + day - 1) = dayNumber year month day + 719468 := by
      unfold dayNumber
      omega
    rw [counted, if_pos (Nat.le_add_left _ _), Nat.add_sub_cancel]
  · have years := daysBeforeYear_eq fromEpoch
    have early : month ≤ 2 := Nat.not_lt.mp late
    have notZero : year ≠ 0 := by omega
    rw [if_neg late] at months
    simp only [early, late, notZero, if_true, if_false, Option.bind_eq_bind, Option.bind_some, era_days]
    have counted : 365 * (year - 1) + (year - 1) / 4 - (year - 1) / 100 + (year - 1) / 400 +
        ((153 * (month + 9) + 2) / 5 + day - 1) = dayNumber year month day + 719468 := by
      unfold dayNumber
      omega
    rw [counted, if_pos (Nat.le_add_left _ _), Nat.add_sub_cancel]

/-- Before the year 10000 nothing overflows. -/
theorem dayNumber_lt (there : CivilTime year month day hour minute second) :
    dayNumber year month day < 4000000 := by
  have years := daysBeforeYear_eq there.fromEpoch
  have inYear := Date.offset_lt ⟨year, month, day, there.fromEpoch, there.isMonth, there.isDay⟩
  have short : yearLength year ≤ 366 := by
    unfold yearLength
    split <;> decide
  have := there.toLast
  unfold dayNumber
  dsimp only at inYear
  omega

theorem bind_of_some {α β : Type} {answer : Option α} {value : α} {next : α → Option β}
    (found : answer = some value) : (do next (← answer)) = next value := by
  rw [found]
  rfl

/-- Each step of a count that fits is a step that fits. -/
theorem checked_count {days : Nat}
    (fits : (days * 86400 + hour * 3600 + minute * 60 + second) * 1000 + fractionMillis ≤ u64Max) :
    (do
      let seconds ← checkedMul u64Max days 86400
      let seconds ← checkedAdd u64Max seconds (← checkedMul u64Max hour 3600)
      let seconds ← checkedAdd u64Max seconds (← checkedMul u64Max minute 60)
      let seconds ← checkedAdd u64Max seconds second
      checkedAdd u64Max (← checkedMul u64Max seconds 1000) fractionMillis) =
      some ((days * 86400 + hour * 3600 + minute * 60 + second) * 1000 + fractionMillis) := by
  have product : ∀ {a b : Nat}, a * b ≤ u64Max → checkedMul u64Max a b = some (a * b) := by
    intro a b fits
    exact checkedMul_eq_some.mpr ⟨rfl, fits⟩
  have sum : ∀ {a b : Nat}, a + b ≤ u64Max → checkedAdd u64Max a b = some (a + b) := by
    intro a b fits
    exact checkedAdd_eq_some.mpr ⟨rfl, fits⟩
  -- every partial result is below the whole
  have scaled := Nat.le_trans (Nat.le_add_right _ fractionMillis) fits
  have seconds := Nat.le_trans (Nat.le_mul_of_pos_right _ (show 0 < 1000 by decide)) scaled
  have minutes := Nat.le_trans (Nat.le_add_right _ second) seconds
  have hours := Nat.le_trans (Nat.le_add_right _ (minute * 60)) minutes
  have ofDays := Nat.le_trans (Nat.le_add_right _ (hour * 3600)) hours
  have ofHours := Nat.le_trans (Nat.le_add_left _ (days * 86400)) hours
  have ofMinutes := Nat.le_trans (Nat.le_add_left (minute * 60) _) minutes
  rw [bind_of_some (product ofDays), bind_of_some (product ofHours), bind_of_some (sum hours),
    bind_of_some (product ofMinutes), bind_of_some (sum minutes), bind_of_some (sum seconds),
    bind_of_some (product scaled), sum fits]

/-- Exactly the dates and times that exist have an instant, and it is the
Gregorian count. -/
theorem instantMillis_eq_some {millis : Nat} (belowSecond : fractionMillis < 1000) :
    instantMillis year month day hour minute second fractionMillis = some millis ↔
      CivilTime year month day hour minute second ∧
        countMillis year month day hour minute second fractionMillis = millis := by
  unfold instantMillis
  by_cases inRange : year < 1970 ∨ 9999 < year ∨ month < 1 ∨ 12 < month ∨ day < 1
  · rw [if_pos inRange]
    refine ⟨nofun, ?_⟩
    rintro ⟨there, _⟩
    have := there.fromEpoch
    have := there.toLast
    have := there.isMonth
    have := there.isDay
    omega
  · rw [if_neg inRange]
    have isMonth : 1 ≤ month ∧ month ≤ 12 := by omega
    rw [bind_of_some (daysInMonth_eq isMonth)]
    by_cases outside : monthLength year month < day ∨ 23 < hour ∨ 59 < minute ∨ 60 < second
    · rw [if_pos outside]
      refine ⟨nofun, ?_⟩
      rintro ⟨there, _⟩
      have := there.isDay
      have := there.hour
      have := there.minute
      have := there.second
      omega
    · rw [if_neg outside]
      have there : CivilTime year month day hour minute second :=
        ⟨by omega, by omega, isMonth, by omega, by omega, by omega, by omega⟩
      have bound := dayNumber_lt there
      have u64 : u64Max = 18446744073709551615 := rfl
      have fits : countMillis year month day hour minute second fractionMillis ≤ u64Max := by
        refine Nat.le_of_not_lt fun exceeds => ?_
        unfold countMillis at exceeds
        omega
      rw [bind_of_some (daysFromCivil_eq there.fromEpoch isMonth there.isDay.1), checked_count fits,
        Option.some.injEq]
      exact ⟨fun same => ⟨there, same⟩, And.right⟩

end IronFix.Session
