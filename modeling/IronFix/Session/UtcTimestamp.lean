import IronFix.Core.Bytes

/-!
# Reading a UTCTimestamp

`YYYYMMDD-HH:MM:SS` with an optional fraction of one to nine digits, as
milliseconds from the Unix epoch.
-/

namespace IronFix.Session

open Lib.Slice Lib.Decimal

/-- A run of digits, checked against `u64`. -/
def parseRun (bytes : Bytes) : Option Nat := parseDigits bytes.length u64Max bytes

/-- The digits of a fraction, cut at the millisecond. -/
def parseFractionMillis (bytes : Bytes) : Option Nat :=
  if bytes = [] ∨ 9 < bytes.length ∨ !bytes.all isAsciiDigit then none
  else some ((List.range 3).foldl
    (fun millis index => millis * 10 + ((bytes[index]?).map digitValue).getD 0) 0)

def MONTH_LENGTHS : List Nat := [31, 28, 31, 30, 31, 30, 31, 31, 30, 31, 30, 31]

/-- Days in `month` of `year`, Gregorian. -/
def daysInMonth (year month : Nat) : Option Nat :=
  let leap := year % 4 = 0 ∧ (year % 100 ≠ 0 ∨ year % 400 = 0)
  if month = 2 ∧ leap then some 29
  else if month = 0 then none
  else MONTH_LENGTHS[month - 1]?

/-- Days from 1970-01-01. -/
def daysFromCivil (year month day : Nat) : Option Nat := do
  let shifted ← if month ≤ 2 then (if year = 0 then none else some (year - 1)) else some year
  let era := shifted / 400
  let yearOfEra := shifted - era * 400
  let shiftedMonth := if 2 < month then month - 3 else month + 9
  let dayOfYear := (153 * shiftedMonth + 2) / 5 + day - 1
  let dayOfEra := yearOfEra * 365 + yearOfEra / 4 - yearOfEra / 100 + dayOfYear
  let days := era * 146097 + dayOfEra
  if 719468 ≤ days then some (days - 719468) else none

/-- The instant of a date and time of day that exist, a leap second included. -/
def instantMillis (year month day hour minute second fractionMillis : Nat) : Option Nat := do
  if year < 1970 ∨ 9999 < year ∨ month < 1 ∨ 12 < month ∨ day < 1 then none
  else if (← daysInMonth year month) < day ∨ 23 < hour ∨ 59 < minute ∨ 60 < second then none
  else
    let days ← daysFromCivil year month day
    let seconds ← checkedMul u64Max days 86400
    let seconds ← checkedAdd u64Max seconds (← checkedMul u64Max hour 3600)
    let seconds ← checkedAdd u64Max seconds (← checkedMul u64Max minute 60)
    let seconds ← checkedAdd u64Max seconds second
    checkedAdd u64Max (← checkedMul u64Max seconds 1000) fractionMillis

/-- What follows the seconds. -/
def fractionOf (value : Bytes) : Option Nat :=
  match value[17]? with
  | none => some 0
  | some point =>
      if point = 0x2E then (sliceFrom? value 18).bind parseFractionMillis else none

def parseUtcTimestampMillis (value : Bytes) : Option Nat := do
  if value.length < 17 ∨ value[8]? ≠ some 0x2D then none
  else if value[11]? ≠ some 0x3A ∨ value[14]? ≠ some 0x3A then none
  else
    let year ← parseRun (← slice? value 0 4)
    let month ← parseRun (← slice? value 4 6)
    let day ← parseRun (← slice? value 6 8)
    let hour ← parseRun (← slice? value 9 11)
    let minute ← parseRun (← slice? value 12 14)
    let second ← parseRun (← slice? value 15 17)
    let fractionMillis ← fractionOf value
    instantMillis year month day hour minute second fractionMillis

example : parseUtcTimestampMillis (ascii "20240229-12:34:56.789") = some 1709210096789 := by decide +kernel

end IronFix.Session
