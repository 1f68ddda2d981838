import IronFix.Core.Bytes

/-!
# Timestamps

A timestamp counts nanoseconds from the Unix epoch. It is written as a FIX
UTCTimestamp of fixed length, truncated and never rounded; the calendar fields
it is written from are the calendar library's.
-/

namespace IronFix

open Lib.Decimal

/-- The last instant, `i64::MAX` nanoseconds from the epoch. -/
def MAX_NANOS : Nat := 2 ^ 63 - 1

structure Timestamp where
  nanosSinceEpoch : Nat
  bounded : nanosSinceEpoch ≤ MAX_NANOS
  deriving DecidableEq

namespace Timestamp

def EPOCH : Timestamp := ⟨0, Nat.zero_le _⟩

def asMillis (instant : Timestamp) : Nat := instant.nanosSinceEpoch / 1000000

end Timestamp

/-- The calendar fields of an instant, in UTC. -/
structure DateTime where
  year : Int
  month : Nat
  day : Nat
  hour : Nat
  minute : Nat
  second : Nat
  nanosecond : Nat
  deriving DecidableEq, Repr

/-- The ranges of the fields: a leap second is a nanosecond count of a second or
more, and a timestamp lies between 1970 and 2262. -/
structure DateTime.InRange (dt : DateTime) : Prop where
  fromEpoch : 1970 ≤ dt.year
  toLast : dt.year ≤ 2262
  month : dt.month ≤ 12
  day : dt.day ≤ 31
  hour : dt.hour ≤ 23
  minute : dt.minute ≤ 59
  second : dt.second ≤ 59
  nanosecond : dt.nanosecond < 2 * 10 ^ 9

/-- The calendar library: `DateTime::from_timestamp_nanos` and its accessors. -/
structure Calendar where
  toDatetime : Timestamp → DateTime
  inRange : ∀ instant, (toDatetime instant).InRange

/-! ## The wire form -/

def UTC_TIMESTAMP_SECONDS_LEN : Nat := 17
def UTC_TIMESTAMP_PREFIX_LEN : Nat := 18
def MAX_FRACTION_DIGITS : Nat := 9
def NANOS_PER_SECOND : Nat := 10 ^ 9

/-- `value` in exactly `width` zero-padded digits, the last one first written. -/
def putDigits : Nat → Nat → Option Bytes
  | 0, value => if value = 0 then some [] else none
  | width + 1, value => (putDigits width (value / 10)).map (· ++ [digitByte (value % 10)])

/-- The fractional digits of a `len`-byte UTCTimestamp: none in whole seconds. -/
def fractionDigitsOf (len : Nat) : Option Nat :=
  if len < UTC_TIMESTAMP_PREFIX_LEN then
    if len = UTC_TIMESTAMP_SECONDS_LEN then some 0 else none
  else
    let digits := len - UTC_TIMESTAMP_PREFIX_LEN
    if 1 ≤ digits ∧ digits ≤ MAX_FRACTION_DIGITS then some digits else none

/-- `.` and the fraction of the second, truncated. -/
def putFraction (fractionDigits nanos : Nat) : Option Bytes :=
  if fractionDigits = 0 then some []
  else do
    let fractionUnit := 10 ^ (MAX_FRACTION_DIGITS - fractionDigits)
    let fraction ← putDigits fractionDigits (nanos % NANOS_PER_SECOND / fractionUnit)
    some (ascii "." ++ fraction)

/-- `YYYYMMDD-HH:MM:SS`, with a fraction if `len` has room for it. -/
def formatUtcTimestamp (len : Nat) (dt : DateTime) : Option Bytes := do
  let fractionDigits ← fractionDigitsOf len
  let second ← checkedAdd u32Max dt.second (dt.nanosecond / NANOS_PER_SECOND)
  let year ← putDigits 4 (← dt.year.toNat?)
  let month ← putDigits 2 dt.month
  let day ← putDigits 2 dt.day
  let hour ← putDigits 2 dt.hour
  let minute ← putDigits 2 dt.minute
  let second ← putDigits 2 second
  let fraction ← putFraction fractionDigits dt.nanosecond
  some (year ++ month ++ day ++ ascii "-" ++ hour ++ ascii ":" ++ minute ++ ascii ":" ++ second ++
    fraction)

namespace Calendar

/-- `Timestamp::format_fixed`. -/
def formatFixed (calendar : Calendar) (len : Nat) (instant : Timestamp) : Bytes :=
  (formatUtcTimestamp len (calendar.toDatetime instant)).getD []

def formatSeconds (calendar : Calendar) (instant : Timestamp) : Bytes :=
  calendar.formatFixed 17 instant

def formatMillis (calendar : Calendar) (instant : Timestamp) : Bytes :=
  calendar.formatFixed 21 instant

def formatMicros (calendar : Calendar) (instant : Timestamp) : Bytes :=
  calendar.formatFixed 24 instant

end Calendar

/-! ## What is written -/

/-- The bytes of a UTCTimestamp. -/
def isTimestampByte (byte : UInt8) : Bool :=
  isAsciiDigit byte || byte == 0x2D || byte == 0x2E || byte == 0x3A

theorem putDigits_writes (width value : Nat) (fits : value < 10 ^ width) :
    ∃ digits, putDigits width value = some digits ∧ digits.length = width ∧
      ∀ byte ∈ digits, isTimestampByte byte = true := by
  induction width generalizing value with
  | zero =>
      have zero : value = 0 := by simpa using fits
      exact ⟨[], by rw [putDigits, if_pos zero], rfl, nofun⟩
  | succ width ih =>
      have high : value / 10 < 10 ^ width := by
        rw [Nat.pow_succ] at fits
        exact Nat.div_lt_of_lt_mul (by rwa [Nat.mul_comm])
      obtain ⟨digits, written, length, legal⟩ := ih (value / 10) high
      refine ⟨digits ++ [digitByte (value % 10)], ?_, ?_, ?_⟩
      · rw [putDigits, written]
        rfl
      · rw [List.length_append, length]
        rfl
      · intro byte member
        rcases List.mem_append.mp member with before | last
        · exact legal byte before
        · rw [List.mem_singleton.mp last, isTimestampByte,
            isAsciiDigit_digitByte (Nat.mod_lt _ (by decide))]
          rfl

theorem putFraction_writes {fractionDigits : Nat} (some_digits : 1 ≤ fractionDigits)
    (few : fractionDigits ≤ MAX_FRACTION_DIGITS) (nanos : Nat) :
    ∃ fraction, putFraction fractionDigits nanos = some fraction ∧
      fraction.length = fractionDigits + 1 ∧ ∀ byte ∈ fraction, isTimestampByte byte = true := by
  have whole : 10 ^ (MAX_FRACTION_DIGITS - fractionDigits) * 10 ^ fractionDigits = NANOS_PER_SECOND := by
    rw [← Nat.pow_add, Nat.sub_add_cancel few]
    rfl
  have fits : nanos % NANOS_PER_SECOND / 10 ^ (MAX_FRACTION_DIGITS - fractionDigits) <
      10 ^ fractionDigits := by
    refine Nat.div_lt_of_lt_mul ?_
    rw [whole]
    exact Nat.mod_lt _ (by decide)
  obtain ⟨digits, written, length, legal⟩ := putDigits_writes _ _ fits
  refine ⟨ascii "." ++ digits, ?_, ?_, ?_⟩
  · rw [putFraction, if_neg (Nat.ne_of_gt some_digits)]
    simp only [written, Option.bind_eq_bind, Option.bind_some]
  · rw [List.length_append, length]
    exact Nat.add_comm 1 _
  · intro byte member
    rcases List.mem_append.mp member with point | digit
    · rw [List.mem_singleton.mp point]
      rfl
    · exact legal byte digit

/-- What the two formatters write. -/
structure TimestampText (len : Nat) (text : Bytes) : Prop where
  length : text.length = len
  legal : ∀ byte ∈ text, isTimestampByte byte = true

theorem TimestampText.append {m n : Nat} {one two : Bytes} (first : TimestampText m one)
    (second : TimestampText n two) : TimestampText (m + n) (one ++ two) := by
  refine ⟨by rw [List.length_append, first.length, second.length], fun byte member => ?_⟩
  rcases List.mem_append.mp member with before | after
  · exact first.legal byte before
  · exact second.legal byte after

theorem TimestampText.clean {len : Nat} {text : Bytes} (written : TimestampText len text) :
    SOH ∉ text := by
  intro found
  exact absurd (written.legal SOH found) (by decide)

theorem TimestampText.nonempty {len : Nat} {text : Bytes} (written : TimestampText (len + 1) text) :
    text ≠ [] := by
  rintro rfl
  exact absurd written.length (by simp)

/-- With a fraction of `n` digits, or none. -/
theorem formatUtcTimestamp_writes {dt : DateTime} (inRange : dt.InRange) {len fractionDigits n : Nat}
    (counted : fractionDigitsOf len = some fractionDigits)
    (fraction : ∃ text, putFraction fractionDigits dt.nanosecond = some text ∧ TimestampText n text) :
    ∃ text, formatUtcTimestamp len dt = some text ∧ TimestampText (17 + n) text := by
  obtain ⟨fromEpoch, toLast, month, day, hour, minute, second, nanosecond⟩ := inRange
  obtain ⟨year, isYear⟩ := Int.eq_ofNat_of_zero_le (le_trans (by decide) fromEpoch)
  have leap : dt.nanosecond / NANOS_PER_SECOND ≤ 1 := by
    have small : dt.nanosecond / 10 ^ 9 < 2 := Nat.div_lt_of_lt_mul (by rwa [Nat.mul_comm])
    exact Nat.le_of_lt_succ small
  have added : checkedAdd u32Max dt.second (dt.nanosecond / NANOS_PER_SECOND) =
      some (dt.second + dt.nanosecond / NANOS_PER_SECOND) := by
    have small : dt.second + dt.nanosecond / NANOS_PER_SECOND ≤ 60 := by omega
    exact checkedAdd_eq_some.mpr ⟨rfl, small.trans (by decide)⟩
  have digits : ∀ width value, value < 10 ^ width →
      ∃ text, putDigits width value = some text ∧ TimestampText width text := by
    intro width value fits
    obtain ⟨text, written, length, legal⟩ := putDigits_writes width value fits
    exact ⟨text, written, length, legal⟩
  obtain ⟨yearText, yearWritten, isYearText⟩ := digits 4 year (by omega)
  obtain ⟨monthText, monthWritten, isMonth⟩ := digits 2 dt.month (by omega)
  obtain ⟨dayText, dayWritten, isDay⟩ := digits 2 dt.day (by omega)
  obtain ⟨hourText, hourWritten, isHour⟩ := digits 2 dt.hour (by omega)
  obtain ⟨minuteText, minuteWritten, isMinute⟩ := digits 2 dt.minute (by omega)
  obtain ⟨secondText, secondWritten, isSecond⟩ :=
    digits 2 (dt.second + dt.nanosecond / NANOS_PER_SECOND) (by omega)
  obtain ⟨fractionText, fractionWritten, isFraction⟩ := fraction
  have dash : TimestampText 1 (ascii "-") := ⟨rfl, List.all_eq_true.mp rfl⟩
  have colon : TimestampText 1 (ascii ":") := ⟨rfl, List.all_eq_true.mp rfl⟩
  refine ⟨_, ?_, ((((((((isYearText.append isMonth).append isDay).append dash).append isHour).append
    colon).append isMinute).append colon).append isSecond).append isFraction⟩
  unfold formatUtcTimestamp
  rw [isYear]
  simp only [counted, added, Option.bind_eq_bind, Option.bind_some, Int.toNat?, yearWritten,
    monthWritten, dayWritten, hourWritten, minuteWritten, secondWritten, fractionWritten]

theorem Calendar.formatSeconds_writes (calendar : Calendar) (instant : Timestamp) :
    TimestampText 17 (calendar.formatSeconds instant) := by
  have counted : fractionDigitsOf 17 = some 0 := rfl
  obtain ⟨text, written, shape⟩ := formatUtcTimestamp_writes (calendar.inRange instant) counted
    ⟨[], rfl, rfl, nofun⟩
  unfold formatSeconds formatFixed
  rw [written]
  exact shape

theorem Calendar.formatMillis_writes (calendar : Calendar) (instant : Timestamp) :
    TimestampText 21 (calendar.formatMillis instant) := by
  have counted : fractionDigitsOf 21 = some 3 := rfl
  have few : 3 ≤ MAX_FRACTION_DIGITS := by decide
  obtain ⟨fraction, put, length, legal⟩ := putFraction_writes (by decide) few
    (calendar.toDatetime instant).nanosecond
  obtain ⟨text, written, shape⟩ := formatUtcTimestamp_writes (calendar.inRange instant) counted
    ⟨fraction, put, length, legal⟩
  unfold formatMillis formatFixed
  rw [written]
  exact shape

end IronFix
