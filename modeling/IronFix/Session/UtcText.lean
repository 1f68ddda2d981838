import IronFix.Core.Timestamp
import IronFix.Session.UtcInstant

/-!
# UTCTimestamps read exactly

A text is a UTCTimestamp when its parts are runs of digits of the right length
around the separators. The parser accepts exactly the ones that name an instant
that exists, and what the formatters write is read back.
-/

namespace IronFix.Session

open Lib.Decimal Lib.Gregorian Lib.Slice Lib.Spans

/-- Exactly `width` digits. -/
def IsRun (width : Nat) (bytes : Bytes) : Prop :=
  bytes.length = width ∧ ∀ byte ∈ bytes, isAsciiDigit byte = true

/-- The parts of a UTCTimestamp; the fraction is empty where there is no point. -/
structure UtcText where
  year : Bytes
  month : Bytes
  day : Bytes
  hour : Bytes
  minute : Bytes
  second : Bytes
  fraction : Bytes

namespace UtcText

def pointed (fraction : Bytes) : Bytes := if fraction = [] then [] else 0x2E :: fraction

/-- `YYYYMMDD-HH:MM:SS` and the fraction. -/
def bytes (text : UtcText) : Bytes :=
  text.year ++ (text.month ++ (text.day ++ 0x2D :: (text.hour ++ 0x3A :: (text.minute ++ 0x3A ::
    (text.second ++ pointed text.fraction)))))

structure WellFormed (text : UtcText) : Prop where
  year : IsRun 4 text.year
  month : IsRun 2 text.month
  day : IsRun 2 text.day
  hour : IsRun 2 text.hour
  minute : IsRun 2 text.minute
  second : IsRun 2 text.second
  fraction : text.fraction.length ≤ 9 ∧ ∀ byte ∈ text.fraction, isAsciiDigit byte = true

/-- The instant named exists. -/
def NamesInstant (text : UtcText) : Prop :=
  CivilTime (digitsValue text.year) (digitsValue text.month) (digitsValue text.day)
    (digitsValue text.hour) (digitsValue text.minute) (digitsValue text.second)

/-- Nanoseconds from the epoch to the instant named. -/
def nanos (text : UtcText) : Nat :=
  (dayNumber (digitsValue text.year) (digitsValue text.month) (digitsValue text.day) * 86400 +
      digitsValue text.hour * 3600 + digitsValue text.minute * 60 + digitsValue text.second) *
    10 ^ 9 + digitsValue text.fraction * 10 ^ (9 - text.fraction.length)

end UtcText

/-! ## Runs of digits -/

theorem digitValue_lt {byte : UInt8} (digit : isAsciiDigit byte = true) : digitValue byte < 10 := by
  simp only [isAsciiDigit, Bool.and_eq_true, decide_eq_true_eq, UInt8.le_iff_toNat_le] at digit
  have : (0x39 : UInt8).toNat = 57 := rfl
  unfold digitValue
  omega

theorem digitsValue_append (before after : Bytes) :
    digitsValue (before ++ after) = digitsValue before * 10 ^ after.length + digitsValue after := by
  induction after using List.reverseRecOn with
  | nil => simp [digitsValue]
  | append_singleton after byte ih =>
      have last : ∀ bytes : Bytes,
          digitsValue (bytes ++ [byte]) = digitsValue bytes * 10 + digitValue byte := by
        intro bytes
        unfold digitsValue
        rw [List.foldl_append]
        rfl
      rw [← List.append_assoc, last, last, ih, List.length_append, List.length_singleton, pow_succ]
      ring

theorem digitsValue_lt {bytes : Bytes} (digits : ∀ byte ∈ bytes, isAsciiDigit byte = true) :
    digitsValue bytes < 10 ^ bytes.length := by
  induction bytes using List.reverseRecOn with
  | nil => exact Nat.one_pos
  | append_singleton bytes byte ih =>
      have first := ih (fun other member => digits other (List.mem_append_left _ member))
      have last := digitValue_lt (digits byte (List.mem_append_right _ List.mem_cons_self))
      rw [digitsValue_append, List.length_append, List.length_singleton, pow_succ]
      have one : digitsValue [byte] = digitValue byte := by simp [digitsValue]
      rw [one]
      omega

theorem parseRun_eq_some {bytes : Bytes} {value : Nat} (short : bytes.length ≤ 19) (some_ : bytes ≠ []) :
    parseRun bytes = some value ↔ (∀ byte ∈ bytes, isAsciiDigit byte = true) ∧ digitsValue bytes = value := by
  unfold parseRun
  rw [parseDigits_eq_some]
  constructor
  · rintro ⟨_, _, digits, value, _⟩
    exact ⟨digits, value⟩
  · rintro ⟨digits, rfl⟩
    refine ⟨some_, Nat.le_refl _, digits, rfl, ?_⟩
    have below := digitsValue_lt digits
    have power : (10 : Nat) ^ bytes.length ≤ 10 ^ 19 := Nat.pow_le_pow_right (by decide) short
    have : u64Max = 18446744073709551615 := rfl
    omega

/-- A fraction is read as its milliseconds, what is below them cut. -/
theorem parseFractionMillis_eq_some {fraction : Bytes} {millis : Nat} :
    parseFractionMillis fraction = some millis ↔
      (fraction ≠ [] ∧ fraction.length ≤ 9 ∧ ∀ byte ∈ fraction, isAsciiDigit byte = true) ∧
        digitsValue fraction * 10 ^ (9 - fraction.length) / 10 ^ 6 = millis := by
  have value : fraction ≠ [] → fraction.length ≤ 9 → (∀ byte ∈ fraction, isAsciiDigit byte = true) →
      (List.range 3).foldl (fun millis index => millis * 10 + ((fraction[index]?).map digitValue).getD 0) 0 =
        digitsValue fraction * 10 ^ (9 - fraction.length) / 10 ^ 6 := by
    intro nonempty short digits
    rcases fraction with _ | ⟨one, _ | ⟨two, _ | ⟨three, rest⟩⟩⟩
    · exact absurd rfl nonempty
    · simp [List.range_succ, digitsValue]
      omega
    · simp [List.range_succ, digitsValue]
      omega
    · have below := digitsValue_lt (fun byte member => digits byte
        (List.mem_cons_of_mem _ (List.mem_cons_of_mem _ (List.mem_cons_of_mem _ member))) :
        ∀ byte ∈ rest, isAsciiDigit byte = true)
      have few : rest.length ≤ 6 := by
        simp only [List.length_cons] at short
        omega
      have scale : (10 : Nat) ^ 6 = 10 ^ rest.length * 10 ^ (6 - rest.length) := by
        rw [← pow_add, Nat.add_sub_cancel' few]
      have whole : digitsValue (one :: two :: three :: rest) =
          ((digitValue one * 10 + digitValue two) * 10 + digitValue three) * 10 ^ rest.length +
            digitsValue rest := by
        have split := digitsValue_append [one, two, three] rest
        simpa [digitsValue] using split
      have exponent : 9 - (one :: two :: three :: rest).length = 6 - rest.length := by
        simp only [List.length_cons]
        omega
      have fits : digitsValue rest * 10 ^ (6 - rest.length) < 10 ^ 6 := by
        rw [scale]
        exact Nat.mul_lt_mul_of_pos_right below (by positivity)
      rw [whole, exponent, Nat.add_mul, Nat.mul_assoc, ← scale, Nat.add_comm, Nat.add_mul_div_right _ _
        (by positivity), Nat.div_eq_of_lt fits, Nat.zero_add]
      simp [List.range_succ]
  unfold parseFractionMillis
  by_cases refused : fraction = [] ∨ 9 < fraction.length ∨ !fraction.all isAsciiDigit
  · rw [if_pos refused]
    refine ⟨by rintro ⟨⟩, ?_⟩
    rintro ⟨⟨nonempty, short, digits⟩, _⟩
    rcases refused with empty | long | other
    · exact absurd empty nonempty
    · omega
    · rw [List.all_eq_true.mpr digits] at other
      cases other
  · rw [if_neg refused]
    simp only [not_or, Nat.not_lt, Bool.not_eq_true, Bool.not_eq_false', List.all_eq_true] at refused
    obtain ⟨nonempty, short, digits⟩ := refused
    rw [value nonempty short digits, Option.some.injEq]
    exact ⟨fun same => ⟨⟨nonempty, short, digits⟩, same⟩, And.right⟩

/-! ## Reading -/

theorem fractionOf_pointed {head : Bytes} (seventeen : head.length = 17) (fraction : Bytes) :
    fractionOf (head ++ UtcText.pointed fraction) =
      if fraction = [] then some 0 else parseFractionMillis fraction := by
  unfold fractionOf UtcText.pointed
  by_cases none : fraction = []
  · rw [if_pos none, List.append_nil, List.getElem?_eq_none (Nat.le_of_eq seventeen), if_pos none]
  · have point : (head ++ 0x2E :: fraction)[17]? = some 0x2E := by
      rw [List.getElem?_append_right (Nat.le_of_eq seventeen), seventeen]
      rfl
    have rest : sliceFrom? (head ++ 0x2E :: fraction) 18 = some fraction := by
      refine sliceFrom?_eq_some_iff.mpr ⟨head ++ [0x2E], by simp, ?_⟩
      rw [List.length_append, seventeen]
      rfl
    rw [if_neg none, point]
    simp only [if_true, rest, Option.bind_some, if_neg none]

/-- What may follow the seconds. -/
theorem fractionOf_eq_some {head tail : Bytes} (seventeen : head.length = 17) {millis : Nat} :
    fractionOf (head ++ tail) = some millis ↔ ∃ fraction, tail = UtcText.pointed fraction ∧
      (fraction.length ≤ 9 ∧ ∀ byte ∈ fraction, isAsciiDigit byte = true) ∧
        digitsValue fraction * 10 ^ (9 - fraction.length) / 10 ^ 6 = millis := by
  constructor
  · intro reads
    cases tail with
    | nil =>
        have zero := fractionOf_pointed seventeen []
        rw [show UtcText.pointed [] = [] from rfl, reads, if_pos rfl, Option.some.injEq] at zero
        exact ⟨[], rfl, ⟨by simp, by simp⟩, by rw [zero]; simp [digitsValue]⟩
    | cons point fraction =>
        by_cases isPoint : point = 0x2E
        · subst isPoint
          by_cases none : fraction = []
          · subst none
            unfold fractionOf at reads
            rw [List.getElem?_append_right (Nat.le_of_eq seventeen), seventeen] at reads
            have rest : sliceFrom? (head ++ [0x2E]) 18 = some [] :=
              sliceFrom?_eq_some_iff.mpr ⟨head ++ [0x2E], by simp, by simp [seventeen]⟩
            simp only [Nat.sub_self, List.getElem?_cons_zero, if_true, rest, Option.bind_some] at reads
            exact absurd rfl (parseFractionMillis_eq_some.mp reads).1.1
          · have pointed : UtcText.pointed fraction = 0x2E :: fraction := if_neg none
            rw [← pointed, fractionOf_pointed seventeen, if_neg none, parseFractionMillis_eq_some] at reads
            exact ⟨fraction, pointed.symm, reads.1.2, reads.2⟩
        · unfold fractionOf at reads
          rw [List.getElem?_append_right (Nat.le_of_eq seventeen), seventeen] at reads
          simp only [Nat.sub_self, List.getElem?_cons_zero, if_neg isPoint] at reads
          cases reads
  · rintro ⟨fraction, rfl, ⟨short, digits⟩, value⟩
    rw [fractionOf_pointed seventeen]
    by_cases none : fraction = []
    · rw [if_pos none, ← value, none]
      simp [digitsValue]
    · rw [if_neg none]
      exact parseFractionMillis_eq_some.mpr ⟨⟨none, short, digits⟩, value⟩

/-- A value of at least seventeen bytes, cut at the separators. -/
theorem cut_seventeen {value : Bytes} (long : 17 ≤ value.length) :
    ∃ year month day dash hour one minute two second tail,
      value = year ++ (month ++ (day ++ dash :: (hour ++ one :: (minute ++ two :: (second ++ tail))))) ∧
      year.length = 4 ∧ month.length = 2 ∧ day.length = 2 ∧ hour.length = 2 ∧ minute.length = 2 ∧
        second.length = 2 := by
  have cut : ∀ (a n : Nat), value.drop a = (value.drop a).take n ++ value.drop (a + n) := by
    intro a n
    rw [← List.drop_drop, List.take_append_drop]
  have run : ∀ a n : Nat, a + n ≤ 17 → ((value.drop a).take n).length = n := by
    intro a n inside
    rw [List.length_take, List.length_drop]
    omega
  have byte : ∀ a : Nat, a < 17 → ∃ first, value.drop a = first :: value.drop (a + 1) := by
    intro a inside
    exact ⟨_, List.drop_eq_getElem_cons (Nat.lt_of_lt_of_le inside long)⟩
  obtain ⟨dash, isDash⟩ := byte 8 (by decide)
  obtain ⟨one, isOne⟩ := byte 11 (by decide)
  obtain ⟨two, isTwo⟩ := byte 14 (by decide)
  refine ⟨(value.drop 0).take 4, (value.drop 4).take 2, (value.drop 6).take 2, dash,
    (value.drop 9).take 2, one, (value.drop 12).take 2, two, (value.drop 15).take 2, value.drop 17, ?_,
    run 0 4 (by decide), run 4 2 (by decide), run 6 2 (by decide), run 9 2 (by decide),
    run 12 2 (by decide), run 15 2 (by decide)⟩
  rw [← cut 15 2, ← isTwo, ← cut 12 2, ← isOne, ← cut 9 2, ← isDash, ← cut 6 2, ← cut 4 2, ← cut 0 4,
    List.drop_zero]

section Parts

variable {year month day hour minute second tail : Bytes} {dash one two : UInt8}

/-- The parser on a value cut at the separators. -/
theorem parse_cut (hyear : year.length = 4) (hmonth : month.length = 2) (hday : day.length = 2)
    (hhour : hour.length = 2) (hminute : minute.length = 2) (hsecond : second.length = 2) :
    parseUtcTimestampMillis
        (year ++ (month ++ (day ++ dash :: (hour ++ one :: (minute ++ two :: (second ++ tail)))))) =
      if dash = 0x2D ∧ one = 0x3A ∧ two = 0x3A then do
        let year' ← parseRun year
        let month' ← parseRun month
        let day' ← parseRun day
        let hour' ← parseRun hour
        let minute' ← parseRun minute
        let second' ← parseRun second
        let fractionMillis ← fractionOf
          ((year ++ (month ++ (day ++ dash :: (hour ++ one :: (minute ++ two :: second))))) ++ tail)
        instantMillis year' month' day' hour' minute' second' fractionMillis
      else none := by
  generalize whole : year ++ (month ++ (day ++ dash :: (hour ++ one :: (minute ++ two :: (second ++ tail))))) =
    value
  have length : 17 ≤ value.length := by
    rw [← whole]
    simp only [List.length_append, List.length_cons]
    omega
  have isDash : value[8]? = some dash := by
    simp [← whole, List.getElem?_append, hyear, hmonth, hday]
  have isOne : value[11]? = some one := by
    simp [← whole, List.getElem?_append, hyear, hmonth, hday, hhour]
  have isTwo : value[14]? = some two := by
    simp [← whole, List.getElem?_append, hyear, hmonth, hday, hhour, hminute]
  have isYear : slice? value 0 4 = some year :=
    slice?_eq_some_iff.mpr ⟨[], _, whole.symm, rfl, by rw [hyear]⟩
  have isMonth : slice? value 4 6 = some month :=
    slice?_eq_some_iff.mpr ⟨year, _, by rw [← whole, List.append_assoc], hyear, by rw [hmonth]⟩
  have isDay : slice? value 6 8 = some day :=
    slice?_eq_some_iff.mpr ⟨year ++ month, dash :: (hour ++ one :: (minute ++ two :: (second ++ tail))),
      by simp [← whole], by simp [hyear, hmonth], by rw [hday]⟩
  have isHour : slice? value 9 11 = some hour :=
    slice?_eq_some_iff.mpr ⟨year ++ month ++ day ++ [dash], one :: (minute ++ two :: (second ++ tail)),
      by simp [← whole], by simp [hyear, hmonth, hday], by rw [hhour]⟩
  have isMinute : slice? value 12 14 = some minute :=
    slice?_eq_some_iff.mpr ⟨year ++ month ++ day ++ [dash] ++ hour ++ [one], two :: (second ++ tail),
      by simp [← whole], by simp [hyear, hmonth, hday, hhour], by rw [hminute]⟩
  have isSecond : slice? value 15 17 = some second :=
    slice?_eq_some_iff.mpr ⟨year ++ month ++ day ++ [dash] ++ hour ++ [one] ++ minute ++ [two], tail,
      by simp [← whole], by simp [hyear, hmonth, hday, hhour, hminute], by rw [hsecond]⟩
  have regrouped : (year ++ (month ++ (day ++ dash :: (hour ++ one :: (minute ++ two :: second))))) ++ tail =
      value := by simp [← whole]
  unfold parseUtcTimestampMillis
  rw [regrouped, isDash, isOne, isTwo]
  by_cases separated : dash = 0x2D ∧ one = 0x3A ∧ two = 0x3A
  · obtain ⟨rfl, rfl, rfl⟩ := separated
    have long : ¬value.length < 17 := Nat.not_lt.mpr length
    simp only [long, ne_eq, not_true_eq_false, or_self, if_false, and_self, if_true, isYear, isMonth, isDay,
      isHour, isMinute, isSecond, Option.bind_eq_bind, Option.bind_some]
  · rw [if_neg separated]
    by_cases dashed : dash = 0x2D
    · have refused : some one ≠ some 0x3A ∨ some two ≠ some 0x3A := by
        simp only [ne_eq, Option.some.injEq]
        by_contra both
        simp only [not_or, Decidable.not_not] at both
        exact separated ⟨dashed, both⟩
      have passed : ¬(value.length < 17 ∨ some dash ≠ some 0x2D) := by
        rintro (short | other)
        · omega
        · exact other (congrArg some dashed)
      rw [if_neg passed, if_pos refused]
    · rw [if_pos (.inr (fun same => dashed (Option.some.inj same)))]

end Parts

theorem IsRun.parses {width : Nat} {bytes : Bytes} (run : IsRun width bytes) (some_ : 0 < width)
    (short : width ≤ 19) : parseRun bytes = some (digitsValue bytes) := by
  refine (parseRun_eq_some (run.1.le.trans short) ?_).mpr ⟨run.2, rfl⟩
  rintro rfl
  exact absurd run.1 (Nat.ne_of_lt some_)

/-- The instant of a text is its Gregorian count, cut at the millisecond. -/
theorem UtcText.nanos_millis (text : UtcText) :
    text.nanos / 10 ^ 6 = countMillis (digitsValue text.year) (digitsValue text.month)
      (digitsValue text.day) (digitsValue text.hour) (digitsValue text.minute) (digitsValue text.second)
      (digitsValue text.fraction * 10 ^ (9 - text.fraction.length) / 10 ^ 6) := by
  unfold UtcText.nanos countMillis
  rw [show (10 : Nat) ^ 9 = 1000 * 10 ^ 6 from rfl, ← Nat.mul_assoc, Nat.add_comm,
    Nat.add_mul_div_right _ _ (by positivity), Nat.add_comm]

theorem fractionMillis_lt {fraction : Bytes} (short : fraction.length ≤ 9)
    (digits : ∀ byte ∈ fraction, isAsciiDigit byte = true) :
    digitsValue fraction * 10 ^ (9 - fraction.length) / 10 ^ 6 < 1000 := by
  refine Nat.div_lt_of_lt_mul ?_
  have whole : (10 : Nat) ^ 6 * 1000 = 10 ^ fraction.length * 10 ^ (9 - fraction.length) := by
    rw [← pow_add, Nat.add_sub_cancel' short]
    rfl
  rw [whole]
  exact Nat.mul_lt_mul_of_pos_right (digitsValue_lt digits) (by positivity)

/-- The parser accepts exactly the UTCTimestamps that name an instant that
exists, and answers its milliseconds. -/
theorem parse_eq_some (value : Bytes) (millis : Nat) : parseUtcTimestampMillis value = some millis ↔
    ∃ text : UtcText, text.bytes = value ∧ text.WellFormed ∧ text.NamesInstant ∧
      text.nanos / 10 ^ 6 = millis := by
  constructor
  · intro parses
    have long : 17 ≤ value.length := by
      by_contra short
      unfold parseUtcTimestampMillis at parses
      rw [if_pos (.inl (Nat.not_le.mp short))] at parses
      cases parses
    obtain ⟨year, month, day, dash, hour, one, minute, two, second, tail, rfl, hyear, hmonth, hday, hhour,
      hminute, hsecond⟩ := cut_seventeen long
    rw [parse_cut hyear hmonth hday hhour hminute hsecond] at parses
    split at parses
    · rename_i separated
      obtain ⟨rfl, rfl, rfl⟩ := separated
      have read : ∀ {bytes : Bytes} {width value : Nat}, bytes.length = width → 0 < width → width ≤ 19 →
          parseRun bytes = some value → IsRun width bytes ∧ digitsValue bytes = value := by
        intro bytes width value length some_ short reads
        have nonempty : bytes ≠ [] := by
          rintro rfl
          exact absurd length (Nat.ne_of_lt some_)
        obtain ⟨digits, same⟩ := (parseRun_eq_some (length.le.trans short) nonempty).mp reads
        exact ⟨⟨length, digits⟩, same⟩
      simp only [Option.bind_eq_bind, Option.bind_eq_some_iff] at parses
      obtain ⟨_, isYear, _, isMonth, _, isDay, _, isHour, _, isMinute, _, isSecond, _, isFraction, named⟩ :=
        parses
      obtain ⟨year4, rfl⟩ := read hyear (by decide) (by decide) isYear
      obtain ⟨month2, rfl⟩ := read hmonth (by decide) (by decide) isMonth
      obtain ⟨day2, rfl⟩ := read hday (by decide) (by decide) isDay
      obtain ⟨hour2, rfl⟩ := read hhour (by decide) (by decide) isHour
      obtain ⟨minute2, rfl⟩ := read hminute (by decide) (by decide) isMinute
      obtain ⟨second2, rfl⟩ := read hsecond (by decide) (by decide) isSecond
      have seventeen : (year ++ (month ++ (day ++ (0x2D : UInt8) :: (hour ++ (0x3A : UInt8) ::
          (minute ++ (0x3A : UInt8) :: second))))).length = 17 := by
        simp [hyear, hmonth, hday, hhour, hminute, hsecond]
      obtain ⟨fraction, rfl, ⟨short, digits⟩, rfl⟩ := (fractionOf_eq_some seventeen).mp isFraction
      obtain ⟨there, counted⟩ := (instantMillis_eq_some (fractionMillis_lt short digits)).mp named
      refine ⟨⟨year, month, day, hour, minute, second, fraction⟩, rfl,
        ⟨year4, month2, day2, hour2, minute2, second2, short, digits⟩, there, ?_⟩
      rw [UtcText.nanos_millis]
      exact counted
    · cases parses
  · rintro ⟨text, rfl, wellFormed, there, rfl⟩
    have seventeen : (text.year ++ (text.month ++ (text.day ++ (0x2D : UInt8) :: (text.hour ++ (0x3A : UInt8) ::
        (text.minute ++ (0x3A : UInt8) :: text.second))))).length = 17 := by
      simp [wellFormed.year.1, wellFormed.month.1, wellFormed.day.1, wellFormed.hour.1,
        wellFormed.minute.1, wellFormed.second.1]
    unfold UtcText.bytes
    rw [parse_cut wellFormed.year.1 wellFormed.month.1 wellFormed.day.1 wellFormed.hour.1
      wellFormed.minute.1 wellFormed.second.1, if_pos ⟨rfl, rfl, rfl⟩,
      bind_of_some (wellFormed.year.parses (by decide) (by decide)),
      bind_of_some (wellFormed.month.parses (by decide) (by decide)),
      bind_of_some (wellFormed.day.parses (by decide) (by decide)),
      bind_of_some (wellFormed.hour.parses (by decide) (by decide)),
      bind_of_some (wellFormed.minute.parses (by decide) (by decide)),
      bind_of_some (wellFormed.second.parses (by decide) (by decide)),
      bind_of_some ((fractionOf_eq_some seventeen).mpr ⟨text.fraction, rfl, wellFormed.fraction, rfl⟩),
      UtcText.nanos_millis]
    exact (instantMillis_eq_some (fractionMillis_lt wellFormed.fraction.1 wellFormed.fraction.2)).mpr
      ⟨there, rfl⟩

/-! ## Order -/

/-- The fields of the instant named, the fraction cut at the millisecond. -/
def UtcText.fields (text : UtcText) : List Nat :=
  [digitsValue text.year, digitsValue text.month, digitsValue text.day, digitsValue text.hour,
    digitsValue text.minute, digitsValue text.second,
    digitsValue text.fraction * 10 ^ (9 - text.fraction.length) / 10 ^ 6]

/-- The date a text names. -/
def UtcText.date (text : UtcText) (there : text.NamesInstant) : Date :=
  ⟨digitsValue text.year, digitsValue text.month, digitsValue text.day, there.fromEpoch, there.isMonth,
    there.isDay⟩

/-- Outside leap seconds the milliseconds are ordered as the fields are. -/
theorem UtcText.fields_lt_iff {one two : UtcText} (formed : one.WellFormed) (formed' : two.WellFormed)
    (there : one.NamesInstant) (there' : two.NamesInstant) (second : digitsValue one.second < 60)
    (second' : digitsValue two.second < 60) :
    one.fields < two.fields ↔ one.nanos / 10 ^ 6 < two.nanos / 10 ^ 6 := by
  have horner : ∀ days hour minute second millis : Nat,
      (days * 86400 + hour * 3600 + minute * 60 + second) * 1000 + millis =
        (((days * 24 + hour) * 60 + minute) * 60 + second) * 1000 + millis := by
    intro days hour minute second millis
    ring
  have earlier : (one.date there).number < (two.date there').number ↔ _ := Date.number_lt_iff
  have same : (one.date there).number = (two.date there').number ↔ _ := Date.number_eq_iff
  have hour := there.hour
  have hour' := there'.hour
  have minute := there.minute
  have minute' := there'.minute
  rw [nanos_millis, nanos_millis]
  unfold countMillis
  rw [horner, horner,
    lt_const_iff (fractionMillis_lt formed.fraction.1 formed.fraction.2)
      (fractionMillis_lt formed'.fraction.1 formed'.fraction.2),
    lt_const_iff second second', lt_const_iff (Nat.lt_succ_of_le minute) (Nat.lt_succ_of_le minute'),
    lt_const_iff (Nat.lt_succ_of_le hour) (Nat.lt_succ_of_le hour')]
  unfold Date.number at earlier same
  simp only [UtcText.date] at earlier same
  simp only [UtcText.fields, List.cons_lt_cons_iff, List.not_lt_nil, and_false, or_false]
  rw [earlier, same]
  omega

/-! ## What the formatters write is read back -/

/-- The fields are those of the Gregorian date and the time of day. -/
structure FieldsOf (instant : Timestamp) (dt : DateTime) : Prop where
  date : ∃ date : Date, dt.year = date.year ∧ dt.month = date.month ∧ dt.day = date.day ∧
    date.number = instant.nanosSinceEpoch / 10 ^ 9 / 86400
  hour : dt.hour = instant.nanosSinceEpoch / 10 ^ 9 / 3600 % 24
  minute : dt.minute = instant.nanosSinceEpoch / 10 ^ 9 / 60 % 60
  second : dt.second = instant.nanosSinceEpoch / 10 ^ 9 % 60
  nanosecond : dt.nanosecond = instant.nanosSinceEpoch % 10 ^ 9

/-- The calendar library gives the proleptic Gregorian fields. -/
def IsGregorian (calendar : Calendar) : Prop := ∀ instant, FieldsOf instant (calendar.toDatetime instant)

theorem putDigits_run {width value : Nat} {text : Bytes} (put : putDigits width value = some text) :
    IsRun width text ∧ digitsValue text = value := by
  induction width generalizing value text with
  | zero =>
      unfold putDigits at put
      split at put
      · rename_i zero
        cases put
        exact ⟨⟨rfl, by rintro byte ⟨⟩⟩, zero.symm⟩
      · cases put
  | succ width ih =>
      unfold putDigits at put
      obtain ⟨high, written, rfl⟩ := Option.map_eq_some_iff.mp put
      obtain ⟨⟨length, digits⟩, same⟩ := ih written
      have below : value % 10 < 10 := Nat.mod_lt _ (by decide)
      refine ⟨⟨by rw [List.length_append, length]; rfl, ?_⟩, ?_⟩
      · intro byte member
        rcases List.mem_append.mp member with first | last
        · exact digits byte first
        · rw [List.mem_singleton.mp last]
          exact isAsciiDigit_digitByte below
      · have one : digitsValue [digitByte (value % 10)] = value % 10 := by
          simp [digitsValue, digitValue_digitByte below]
        rw [digitsValue_append, same, one, List.length_singleton, pow_one]
        omega

/-- The fraction written: as many digits as there is room for. -/
theorem putFraction_run {fractionDigits nanos : Nat} {text : Bytes}
    (put : putFraction fractionDigits nanos = some text) :
    ∃ fraction, text = UtcText.pointed fraction ∧ fraction.length = fractionDigits ∧
      (∀ byte ∈ fraction, isAsciiDigit byte = true) ∧
        digitsValue fraction * 10 ^ (9 - fraction.length) =
          nanos % 10 ^ 9 / 10 ^ (9 - fractionDigits) * 10 ^ (9 - fractionDigits) := by
  unfold putFraction at put
  by_cases none : fractionDigits = 0
  · rw [if_pos none] at put
    cases put
    refine ⟨[], rfl, none.symm, nofun, ?_⟩
    rw [none, Nat.sub_zero, Nat.div_eq_of_lt (Nat.mod_lt _ (by decide))]
    simp [digitsValue]
  · rw [if_neg none] at put
    obtain ⟨fraction, written, rfl⟩ : ∃ fraction,
        putDigits fractionDigits (nanos % NANOS_PER_SECOND / 10 ^ (MAX_FRACTION_DIGITS - fractionDigits)) =
          some fraction ∧ ascii "." ++ fraction = text := by
      simpa [Option.bind_eq_some_iff] using put
    obtain ⟨⟨length, digits⟩, value⟩ := putDigits_run written
    have nonempty : fraction ≠ [] := by
      rintro rfl
      exact none length.symm
    refine ⟨fraction, (if_neg nonempty).symm, length, digits, ?_⟩
    rw [value, length]
    rfl

theorem seconds_whole (seconds : Nat) :
    seconds / 86400 * 86400 + seconds / 3600 % 24 * 3600 + seconds / 60 % 60 * 60 + seconds % 60 = seconds := by
  omega

/-- Cutting a count cuts what is below the second. -/
theorem truncated {fractionDigits : Nat} (few : fractionDigits ≤ 9) (nanos : Nat) :
    nanos / 10 ^ (9 - fractionDigits) * 10 ^ (9 - fractionDigits) =
      nanos / 10 ^ 9 * 10 ^ 9 + nanos % 10 ^ 9 / 10 ^ (9 - fractionDigits) * 10 ^ (9 - fractionDigits) := by
  have scale : (10 : Nat) ^ 9 = 10 ^ fractionDigits * 10 ^ (9 - fractionDigits) := by
    rw [← pow_add, Nat.add_sub_cancel' few]
  have positive : 0 < 10 ^ (9 - fractionDigits) := by positivity
  have parts : nanos / 10 ^ (9 - fractionDigits) =
      nanos / 10 ^ 9 * 10 ^ fractionDigits + nanos % 10 ^ 9 / 10 ^ (9 - fractionDigits) := by
    conv_lhs => rw [← Nat.div_add_mod nanos (10 ^ 9)]
    rw [Nat.mul_comm, show nanos / 10 ^ 9 * 10 ^ 9 =
      nanos / 10 ^ 9 * 10 ^ fractionDigits * 10 ^ (9 - fractionDigits) by rw [Nat.mul_assoc, ← scale],
      Nat.add_comm, Nat.add_mul_div_right _ _ positive, Nat.add_comm]
  rw [parts, Nat.add_mul, Nat.mul_assoc, ← scale]

/-- What is written names the instant, cut at its last digit. -/
theorem formatFixed_text {calendar : Calendar} (gregorian : IsGregorian calendar) (instant : Timestamp)
    {len fractionDigits : Nat} (room : fractionDigitsOf len = some fractionDigits)
    (few : fractionDigits ≤ 9) :
    ∃ text : UtcText, text.bytes = calendar.formatFixed len instant ∧ text.WellFormed ∧
      text.NamesInstant ∧ digitsValue text.second < 60 ∧
        text.nanos =
          instant.nanosSinceEpoch / 10 ^ (9 - fractionDigits) * 10 ^ (9 - fractionDigits) := by
  obtain ⟨⟨date, isYear, isMonth, isDay, number⟩, isHour, isMinute, isSecond, isNano⟩ := gregorian instant
  have toLast := (calendar.inRange instant).toLast
  have isText : calendar.formatFixed len instant =
    (formatUtcTimestamp len (calendar.toDatetime instant)).getD [] := rfl
  generalize calendar.toDatetime instant = dt at *
  have digits : ∀ width value, value < 10 ^ width →
      ∃ text, putDigits width value = some text ∧ IsRun width text ∧ digitsValue text = value := by
    intro width value fits
    obtain ⟨text, written, _, _⟩ := putDigits_writes width value fits
    exact ⟨text, written, putDigits_run written⟩
  have month := date.isMonth
  have day := date.isDay
  have longest : monthLength date.year date.month ≤ 31 := by
    unfold monthLength
    split
    · split <;> decide
    all_goals decide
  have whole : dt.nanosecond / NANOS_PER_SECOND = 0 :=
    Nat.div_eq_of_lt (by rw [isNano]; exact Nat.mod_lt _ (by decide))
  have added : checkedAdd u32Max dt.second (dt.nanosecond / NANOS_PER_SECOND) = some dt.second := by
    rw [whole]
    refine checkedAdd_eq_some.mpr ⟨rfl, ?_⟩
    have : u32Max = 4294967295 := rfl
    omega
  obtain ⟨year, yearWritten, year4, yearValue⟩ := digits 4 date.year (by omega)
  obtain ⟨monthText, monthWritten, month2, monthValue⟩ := digits 2 dt.month (by omega)
  obtain ⟨dayText, dayWritten, day2, dayValue⟩ := digits 2 dt.day (by omega)
  obtain ⟨hour, hourWritten, hour2, hourValue⟩ := digits 2 dt.hour (by omega)
  obtain ⟨minute, minuteWritten, minute2, minuteValue⟩ := digits 2 dt.minute (by omega)
  obtain ⟨second, secondWritten, second2, secondValue⟩ := digits 2 dt.second (by omega)
  obtain ⟨written, fractionWritten⟩ : ∃ text, putFraction fractionDigits dt.nanosecond = some text := by
    by_cases none : fractionDigits = 0
    · exact ⟨[], by rw [putFraction, if_pos none]⟩
    · obtain ⟨text, put, _⟩ := putFraction_writes (Nat.pos_of_ne_zero none) few dt.nanosecond
      exact ⟨text, put⟩
  obtain ⟨fraction, rfl, length, fractionRun, fractionValue⟩ := putFraction_run fractionWritten
  refine ⟨⟨year, monthText, dayText, hour, minute, second, fraction⟩, ?_,
    ⟨year4, month2, day2, hour2, minute2, second2, length.le.trans few, fractionRun⟩, ?_,
    by dsimp only; omega, ?_⟩
  · have nonneg : dt.year.toNat? = some date.year := by
      rw [isYear]
      rfl
    have formats : formatUtcTimestamp len dt = some (year ++ monthText ++ dayText ++ ascii "-" ++ hour ++
        ascii ":" ++ minute ++ ascii ":" ++ second ++ UtcText.pointed fraction) := by
      unfold formatUtcTimestamp
      simp only [room, added, nonneg, yearWritten, monthWritten, dayWritten, hourWritten, minuteWritten,
        secondWritten, fractionWritten, Option.bind_eq_bind, Option.bind_some]
    have dash : ascii "-" = [0x2D] := rfl
    have colon : ascii ":" = [0x3A] := rfl
    rw [isText, formats, dash, colon]
    simp [UtcText.bytes]
  · refine ⟨?_, ?_, ?_, ?_, ?_, ?_, ?_⟩
    · rw [yearValue]
      exact date.fromEpoch
    · dsimp only
      omega
    · rw [monthValue, isMonth]
      exact month
    · rw [dayValue, yearValue, monthValue, isDay, isMonth]
      exact day
    · dsimp only
      omega
    · dsimp only
      omega
    · dsimp only
      omega
  · unfold UtcText.nanos
    dsimp only
    rw [yearValue, monthValue, dayValue, hourValue, minuteValue, secondValue, fractionValue, isMonth, isDay,
      isHour, isMinute, isSecond, isNano]
    rw [show dayNumber date.year date.month date.day = instant.nanosSinceEpoch / 10 ^ 9 / 86400 from number,
      seconds_whole, Nat.mod_mod, ← truncated few]

/-- What is written is read as the instant, cut at its last digit. -/
theorem parse_formatFixed {calendar : Calendar} (gregorian : IsGregorian calendar) (instant : Timestamp)
    {len fractionDigits : Nat} (room : fractionDigitsOf len = some fractionDigits)
    (few : fractionDigits ≤ 9) :
    parseUtcTimestampMillis (calendar.formatFixed len instant) =
      some (instant.nanosSinceEpoch / 10 ^ (9 - fractionDigits) * 10 ^ (9 - fractionDigits) / 10 ^ 6) := by
  obtain ⟨text, written, formed, there, _, nanos⟩ := formatFixed_text gregorian instant room few
  exact (parse_eq_some _ _).mpr ⟨text, written, formed, there, by rw [nanos]⟩

/-- UTCTimestamps round trip and are read exactly. A timestamp written in
milliseconds or microseconds is read as its milliseconds, and in seconds as
these floored to the second. The parser accepts exactly the texts that name an
instant that exists, and answers its milliseconds. Outside leap seconds these
are ordered as the instants are, cut at the millisecond. -/
theorem utc_timestamps_exact (calendar : Calendar) (gregorian : IsGregorian calendar) :
    (∀ instant, parseUtcTimestampMillis (calendar.formatMillis instant) = some instant.asMillis ∧
      parseUtcTimestampMillis (calendar.formatMicros instant) = some instant.asMillis ∧
      parseUtcTimestampMillis (calendar.formatSeconds instant) = some (instant.asMillis / 1000 * 1000)) ∧
    (∀ value millis, parseUtcTimestampMillis value = some millis ↔
      ∃ text : UtcText, text.bytes = value ∧ text.WellFormed ∧ text.NamesInstant ∧
        text.nanos / 10 ^ 6 = millis) ∧
    (∀ one two : UtcText, one.WellFormed → two.WellFormed → one.NamesInstant → two.NamesInstant →
      digitsValue one.second < 60 → digitsValue two.second < 60 →
        ∃ millis millis', parseUtcTimestampMillis one.bytes = some millis ∧
          parseUtcTimestampMillis two.bytes = some millis' ∧ (one.fields < two.fields ↔ millis < millis')) := by
  refine ⟨?_, parse_eq_some, ?_⟩
  · intro instant
    have millis := parse_formatFixed gregorian instant (show fractionDigitsOf 21 = some 3 from rfl) (by decide)
    have micros := parse_formatFixed gregorian instant (show fractionDigitsOf 24 = some 6 from rfl) (by decide)
    have seconds := parse_formatFixed gregorian instant (show fractionDigitsOf 17 = some 0 from rfl) (by decide)
    refine ⟨millis.trans ?_, micros.trans ?_, seconds.trans ?_⟩
    · unfold Timestamp.asMillis
      norm_num
    · unfold Timestamp.asMillis
      norm_num
      omega
    · unfold Timestamp.asMillis
      norm_num
      omega
  · intro one two formed formed' there there' second second'
    exact ⟨_, _, (parse_eq_some _ _).mpr ⟨one, rfl, formed, there, rfl⟩,
      (parse_eq_some _ _).mpr ⟨two, rfl, formed', there', rfl⟩,
      UtcText.fields_lt_iff formed formed' there there' second second'⟩

/-- The calendar library on the proleptic Gregorian calendar. -/
def gregorianCalendar : Calendar where
  toDatetime instant :=
    let seconds := instant.nanosSinceEpoch / 10 ^ 9
    let (year, month, day) := dateOf (seconds / 86400)
    ⟨year, month, day, seconds / 3600 % 24, seconds / 60 % 60, seconds % 60,
      instant.nanosSinceEpoch % 10 ^ 9⟩
  inRange instant := by
    obtain ⟨date, isDate, number⟩ := dateOf_spec (instant.nanosSinceEpoch / 10 ^ 9 / 86400)
    simp only [isDate]
    have bounded := instant.bounded
    have month := date.isMonth
    have day := date.isDay
    have years := daysBeforeYear_eq date.fromEpoch
    have longest : monthLength date.year date.month ≤ 31 := by
      unfold monthLength
      split
      · split <;> decide
      all_goals decide
    have until2262 : date.year ≤ 2262 := by
      unfold Date.number dayNumber at number
      have : MAX_NANOS = 9223372036854775807 := rfl
      omega
    refine ⟨?_, ?_, month.2, ?_, ?_, ?_, ?_, ?_⟩
    · exact Int.ofNat_le.mpr date.fromEpoch
    · exact Int.ofNat_le.mpr until2262
    · exact day.2.trans longest
    · dsimp only
      omega
    · dsimp only
      omega
    · dsimp only
      omega
    · dsimp only
      omega

theorem gregorianCalendar_isGregorian : IsGregorian gregorianCalendar := by
  intro instant
  obtain ⟨date, isDate, number⟩ := dateOf_spec (instant.nanosSinceEpoch / 10 ^ 9 / 86400)
  unfold gregorianCalendar
  simp only [isDate]
  exact ⟨⟨date, rfl, rfl, rfl, number⟩, rfl, rfl, rfl, rfl⟩

/-- 2024-02-29T12:34:56.789012345Z, in milliseconds. -/
theorem utc_timestamps_exact_leap_day :
    parseUtcTimestampMillis (gregorianCalendar.formatMillis ⟨1709210096789012345, by decide⟩) =
      some 1709210096789 :=
  have bounded : 1709210096789012345 ≤ MAX_NANOS := by decide
  ((utc_timestamps_exact gregorianCalendar gregorianCalendar_isGregorian).1 ⟨_, bounded⟩).1.trans
    (congrArg some (show 1709210096789012345 / 1000000 = 1709210096789 by norm_num))

/-- The first second of the epoch, with a fraction. -/
def inFirstSecond (fraction : Bytes) : UtcText :=
  ⟨ascii "1970", ascii "01", ascii "01", ascii "00", ascii "00", ascii "00", fraction⟩

/-- Two instants a tenth of a millisecond apart are read as one. -/
theorem below_millisecond_cut :
    (inFirstSecond (ascii "0001")).nanos < (inFirstSecond (ascii "0002")).nanos ∧
      parseUtcTimestampMillis (inFirstSecond (ascii "0001")).bytes = some 0 ∧
      parseUtcTimestampMillis (inFirstSecond (ascii "0002")).bytes = some 0 := by
  decide +kernel

end IronFix.Session
