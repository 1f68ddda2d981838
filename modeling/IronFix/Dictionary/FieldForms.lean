import IronFix.Dictionary.Schema

/-!
# The form of a value

The wire form each field type admits. A form says nothing of a calendar, an
enumeration or a registry; types of free text admit any value. A text that
must be of ASCII digits or letters is checked character by character.
-/

namespace IronFix.Dict

/-- The parts of a text between the separators. -/
def splitOn (separator : Char) : List Char → List (List Char)
  | [] => [[]]
  | c :: rest =>
      if c = separator then [] :: splitOn separator rest
      else
        match splitOn separator rest with
        | [] => [[c]]
        | part :: parts => (c :: part) :: parts

/-- What lies before and behind the first separator. -/
def splitOnce (separator : Char) : List Char → Option (List Char × List Char)
  | [] => none
  | c :: rest =>
      if c = separator then some ([], rest)
      else (splitOnce separator rest).map fun (before, behind) => (c :: before, behind)

/-- The digits of a value behind an optional sign. -/
def unsigned : List Char → List Char
  | '-' :: rest => rest
  | value => value

def isInteger (value : List Char) (allowSign : Bool) : Bool :=
  let digits := unsigned value
  (allowSign || digits.length == value.length) && !digits.isEmpty && digits.all Char.isDigit

/-- The number a run of digits stands for. -/
def integerValue (digits : List Char) : Nat :=
  digits.foldl (fun value digit => value * 10 + (digit.toNat - '0'.toNat)) 0

def isDecimal (value : List Char) : Bool :=
  let body := unsigned value
  body.all (fun c => c.isDigit || c == '.') && body.any Char.isDigit &&
    (body.filter (· == '.')).length ≤ 1

def isMultiValueList (value : List Char) (tokenLen : Option Nat) : Bool :=
  (splitOn ' ' value).all fun token =>
    !token.isEmpty && (tokenLen.isNone || tokenLen == some token.length)

def isAlphaOfLen (value : List Char) (len : Nat) : Bool :=
  value.length == len && value.all Char.isAlpha

def isDigitsOfLen (value : List Char) (len : Nat) : Bool :=
  value.length == len && value.all Char.isDigit

/-- `YYYYMM`, `YYYYMMDD` or `YYYYMMww`. -/
def isMonthYear (value : List Char) : Bool :=
  isDigitsOfLen value 6 || isDigitsOfLen value 8 ||
    isDigitsOfLen (value.take 6) 6 &&
      match value.drop 6 with
      | ['w', week] => '1' ≤ week && week ≤ '5'
      | _ => false

/-- `HH:MM:SS`, with a fraction of 1 to 12 digits or none. -/
def isTimeOfDay (value : List Char) : Bool :=
  let (clock, fraction) := match splitOnce '.' value with
    | some (clock, fraction) => (clock, some fraction)
    | none => (value, none)
  (match fraction with
    | some fraction => 1 ≤ fraction.length && fraction.length ≤ 12 && fraction.all Char.isDigit
    | none => true) &&
  let parts := splitOn ':' clock
  parts.length == 3 && parts.all (isDigitsOfLen · 2)

namespace FieldType

def isMultiValue (fieldType : FieldType) : Bool :=
  fieldType = multipleCharValue || fieldType = multipleStringValue

/-- Whether `value` has the form the type admits on the wire. -/
def isValidValue (fieldType : FieldType) (value : String) : Bool :=
  let chars := value.toList
  match fieldType with
  | int => isInteger chars true
  | length | seqNum | numInGroup | tagNum => isInteger chars false
  | dayOfMonth =>
      isInteger chars false && 1 ≤ integerValue chars && integerValue chars ≤ 31
  | float | qty | price | priceOffset | amt | percentage => isDecimal chars
  | char => chars.length == 1
  | boolean => value == "Y" || value == "N"
  | multipleCharValue => isMultiValueList chars (some 1)
  | multipleStringValue => isMultiValueList chars none
  | country => isAlphaOfLen chars 2
  | currency => isAlphaOfLen chars 3
  | monthYear => isMonthYear chars
  | utcDateOnly | localMktDate => isDigitsOfLen chars 8
  | utcTimeOnly => isTimeOfDay chars
  | utcTimestamp =>
      match splitOnce '-' chars with
      | some (date, time) => isDigitsOfLen date 8 && isTimeOfDay time
      | none => false
  | string | exchange | localMktTime | tzTimeOnly | tzTimestamp | data | xmlData | language
  | pattern | tenor | reserved => true

end FieldType

end IronFix.Dict
