import IronFix.TagValue.Decoder

/-!
# The standard header

The header of a decoded message is its leading run of standard-header tags. A
field is in the header by its position, whatever its tag says elsewhere.
-/

namespace IronFix.Session

open Lib.Slice Lib.Decimal IronFix.TagValue

/-- The standard-header tags of FIX 4.0 through 5.0 SP2. -/
def STANDARD_HEADER_TAGS : List Nat :=
  [8, 9, 34, 35, 43, 49, 50, 52, 56, 57, 90, 91, 97, 115, 116, 122, 128, 129, 142, 143, 144, 145,
   212, 213, 347, 369, 370, 627, 628, 629, 630, 1128, 1129, 1156]

def isStandardHeaderTag (tag : Nat) : Bool := STANDARD_HEADER_TAGS.contains tag

/-- `str::parse::<u64>`: digits behind an optional sign, within bounds. -/
def parseU64 (bytes : Bytes) : Option Nat :=
  match bytes with
  | 0x2B :: digits => parseDigits digits.length u64Max digits
  | digits => parseDigits digits.length u64Max digits

/-- How often the part of a message that is read carries a tag. -/
inductive FieldOccurrence where
  | absent
  | once (value : Bytes)
  | repeated
  deriving DecidableEq

section Readers

variable (message : RawMessage)

/-- `RawMessage::get_field`: the first field of the message with the tag. -/
def getField (tag : Nat) : Option FieldRef :=
  message.fields.find? fun field => field.tag == tag

/-- `RawMessage::get_field_str`. -/
def getFieldStr (tag : Nat) : Option Bytes :=
  (getField message tag).bind fun field => if isUtf8 field.value then some field.value else none

/-- The loop of `in_standard_header`. -/
def inHeader (tag : Nat) : List FieldRef → Bool
  | [] => false
  | field :: fields =>
      if !isStandardHeaderTag field.tag then false
      else if field.tag = tag then true
      else inHeader tag fields

/-- Whether `tag` occurs in the standard header. -/
def inStandardHeader (tag : Nat) : Bool := inHeader tag message.fields

/-- The loop of `header_field`. -/
def readHeader (tag : Nat) : FieldOccurrence → List FieldRef → FieldOccurrence
  | found, [] => found
  | found, field :: fields =>
      if !isStandardHeaderTag field.tag then found
      else if field.tag = tag then
        if found ≠ .absent then .repeated else readHeader tag (.once field.value) fields
      else readHeader tag found fields

/-- Reads `tag` from the standard header. -/
def headerField (tag : Nat) : FieldOccurrence := readHeader tag .absent message.fields

/-- Reads MsgSeqNum (34) from the standard header. -/
def headerSeqNum : Option Nat :=
  if inStandardHeader message 34 then (getFieldStr message 34).bind parseU64 else none

end Readers

/-- The standard header of a list of fields. -/
def headerOfFields (fields : List FieldRef) : List FieldRef :=
  fields.takeWhile fun field => isStandardHeaderTag field.tag

/-! ## The header is a prefix -/

section Prefix

variable {field : FieldRef}

theorem headerOfFields_cons (standard : isStandardHeaderTag field.tag = true)
    (fields : List FieldRef) : headerOfFields (field :: fields) = field :: headerOfFields fields := by
  unfold headerOfFields
  rw [List.takeWhile_cons, if_pos standard]

theorem headerOfFields_stop (outside : ¬isStandardHeaderTag field.tag = true)
    (fields : List FieldRef) : headerOfFields (field :: fields) = [] := by
  unfold headerOfFields
  rw [List.takeWhile_cons, if_neg outside]

theorem inHeader_iff (tag : Nat) (fields : List FieldRef) :
    inHeader tag fields = true ↔ ∃ field ∈ headerOfFields fields, field.tag = tag := by
  induction fields with
  | nil => simp [inHeader, headerOfFields]
  | cons field fields ih =>
      unfold inHeader
      by_cases standard : isStandardHeaderTag field.tag = true
      · rw [headerOfFields_cons standard]
        by_cases same : field.tag = tag
        · rw [if_neg (by simp [standard]), if_pos same]
          simp [same]
        · rw [if_neg (by simp [standard]), if_neg same, ih]
          simp [same]
      · rw [headerOfFields_stop standard, if_pos (by simpa using standard)]
        simp

/-- Behind the first occurrence, a second one is a repetition. -/
theorem readHeader_once (tag : Nat) (value : Bytes) (fields : List FieldRef) :
    readHeader tag (.once value) fields =
      match (headerOfFields fields).filter fun field => field.tag = tag with
      | [] => .once value
      | _ => .repeated := by
  induction fields with
  | nil => rfl
  | cons field fields ih =>
      unfold readHeader
      by_cases standard : isStandardHeaderTag field.tag = true
      · rw [headerOfFields_cons standard, if_neg (by simp [standard])]
        by_cases same : field.tag = tag
        · rw [if_pos same]
          simp [same]
        · rw [if_neg same, ih]
          simp [same]
      · rw [headerOfFields_stop standard, if_pos (by simpa using standard)]
        rfl

/-- What the header read finds is what the header carries. -/
theorem readHeader_eq (tag : Nat) (fields : List FieldRef) :
    readHeader tag .absent fields =
      match (headerOfFields fields).filter fun field => field.tag = tag with
      | [] => .absent
      | [field] => .once field.value
      | _ => .repeated := by
  induction fields with
  | nil => rfl
  | cons field fields ih =>
      unfold readHeader
      by_cases standard : isStandardHeaderTag field.tag = true
      · rw [headerOfFields_cons standard, if_neg (by simp [standard])]
        by_cases same : field.tag = tag
        · rw [if_pos same, if_neg (not_not_intro rfl), readHeader_once, List.filter_cons,
            if_pos (by simpa using same)]
          cases (headerOfFields fields).filter fun field => field.tag = tag with
          | nil => rfl
          | cons other others => rfl
        · rw [if_neg same, ih, List.filter_cons, if_neg (by simpa using same)]
      · rw [headerOfFields_stop standard, if_pos (by simpa using standard)]
        rfl

end Prefix

end IronFix.Session
