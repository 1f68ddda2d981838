import IronFix.TagValue.Fetching
import IronFix.Session.StandardHeader

/-!
# The header of a malformed message

A frame whose body does not decode is still sequenced, by a positional read of
its standard header: field by field from its start, up to the first field that
is not in its place or cannot be read.
-/

namespace IronFix.Engine

open Lib.Slice Lib.Decimal IronFix.TagValue IronFix.Session

/-- What a positional read found. -/
structure MalformedHeader where
  seq : Option Nat
  possDup : Bool
  msgType : Option Bytes
  deriving DecidableEq

/-- The DATA tag paired with a standard-header LENGTH tag. -/
def headerDataTag (lengthTag : Nat) : Option Nat :=
  if lengthTag = 90 then some 91 else if lengthTag = 212 then some 213 else none

def parseAsciiU64 (bytes : Bytes) (maxLen : Nat) : Option Nat := parseDigits maxLen u64Max bytes

/-- `u32::try_from`. -/
def u32TryFrom (n : Nat) : Option Nat := if n ≤ u32Max then some n else none

/-- `Y`. -/
def YES : Bytes := [0x59]

/-- A MsgType value, if it is a valid one. -/
def validMsgType (value : Bytes) : Option Bytes :=
  if isUtf8 value then
    match MsgType.new value with
    | .ok _ => some value
    | .error _ => none
  else none

/-- What the scan has noted so far. -/
structure Notes where
  found : MalformedHeader
  seqSeen : Bool
  seqRepeated : Bool
  deriving DecidableEq

namespace Notes

def blank : Notes := ⟨⟨none, false, none⟩, false, false⟩

def note (notes : Notes) (field : FieldRef) : Notes :=
  if field.tag = 35 then
    { notes with found := { notes.found with msgType := validMsgType field.value } }
  else if field.tag = 34 then
    { found := { notes.found with seq := parseAsciiU64 field.value 20 }
      seqSeen := true
      seqRepeated := notes.seqRepeated || notes.seqSeen }
  else if field.tag = 43 then
    { notes with found := { notes.found with possDup := field.value == YES } }
  else notes

/-- A MsgSeqNum that appears twice is unreadable. -/
def header (notes : Notes) : MalformedHeader :=
  if notes.seqRepeated then { notes.found with seq := none } else notes.found

end Notes

structure HeaderScan where
  notes : Notes
  pendingData : Option PendingData
  rest : Bytes
  position : Nat
  deriving DecidableEq

/-- Whether a field may stand at a position of the header. -/
def inPlace (position tag : Nat) : Bool :=
  match position with
  | 0 => tag == 8
  | 1 => tag == 9
  | 2 => tag == 35
  | _ => isStandardHeaderTag tag && !(tag == 8 || tag == 9 || tag == 35)

/-- How many bytes the value of a field takes. -/
def scanLength (pending : Option PendingData) (tag : Nat) (afterEq : Bytes) : Option Nat :=
  match countedBy pending tag with
  | some declared => if afterEq[declared]? = some SOH then some declared else none
  | none => memchr SOH afterEq

/-- The count a header LENGTH field declares for the DATA field behind it. -/
def scanCount (field : FieldRef) : Option (Option PendingData) :=
  match headerDataTag field.tag with
  | none => some none
  | some dataTag => (parseAsciiU64 field.value 9).map fun declared => some ⟨dataTag, declared⟩

namespace HeaderScan

/-- One pass over a field; an error is the `break`, with what was noted. -/
def pass (scan : HeaderScan) : Except HeaderScan HeaderScan := do
  let eq ← okOr (memchr EQUALS scan.rest) scan
  let tag ← okOr ((sliceTo? scan.rest eq).bind fun bytes => (parseAsciiU64 bytes 9).bind u32TryFrom) scan
  let afterEq ← okOr ((checkedAdd usizeMax eq 1).bind (sliceFrom? scan.rest)) scan
  let valueLen ← okOr (scanLength scan.pendingData tag afterEq) scan
  let value ← okOr (sliceTo? afterEq valueLen) scan
  if !inPlace scan.position tag then .error scan
  else
    let noted := { scan with notes := scan.notes.note ⟨tag, value⟩ }
    let pending ← okOr (scanCount ⟨tag, value⟩) noted
    let rest ← okOr ((checkedAdd usizeMax valueLen 1).bind (sliceFrom? afterEq)) noted
    let position ← okOr (checkedAdd usizeMax scan.position 1) noted
    .ok { noted with pendingData := pending, rest := rest, position := position }

/-- The passes up to the first `break`. Every field takes bytes, so the length
of the frame bounds them. -/
def loop : Nat → HeaderScan → HeaderScan
  | 0, scan => scan
  | fuel + 1, scan =>
      match scan.pass with
      | .ok next => loop fuel next
      | .error stopped => stopped

def start (frame : Bytes) : HeaderScan := ⟨.blank, none, frame, 0⟩

end HeaderScan

/-- Reads MsgSeqNum (34), PossDupFlag (43) and MsgType (35) by position. -/
def scanMalformedHeader (frame : Bytes) : MalformedHeader :=
  ((HeaderScan.start frame).loop (frame.length + 1)).notes.header

/-! ## One pass -/

namespace HeaderScan

variable {scan : HeaderScan} {tagText value rest : Bytes} {tag : Nat}

theorem parseAsciiU64_digits {bytes : Bytes} {maxLen n : Nat} (parsed : parseAsciiU64 bytes maxLen = some n) :
    ∀ b ∈ bytes, isAsciiDigit b = true := (parseDigits_eq_some.mp parsed).2.2.1

/-- A field in its place is noted, and the scan goes on behind it. -/
theorem pass_field {pending : Option PendingData} (room : scan.position + scan.rest.length ≤ usizeMax)
    (split : scan.rest = fieldBytes tagText value ++ rest)
    (parsed : (parseAsciiU64 tagText 9).bind u32TryFrom = some tag)
    (framed : FramedBy (countedBy scan.pendingData tag) value)
    (place : inPlace scan.position tag = true) (counts : scanCount ⟨tag, value⟩ = some pending) :
    scan.pass = .ok ⟨scan.notes.note ⟨tag, value⟩, pending, rest, scan.position + 1⟩ := by
  obtain ⟨number, read, -⟩ := Option.bind_eq_some_iff.mp parsed
  have clean : EQUALS ∉ tagText := notMem_of_digits (parseAsciiU64_digits read) rfl
  have shape : scan.rest = tagText ++ EQUALS :: (value ++ SOH :: rest) := by
    rw [split]
    simp [fieldBytes]
  have lengths := congrArg List.length split
  rw [List.length_append, fieldBytes_length] at lengths
  have start : checkedAdd usizeMax tagText.length 1 = some (tagText.length + 1) :=
    checkedAdd_eq_some.mpr ⟨rfl, by omega⟩
  have behind : sliceFrom? (tagText ++ EQUALS :: (value ++ SOH :: rest)) (tagText.length + 1) =
      some (value ++ SOH :: rest) :=
    sliceFrom?_eq_some_iff.mpr ⟨tagText ++ [EQUALS], by simp, by simp⟩
  have takes : scanLength scan.pendingData tag (value ++ SOH :: rest) = some value.length := by
    unfold scanLength
    cases counted : countedBy scan.pendingData tag with
    | none =>
        rw [counted] at framed
        exact memchr_append_cons framed rest
    | some declared =>
        rw [counted] at framed
        rw [← framed]
        exact if_pos (by simp)
  have ends : checkedAdd usizeMax value.length 1 = some (value.length + 1) :=
    checkedAdd_eq_some.mpr ⟨rfl, by omega⟩
  have next : sliceFrom? (value ++ SOH :: rest) (value.length + 1) = some rest :=
    sliceFrom?_eq_some_iff.mpr ⟨value ++ [SOH], by simp, by simp⟩
  have counted : checkedAdd usizeMax scan.position 1 = some (scan.position + 1) :=
    checkedAdd_eq_some.mpr ⟨rfl, by omega⟩
  unfold pass
  simp only [shape, memchr_append_cons clean, okOr_some, sliceTo?_append, Option.bind_some, parsed,
    start, behind, takes, place, Bool.not_true, Bool.false_eq_true, if_false, counts, ends, next,
    counted, bind, Except.bind]

/-- A value the scan delimits. -/
theorem scanLength_framed {pending : Option PendingData} {afterEq : Bytes} {n : Nat}
    (takes : scanLength pending tag afterEq = some n) :
    ∃ value rest, afterEq = value ++ SOH :: rest ∧ value.length = n ∧
      FramedBy (countedBy pending tag) value := by
  unfold scanLength at takes
  cases counted : countedBy pending tag with
  | none =>
      rw [counted] at takes
      obtain ⟨value, rest, split, length, clean⟩ := memchr_eq_some_iff.mp takes
      exact ⟨value, rest, split, length, clean⟩
  | some declared =>
      rw [counted] at takes
      dsimp only at takes
      split at takes
      · rename_i ends
        obtain rfl : declared = n := Option.some.inj takes
        obtain ⟨inside, soh⟩ := List.getElem?_eq_some_iff.mp ends
        refine ⟨afterEq.take declared, afterEq.drop (declared + 1), ?_, ?_, ?_⟩
        · rw [← soh, ← List.drop_eq_getElem_cons inside, List.take_append_drop]
        · exact List.length_take_of_le inside.le
        · exact List.length_take_of_le inside.le
      · cases takes

/-- A header LENGTH field is not one the scan notes. -/
theorem note_length {dataTag : Nat} (paired : headerDataTag tag = some dataTag) (notes : Notes)
    (value : Bytes) : notes.note ⟨tag, value⟩ = notes := by
  unfold headerDataTag at paired
  unfold Notes.note
  by_cases ninety : tag = 90
  · rw [ninety]
    rfl
  · by_cases xml : tag = 212
    · rw [xml]
      rfl
    · rw [if_neg ninety, if_neg xml] at paired
      cases paired

variable (scan) in
/-- A pass stops without an effect, or goes past one field in its place. -/
theorem pass_cases (room : scan.position + scan.rest.length ≤ usizeMax) :
    scan.pass = .error scan ∨
      ∃ tagText value tag rest pending, scan.rest = fieldBytes tagText value ++ rest ∧
        (parseAsciiU64 tagText 9).bind u32TryFrom = some tag ∧
        FramedBy (countedBy scan.pendingData tag) value ∧ inPlace scan.position tag = true ∧
        scanCount ⟨tag, value⟩ = some pending ∧
        scan.pass = .ok ⟨scan.notes.note ⟨tag, value⟩, pending, rest, scan.position + 1⟩ := by
  cases found : memchr EQUALS scan.rest with
  | none =>
      left
      unfold pass
      simp only [found, okOr_none, bind, Except.bind]
  | some eq =>
      obtain ⟨tagText, bytes, split, rfl, clean⟩ := memchr_eq_some_iff.mp found
      cases parsed : (parseAsciiU64 tagText 9).bind u32TryFrom with
      | none =>
          left
          unfold pass
          simp only [split, memchr_append_cons clean, okOr_some, sliceTo?_append, Option.bind_some,
            parsed, okOr_none, bind, Except.bind]
      | some tag =>
          have lengths := congrArg List.length split
          rw [List.length_append, List.length_cons] at lengths
          have start : checkedAdd usizeMax tagText.length 1 = some (tagText.length + 1) :=
            checkedAdd_eq_some.mpr ⟨rfl, by omega⟩
          have behind : sliceFrom? (tagText ++ EQUALS :: bytes) (tagText.length + 1) = some bytes :=
            sliceFrom?_eq_some_iff.mpr ⟨tagText ++ [EQUALS], by simp, by simp⟩
          cases takes : scanLength scan.pendingData tag bytes with
          | none =>
              left
              unfold pass
              simp only [split, memchr_append_cons clean, okOr_some, sliceTo?_append,
                Option.bind_some, parsed, start, behind, takes, okOr_none, bind, Except.bind]
          | some n =>
              obtain ⟨value, rest, rfl, rfl, framed⟩ := scanLength_framed takes
              by_cases place : inPlace scan.position tag = true
              · cases counts : scanCount ⟨tag, value⟩ with
                | none =>
                    left
                    have same : scan.notes.note ⟨tag, value⟩ = scan.notes := by
                      cases paired : headerDataTag tag with
                      | none =>
                          unfold scanCount at counts
                          rw [paired] at counts
                          cases counts
                      | some dataTag => exact note_length paired scan.notes value
                    unfold pass
                    simp only [split, memchr_append_cons clean, okOr_some, sliceTo?_append,
                      Option.bind_some, parsed, start, behind, takes, place, Bool.not_true,
                      Bool.false_eq_true, if_false, counts, okOr_none, bind, Except.bind, same]
                    rw [← split]
                | some pending =>
                    right
                    have shape : scan.rest = fieldBytes tagText value ++ rest := by
                      rw [split]
                      simp [fieldBytes]
                    exact ⟨tagText, value, tag, rest, pending, shape, parsed, framed, place, counts,
                      pass_field room shape parsed framed place counts⟩
              · left
                have out : inPlace scan.position tag = false := by simpa using place
                unfold pass
                simp only [split, memchr_append_cons clean, okOr_some, sliceTo?_append,
                  Option.bind_some, parsed, start, behind, takes, out, Bool.not_false, if_true,
                  bind, Except.bind]

/-- A field out of its place ends the scan, whatever its value is. -/
theorem pass_outside {tail : Bytes} (split : scan.rest = tagText ++ EQUALS :: tail)
    (clean : EQUALS ∉ tagText)
    (outside : ∀ tag, (parseAsciiU64 tagText 9).bind u32TryFrom = some tag →
      inPlace scan.position tag = false) : scan.pass = .error scan := by
  unfold pass
  simp only [split, memchr_append_cons clean, okOr_some, sliceTo?_append, Option.bind_some,
    bind, Except.bind]
  cases parsed : (parseAsciiU64 tagText 9).bind u32TryFrom with
  | none => rfl
  | some tag =>
      dsimp only [okOr_some]
      cases (checkedAdd usizeMax tagText.length 1).bind (sliceFrom? (tagText ++ EQUALS :: tail)) with
      | none => rfl
      | some afterEq =>
          dsimp only [okOr_some]
          cases scanLength scan.pendingData tag afterEq with
          | none => rfl
          | some n =>
              dsimp only [okOr_some]
              cases sliceTo? afterEq n with
              | none => rfl
              | some value =>
                  dsimp only [okOr_some]
                  rw [outside tag parsed]
                  rfl

end HeaderScan

end IronFix.Engine
