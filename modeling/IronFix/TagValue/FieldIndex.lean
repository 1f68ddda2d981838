import IronFix.TagValue.Fields

/-!
# The field index

`decode_into` runs the decode loop into a caller's index of bounded capacity,
which holds a span for each field where `decode` holds the field itself.
-/

namespace IronFix.TagValue

open Lib.Slice Lib.Decimal Lib.Steps

/-- One decoded field: its tag and the range of its value in the frame. -/
structure FieldSpan where
  tag : Nat
  range : Span
  deriving DecidableEq, Repr

structure FieldIndex where
  spans : List FieldSpan
  capacity : Nat
  deriving DecidableEq, Repr

namespace FieldIndex

def withCapacity (capacity : Nat) : FieldIndex := ⟨[], capacity⟩

def clear (index : FieldIndex) : FieldIndex := { index with spans := [] }

/-- Appends a span, refusing to grow past the capacity. -/
def push (tag : Nat) (value : Span) (index : FieldIndex) : Except DecodeError FieldIndex :=
  if index.spans.length ≥ index.capacity then .error (.tooManyFields index.capacity)
  else .ok { index with spans := index.spans ++ [⟨tag, value⟩] }

end FieldIndex

/-- A message decoded into an index: the frame and the spans that describe it. -/
structure IndexedMessage where
  buffer : Bytes
  index : FieldIndex
  msgType : MsgType
  beginString : Span
  body : Span
  deriving DecidableEq

namespace IndexedMessage

/-- The field of a span, if it fits the frame. -/
def resolve (message : IndexedMessage) (span : FieldSpan) : Option FieldRef :=
  (slice? message.buffer span.range.start span.range.stop).map fun value => ⟨span.tag, value⟩

def fields (message : IndexedMessage) : List FieldRef :=
  message.index.spans.filterMap message.resolve

end IndexedMessage

/-- A step of the decoder and the index it fills; both keep what they reached
when a step fails. -/
abbrev Indexing := EStateM DecodeError (Decoder × FieldIndex)

namespace Decoder

/-- A step of the decoder alone. -/
def alone {α : Type} (step : Decode α) : Indexing α := fun (decoder, index) =>
  match step decoder with
  | .ok a decoder => .ok a (decoder, index)
  | .error error decoder => .error error (decoder, index)

@[simp] theorem alone_apply {α : Type} (step : Decode α) (decoder : Decoder) (index : FieldIndex) :
    alone step (decoder, index) =
      match step decoder with
      | .ok a decoder => .ok a (decoder, index)
      | .error error decoder => .error error (decoder, index) := rfl

/-- `FieldSink::push` of the index: the range is computed first. -/
def pushSpan (field : FieldRef) (range : Except DecodeError Span) : Indexing Unit := do
  let range ← orThrow range
  let (decoder, index) ← get
  let index ← orThrow (index.push field.tag range)
  set (decoder, index)

theorem pushSpan_apply (field : FieldRef) (range : Span) (decoder : Decoder) (index : FieldIndex) :
    pushSpan field (.ok range) (decoder, index) =
      match index.push field.tag range with
      | .ok index => .ok () (decoder, index)
      | .error error => .error error (decoder, index) := by
  unfold pushSpan
  simp only [bind_apply, orThrow_ok, get_apply, set_apply]
  cases index.push field.tag range with
  | ok index => rfl
  | error error => rfl

/-- `decode_frame` between the header and the other fields. -/
def decodeMsgType (limit : Option Nat) : Decode (FieldRef × MsgType) := do
  let msgTypeField ← orFail (← nextFieldBounded limit) .missingMsgType
  ensure (msgTypeField.tag = 35) .missingMsgType
  ensure (isUtf8 msgTypeField.value) .invalidUtf8
  let msgType ← orThrow ((MsgType.new msgTypeField.value).mapError .invalidMsgType)
  pure (msgTypeField, msgType)

/-- `decode_frame` behind the other fields: the trailer, and the frame. -/
def finishFrame (startOffset : Nat) (header : Header) (msgType : MsgType)
    (checksum : Option FieldRef) (checksumStart : Nat) : Decode Frame := do
  let checksumField ← orFail checksum .incomplete
  ensure (header.bodyEnd = checksumStart) .invalidBodyLength
  let decoder ← get
  orThrow (if decoder.validateChecksum then
    decoder.verifyChecksum startOffset checksumStart checksumField else .ok ())
  let body ← orThrow (rebase ⟨header.bodyStart, header.bodyEnd⟩ startOffset decoder.input.length)
  let buffer ← orFail (slice? decoder.input startOffset decoder.offset)
    (.rangeOutOfBounds startOffset decoder.offset decoder.input.length)
  pure ⟨buffer, header.beginString, body, msgType⟩

/-- The loop over the fields up to the CheckSum, into the index. -/
def indexFields (startOffset : Nat) (limit : Option Nat) :
    Nat → Nat → Indexing (Option FieldRef × Nat)
  | 0, start => pure (none, start)
  | fuel + 1, start => do
      let fieldStart := (← get).1.offset
      match ← alone (nextFieldBounded limit) with
      | none => pure (none, start)
      | some field =>
          if field.tag = 10 then pure (some field, fieldStart)
          else do
            pushSpan field ((← get).1.valueRange startOffset field.value.length)
            indexFields startOffset limit fuel start

/-- The decode of one message into the index. -/
def indexFrame : Indexing Frame := do
  let startOffset := (← get).1.offset
  alone (modify fun decoder => { decoder with pendingData := none })
  let header ← alone (decodeHeader startOffset)
  let bodyLengthRange :=
    (← get).1.valueRange startOffset header.bodyLengthField.value.length
  let limit := some header.bodyEnd
  let (msgTypeField, msgType) ← alone (decodeMsgType limit)
  pushSpan header.beginStringField (.ok header.beginString)
  pushSpan header.bodyLengthField bodyLengthRange
  pushSpan msgTypeField ((← get).1.valueRange startOffset msgTypeField.value.length)
  let decoder := (← get).1
  let (checksum, checksumStart) ←
    indexFields startOffset limit (decoder.input.length + 1) decoder.offset
  alone (finishFrame startOffset header msgType checksum checksumStart)

/-- Decodes a complete message into a caller's index. -/
def decodeInto : Indexing IndexedMessage := do
  modify fun (decoder, index) => (decoder, index.clear)
  let frame ← indexFrame
  let (_, index) ← get
  pure ⟨frame.buffer, index, frame.msgType, frame.beginString, frame.body⟩

/-! ## What a decode takes in -/

/-- The fields the loop reads before the CheckSum, an error or the end. -/
def metFields (limit : Option Nat) : Nat → Decoder → Nat
  | 0, _ => 0
  | fuel + 1, decoder =>
      match nextFieldBounded limit decoder with
      | .ok (some field) after => if field.tag = 10 then 0 else metFields limit fuel after + 1
      | .ok none _ => 0
      | .error _ _ => 0

/-- The decoder behind MsgType, if it gets there. -/
def openBody (decoder : Decoder) : EStateM.Result DecodeError Decoder (Header × FieldRef × MsgType) :=
  (do
    let header ← decodeHeader decoder.offset
    let opening ← decodeMsgType (some header.bodyEnd)
    pure (header, opening) : Decode (Header × FieldRef × MsgType))
    { decoder with pendingData := none }

/-- The fields a decode takes in, the CheckSum excluded: none until MsgType (35)
is read, then all up to the first error. -/
def fieldsMet (decoder : Decoder) : Nat :=
  match decoder.openBody with
  | .error _ _ => 0
  | .ok (header, _) after => 3 + metFields (some header.bodyEnd) (after.input.length + 1) after

/-! ## The two loops -/

/-- The loop of `decode` behind MsgType, and the frame. -/
def collectFrame (startOffset : Nat) (header : Header) (msgTypeField : FieldRef) (msgType : MsgType) :
    Decode (Frame × List FieldRef) := do
  let decoder ← get
  let collected ← collectFields (some header.bodyEnd) (decoder.input.length + 1)
    [header.beginStringField, header.bodyLengthField, msgTypeField] decoder.offset
  let frame ← finishFrame startOffset header msgType collected.checksum collected.checksumStart
  pure (frame, collected.fields)

theorem decodeBody_eq (startOffset : Nat) (header : Header) :
    decodeBody startOffset header = (do
      let (msgTypeField, msgType) ← decodeMsgType (some header.bodyEnd)
      collectFrame startOffset header msgTypeField msgType) := by
  unfold decodeBody decodeMsgType collectFrame finishFrame
  simp only [bind_assoc, pure_bind]

/-- `decode_frame` into a list, by its parts. -/
theorem decodeFrame_eq (decoder : Decoder) :
    decodeFrame decoder =
      match decoder.openBody with
      | .error error after => .error error after
      | .ok (header, msgTypeField, msgType) after =>
          collectFrame decoder.offset header msgTypeField msgType after := by
  unfold decodeFrame openBody
  simp only [decodeBody_eq, bind_apply, get_apply, modify_apply, pure_apply]
  cases decodeHeader decoder.offset { decoder with pendingData := none } with
  | error error after => rfl
  | ok header after =>
      dsimp only
      cases decodeMsgType (some header.bodyEnd) after with
      | error error after => rfl
      | ok opening after => rfl

/-! ## Where the fields are -/

/-- A span of the frame from `base` that holds the value of a field, read before `upTo`. -/
structure Located (input : Bytes) (base upTo : Nat) (field : FieldRef) (entry : FieldSpan) : Prop where
  tag : entry.tag = field.tag
  within : base + entry.range.stop < upTo
  bytes : slice? input (base + entry.range.start) (base + entry.range.stop) = some field.value

variable {s after : Decoder} {limit : Option Nat} {base : Nat}

theorem Located.later {input : Bytes} {upTo farther : Nat} {field : FieldRef} {entry : FieldSpan}
    (located : Located input base upTo field entry) (onward : upTo ≤ farther) :
    Located input base farther field entry :=
  ⟨located.tag, located.within.trans_le onward, located.bytes⟩

theorem Located.ordered {input : Bytes} {upTo : Nat} {field : FieldRef} {entry : FieldSpan}
    (located : Located input base upTo field entry) : entry.range.start ≤ entry.range.stop := by
  obtain ⟨_, _, -, -, ends⟩ := slice?_eq_some_iff.mp located.bytes
  omega

/-- A field that was read lies before the offset reached, and its range is there. -/
theorem read_located {field : FieldRef} (room : s.input.length ≤ usizeMax)
    (inside : s.offset ≤ s.input.length) (onward : base ≤ s.offset)
    (read : nextFieldBounded limit s = .ok (some field) after) :
    after.input = s.input ∧ s.offset < after.offset ∧ after.offset ≤ s.input.length ∧
      ∃ range, after.valueRange base field.value.length = .ok range ∧
        Located s.input base after.offset field ⟨field.tag, range⟩ := by
  cases reads room inside limit with
  | nothing _ result =>
      rw [result] at read
      cases read
  | fails _ _ result =>
      rw [result] at read
      cases read
  | field tagText value rest tag reached split _ result moved =>
      rw [result] at read
      cases read
      obtain ⟨pending, rfl⟩ := moved
      have lengths := congrArg List.length split
      rw [List.length_drop, List.length_append, fieldBytes_length] at lengths
      have landed : (s.past (fieldBytes tagText value).length pending).offset =
          s.offset + (tagText.length + value.length + 2) := by
        rw [← fieldBytes_length]
        rfl
      refine ⟨rfl, by rw [landed]; omega, by rw [landed]; omega,
        ⟨s.offset + tagText.length + 1 - base, s.offset + tagText.length + 1 + value.length - base⟩,
        ?_, rfl, ?_, ?_⟩
      · unfold valueRange rebase
        rw [landed]
        dsimp only
        rw [if_neg (by omega), if_neg (by omega), if_neg (by omega), if_neg (by omega)]
        congr 2 <;> omega
      · rw [landed]
        dsimp only
        omega
      · refine slice?_eq_some_iff.mpr
          ⟨s.input.take s.offset ++ tagText ++ [EQUALS], SOH :: rest, ?_, ?_, ?_⟩
        · conv_lhs => rw [← List.take_append_drop s.offset s.input, split]
          simp [fieldBytes]
        · simp only [List.length_append, List.length_take, List.length_singleton]
          omega
        · dsimp only
          omega

/-- The header leaves the decoder at the body, its two fields behind. -/
theorem decodeHeader_located {header : Header} (room : s.input.length ≤ usizeMax)
    (inside : s.offset ≤ s.input.length)
    (read : decodeHeader s.offset s = .ok header after) :
    after.input = s.input ∧ s.offset ≤ after.offset ∧ after.offset ≤ s.input.length ∧
      header.bodyStart = after.offset ∧ header.bodyStart ≤ header.bodyEnd ∧
      header.beginString.start ≤ header.beginString.stop ∧
      Located s.input s.offset after.offset header.beginStringField
        ⟨header.beginStringField.tag, header.beginString⟩ ∧
      ∃ range, after.valueRange s.offset header.bodyLengthField.value.length = .ok range ∧
        Located s.input s.offset after.offset header.bodyLengthField
          ⟨header.bodyLengthField.tag, range⟩ := by
  obtain ⟨found, first, readFirst, rest⟩ := bind_eq_ok.mp read
  obtain ⟨begins, rfl, rest⟩ := orFail_bind_eq_ok.mp rest
  obtain ⟨-, rest⟩ := ensure_bind_eq_ok.mp rest
  obtain ⟨beginString, firstRange, rest⟩ := orThrow_bind_eq_ok.mp (get_bind_eq_ok.mp rest)
  obtain ⟨found, second, readSecond, rest⟩ := bind_eq_ok.mp rest
  obtain ⟨counts, rfl, rest⟩ := orFail_bind_eq_ok.mp rest
  obtain ⟨-, rest⟩ := ensure_bind_eq_ok.mp rest
  obtain ⟨bodyLength, -, rest⟩ := orFail_bind_eq_ok.mp rest
  obtain ⟨-, -, rest⟩ := orThrow_bind_eq_ok.mp (get_bind_eq_ok.mp rest)
  obtain ⟨bodyEnd, ends, rest⟩ := orFail_bind_eq_ok.mp (get_bind_eq_ok.mp rest)
  cases rest
  obtain ⟨input, moved, reached, range, same, located⟩ :=
    read_located room inside (le_refl _) readFirst
  rw [firstRange] at same
  cases same
  obtain ⟨input', moved', reached', range', same', located'⟩ :=
    read_located (by rw [input]; exact room) (by rw [input]; exact reached) moved.le readSecond
  obtain ⟨sum, -⟩ := checkedAdd_eq_some.mp ends
  refine ⟨input'.trans input, (moved.trans moved').le, ?_, rfl, ?_, ?_, located.later moved'.le,
    range', same', ?_⟩
  · rw [← input]
    exact reached'
  · exact Nat.le.intro sum
  · exact located.ordered
  · rw [← input]
    exact located'

/-- `openBody` by its parts. -/
theorem openBody_ok {header : Header} {msgTypeField : FieldRef} {msgType : MsgType}
    (opens : s.openBody = .ok (header, msgTypeField, msgType) after) :
    ∃ headed, decodeHeader s.offset { s with pendingData := none } = .ok header headed ∧
      decodeMsgType (some header.bodyEnd) headed = .ok (msgTypeField, msgType) after := by
  obtain ⟨found, headed, first, rest⟩ := bind_eq_ok.mp opens
  obtain ⟨opening, reached, second, rest⟩ := bind_eq_ok.mp rest
  cases rest
  exact ⟨headed, first, second⟩

/-- The MsgType field is the next one read. -/
theorem decodeMsgType_read {msgTypeField : FieldRef} {msgType : MsgType}
    (read : decodeMsgType limit s = .ok (msgTypeField, msgType) after) :
    nextFieldBounded limit s = .ok (some msgTypeField) after := by
  obtain ⟨found, reached, first, rest⟩ := bind_eq_ok.mp read
  obtain ⟨field, rfl, rest⟩ := orFail_bind_eq_ok.mp rest
  obtain ⟨-, rest⟩ := ensure_bind_eq_ok.mp rest
  obtain ⟨-, rest⟩ := ensure_bind_eq_ok.mp rest
  obtain ⟨code, -, rest⟩ := orThrow_bind_eq_ok.mp rest
  cases rest
  exact first

/-- A decode that does not reach MsgType leaves the index as it was. -/
theorem indexFrame_closed {error : DecodeError} (index : FieldIndex)
    (closed : s.openBody = .error error after) :
    indexFrame (s, index) = .error error (after, index) := by
  unfold openBody at closed
  unfold indexFrame
  simp only [bind_apply, get_apply, modify_apply, pure_apply, alone_apply] at closed ⊢
  cases first : decodeHeader s.offset { s with pendingData := none } with
  | error error' headed =>
      rw [first] at closed
      cases closed
      rfl
  | ok header headed =>
      rw [first] at closed
      dsimp only at closed ⊢
      cases second : decodeMsgType (some header.bodyEnd) headed with
      | error error' reached =>
          rw [second] at closed
          cases closed
          rw [alone_apply, second]
      | ok opening reached =>
          rw [second] at closed
          cases closed

/-- What the index takes in first. -/
structure Opened (s after : Decoder) (header : Header) (msgTypeField : FieldRef)
    (lengthRange typeRange : Span) : Prop where
  input : after.input = s.input
  onward : s.offset ≤ after.offset
  inside : after.offset ≤ s.input.length
  start : s.offset ≤ header.bodyStart
  ends : header.bodyStart ≤ header.bodyEnd
  begins : Located s.input s.offset after.offset header.beginStringField
    ⟨header.beginStringField.tag, header.beginString⟩
  counts : Located s.input s.offset after.offset header.bodyLengthField
    ⟨header.bodyLengthField.tag, lengthRange⟩
  types : Located s.input s.offset after.offset msgTypeField ⟨msgTypeField.tag, typeRange⟩

theorem indexFrame_opened {header : Header} {msgTypeField : FieldRef} {msgType : MsgType}
    (room : s.input.length ≤ usizeMax) (inside : s.offset ≤ s.input.length) (index : FieldIndex)
    (opens : s.openBody = .ok (header, msgTypeField, msgType) after) :
    ∃ lengthRange typeRange, Opened s after header msgTypeField lengthRange typeRange ∧
      indexFrame (s, index) =
        (do
          pushSpan header.beginStringField (.ok header.beginString)
          pushSpan header.bodyLengthField (.ok lengthRange)
          pushSpan msgTypeField (.ok typeRange)
          let found ← indexFields s.offset (some header.bodyEnd) (after.input.length + 1) after.offset
          alone (finishFrame s.offset header msgType found.1 found.2) : Indexing Frame)
          (after, index) := by
  obtain ⟨headed, readHeader, readType⟩ := openBody_ok opens
  obtain ⟨input, moved, reached, start, ends, -, begins, lengthRange, same, counts⟩ :=
    decodeHeader_located (s := { s with pendingData := none }) room inside readHeader
  obtain ⟨input', moved', reached', typeRange, same', types⟩ :=
    read_located (by rw [input]; exact room) (by rw [input]; exact reached) moved
      (decodeMsgType_read readType)
  refine ⟨lengthRange, typeRange, ⟨input'.trans input, moved.trans moved'.le, ?_, ?_, ends,
    begins.later moved'.le, counts.later moved'.le, ?_⟩, ?_⟩
  · rw [← input]
    exact reached'
  · rw [start]
    exact moved
  · rw [← input]
    exact types
  · unfold indexFrame
    simp only [bind_apply, get_apply, modify_apply, alone_apply, readHeader, readType, same,
      pushSpan_apply]
    cases index.push header.beginStringField.tag header.beginString with
    | error error => rfl
    | ok index =>
        simp only [pushSpan_apply]
        cases index.push header.bodyLengthField.tag lengthRange with
        | error error => rfl
        | ok index =>
            simp only [pushSpan_apply, same']
            cases index.push msgTypeField.tag typeRange with
            | error error => rfl
            | ok index => rfl

end Decoder

end IronFix.TagValue
