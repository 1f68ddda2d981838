import IronFix.Lib.Steps
import IronFix.Core.Error
import IronFix.TagValue.Checksum
import IronFix.TagValue.DataTags

/-!
# The tag=value decoder

`Decoder` reads fields `tag=value<SOH>` off an input. The value of a DATA field
is framed by the count its LENGTH field declared. A decoder is the state of the
monad `Decode`, which keeps it when a step fails.
-/

namespace IronFix.TagValue

open Lib.Slice Lib.Decimal Lib.Steps

def MAX_TAG_DIGITS : Nat := 10
def MAX_LENGTH_DIGITS : Nat := 10
def MAX_TAG_DIAGNOSTIC_LEN : Nat := 16

/-- One field: its tag and the bytes of its value. -/
structure FieldRef where
  tag : Nat
  value : Bytes
  deriving DecidableEq, Repr

/-- A DATA field announced by the LENGTH field just consumed. -/
structure PendingData where
  dataTag : Nat
  declared : Nat
  deriving DecidableEq, Repr

structure Decoder where
  input : Bytes
  offset : Nat
  validateChecksum : Bool
  pendingData : Option PendingData
  deriving DecidableEq, Repr

/-- A half-open range of offsets. -/
structure Span where
  start : Nat
  stop : Nat
  deriving DecidableEq, Repr

/-- The framing of one decoded message. -/
structure Frame where
  buffer : Bytes
  beginString : Span
  body : Span
  msgType : MsgType
  deriving DecidableEq

/-- A decoded message; its spans are relative to `buffer`. -/
structure RawMessage where
  buffer : Bytes
  beginString : Span
  body : Span
  msgType : MsgType
  fields : List FieldRef
  deriving DecidableEq

/-- A step of the decoder. -/
abbrev Decode := EStateM DecodeError Decoder

def parseTag (bytes : Bytes) : Option Nat := parseDigits MAX_TAG_DIGITS u32Max bytes

def parseLength (bytes : Bytes) : Option Nat := parseDigits MAX_LENGTH_DIGITS usizeMax bytes

/-- `DecodeError::InvalidTag`, with a bounded part of the bytes. -/
def invalidTag (bytes : Bytes) : DecodeError :=
  .invalidTag ((sliceTo? bytes MAX_TAG_DIAGNOSTIC_LEN).getD bytes)

def invalidLength (tag : Nat) : DecodeError :=
  .invalidFieldValue tag "length field value is not a valid byte count"

/-- A range relative to `messageStart`. -/
def rebase (span : Span) (messageStart bufferLen : Nat) : Except DecodeError Span := do
  let outOfBounds := DecodeError.rangeOutOfBounds span.start span.stop bufferLen
  if span.start < messageStart then .error outOfBounds
  else if span.stop < messageStart then .error outOfBounds
  else .ok ⟨span.start - messageStart, span.stop - messageStart⟩

namespace Decoder

def new (input : Bytes) : Decoder where
  input := input
  offset := 0
  validateChecksum := true
  pendingData := none

def withChecksumValidation (decoder : Decoder) (validate : Bool) : Decoder :=
  { decoder with validateChecksum := validate }

/-- The count declared for the value of `tag`, if it was just announced. -/
def counted (decoder : Decoder) (tag : Nat) : Option Nat :=
  match decoder.pendingData with
  | some pending => if pending.dataTag = tag then some pending.declared else none
  | none => none

/-- How many bytes the value of a field takes: the declared count for the DATA
field that was announced, else up to the next SOH. -/
def valueLength (offset tag valueStart : Nat) (valueBytes : Bytes) (counted bodyLimit : Option Nat) :
    Except DecodeError Nat :=
  match counted with
  | none => okOr (memchr SOH valueBytes) (.unterminatedField tag)
  | some declared => do
      let valueOffset ← okOr (checkedAdd usizeMax offset valueStart) (.unterminatedField tag)
      let available ←
        match bodyLimit with
        | none => .ok valueBytes.length
        | some limit =>
            if limit < valueOffset then .error .invalidBodyLength
            else .ok (min (limit - valueOffset) valueBytes.length)
      if declared ≥ available ∨ valueBytes[declared]? ≠ some SOH then
        .error (.invalidDataLength tag declared available)
      else .ok declared

/-- Parses the next field; `bodyLimit` is the offset of the first byte after
the body. -/
def nextFieldBounded (bodyLimit : Option Nat) : Decode (Option FieldRef) := do
  let decoder ← get
  match sliceFrom? decoder.input decoder.offset with
  | none => pure none
  | some remaining =>
      if remaining.isEmpty then pure none
      else
        let eqPos ← orFail (memchr EQUALS remaining) (invalidTag remaining)
        let tagBytes ← orFail (sliceTo? remaining eqPos) (invalidTag remaining)
        let tag ← orFail (parseTag tagBytes) (invalidTag tagBytes)
        let valueStart ← orFail (checkedAdd usizeMax eqPos 1) (.unterminatedField tag)
        let valueBytes ← orFail (sliceFrom? remaining valueStart) (.unterminatedField tag)
        -- taken whatever the tag, so it never outlives the field it describes
        set { decoder with pendingData := none }
        let valueLen ← orThrow
          (valueLength decoder.offset tag valueStart valueBytes (decoder.counted tag) bodyLimit)
        let value ← orFail (sliceTo? valueBytes valueLen) (.unterminatedField tag)
        let consumed ←
          orFail ((checkedAdd usizeMax valueStart valueLen).bind (checkedAdd usizeMax · 1))
            (.unterminatedField tag)
        let offset ← orFail (checkedAdd usizeMax decoder.offset consumed) (.unterminatedField tag)
        set { decoder with offset := offset, pendingData := none }
        match pairedDataTag tag with
        | none => pure (some ⟨tag, value⟩)
        | some dataTag => do
            let declared ← orFail (parseLength value) (invalidLength tag)
            set { decoder with offset := offset, pendingData := some ⟨dataTag, declared⟩ }
            pure (some ⟨tag, value⟩)

def nextField : Decode (Option FieldRef) := nextFieldBounded none

/-- The span of the value of the field just consumed. -/
def valueRange (decoder : Decoder) (messageStart valueLen : Nat) : Except DecodeError Span :=
  let outOfBounds := DecodeError.rangeOutOfBounds messageStart decoder.offset decoder.input.length
  if decoder.offset < 1 then .error outOfBounds
  else
    let valueEnd := decoder.offset - 1
    if valueEnd < valueLen then .error outOfBounds
    else rebase ⟨valueEnd - valueLen, valueEnd⟩ messageStart decoder.input.length

/-- What the field loop ends with: the fields, the CheckSum field if one was
met, and the offset at which it starts. -/
structure Collected where
  fields : List FieldRef
  checksum : Option FieldRef
  checksumStart : Nat
  deriving DecidableEq, Repr

/-- The loop over the fields up to the CheckSum. Every field takes bytes, so
the length of the input bounds the passes. -/
def collectFields (limit : Option Nat) : Nat → List FieldRef → Nat → Decode Collected
  | 0, fields, start => pure ⟨fields, none, start⟩
  | fuel + 1, fields, start => do
      let fieldStart := (← get).offset
      match ← nextFieldBounded limit with
      | none => pure ⟨fields, none, start⟩
      | some field =>
          if field.tag = 10 then pure ⟨fields, some field, fieldStart⟩
          else collectFields limit fuel (fields ++ [field]) start

/-- The CheckSum value against the bytes it covers. -/
def verifyChecksum (decoder : Decoder) (startOffset checksumStart : Nat) (checksum : FieldRef) :
    Except DecodeError Unit := do
  let declared ← okOr (parseChecksum checksum.value)
    (.invalidFieldValue 10 "invalid checksum format")
  let span ← okOr (slice? decoder.input startOffset checksumStart)
    (.rangeOutOfBounds startOffset checksumStart decoder.input.length)
  let calculated := calculateChecksum span
  if calculated ≠ declared then .error (.checksumMismatch calculated declared) else .ok ()

/-- The first two fields of a message, and the body they announce. -/
structure Header where
  beginStringField : FieldRef
  beginString : Span
  bodyLengthField : FieldRef
  bodyStart : Nat
  bodyEnd : Nat
  deriving DecidableEq, Repr

/-- `decode_frame` up to the body. -/
def decodeHeader (startOffset : Nat) : Decode Header := do
  let beginStringField ← orFail (← nextField) .incomplete
  ensure (beginStringField.tag = 8) .invalidBeginString
  let beginString ← orThrow ((← get).valueRange startOffset beginStringField.value.length)
  let bodyLengthField ← orFail (← nextField) .missingBodyLength
  ensure (bodyLengthField.tag = 9) .missingBodyLength
  let bodyLength ← orFail (parseLength bodyLengthField.value) .invalidBodyLength
  let _ ← orThrow ((← get).valueRange startOffset bodyLengthField.value.length)
  let bodyStart := (← get).offset
  let bodyEnd ← orFail (checkedAdd usizeMax bodyStart bodyLength) .invalidBodyLength
  pure ⟨beginStringField, beginString, bodyLengthField, bodyStart, bodyEnd⟩

/-- `decode_frame` from the body on: MsgType, the other fields, the trailer. -/
def decodeBody (startOffset : Nat) (header : Header) : Decode (Frame × List FieldRef) := do
  let limit := some header.bodyEnd
  let msgTypeField ← orFail (← nextFieldBounded limit) .missingMsgType
  ensure (msgTypeField.tag = 35) .missingMsgType
  ensure (isUtf8 msgTypeField.value) .invalidUtf8
  let msgType ← orThrow ((MsgType.new msgTypeField.value).mapError .invalidMsgType)
  let decoder ← get
  let collected ← collectFields limit (decoder.input.length + 1)
    [header.beginStringField, header.bodyLengthField, msgTypeField] decoder.offset
  let checksumField ← orFail collected.checksum .incomplete
  ensure (header.bodyEnd = collected.checksumStart) .invalidBodyLength
  let decoder ← get
  orThrow (if decoder.validateChecksum then
    decoder.verifyChecksum startOffset collected.checksumStart checksumField else .ok ())
  let body ← orThrow (rebase ⟨header.bodyStart, header.bodyEnd⟩ startOffset decoder.input.length)
  let buffer ← orFail (slice? decoder.input startOffset decoder.offset)
    (.rangeOutOfBounds startOffset decoder.offset decoder.input.length)
  pure (⟨buffer, header.beginString, body, msgType⟩, collected.fields)

/-- The decode of one message, with its fields. -/
def decodeFrame : Decode (Frame × List FieldRef) := do
  let startOffset := (← get).offset
  modify fun decoder => { decoder with pendingData := none }
  let header ← decodeHeader startOffset
  decodeBody startOffset header

def checkRange (range : Span) (bufferLen : Nat) : Except DecodeError Unit :=
  if range.start > range.stop ∨ range.stop > bufferLen then
    .error (.rangeOutOfBounds range.start range.stop bufferLen)
  else .ok ()

/-- Decodes a complete message. -/
def decode : Decode RawMessage := do
  let (frame, fields) ← decodeFrame
  orThrow (checkRange frame.beginString frame.buffer.length)
  orThrow (checkRange frame.body frame.buffer.length)
  pure ⟨frame.buffer, frame.beginString, frame.body, frame.msgType, fields⟩

end Decoder

end IronFix.TagValue
