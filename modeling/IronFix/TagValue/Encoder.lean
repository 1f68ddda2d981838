import IronFix.Lib.Steps
import IronFix.Core.Error
import IronFix.TagValue.Checksum
import IronFix.TagValue.DataTags

/-!
# The tag=value encoder

The body is written behind a reserved prefix; `finish` formats the header into
the tail of that prefix, so that it ends where the body begins, and appends the
CheckSum. A rejected write is recorded and returned by `finish`.
-/

namespace IronFix.TagValue

open Lib.Slice Lib.Decimal Lib.Steps

def BEGIN_STRING_MAX_LEN : Nat := 16
def MAX_BODY_LENGTH_DIGITS : Nat := 20

/-- Bytes reserved for `8=…<SOH>9=…<SOH>`. -/
def HEADER_RESERVE : Nat := 2 + BEGIN_STRING_MAX_LEN + 1 + 2 + MAX_BODY_LENGTH_DIGITS + 1

/-! ## Rejections -/

/-- `{:#04x}` of a byte. -/
def hexByte (byte : UInt8) : String :=
  let digit (n : Nat) : Char := Nat.digitChar n
  "0x" ++ String.ofList [digit (byte.toNat / 16), digit (byte.toNat % 16)]

def displayMsgTypeError : MsgTypeError → String
  | .empty => "msg type is empty"
  | .tooLong len maxLen =>
      s!"msg type is {len} bytes, exceeding the {maxLen}-byte inline storage bound"
  | .illegalByte byte position =>
      let shown := hexByte byte
      s!"msg type contains illegal byte {shown} at offset {position}: " ++
        "only printable ASCII (0x20..=0x7e) is allowed"

def zeroTag : EncodeError :=
  .invalidFieldValue 0
    "0 is not a legal FIX field tag: tags are positive integers starting at 1"

def framingTag (tag : Nat) : EncodeError :=
  .invalidFieldValue tag
    (s!"tag {tag} is stamped by the encoder itself; writing it into the body " ++
      "would give the frame two of it")

def dataTagNeedsPair (tag : Nat) : EncodeError :=
  .invalidFieldValue tag
    (s!"tag {tag} belongs to a LENGTH/DATA field pair and must be written with put_data, " ++
      "which derives the declared count from the payload")

def unpairedDataTag (lengthTag dataTag : Nat) : EncodeError :=
  .invalidFieldValue dataTag
    (s!"tag {dataTag} is not the DATA field the FIX specification pairs with LENGTH " ++
      s!"field {lengthTag}; a decoder frames a DATA value by the count in its own " ++
      "paired LENGTH field")

def emptyValue (tag : Nat) : EncodeError :=
  .invalidFieldValue tag "value is empty; a FIX field carries at least one byte"

def sohInValue (tag position : Nat) : EncodeError :=
  .invalidFieldValue tag
    (s!"value contains the SOH delimiter at offset {position}, which would terminate " ++
      "the field early and inject the remainder as further fields")

def illegalBeginStringByte (byte : UInt8) (position : Nat) : EncodeError :=
  let shown := hexByte byte
  .invalidFieldValue 8
    (s!"begin string contains illegal byte {shown} at offset {position}: " ++
      "only printable ASCII (0x21..=0x7e) except '=' is allowed")

def alreadyFinished (tag : Nat) : EncodeError :=
  .invalidFieldValue tag
    "the frame is already finished; call clear() before encoding the next message"

def invalidMsgType (reason : String) : EncodeError := .invalidFieldValue 35 reason

def bodyOverflow (needed : Nat) : EncodeError := .bufferOverflow needed 0

def headerOverflow (needed : Nat) : EncodeError := .bufferOverflow needed HEADER_RESERVE

/-! ## Checks -/

/-- `u8::is_ascii_graphic`. -/
def isAsciiGraphic (byte : UInt8) : Bool := 0x21 ≤ byte && byte ≤ 0x7e

/-- A byte that may appear in a BeginString. -/
def isBeginStringByte (byte : UInt8) : Bool := isAsciiGraphic byte && byte != EQUALS

/-- The BeginString to keep inline, if it is legal. -/
def copyBeginString (value : Bytes) :
    Except EncodeError { kept : Bytes // kept.length ≤ BEGIN_STRING_MAX_LEN } :=
  if value = [] then .error (emptyValue 8)
  else if bounded : value.length ≤ BEGIN_STRING_MAX_LEN then
    match value.zipIdx.find? fun entry => !isBeginStringByte entry.1 with
    | some (byte, position) => .error (illegalBeginStringByte byte position)
    | none => .ok ⟨value, bounded⟩
  else .error (.fieldTooLong 8 value.length BEGIN_STRING_MAX_LEN)

def checkTag (tag : Nat) : Except EncodeError Unit :=
  if tag = 0 then .error zeroTag else .ok ()

def checkBodyTag (tag : Nat) : Except EncodeError Unit := do
  checkTag tag
  if 8 ≤ tag ∧ tag ≤ 10 then .error (framingTag tag)
  else if (pairedDataTag tag).isSome ∨ isDataTag tag then .error (dataTagNeedsPair tag)
  else .ok ()

/-- A MsgType value the decoder would refuse. -/
def checkMsgType (value : Bytes) : Except EncodeError Unit :=
  if isUtf8 value then
    match MsgType.new value with
    | .ok _ => .ok ()
    | .error (.tooLong len maxLen) => .error (.fieldTooLong 35 len maxLen)
    | .error error => .error (invalidMsgType (displayMsgTypeError error))
  else .error (invalidMsgType "msg type is not valid UTF-8")

/-! ## The encoder -/

structure Encoder where
  buf : Bytes
  beginString : Bytes
  /-- The storage is inline. -/
  bounded : beginString.length ≤ BEGIN_STRING_MAX_LEN
  /-- Bytes of body written so far. -/
  bodyLen : Nat
  firstTag : Option Nat
  /-- Offset of the first byte of the frame, once it is stamped. -/
  frameStart : Option Nat
  beginStringError : Option EncodeError
  error : Option EncodeError

/-- A step of the encoder. -/
abbrev Encode := EStateM EncodeError Encoder

/-- Writes `src` at `len`, if it fits. -/
def pushBytes (state : Bytes × Nat) (src : Bytes) : Option (Bytes × Nat) := do
  let (dst, len) := state
  let stop ← checkedAdd usizeMax len src.length
  let _ ← slice? dst len stop
  some (dst.take len ++ src ++ dst.drop stop, stop)

namespace Encoder

def new (beginString : Bytes) : Encoder :=
  let encoder : Encoder :=
    { buf := List.replicate HEADER_RESERVE 0
      beginString := []
      bounded := Nat.zero_le _
      bodyLen := 0
      firstTag := none
      frameStart := none
      beginStringError := none
      error := none }
  match copyBeginString beginString with
  | .ok kept => { encoder with beginString := kept.val, bounded := kept.property }
  | .error error => { encoder with beginStringError := some error }

/-- Keeps the first rejected write. -/
def record (encoder : Encoder) (error : EncodeError) : Encoder :=
  match encoder.error with
  | none => { encoder with error := some error }
  | some _ => encoder

def firstError (encoder : Encoder) : Option EncodeError :=
  encoder.beginStringError.or encoder.error

def checkOpen (encoder : Encoder) (tag : Nat) : Except EncodeError Unit :=
  match encoder.frameStart with
  | some _ => .error (alreadyFinished tag)
  | none => .ok ()

/-- Appends `tag=value<SOH>` to the body. -/
def writeField (tag : Nat) (value : Bytes) (encoder : Encoder) : Encoder :=
  let tagStr := decimal tag
  match ((checkedAdd usizeMax tagStr.length value.length).bind (checkedAdd usizeMax · 2)).bind
      (checkedAdd usizeMax encoder.bodyLen) with
  | none => encoder.record (bodyOverflow value.length)
  | some bodyLen =>
      { encoder with
        buf := encoder.buf ++ tagStr ++ [EQUALS] ++ value ++ [SOH]
        firstTag := encoder.firstTag.or (some tag)
        bodyLen := bodyLen }

/-- Appends a field, reporting a rejection immediately. -/
def tryPutRaw (tag : UInt32) (value : Bytes) : Encode Unit := do
  let tag := tag.toNat
  orThrow ((← get).checkOpen tag)
  orThrow (checkBodyTag tag)
  ensure (value ≠ []) (emptyValue tag)
  orThrow (match memchr SOH value with
    | some position => .error (sohInValue tag position)
    | none => .ok ())
  orThrow (if tag = 35 then checkMsgType value else .ok ())
  modify (writeField tag value)

/-- Appends a LENGTH/DATA pair, reporting a rejection immediately. -/
def tryPutData (lengthTag dataTag : UInt32) (value : Bytes) : Encode Unit := do
  let lengthTag := lengthTag.toNat
  let dataTag := dataTag.toNat
  orThrow ((← get).checkOpen dataTag)
  orThrow (checkTag lengthTag)
  orThrow (checkTag dataTag)
  ensure (pairedDataTag lengthTag = some dataTag) (unpairedDataTag lengthTag dataTag)
  ensure (value ≠ []) (emptyValue dataTag)
  modify (writeField lengthTag (decimal value.length))
  modify (writeField dataTag value)

/-- A write whose rejection is recorded. -/
def recording (write : Encode Unit) (encoder : Encoder) : Encoder :=
  match write encoder with
  | .ok _ encoder => encoder
  | .error error encoder => encoder.record error

def putRaw (encoder : Encoder) (tag : UInt32) (value : Bytes) : Encoder :=
  recording (tryPutRaw tag value) encoder

def putData (encoder : Encoder) (lengthTag dataTag : UInt32) (value : Bytes) : Encoder :=
  recording (tryPutData lengthTag dataTag value) encoder

/-- Writes the header into the reserved prefix and appends the trailer. -/
def stamp : Encode Unit := do
  let encoder ← get
  ensure (encoder.firstTag = some 35) (.missingRequiredField 35)
  let bodyLenStr := decimal encoder.bodyLen
  let headerLen ← orFail
    ([2, encoder.beginString.length, 1, 2, bodyLenStr.length, 1].foldlM (checkedAdd usizeMax) 0)
    (headerOverflow usizeMax)
  let frameStart ← orFail
    (if headerLen ≤ HEADER_RESERVE then some (HEADER_RESERVE - headerLen) else none)
    (headerOverflow headerLen)
  let slot ← orFail (slice? encoder.buf frameStart HEADER_RESERVE) (headerOverflow headerLen)
  let (header, _) ← orFail
    ([ascii "8=", encoder.beginString, [SOH], ascii "9=", bodyLenStr, [SOH]].foldlM pushBytes
      (slot, 0))
    (headerOverflow headerLen)
  let buf := encoder.buf.take frameStart ++ header ++ encoder.buf.drop HEADER_RESERVE
  let span ← orFail (sliceFrom? buf frameStart) (headerOverflow headerLen)
  let digits := formatChecksum (calculateChecksum span)
  set { encoder with
    buf := buf ++ ascii "10=" ++ digits ++ [SOH]
    frameStart := some frameStart }

/-- Stamps the frame and returns it. -/
def finish : Encode Bytes := do
  match (← get).firstError with
  | some error => throw error
  | none => do
      if (← get).frameStart.isNone then stamp
      let start ← orFail (← get).frameStart (headerOverflow 0)
      orFail (sliceFrom? (← get).buf start) (headerOverflow start)

/-- Rewinds for the next message. -/
def clear (encoder : Encoder) : Encoder :=
  { encoder with
    buf := List.replicate HEADER_RESERVE 0
    bodyLen := 0
    firstTag := none
    frameStart := none
    error := none }

end Encoder

end IronFix.TagValue
