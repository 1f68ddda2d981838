import IronFix.Core.Timestamp
import IronFix.Core.Version
import IronFix.Engine.Outbound
import IronFix.Session.Replay
import IronFix.Session.StandardHeader
import IronFix.Session.UtcTimestamp
import IronFix.TagValue.EncoderRuns

/-!
# Frames with the session header

A message factory stamps the standard header in front of a body and frames
both. A stored frame is rebuilt as a resend of itself: the same fields, with
PossDupFlag (43) and OrigSendingTime (122) around a new SendingTime (52).
-/

namespace IronFix.Engine

open Lib.Slice Lib.Decimal IronFix.TagValue IronFix.Session Outbound

/-! ## Times -/

def WHOLE_SECONDS_LEN : Nat := 17

inductive SendingTimePrecision where
  | seconds
  | millis
  deriving DecidableEq, Repr

namespace SendingTimePrecision

def forVersion : FixVersion → SendingTimePrecision
  | .fix40 | .fix41 => seconds
  | .fix42 | .fix43 | .fix44 | .fix50 | .fix50Sp1 | .fix50Sp2 | .fixt11 => millis

/-- What `with_formatted` passes on. -/
def formatted (precision : SendingTimePrecision) (calendar : Calendar) (instant : Timestamp) : Bytes :=
  match precision with
  | seconds => calendar.formatSeconds instant
  | millis => calendar.formatMillis instant

/-- A stored UTCTimestamp in this precision. -/
def narrow (precision : SendingTimePrecision) (value : Bytes) : Bytes :=
  match precision with
  | millis => value
  | seconds =>
      let hasFraction := value[WHOLE_SECONDS_LEN]? = some 0x2E
      if hasFraction ∧ (parseUtcTimestampMillis value).isSome then
        (sliceTo? value WHOLE_SECONDS_LEN).getD value
      else value

end SendingTimePrecision

/-! ## The factory -/

/-- A message built but not yet framed. -/
structure PendingMessage where
  message : OutboundMessage
  /-- The header carries PossDupFlag (43) and OrigSendingTime (122). -/
  possDup : Bool

def PendingMessage.application (message : OutboundMessage) : PendingMessage := ⟨message, false⟩

/-- What a session stamps: its version and its identities. -/
structure SessionHeader where
  version : FixVersion
  senderCompId : CompId
  targetCompId : CompId
  senderSubId : Option Bytes
  targetSubId : Option Bytes
  senderLocationId : Option Bytes
  targetLocationId : Option Bytes

structure MessageFactory extends SessionHeader where
  encoder : Encoder
  maxMessageSize : Nat
  /-- Cleared, the encoder is a fresh one of the session's BeginString. -/
  rewinds : encoder.clear = Encoder.new version.beginString

/-- A field that is written if it is configured. -/
def putConfigured (tag : UInt32) (value : Option Bytes) (encoder : Encoder) : Encoder :=
  match value with
  | some value => encoder.putRaw tag value
  | none => encoder

def putField (encoder : Encoder) : OutboundField → Encoder
  | .raw tag value => encoder.putRaw tag value
  | .data lengthTag dataTag value => encoder.putData lengthTag dataTag value

namespace SessionHeader

def precision (header : SessionHeader) : SendingTimePrecision := .forVersion header.version

/-- ApplVerID (1128), on an application message. -/
def applVerId (header : SessionHeader) (msgType : MsgType) : Option Bytes :=
  if msgType.isAdmin then none else header.version.applVerId

/-- The calls of `encode_stamped` between `clear` and `finish`. -/
def putMessage (header : SessionHeader) (calendar : Calendar) (stamped : Timestamp) (seq : UInt64)
    (pending : PendingMessage) (encoder : Encoder) : Encoder :=
  let message := pending.message
  let encoder := encoder.putRaw 35 message.msgType.code
  let encoder := putConfigured 1128 (header.applVerId message.msgType) encoder
  let encoder := encoder.putRaw 49 header.senderCompId.value
  let encoder := encoder.putRaw 56 header.targetCompId.value
  let encoder := putConfigured 50 header.senderSubId encoder
  let encoder := putConfigured 142 header.senderLocationId encoder
  let encoder := putConfigured 57 header.targetSubId encoder
  let encoder := putConfigured 143 header.targetLocationId encoder
  let encoder := encoder.putRaw 34 (decimal seq.toNat)
  let encoder := if pending.possDup then encoder.putRaw 43 (ascii "Y") else encoder
  let sendingTime := header.precision.formatted calendar stamped
  let encoder := encoder.putRaw 52 sendingTime
  let encoder := if pending.possDup then encoder.putRaw 122 sendingTime else encoder
  message.fields.foldl putField encoder

/-- The field of an identity that is configured. -/
def configured (tag : UInt32) (value : Option Bytes) : List Write := value.toList.map (.raw tag)

/-- The header fields before PossDupFlag (43). -/
def opening (header : SessionHeader) (seq : UInt64) (msgType : MsgType) : List Write :=
  [.raw 35 msgType.code] ++ configured 1128 (header.applVerId msgType) ++
    [.raw 49 header.senderCompId.value, .raw 56 header.targetCompId.value] ++
    configured 50 header.senderSubId ++ configured 142 header.senderLocationId ++
    configured 57 header.targetSubId ++ configured 143 header.targetLocationId ++
    [.raw 34 (decimal seq.toNat)]

/-- SendingTime (52), and what a possible duplicate has around it. -/
def times (possDup : Bool) (sendingTime origSendingTime : Bytes) : List Write :=
  if possDup then [.raw 43 (ascii "Y"), .raw 52 sendingTime, .raw 122 origSendingTime]
  else [.raw 52 sendingTime]

/-- The stamped header of a message. -/
def stamped (header : SessionHeader) (calendar : Calendar) (now : Timestamp) (seq : UInt64)
    (pending : PendingMessage) : List Write :=
  header.opening seq pending.message.msgType ++
    times pending.possDup (header.precision.formatted calendar now)
      (header.precision.formatted calendar now)

/-- The writes of a message: its header and its body. -/
def writes (header : SessionHeader) (calendar : Calendar) (now : Timestamp) (seq : UInt64)
    (pending : PendingMessage) : List Write :=
  header.stamped calendar now seq pending ++ pending.message.fields.map OutboundField.toWrite

theorem putConfigured_eq (tag : UInt32) (value : Option Bytes) (encoder : Encoder) :
    putConfigured tag value encoder = (configured tag value).foldl Encoder.put encoder := by
  cases value <;> rfl

theorem putFields_eq (fields : List OutboundField) (encoder : Encoder) :
    fields.foldl putField encoder = (fields.map OutboundField.toWrite).foldl Encoder.put encoder := by
  rw [List.foldl_map]
  congr 1
  funext encoder field
  cases field <;> rfl

theorem putMessage_eq (header : SessionHeader) (calendar : Calendar) (now : Timestamp) (seq : UInt64)
    (pending : PendingMessage) (encoder : Encoder) :
    header.putMessage calendar now seq pending encoder =
      (header.writes calendar now seq pending).foldl Encoder.put encoder := by
  unfold putMessage writes stamped opening
  simp only [putConfigured_eq, putFields_eq, List.foldl_append, times]
  cases pending.possDup <;> rfl

end SessionHeader

/-- Whatever is put and finished, the encoder rewinds to a fresh one. -/
theorem clear_left {beginString : Bytes} {encoder : Encoder}
    (rewinds : encoder.clear = Encoder.new beginString) (writes : List Write) :
    (Encoder.left (Encoder.finish (writes.foldl Encoder.put encoder.clear))).clear =
      Encoder.new beginString := by
  have puts : ∀ (writes : List Write) (encoder : Encoder) (journal : Encoder.Journal),
      Encoder.Journaled beginString encoder journal →
      ∃ later, Encoder.Journaled beginString (writes.foldl Encoder.put encoder) later := by
    intro writes
    induction writes with
    | nil => exact fun _ journal journaled => ⟨journal, journaled⟩
    | cons write writes ih => exact fun _ _ journaled => ih _ _ (journaled.call (.put write))
  obtain ⟨later, journaled⟩ := puts writes encoder.clear .blank
    (rewinds ▸ Encoder.journaled_new beginString)
  exact (journaled.call .finish).clear

namespace MessageFactory

def new (config : SessionConfig) (version : FixVersion) (maxMessageSize : Nat) : MessageFactory where
  version := version
  senderCompId := config.senderCompId
  targetCompId := config.targetCompId
  senderSubId := config.senderSubId
  targetSubId := config.targetSubId
  senderLocationId := config.senderLocationId
  targetLocationId := config.targetLocationId
  encoder := Encoder.new version.beginString
  maxMessageSize := maxMessageSize
  rewinds := (Encoder.journaled_new version.beginString).clear

/-- Frames `pending` under `seq`; the clock reads `now`. -/
def encodeStamped (factory : MessageFactory) (calendar : Calendar) (now : Timestamp) (seq : UInt64)
    (pending : PendingMessage) : Except EncodeError (Bytes × Timestamp) × MessageFactory :=
  let finished := Encoder.finish (factory.putMessage calendar now seq pending factory.encoder.clear)
  let answer := match finished with
    | .ok frame _ => .ok (frame, now)
    | .error error _ => .error error
  (answer,
    { factory with
      encoder := Encoder.left finished
      rewinds := by
        show (Encoder.left (Encoder.finish (factory.putMessage calendar now seq pending
          factory.encoder.clear))).clear = _
        rw [SessionHeader.putMessage_eq]
        exact clear_left factory.rewinds _ })

end MessageFactory

/-! ## The replay of a stored frame -/

/-- Decodes a framed message; its checksum was checked when it was framed. -/
def decodeFrame (frame : Bytes) : Except DecodeError RawMessage :=
  match Decoder.decode ((Decoder.new frame).withChecksumValidation false) with
  | .ok message _ => .ok message
  | .error error _ => .error error

/-- `RawMessage::begin_string`. -/
def beginStringOf (message : RawMessage) : Except DecodeError Bytes :=
  match slice? message.buffer message.beginString.start message.beginString.stop with
  | none => .error (.rangeOutOfBounds message.beginString.start message.beginString.stop
      message.buffer.length)
  | some bytes => if isUtf8 bytes then .ok bytes else .error .invalidUtf8

inductive ResendError where
  | decode (error : DecodeError)
  | encode (error : EncodeError)
  | missingSendingTime
  deriving DecidableEq, Repr

/-- The loop of `resend_frame`. A tag the encoder refuses on its own is written
as a pair with the field behind it. -/
def rebuildFields (sendingTime origTime : Bytes) : List FieldRef → Encode Unit
  | [] => pure ()
  | field :: fields =>
      match replayField field.tag with
      | .framing | .reinserted => rebuildFields sendingTime origTime fields
      | .sendingTime => do
          Encoder.tryPutRaw 43 (ascii "Y")
          Encoder.tryPutRaw 52 sendingTime
          Encoder.tryPutRaw 122 origTime
          rebuildFields sendingTime origTime fields
      | .copied => fun encoder =>
          match Encoder.tryPutRaw (.ofNat field.tag) field.value encoder with
          | .ok _ encoder => rebuildFields sendingTime origTime fields encoder
          | .error refused encoder =>
              match fields with
              | [] => .error refused encoder
              | data :: fields =>
                  match Encoder.tryPutData (.ofNat field.tag) (.ofNat data.tag) data.value encoder with
                  | .ok _ encoder => rebuildFields sendingTime origTime fields encoder
                  | .error _ encoder => .error refused encoder

/-- Rebuilds a stored frame as a resend of itself; the clock reads `now`. -/
def resendFrame (calendar : Calendar) (now : Timestamp) (precision : SendingTimePrecision)
    (stored : Bytes) : Except ResendError Bytes := do
  let raw ← (decodeFrame stored).mapError .decode
  let beginString ← (beginStringOf raw).mapError .decode
  let sendingTime52 ← okOr (getFieldStr raw 52) .missingSendingTime
  let origTime := precision.narrow (origSendingTime (getFieldStr raw 122) sendingTime52)
  match rebuildFields (precision.formatted calendar now) origTime raw.fields (.new beginString) with
  | .error error _ => .error (.encode error)
  | .ok _ encoder =>
      match Encoder.finish encoder with
      | .ok frame _ => .ok frame
      | .error error _ => .error (.encode error)

end IronFix.Engine
