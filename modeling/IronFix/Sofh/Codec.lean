import IronFix.Lib.Incremental
import IronFix.Sofh.Header

/-!
# The framing codec

Cuts a byte stream into frames by the length each header declares, and frames
payloads. Reserving space in the read buffer is left out.
-/

namespace IronFix.Sofh

open Lib.Decimal Lib.Incremental

/-- One framed message. -/
structure SofhFrame where
  header : SofhHeader
  payload : Bytes
  described : payload.length = header.payloadLen
  deriving DecidableEq

structure SofhCodec where
  /-- Largest accepted length of a frame, header included. -/
  maxMessageSize : UInt32

theorem SofhHeader.new_messageLength {encodingType : EncodingType} {messageLength : UInt32}
    {header : SofhHeader} (built : SofhHeader.new encodingType messageLength = .ok header) :
    header.messageLength = messageLength ∧ header.encodingType = encodingType := by
  unfold SofhHeader.new at built
  split at built
  · cases built
    exact ⟨rfl, rfl⟩
  · cases built

/-- A header for a payload declares its length. -/
theorem SofhHeader.forPayload_ok {encodingType : EncodingType} {payloadLen : Nat} {header : SofhHeader}
    (built : SofhHeader.forPayload encodingType payloadLen = .ok header) :
    header.messageLength.toNat = payloadLen + LEN ∧ header.payloadLen = payloadLen ∧
      header.encodingType = encodingType := by
  unfold forPayload at built
  by_cases small : payloadLen + LEN ≤ u32Max
  · have counted : ((if payloadLen ≤ u32Max then some payloadLen else none).bind fun len =>
        checkedAdd u32Max len LEN) = some (payloadLen + LEN) := by
      rw [if_pos (by omega)]
      exact if_pos small
    rw [counted] at built
    obtain ⟨declares, encodes⟩ := new_messageLength built
    have kept : (UInt32.ofNat (payloadLen + LEN)).toNat = payloadLen + LEN :=
      UInt32.toNat_ofNat_of_lt (Nat.lt_succ_of_le small)
    have length : header.messageLength.toNat = payloadLen + LEN := by rw [declares, kept]
    refine ⟨length, ?_, encodes⟩
    unfold SofhHeader.payloadLen
    rw [if_pos (by omega)]
    omega
  · have overflows : ((if payloadLen ≤ u32Max then some payloadLen else none).bind fun len =>
        checkedAdd u32Max len LEN) = none := by
      split
      · exact if_neg small
      · rfl
    rw [overflows] at built
    cases built

/-- A payload that is not empty and fits the length field has a header. -/
theorem SofhHeader.forPayload_fits (encodingType : EncodingType) {payload : Bytes} (filled : payload ≠ [])
    (small : payload.length + LEN ≤ u32Max) :
    ∃ header, forPayload encodingType payload.length = .ok header ∧
      header.messageLength.toNat = payload.length + LEN := by
  have counted : ((if payload.length ≤ u32Max then some payload.length else none).bind fun len =>
      checkedAdd u32Max len LEN) = some (payload.length + LEN) := by
    rw [if_pos (by omega)]
    exact if_pos small
  have kept : (UInt32.ofNat (payload.length + LEN)).toNat = payload.length + LEN :=
    UInt32.toNat_ofNat_of_lt (Nat.lt_succ_of_le small)
  have atLeast : MIN_MESSAGE_LENGTH ≤ UInt32.ofNat (payload.length + LEN) := by
    have least : MIN_MESSAGE_LENGTH.toNat = 7 := rfl
    have some_byte := List.length_pos_iff.mpr filled
    rw [UInt32.le_iff_toNat_le, kept, least]
    unfold LEN
    omega
  refine ⟨⟨_, encodingType, atLeast⟩, ?_, kept⟩
  unfold forPayload
  rw [counted]
  exact dif_pos atLeast

namespace SofhFrame

/-- `SofhFrame::new`. -/
def new (encodingType : EncodingType) (payload : Bytes) : Except SofhError SofhFrame :=
  match built : SofhHeader.forPayload encodingType payload.length with
  | .error error => .error error
  | .ok header => .ok ⟨header, payload, (SofhHeader.forPayload_ok built).2.1.symm⟩

/-- The length of a frame is that of its payload and six. -/
theorem messageLength_eq (frame : SofhFrame) :
    frame.header.messageLength.toNat = frame.payload.length + SofhHeader.LEN := by
  have atLeast := UInt32.le_iff_toNat_le.mp frame.header.atLeast
  have least : SofhHeader.MIN_MESSAGE_LENGTH.toNat = 7 := rfl
  rw [frame.described]
  unfold SofhHeader.payloadLen SofhHeader.LEN
  rw [if_pos (by omega)]
  omega

end SofhFrame

namespace SofhCodec

def DEFAULT_MAX_MESSAGE_SIZE : UInt32 := 1024 * 1024

def new : SofhCodec := ⟨DEFAULT_MAX_MESSAGE_SIZE⟩

def withMaxMessageSize (codec : SofhCodec) (size : UInt32) : SofhCodec :=
  { codec with maxMessageSize := size }

/-- The frame length a header declares, once it passes the ceiling. -/
def frameLen (codec : SofhCodec) (messageLength : UInt32) : Except SofhError Nat :=
  if messageLength ≤ codec.maxMessageSize then .ok messageLength.toNat
  else .error (.messageTooLarge messageLength codec.maxMessageSize)

theorem frameLen_ok {codec : SofhCodec} {messageLength : UInt32} {frameLen : Nat}
    (framed : codec.frameLen messageLength = .ok frameLen) :
    frameLen = messageLength.toNat ∧ messageLength ≤ codec.maxMessageSize := by
  unfold SofhCodec.frameLen at framed
  split at framed
  · rename_i within
    cases framed
    exact ⟨rfl, within⟩
  · cases framed

/-- What is split off behind a header is the payload it declares. -/
theorem split_length {codec : SofhCodec} {src : Bytes} {encodingType : EncodingType}
    {messageLength : UInt32} {frameLen : Nat} {header : SofhHeader}
    (framed : codec.frameLen messageLength = .ok frameLen) (whole : ¬src.length < frameLen)
    (built : SofhHeader.new encodingType messageLength = .ok header) :
    ((src.take frameLen).drop SofhHeader.LEN).length = header.payloadLen := by
  obtain ⟨rfl, -⟩ := frameLen_ok framed
  obtain ⟨rfl, -⟩ := SofhHeader.new_messageLength built
  have atLeast := UInt32.le_iff_toNat_le.mp header.atLeast
  have least : SofhHeader.MIN_MESSAGE_LENGTH.toNat = 7 := rfl
  unfold SofhHeader.payloadLen SofhHeader.LEN
  rw [if_pos (by omega), List.length_drop, List.length_take]
  omega

/-- One framing attempt. -/
def decodeInner (codec : SofhCodec) (src : Bytes) :
    EStateM.Result SofhError Bytes (Option SofhFrame) :=
  match SofhHeader.firstChunk src with
  | none => .ok none src
  | some chunk =>
      let messageLength := (SofhHeader.declared chunk).1
      if messageLength < SofhHeader.MIN_MESSAGE_LENGTH then
        .error (SofhHeader.lengthTooSmall messageLength) src
      else
        match framed : codec.frameLen messageLength with
        | .error error => .error error src
        | .ok frameLen =>
            if short : src.length < frameLen then .ok none src
            else
              match built : SofhHeader.new (.fromU16 (SofhHeader.declared chunk).2) messageLength with
              | .error error => .error error src
              | .ok header =>
                  let frame := src.take frameLen
                  .ok (some ⟨header, frame.drop SofhHeader.LEN, split_length framed short built⟩)
                    (src.drop frameLen)

/-- `Decoder::decode`. -/
def decode (codec : SofhCodec) (src : Bytes) : EStateM.Result SofhError Bytes (Option SofhFrame) :=
  codec.decodeInner src

/-- `Decoder::decode_eof`: the stream may not end inside a frame. -/
def decodeEof (codec : SofhCodec) (src : Bytes) : EStateM.Result SofhError Bytes (Option SofhFrame) :=
  match codec.decodeInner src with
  | .error error src => .error error src
  | .ok (some frame) src => .ok (some frame) src
  | .ok none src =>
      if src = [] then .ok none src
      else
        match SofhHeader.decode src with
        | .error error => .error error src
        | .ok none => .error (.truncated src.length SofhHeader.LEN) src
        | .ok (some header) =>
            match codec.frameLen header.messageLength with
            | .error error => .error error src
            | .ok expected => .error (.truncated src.length expected) src

/-- Appends a header and its payload, or nothing. -/
def putFrame (codec : SofhCodec) (header : SofhHeader) (payload dst : Bytes) :
    EStateM.Result SofhError Bytes Unit :=
  match codec.frameLen header.messageLength with
  | .error error => .error error dst
  | .ok _ =>
      match checkedAdd usizeMax payload.length SofhHeader.LEN with
      | none => .error (.payloadTooLong payload.length) dst
      | some _ => .ok () (dst ++ header.toBytes ++ payload)

/-- `Encoder::encode` of a frame. -/
def encode (codec : SofhCodec) (item : SofhFrame) (dst : Bytes) : EStateM.Result SofhError Bytes Unit :=
  codec.putFrame item.header item.payload dst

/-- `Encoder::encode` of a payload. -/
def encodePayload (codec : SofhCodec) (encodingType : EncodingType) (payload dst : Bytes) :
    EStateM.Result SofhError Bytes Unit :=
  match SofhHeader.forPayload encodingType payload.length with
  | .error error => .error error dst
  | .ok header => codec.putFrame header payload dst

end SofhCodec

end IronFix.Sofh
