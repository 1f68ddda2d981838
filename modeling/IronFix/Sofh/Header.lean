import IronFix.Core.Bytes
import IronFix.Lib.BigEndian

/-!
# The simple open framing header

Six bytes in front of a payload: the length of the frame and the encoding of
the payload, both big-endian.
-/

namespace IronFix.Sofh

open Lib.Decimal

/-! ## Encodings -/

/-- A byte that is not zero. -/
abbrev NonZeroU8 := { byte : UInt8 // byte ≠ 0 }

def highByte (value : UInt16) : UInt8 := .ofNat (value.toNat / 256)

def lowByte (value : UInt16) : UInt8 := .ofNat (value.toNat % 256)

/-- `u16::from_be_bytes`. -/
def fromBytes (high low : UInt8) : UInt16 := .ofNat (high.toNat * 256 + low.toNat)

/-- High byte of the private user defined range. -/
def PRIVATE_HIGH_BYTE : UInt8 := 0x00

/-- High byte of the FAST range. -/
def FAST_HIGH_BYTE : UInt8 := 0xFA

/-- The values that name one encoding each. -/
def NAMED : List UInt16 :=
  [0x5BE0, 0xEB50, 0x4700, 0xA500, 0xA501, 0xA502, 0xF000, 0xF100, 0xF500, 0xFB00]

/-- The value is of a range that carries its low byte. -/
def InRange (value : UInt16) : Prop :=
  (highByte value = PRIVATE_HIGH_BYTE ∨ highByte value = FAST_HIGH_BYTE) ∧ lowByte value ≠ 0

/-- A value the table does not register. -/
structure UnregisteredEncoding where
  value : UInt16
  unnamed : value ∉ NAMED
  outside : ¬InRange value
  deriving DecidableEq

inductive EncodingType where
  | privateUser (low : NonZeroU8)
  | sbeV1BigEndian
  | sbeV1LittleEndian
  | gpbV1
  | asn1PerV1
  | asn1BerV1
  | asn1OerV1
  | tagValue
  | fixmlSchemaV1
  | fast (low : NonZeroU8)
  | json
  | bson
  | unregistered (raw : UnregisteredEncoding)
  deriving DecidableEq

namespace EncodingType

/-- Classifies a value that is not named. -/
def ranged (value : UInt16) (unnamed : value ∉ NAMED) : EncodingType :=
  if carried : lowByte value ≠ 0 then
    if isPrivate : highByte value = PRIVATE_HIGH_BYTE then .privateUser ⟨lowByte value, carried⟩
    else if isFast : highByte value = FAST_HIGH_BYTE then .fast ⟨lowByte value, carried⟩
    else .unregistered ⟨value, unnamed, fun inRange => inRange.1.elim isPrivate isFast⟩
  else .unregistered ⟨value, unnamed, fun inRange => carried inRange.2⟩

/-- Classifies a raw value. -/
def fromU16 (value : UInt16) : EncodingType :=
  if sbeBig : value = 0x5BE0 then .sbeV1BigEndian
  else if sbeLittle : value = 0xEB50 then .sbeV1LittleEndian
  else if gpb : value = 0x4700 then .gpbV1
  else if per : value = 0xA500 then .asn1PerV1
  else if ber : value = 0xA501 then .asn1BerV1
  else if oer : value = 0xA502 then .asn1OerV1
  else if fixtv : value = 0xF000 then .tagValue
  else if fixml : value = 0xF100 then .fixmlSchemaV1
  else if fixJson : value = 0xF500 then .json
  else if fixBson : value = 0xFB00 then .bson
  else ranged value (by simp [NAMED, *])

/-- The raw value written on the wire. -/
def toU16 : EncodingType → UInt16
  | .privateUser low => fromBytes PRIVATE_HIGH_BYTE low
  | .sbeV1BigEndian => 0x5BE0
  | .sbeV1LittleEndian => 0xEB50
  | .gpbV1 => 0x4700
  | .asn1PerV1 => 0xA500
  | .asn1BerV1 => 0xA501
  | .asn1OerV1 => 0xA502
  | .tagValue => 0xF000
  | .fixmlSchemaV1 => 0xF100
  | .fast low => fromBytes FAST_HIGH_BYTE low
  | .json => 0xF500
  | .bson => 0xFB00
  | .unregistered raw => raw.value

end EncodingType

theorem fromBytes_toNat (high low : UInt8) : (fromBytes high low).toNat = high.toNat * 256 + low.toNat := by
  have small : high.toNat * 256 + low.toNat < UInt16.size := by
    have highSmall := high.toNat_lt
    have lowSmall := low.toNat_lt
    show _ < 65536
    omega
  exact UInt16.toNat_ofNat_of_lt small

theorem highByte_toNat (value : UInt16) : (highByte value).toNat = value.toNat / 256 := by
  have small : value.toNat / 256 < UInt8.size := by
    have bound := value.toNat_lt
    show _ < 256
    omega
  exact UInt8.toNat_ofNat_of_lt small

theorem lowByte_toNat (value : UInt16) : (lowByte value).toNat = value.toNat % 256 :=
  UInt8.toNat_ofNat_of_lt (Nat.mod_lt _ (by decide))

/-- A value is its two bytes. -/
theorem fromBytes_split (value : UInt16) : fromBytes (highByte value) (lowByte value) = value := by
  rw [← UInt16.toNat_inj, fromBytes_toNat, highByte_toNat, lowByte_toNat]
  omega

@[simp] theorem highByte_fromBytes (high low : UInt8) : highByte (fromBytes high low) = high := by
  have bound := low.toNat_lt
  rw [← UInt8.toNat_inj, highByte_toNat, fromBytes_toNat]
  omega

@[simp] theorem lowByte_fromBytes (high low : UInt8) : lowByte (fromBytes high low) = low := by
  have bound := low.toNat_lt
  rw [← UInt8.toNat_inj, lowByte_toNat, fromBytes_toNat]
  omega

/-- No value of a range is named. -/
theorem not_named {value : UInt16} (inRange : InRange value) : value ∉ NAMED := by
  have named : ∀ name ∈ NAMED, ¬((highByte name = PRIVATE_HIGH_BYTE ∨ highByte name = FAST_HIGH_BYTE) ∧
      lowByte name ≠ 0) := List.forall_iff_forall_mem.mp (by decide)
  exact fun member => named value member inRange

namespace EncodingType

theorem fromU16_unnamed {value : UInt16} (unnamed : value ∉ NAMED) :
    fromU16 value = ranged value unnamed := by
  have differs : ∀ name ∈ NAMED, value ≠ name := by
    rintro name member rfl
    exact unnamed member
  simp only [NAMED, List.mem_cons, List.not_mem_nil, or_false, forall_eq_or_imp, forall_eq] at differs
  obtain ⟨sbeBig, sbeLittle, gpb, per, ber, oer, fixtv, fixml, json, bson⟩ := differs
  unfold fromU16
  rw [dif_neg sbeBig, dif_neg sbeLittle, dif_neg gpb, dif_neg per, dif_neg ber, dif_neg oer,
    dif_neg fixtv, dif_neg fixml, dif_neg json, dif_neg bson]

theorem fromU16_private (low : NonZeroU8) :
    fromU16 (fromBytes PRIVATE_HIGH_BYTE low) = .privateUser low := by
  have carried : lowByte (fromBytes PRIVATE_HIGH_BYTE low) ≠ 0 := by
    rw [lowByte_fromBytes]
    exact low.property
  have inRange : InRange (fromBytes PRIVATE_HIGH_BYTE low) := ⟨.inl (highByte_fromBytes _ _), carried⟩
  rw [fromU16_unnamed (not_named inRange), ranged, dif_pos carried, dif_pos (highByte_fromBytes _ _)]
  exact congrArg _ (Subtype.ext (lowByte_fromBytes _ _))

theorem fromU16_fast (low : NonZeroU8) : fromU16 (fromBytes FAST_HIGH_BYTE low) = .fast low := by
  have carried : lowByte (fromBytes FAST_HIGH_BYTE low) ≠ 0 := by
    rw [lowByte_fromBytes]
    exact low.property
  have inRange : InRange (fromBytes FAST_HIGH_BYTE low) := ⟨.inr (highByte_fromBytes _ _), carried⟩
  have notPrivate : ¬highByte (fromBytes FAST_HIGH_BYTE low) = PRIVATE_HIGH_BYTE := by
    rw [highByte_fromBytes]
    decide
  rw [fromU16_unnamed (not_named inRange), ranged, dif_pos carried, dif_neg notPrivate,
    dif_pos (highByte_fromBytes _ _)]
  exact congrArg _ (Subtype.ext (lowByte_fromBytes _ _))

theorem fromU16_outside (raw : UnregisteredEncoding) : fromU16 raw.value = .unregistered raw := by
  rw [fromU16_unnamed raw.unnamed, ranged]
  split
  · rename_i carried
    have notPrivate : ¬highByte raw.value = PRIVATE_HIGH_BYTE := fun high =>
      raw.outside ⟨.inl high, carried⟩
    have notFast : ¬highByte raw.value = FAST_HIGH_BYTE := fun high =>
      raw.outside ⟨.inr high, carried⟩
    rw [dif_neg notPrivate, dif_neg notFast]
  · rfl

/-- An encoding is read as it was written. -/
theorem fromU16_toU16 (encodingType : EncodingType) : fromU16 encodingType.toU16 = encodingType := by
  cases encodingType with
  | privateUser low => exact fromU16_private low
  | fast low => exact fromU16_fast low
  | unregistered raw => exact fromU16_outside raw
  | _ => rfl

/-- A raw value is written as it was read, registered or not. -/
theorem toU16_fromU16 (value : UInt16) : (fromU16 value).toU16 = value := by
  by_cases named : value ∈ NAMED
  · simp only [NAMED, List.mem_cons, List.not_mem_nil, or_false] at named
    rcases named with rfl | rfl | rfl | rfl | rfl | rfl | rfl | rfl | rfl | rfl <;> rfl
  · by_cases inRange : InRange value
    · have whole := fromBytes_split value
      rcases inRange with ⟨high | high, carried⟩
      · rw [high] at whole
        rw [← whole, fromU16_private ⟨lowByte value, carried⟩]
        rfl
      · rw [high] at whole
        rw [← whole, fromU16_fast ⟨lowByte value, carried⟩]
        rfl
    · rw [fromU16_outside ⟨value, named, inRange⟩]
      rfl

end EncodingType

/-! ## Headers -/

inductive SofhError where
  | messageLengthTooSmall (length minLength : UInt32)
  | messageTooLarge (size maxSize : UInt32)
  | payloadTooLong (payloadLen : Nat)
  | truncated (received expected : Nat)
  | io (message : String)
  deriving DecidableEq

namespace SofhHeader

/-- Length of the header on the wire. -/
def LEN : Nat := 6

/-- The header and a message of one byte. -/
def MIN_MESSAGE_LENGTH : UInt32 := 7

end SofhHeader

structure SofhHeader where
  /-- The length of the frame, header included. -/
  messageLength : UInt32
  encodingType : EncodingType
  atLeast : SofhHeader.MIN_MESSAGE_LENGTH ≤ messageLength
  deriving DecidableEq

namespace SofhHeader

/-- The error for a length below the minimum. -/
def lengthTooSmall (length : UInt32) : SofhError := .messageLengthTooSmall length MIN_MESSAGE_LENGTH

def new (encodingType : EncodingType) (messageLength : UInt32) : Except SofhError SofhHeader :=
  if atLeast : MIN_MESSAGE_LENGTH ≤ messageLength then .ok ⟨messageLength, encodingType, atLeast⟩
  else .error (lengthTooSmall messageLength)

/-- The header that frames a payload of `payloadLen` bytes. -/
def forPayload (encodingType : EncodingType) (payloadLen : Nat) : Except SofhError SofhHeader := do
  let messageLength ← okOr
    ((if payloadLen ≤ u32Max then some payloadLen else none).bind fun len => checkedAdd u32Max len LEN)
    (.payloadTooLong payloadLen)
  new encodingType (.ofNat messageLength)

/-- The length of the payload. -/
def payloadLen (header : SofhHeader) : Nat :=
  if LEN ≤ header.messageLength.toNat then header.messageLength.toNat - LEN else 0

/-- The length and the encoding, both big-endian. -/
def toBytes (header : SofhHeader) : Bytes :=
  Lib.BigEndian.bytes 4 header.messageLength.toNat ++
    Lib.BigEndian.bytes 2 header.encodingType.toU16.toNat

/-- The length and the encoding that six bytes declare. -/
def declared (chunk : Bytes) : UInt32 × UInt16 :=
  (.ofNat (Lib.BigEndian.value (chunk.take 4)), .ofNat (Lib.BigEndian.value (chunk.drop 4)))

/-- `src.first_chunk`: the first six bytes. -/
def firstChunk (src : Bytes) : Option Bytes :=
  if LEN ≤ src.length then some (src.take LEN) else none

def fromBytes (chunk : Bytes) : Except SofhError SofhHeader :=
  new (.fromU16 (declared chunk).2) (declared chunk).1

/-- The header at the start of `src`, once six bytes are there. -/
def decode (src : Bytes) : Except SofhError (Option SofhHeader) :=
  match firstChunk src with
  | some chunk => (fromBytes chunk).map some
  | none => .ok none

end SofhHeader

end IronFix.Sofh
