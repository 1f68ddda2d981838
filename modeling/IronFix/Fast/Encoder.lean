import IronFix.Core.Bytes
import Mathlib.Tactic.Linarith
import Mathlib.Data.String.Basic

/-!
# The FAST encoder

Values in stop-bit encoding: seven payload bits a byte, the most significant
first, the stop bit on the last. A nullable value is shifted by one so that the
lone stop byte is free for an absent one.
-/

namespace IronFix.Fast

open Lib.Decimal

inductive FastError where
  | unexpectedEof
  | presenceMapTooLarge (maxBytes : Nat)
  | presenceMapExhausted
  | integerOverflow
  | invalidString
  deriving DecidableEq, Repr

/-- The stop bit, on the final byte of a value. -/
def STOP_BIT : UInt8 := 0x80

def PAYLOAD_MASK : UInt8 := 0x7F

def PAYLOAD_BITS : Nat := 7

/-- The sign of a signed integer, in its first byte. -/
def SIGN_BIT : UInt8 := 0x40

def MAX_INT_ENCODED_LEN : Nat := 10

/-- What one byte position counts. -/
def RADIX : Nat := 2 ^ PAYLOAD_BITS

/-- A byte vector: no allocation is longer than `isizeMax`. -/
structure ByteVector where
  bytes : Bytes
  bounded : bytes.length ≤ isizeMax

/-- The encoder is its buffer. -/
abbrev Encoder := EStateM FastError Bytes

def extend (bytes : Bytes) : Encoder PUnit := modify fun buffer => buffer ++ bytes

/-- The sign alone: what is left of an integer whose bits are all taken. -/
def signOf (value : Int) : Int := if value < 0 then -1 else 0

@[simp] theorem radix_cast : (RADIX : Int) = 128 := rfl

/-- A shift keeps the sign. -/
theorem signOf_rest (value : Int) : signOf (value / RADIX) = signOf value := by
  unfold signOf
  rw [radix_cast]
  by_cases negative : value < 0
  · rw [if_pos negative, if_pos (by omega)]
  · rw [if_neg negative, if_neg (by omega)]

theorem rest_closer {value : Int} (more : value / RADIX ≠ signOf value) :
    (value / RADIX - signOf (value / RADIX)).natAbs < (value - signOf value).natAbs := by
  rw [signOf_rest]
  unfold signOf at *
  rw [radix_cast] at *
  split at more <;> split <;> omega

/-- The loop of the integer encoders: seven bits at a time, the least significant
first, until the sign alone is left. The shift keeps the sign, so the `negative`
of the value is that of all that remains. -/
def payloadBytes (remaining : Int) : List UInt8 :=
  UInt8.ofNat (remaining % RADIX).toNat ::
    if remaining / RADIX = signOf remaining then [] else payloadBytes (remaining / RADIX)
termination_by (remaining - signOf remaining).natAbs
decreasing_by exact rest_closer ‹_›

/-- The stop bit on the last byte. -/
def setStopBit : List UInt8 → List UInt8
  | [] => []
  | [last] => [last ||| STOP_BIT]
  | byte :: bytes => byte :: setStopBit bytes

/-- Appends bytes gathered from the least significant one. -/
def flushStopBitEncoded (bytes : List UInt8) : Encoder PUnit := extend (setStopBit bytes.reverse)

/-- The unsigned encoders: `encode_uint` on a `u64`, `encode_uint_u128` on a `u128`. -/
def encodeUnsigned (value : Nat) : Encoder PUnit := flushStopBitEncoded (payloadBytes value)

/-- A sign byte in front of a first byte whose bit 6 says the opposite. -/
def carrySign (negative : Bool) (bytes : List UInt8) : List UInt8 :=
  match bytes.getLast? with
  | none => bytes
  | some mostSignificant =>
      if decide (mostSignificant &&& SIGN_BIT ≠ 0) ≠ negative then
        bytes ++ [if negative then PAYLOAD_MASK else 0x00]
      else bytes

/-- The signed encoders: `encode_int` on an `i64`, `encode_int_i128` on an `i128`. -/
def encodeSigned (value : Int) : Encoder PUnit :=
  flushStopBitEncoded (carrySign (decide (value < 0)) (payloadBytes value))

def encodeUint (value : UInt64) : Encoder PUnit := encodeUnsigned value.toNat

def encodeInt (value : Int64) : Encoder PUnit := encodeSigned value.toInt

/-- The UTF-8 bytes of a string. -/
def asBytes (text : String) : Bytes := text.toList.flatMap String.utf8EncodeChar

def isAscii (bytes : Bytes) : Bool := bytes.all fun byte => decide (byte < 0x80)

/-- The empty string is a lone stop byte, the NUL string has a byte in front;
no longer string begins with NUL. -/
def encodeAscii (text : String) : Encoder PUnit :=
  if !isAscii (asBytes text) then throw .invalidString
  else
    match asBytes text with
    | [] => extend [STOP_BIT]
    | [0x00] => extend [0x00, STOP_BIT]
    | 0x00 :: _ :: _ => throw .invalidString
    | bytes => extend (setStopBit bytes)

def encodeBytes (value : ByteVector) : Encoder PUnit := do
  encodeUint (UInt64.ofNat value.bytes.length)
  extend value.bytes

def encodeNullableUint (value : Option UInt64) : Encoder PUnit :=
  match value with
  | some value => encodeUnsigned (value.toNat + 1)
  | none => extend [STOP_BIT]

def i128Max : Int := 2 ^ 127 - 1

/-- Only a value that is not negative is shifted. -/
def encodeNullableInt (value : Option Int64) : Encoder PUnit :=
  match value with
  | some value =>
      if value.toInt < 0 then encodeInt value
      else if value.toInt + 1 ≤ i128Max then encodeSigned (value.toInt + 1)
      else throw .integerOverflow
  | none => extend [STOP_BIT]

def encodeNullableAscii (text : Option String) : Encoder PUnit :=
  match text with
  | none => extend [STOP_BIT]
  | some text =>
      if !isAscii (asBytes text) then throw .invalidString
      else
        match asBytes text with
        | [] => extend [0x00, STOP_BIT]
        | [0x00] => extend [0x00, 0x00, STOP_BIT]
        | 0x00 :: _ :: _ => throw .invalidString
        | _ => encodeAscii text

def encodeNullableBytes (value : Option ByteVector) : Encoder PUnit :=
  match value with
  | some value =>
      if value.bytes.length ≤ u64Max then do
        encodeNullableUint (some (UInt64.ofNat value.bytes.length))
        extend value.bytes
      else throw .integerOverflow
  | none => extend [STOP_BIT]

end IronFix.Fast
