import IronFix.Fast.Encoder

/-!
# The FAST decoder

Reads the encoder's fields from the data at an offset. Past its end no data is
read, and an integer is at most `MAX_INT_ENCODED_LEN` bytes long.
-/

namespace IronFix.Fast

/-- A decoder moves an offset; a failure leaves it where it was found. -/
abbrev Decoder := EStateM FastError Nat

/-- The byte at the offset, which stays. -/
def peekByte (data : Bytes) : Decoder UInt8 := do
  let offset ← get
  match data[offset]? with
  | none => throw .unexpectedEof
  | some byte => return byte

def readByte (data : Bytes) : Decoder UInt8 := do
  let offset ← get
  match data[offset]? with
  | none => throw .unexpectedEof
  | some byte =>
      set (offset + 1)
      return byte

/-- `checked_mul` of the machine integers from `low` to `high`. -/
def checkedMul (low high value factor : Int) : Option Int :=
  if low ≤ value * factor ∧ value * factor ≤ high then some (value * factor) else none

/-- The loop of the integer decoders, in the machine integers from `low` to
`high`, with `left` bytes to go. The seven bits a product leaves free take the
payload. -/
def decodeLoop (low high : Int) (data : Bytes) : Nat → Int → Decoder Int
  | 0, _ => throw .integerOverflow
  | left + 1, result => do
      let byte ← readByte data
      match checkedMul low high result RADIX with
      | none => throw .integerOverflow
      | some product =>
          let result := product + (byte &&& PAYLOAD_MASK).toNat
          if byte &&& STOP_BIT ≠ 0 then return result else decodeLoop low high data left result

/-- The unsigned decoders. -/
def decodeUnsigned (high : Nat) (data : Bytes) : Decoder Nat := do
  let result ← decodeLoop 0 high data MAX_INT_ENCODED_LEN 0
  return result.toNat

/-- The signed decoders: a negative value starts from all ones. -/
def decodeSigned (low high : Int) (data : Bytes) : Decoder Int := do
  let firstByte ← peekByte data
  decodeLoop low high data MAX_INT_ENCODED_LEN (if firstByte &&& SIGN_BIT ≠ 0 then -1 else 0)

def i64Min : Int := -2 ^ 63
def i64Max : Int := 2 ^ 63 - 1
def i128Min : Int := -2 ^ 127
def u128Max : Nat := 2 ^ 128 - 1

def decodeUint (data : Bytes) : Decoder UInt64 := do
  let result ← decodeUnsigned u64Max data
  return UInt64.ofNat result

def decodeInt (data : Bytes) : Decoder Int64 := do
  let result ← decodeSigned i64Min i64Max data
  return Int64.ofInt result

def decodeNullableUint (data : Bytes) : Decoder (Option UInt64) := do
  let biased ← decodeUnsigned u128Max data
  if biased = 0 then return none
  else if biased - 1 ≤ u64Max then return some (UInt64.ofNat (biased - 1))
  else throw .integerOverflow

def decodeNullableInt (data : Bytes) : Decoder (Option Int64) := do
  let raw ← decodeSigned i128Min i128Max data
  if raw = 0 then return none
  else if raw < 0 then
    if i64Min ≤ raw then return some (Int64.ofInt raw) else throw .integerOverflow
  else if raw - 1 ≤ i64Max then return some (Int64.ofInt (raw - 1))
  else throw .integerOverflow

/-- `len` characters, after `result`. -/
def readChars (data : Bytes) : Nat → String → Decoder String
  | 0, result => return result
  | len + 1, result => do
      let byte ← readByte data
      readChars data len (result.push (Char.ofNat (byte &&& PAYLOAD_MASK).toNat))

/-- A run of characters up to the stop bit. -/
def readAsciiRun (data : Bytes) : Decoder String := do
  let offset ← get
  match (data.drop offset).findIdx? fun byte => decide (byte &&& STOP_BIT ≠ 0) with
  | none => throw .unexpectedEof
  | some position => readChars data (position + 1) ""

def decodeAscii (data : Bytes) : Decoder String := do
  let firstByte ← peekByte data
  let offset ← get
  if firstByte = STOP_BIT then do
    set (offset + 1)
    return ""
  else if firstByte = 0x00 then
    match data[offset + 1]? with
    | none => throw .unexpectedEof
    | some secondByte =>
        if secondByte ≠ STOP_BIT then throw .invalidString
        else do
          set (offset + 2)
          return "\x00"
  else readAsciiRun data

def decodeNullableAscii (data : Bytes) : Decoder (Option String) := do
  let firstByte ← peekByte data
  let offset ← get
  if firstByte = STOP_BIT then do
    set (offset + 1)
    return none
  else if firstByte = 0x00 then
    match data[offset + 1]? with
    | none => throw .unexpectedEof
    | some secondByte =>
        if secondByte = STOP_BIT then do
          set (offset + 2)
          return some ""
        else if secondByte ≠ 0x00 then throw .invalidString
        else
          match data[offset + 2]? with
          | none => throw .unexpectedEof
          | some thirdByte =>
              if thirdByte ≠ STOP_BIT then throw .invalidString
              else do
                set (offset + 3)
                return some "\x00"
  else do
    let text ← readAsciiRun data
    return some text

/-- The declared number of bytes, if the data has them. -/
def takeBytes (data : Bytes) (declaredLength : Nat) : Decoder Bytes := do
  let offset ← get
  if data.length < offset ∨ data.length - offset < declaredLength then throw .unexpectedEof
  else do
    set (offset + declaredLength)
    return (data.drop offset).take declaredLength

def decodeBytes (data : Bytes) : Decoder Bytes := do
  let declaredLength ← decodeUint data
  takeBytes data declaredLength.toNat

def decodeNullableBytes (data : Bytes) : Decoder (Option Bytes) := do
  match ← decodeNullableUint data with
  | some declaredLength => do
      let bytes ← takeBytes data declaredLength.toNat
      return some bytes
  | none => return none

end IronFix.Fast
