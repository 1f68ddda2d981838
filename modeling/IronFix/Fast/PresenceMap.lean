import IronFix.Fast.Integers
import IronFix.Lib.Steps

/-!
# Presence maps

The bitmap in front of a FAST message, and the operators' use of it: which
fields own a bit, and where a field's value comes from once the bit is read.
-/

namespace IronFix.Fast

/-- The longest presence map, in encoded bytes. -/
def MAX_PMAP_BYTES : Nat := 64

/-- The bits of the map, and how many of them are consumed. -/
structure PresenceMap where
  bits : List Bool
  position : Nat
  within : position ≤ bits.length

/-- The seven payload bits of a byte, the most significant first. -/
def payloadBits (byte : UInt8) : List Bool :=
  (List.range PAYLOAD_BITS).reverse.map fun shift => (byte >>> UInt8.ofNat shift) &&& 1 == 1

/-- The byte with the bits of a chunk, the first one at the top of the payload. -/
def packed (chunk : List Bool) : UInt8 :=
  chunk.zipIdx.foldl (fun byte (present, index) =>
    if present then byte ||| 1 <<< UInt8.ofNat (PAYLOAD_BITS - 1 - index) else byte) 0

/-- Runs of `size + 1` elements; the last one may be shorter. -/
def chunks {α : Type} (size : Nat) : List α → List (List α)
  | [] => []
  | a :: rest => (a :: rest.take size) :: chunks size (rest.drop size)
termination_by list => list.length
decreasing_by
  rw [List.length_drop, List.length_cons]
  exact Nat.lt_succ_of_le (Nat.sub_le _ _)

/-- Pops the all-absent bytes off the end, down to one byte. -/
def dropAbsent (result : Bytes) : Bytes :=
  if 1 < result.length ∧ result.getLast? = some 0 then dropAbsent result.dropLast else result
termination_by result.length
decreasing_by
  rw [List.length_dropLast]
  exact Nat.sub_lt (by omega) Nat.one_pos

namespace PresenceMap

def fromBits (bits : List Bool) : PresenceMap := ⟨bits, 0, Nat.zero_le _⟩

/-- The loop of `decode`, with `left` bytes to go behind the bits found. -/
def decodeLoop (data : Bytes) : Nat → List Bool → Decoder (List Bool)
  | 0, _ => throw (.presenceMapTooLarge MAX_PMAP_BYTES)
  | left + 1, bits => do
      let byte ← readByte data
      let bits := bits ++ payloadBits byte
      if byte &&& STOP_BIT ≠ 0 then return bits else decodeLoop data left bits

def decode (data : Bytes) : Decoder PresenceMap := do
  let bits ← decodeLoop data MAX_PMAP_BYTES []
  return fromBits bits

/-- Consumes the next encoded bit. -/
def nextBit : EStateM FastError PresenceMap Bool := fun map =>
  if inside : map.position < map.bits.length then
    .ok map.bits[map.position] { map with position := map.position + 1, within := inside }
  else .error .presenceMapExhausted map

/-- The minimal encoding: no all-absent byte at the end, but at least one byte. -/
def encode (map : PresenceMap) : Except FastError Bytes :=
  let byteLen := (map.bits.length + (PAYLOAD_BITS - 1)) / PAYLOAD_BITS
  if MAX_PMAP_BYTES < byteLen then .error (.presenceMapTooLarge MAX_PMAP_BYTES)
  else
    let result := dropAbsent ((chunks (PAYLOAD_BITS - 1) map.bits).map packed)
    let result := if result.isEmpty then [0] else result
    .ok (setStopBit result)

end PresenceMap

/-! ## Operators -/

/-- How the value of a field is encoded relative to the previous one. -/
inductive Operator where
  | none
  | constant
  | default
  | copy
  | increment
  | delta
  | tail
  deriving DecidableEq, Repr

/-- Where the value of a field comes from. -/
inductive FieldTransfer where
  | stream
  | initialValue
  | dictionary
  | absent
  deriving DecidableEq, Repr

namespace Operator

/-- Whether a field with this operator owns a bit of the map. -/
def requiresPmap (operator : Operator) (optional : Bool) : Bool :=
  match operator with
  | .none | .delta => false
  | .constant => optional
  | .default | .copy | .increment | .tail => true

/-- Where the value comes from, given the field's bit if it owns one. -/
def source (operator : Operator) (present : Option Bool) : FieldTransfer :=
  match operator, present with
  | .none, _ | .delta, _ => .stream
  | .constant, .none | .constant, some true => .initialValue
  | .constant, some false => .absent
  | .default, some true => .stream
  | .default, some false | .default, .none => .initialValue
  | .copy, some true | .increment, some true | .tail, some true => .stream
  | .copy, some false | .increment, some false | .tail, some false => .dictionary
  | .copy, .none | .increment, .none | .tail, .none => .dictionary

/-- The field's bit: a map that is used up goes on with absent ones. -/
def presence (operator : Operator) (optional : Bool) : EStateM FastError PresenceMap (Option Bool) :=
  fun map =>
    if operator.requiresPmap optional then
      match PresenceMap.nextBit map with
      | .ok bit map => .ok (some bit) map
      | .error .presenceMapExhausted map => .ok (some false) map
      | .error other map => .error other map
    else .ok .none map

/-- Consumes the field's bit, if it owns one. -/
def transfer (operator : Operator) (optional : Bool) :
    EStateM FastError PresenceMap FieldTransfer := do
  let present ← operator.presence optional
  return operator.source present

end Operator

/-- What a template says of a field's place in the map. -/
structure TemplateField where
  operator : Operator
  optional : Bool

/-- The fields of a message, one after another over its map. -/
def transfers : List TemplateField → EStateM FastError PresenceMap (List FieldTransfer)
  | [] => return []
  | field :: fields => do
      let first ← field.operator.transfer field.optional
      let others ← transfers fields
      return first :: others

end IronFix.Fast
