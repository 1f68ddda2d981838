import IronFix.Core.Bytes

/-!
# Message types and errors

A `MsgType` is compared by the code it has on the wire, so it is modelled by
that code; a value carries the proof that the code is legal.
-/

namespace IronFix

inductive MsgTypeError where
  | empty
  | tooLong (len maxLen : Nat)
  | illegalByte (byte : UInt8) (position : Nat)
  deriving DecidableEq, Repr

inductive DecodeError where
  | incomplete
  | invalidBeginString
  | missingBodyLength
  | invalidBodyLength
  | missingMsgType
  | checksumMismatch (calculated declared : UInt8)
  /-- The offending bytes that are shown. -/
  | invalidTag (shown : Bytes)
  | invalidFieldValue (tag : Nat) (reason : String)
  | invalidUtf8
  | unterminatedField (tag : Nat)
  | invalidDataLength (dataTag declared available : Nat)
  | rangeOutOfBounds (start stop bufferLen : Nat)
  | invalidMsgType (error : MsgTypeError)
  | tooManyFields (capacity : Nat)
  deriving DecidableEq, Repr

inductive EncodeError where
  | bufferOverflow (needed available : Nat)
  | missingRequiredField (tag : Nat)
  | invalidFieldValue (tag : Nat) (reason : String)
  | fieldTooLong (tag length maxLength : Nat)
  deriving DecidableEq, Repr

inductive StoreError where
  | storeFailed (seqNum : Nat) (reason : String)
  | retrieveFailed (seqNum : Nat) (reason : String)
  | notFound (seqNum : Nat)
  /-- Nothing is filed between the bounds, both included. -/
  | rangeNotAvailable (first last : Nat)
  | invalidRange (first last : Nat)
  | corrupted (reason : String)
  | io (reason : String)
  /-- The call overran what its caller allowed it. -/
  | timeout
  deriving DecidableEq, Repr

/-! ## Message types -/

def MSG_TYPE_MAX_LEN : Nat := 8

/-- Printable ASCII. -/
def isMsgTypeByte (byte : UInt8) : Bool := 0x20 ≤ byte && byte ≤ 0x7e

/-- The first byte that cannot appear in a code. -/
def illegalMsgTypeByte (code : Bytes) : Option (UInt8 × Nat) :=
  code.zipIdx.find? fun entry => !isMsgTypeByte entry.1

/-- A message type, by its wire code. -/
structure MsgType where
  code : Bytes
  nonempty : code ≠ []
  bounded : code.length ≤ MSG_TYPE_MAX_LEN
  printable : illegalMsgTypeByte code = none
  deriving DecidableEq

namespace MsgType

/-- `MsgType::new`: the named codes are legal codes, so a code is accepted
exactly when `CustomMsgType::new` accepts it. -/
def new (code : Bytes) : Except MsgTypeError MsgType :=
  if nonempty : code = [] then .error .empty
  else if bounded : code.length ≤ MSG_TYPE_MAX_LEN then
    match printable : illegalMsgTypeByte code with
    | some (byte, position) => .error (.illegalByte byte position)
    | none => .ok ⟨code, nonempty, bounded, printable⟩
  else .error (.tooLong code.length MSG_TYPE_MAX_LEN)

/-- The codes of the administrative messages. -/
def ADMIN_CODES : List Bytes :=
  [ascii "0", ascii "1", ascii "2", ascii "3", ascii "4", ascii "5", ascii "A", ascii "n"]

def isAdmin (msgType : MsgType) : Bool := ADMIN_CODES.contains msgType.code

def isApp (msgType : MsgType) : Bool := !msgType.isAdmin

theorem new_code (msgType : MsgType) : new msgType.code = .ok msgType := by
  unfold new
  rw [dif_neg msgType.nonempty, dif_pos msgType.bounded]
  split
  · rename_i found
    rw [msgType.printable] at found
    cases found
  · rfl

theorem new_eq_ok {code : Bytes} {msgType : MsgType} (h : new code = .ok msgType) :
    msgType.code = code := by
  unfold new at h
  split at h
  · cases h
  · split at h
    · split at h
      · cases h
      · cases h
        rfl
    · cases h

/-- A code is ASCII. -/
theorem ascii_code (msgType : MsgType) : ∀ byte ∈ msgType.code, byte < 0x80 := by
  intro byte member
  obtain ⟨position, inside, at_position⟩ := List.mem_iff_getElem.mp member
  have listed : (byte, position) ∈ msgType.code.zipIdx := by
    rw [List.mem_zipIdx_iff_getElem?, ← at_position]
    exact List.getElem?_eq_getElem inside
  have legal := List.find?_eq_none.mp msgType.printable _ listed
  simp only [isMsgTypeByte, Bool.not_eq_true, Bool.not_eq_false', Bool.and_eq_true,
    decide_eq_true_eq, UInt8.le_iff_toNat_le] at legal
  rw [UInt8.lt_iff_toNat_lt]
  have high := legal.2
  simp only [UInt8.reduceToNat] at high ⊢
  omega

end MsgType

/-! ## UTF-8 -/

/-- A continuation byte. -/
def isContinuation (byte : UInt8) : Bool := 0x80 ≤ byte && byte ≤ 0xBF

/-- The second byte a lead byte of a longer sequence admits. -/
def secondByteRange (lead : UInt8) : UInt8 × UInt8 :=
  if lead = 0xE0 then (0xA0, 0xBF)
  else if lead = 0xED then (0x80, 0x9F)
  else if lead = 0xF0 then (0x90, 0xBF)
  else if lead = 0xF4 then (0x80, 0x8F)
  else (0x80, 0xBF)

/-- `std::str::from_utf8` accepts the bytes. -/
def isUtf8 : Bytes → Bool
  | [] => true
  | lead :: rest =>
      if lead < 0x80 then isUtf8 rest
      else
        let (low, high) := secondByteRange lead
        if 0xC2 ≤ lead && lead ≤ 0xDF then
          match rest with
          | b1 :: rest => isContinuation b1 && isUtf8 rest
          | _ => false
        else if 0xE0 ≤ lead && lead ≤ 0xEF then
          match rest with
          | b1 :: b2 :: rest => low ≤ b1 && b1 ≤ high && isContinuation b2 && isUtf8 rest
          | _ => false
        else if 0xF0 ≤ lead && lead ≤ 0xF4 then
          match rest with
          | b1 :: b2 :: b3 :: rest =>
              low ≤ b1 && b1 ≤ high && isContinuation b2 && isContinuation b3 && isUtf8 rest
          | _ => false
        else false

/-- ASCII is UTF-8. -/
theorem isUtf8_of_ascii {bytes : Bytes} (h : ∀ byte ∈ bytes, byte < 0x80) : isUtf8 bytes = true := by
  induction bytes with
  | nil => rfl
  | cons byte rest ih =>
      unfold isUtf8
      rw [if_pos (h byte List.mem_cons_self)]
      exact ih fun other member => h other (List.mem_cons_of_mem _ member)

end IronFix
