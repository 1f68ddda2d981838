import IronFix.Core.Bytes
import IronFix.Lib.LittleEndian

/-!
# FIXP value types

Session identifiers, flow types, times, credentials and the reject and
termination codes, with their wire values.
-/

namespace IronFix.Fixp

def MAX_VAR_DATA_LEN : Nat := u16Max - 1

/-- The sixteen bytes of a UUID. -/
structure SessionId where
  bytes : Bytes
  sized : bytes.length = 16
  deriving DecidableEq

namespace SessionId

theorem ext {left right : SessionId} (same : left.bytes = right.bytes) : left = right := by
  cases left
  cases right
  cases same
  rfl

def NIL : SessionId := ⟨List.replicate 16 0, rfl⟩

def isNil (id : SessionId) : Bool := id.bytes.all fun byte => byte == 0

end SessionId

inductive FlowType where
  | recoverable
  | idempotent
  | unsequenced
  | none
  deriving DecidableEq, Repr

namespace FlowType

def asU8 : FlowType → UInt8
  | .recoverable => 0
  | .idempotent => 1
  | .unsequenced => 2
  | .none => 3

def fromU8 (value : UInt8) : Option FlowType :=
  if value = 0 then some .recoverable
  else if value = 1 then some .idempotent
  else if value = 2 then some .unsequenced
  else if value = 3 then some .none
  else Option.none

def isSequenced : FlowType → Bool
  | .recoverable | .idempotent => true
  | .unsequenced | .none => false

theorem fromU8_asU8 (flow : FlowType) : fromU8 flow.asU8 = some flow := by
  cases flow <;> rfl

end FlowType

/-- Nanoseconds since the epoch. -/
structure Nanotime where
  nanos : UInt64
  deriving DecidableEq, Repr

structure Credentials where
  bytes : Bytes
  deriving DecidableEq, Repr

inductive NegotiationRejectCode where
  | credentials
  | flowTypeNotSupported
  | duplicateId
  | unspecified
  deriving DecidableEq, Repr

inductive EstablishmentRejectCode where
  | unnegotiated
  | alreadyEstablished
  | sessionBlocked
  | keepaliveInterval
  | credentials
  | unspecified
  deriving DecidableEq, Repr

inductive RetransmitRejectCode where
  | outOfRange
  | invalidSession
  | requestLimitExceeded
  deriving DecidableEq, Repr

inductive TerminationCode where
  | finished
  | unspecifiedError
  | reRequestOutOfBounds
  | reRequestInProgress
  deriving DecidableEq, Repr

/-- The variant of a wire value: the values count the variants from 0. -/
def variantOf {α : Type} (variants : List α) (value : UInt8) : Option α :=
  variants[value.toNat]?

def NegotiationRejectCode.asU8 : NegotiationRejectCode → UInt8
  | .credentials => 0
  | .flowTypeNotSupported => 1
  | .duplicateId => 2
  | .unspecified => 3

def NegotiationRejectCode.fromU8 : UInt8 → Option NegotiationRejectCode :=
  variantOf [.credentials, .flowTypeNotSupported, .duplicateId, .unspecified]

def EstablishmentRejectCode.asU8 : EstablishmentRejectCode → UInt8
  | .unnegotiated => 0
  | .alreadyEstablished => 1
  | .sessionBlocked => 2
  | .keepaliveInterval => 3
  | .credentials => 4
  | .unspecified => 5

def EstablishmentRejectCode.fromU8 : UInt8 → Option EstablishmentRejectCode :=
  variantOf [.unnegotiated, .alreadyEstablished, .sessionBlocked, .keepaliveInterval, .credentials,
    .unspecified]

def RetransmitRejectCode.asU8 : RetransmitRejectCode → UInt8
  | .outOfRange => 0
  | .invalidSession => 1
  | .requestLimitExceeded => 2

def RetransmitRejectCode.fromU8 : UInt8 → Option RetransmitRejectCode :=
  variantOf [.outOfRange, .invalidSession, .requestLimitExceeded]

def TerminationCode.asU8 : TerminationCode → UInt8
  | .finished => 0
  | .unspecifiedError => 1
  | .reRequestOutOfBounds => 2
  | .reRequestInProgress => 3

def TerminationCode.fromU8 : UInt8 → Option TerminationCode :=
  variantOf [.finished, .unspecifiedError, .reRequestOutOfBounds, .reRequestInProgress]

theorem NegotiationRejectCode.fromU8_asU8 (code : NegotiationRejectCode) :
    fromU8 code.asU8 = some code := by
  cases code <;> rfl

theorem EstablishmentRejectCode.fromU8_asU8 (code : EstablishmentRejectCode) :
    fromU8 code.asU8 = some code := by
  cases code <;> rfl

theorem RetransmitRejectCode.fromU8_asU8 (code : RetransmitRejectCode) :
    fromU8 code.asU8 = some code := by
  cases code <;> rfl

theorem TerminationCode.fromU8_asU8 (code : TerminationCode) : fromU8 code.asU8 = some code := by
  cases code <;> rfl

end IronFix.Fixp
