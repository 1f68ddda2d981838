import IronFix.Core.Bytes

/-!
# Send outcomes

What became of one tracked message: sent, not sent, or unknown. A receipt
knows how far its frame has got, and answers from that when it is dropped.
-/

namespace IronFix.Engine

inductive NotSentReason where
  | vetoed (reason : String)
  | invalid (detail : String) (tag : Option Nat)
  /-- The store failed to file the frame under the fail-closed policy. -/
  | storeRefused (stateUnknown : Bool)
  | sequenceExhausted
  | sessionClosed
  | logoutPending
  | discarded
  | discardedBehindResend
  | throttled (budget : Nat)
  | discardedByThrottle (budget : Nat)
  deriving DecidableEq, Repr

/-- What a message is refused for before it is numbered. -/
def NotSentReason.early : NotSentReason → Bool
  | .storeRefused _ | .sequenceExhausted => false
  | _ => true

inductive UnknownReason where
  | writeTimeout
  | transport
  | interrupted
  deriving DecidableEq, Repr

inductive SendOutcome where
  | sent (seq sendingTime : Nat) (filed : Bool)
  | notSent (reason : NotSentReason)
  | unknown (seq : Nat) (reason : UnknownReason)
  deriving DecidableEq, Repr

/-- What stops a frame between its numbering and the write buffer. -/
inductive FrameError where
  | sequenceExhausted
  | store
  | sequence (detail : String)
  | codec (size maxSize : Nat)
  deriving DecidableEq, Repr

/-- The refusal of a frame above `max_message_size`, before it is filed. -/
def oversized (size maxSize : Nat) : NotSentReason :=
  .invalid s!"codec error: message too large: {size} bytes exceeds maximum {maxSize}" none

/-- How far a tracked frame has got. -/
inductive SendStage where
  | queued
  | filing (seq : Nat)
  | writing (seq : Nat)
  deriving DecidableEq, Repr

def SendStage.seq : SendStage → Option Nat
  | .queued => none
  | .filing seq | .writing seq => some seq

/-- The outcome of a frame that stopped once numbered. -/
def stopped (seq : Option Nat) (reason : UnknownReason) : SendOutcome :=
  match seq with
  | some seq => .unknown seq reason
  | none => .notSent .discarded

/-- The outcome of a frame that `error` stopped. -/
def failed (seq : Option Nat) : FrameError → SendOutcome
  | .sequenceExhausted => .notSent .sequenceExhausted
  | .store => .notSent (.storeRefused true)
  | .sequence _ => stopped seq .interrupted
  | .codec _ _ => stopped seq .transport

/-- The reactor's end of one tracked send. -/
structure Receipt where
  id : Nat
  stage : SendStage
  deriving DecidableEq, Repr

namespace Receipt

def filing (seq : Nat) (receipt : Receipt) : Receipt := { receipt with stage := .filing seq }

def writing (seq : Nat) (receipt : Receipt) : Receipt := { receipt with stage := .writing seq }

def fail (error : FrameError) (receipt : Receipt) : SendOutcome := failed receipt.stage.seq error

def drop (receipt : Receipt) : SendOutcome := stopped receipt.stage.seq .interrupted

end Receipt

end IronFix.Engine
