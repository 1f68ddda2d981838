import IronFix.Fixp.Config
import IronFix.Fixp.Messages

/-!
# What a FIXP session produces

Outputs for the driver to carry out in order, events for the application, and
the errors of the commands.
-/

namespace IronFix.Fixp

inductive TerminatedBy where
  | locally
  | peer
  deriving DecidableEq, Repr

inductive HandshakeStage where
  | negotiation
  | establishment
  deriving DecidableEq, Repr

inductive SessionStatus where
  | idle
  | negotiating
  | awaitingNegotiate
  | negotiationPending
  | negotiated
  | establishing
  | establishPending
  | established
  | terminating
  | closing
  | closed
  | finalized
  deriving DecidableEq, Repr

inductive Event where
  | negotiateReceived (sessionId : SessionId) (clientFlow : FlowType)
  | negotiated (sessionId : SessionId) (clientFlow serverFlow : FlowType)
  | negotiationRejected (code : NegotiationRejectCode) (reason : String)
  | establishReceived (sessionId : SessionId) (keepaliveInterval : Nat) (nextSeqNo : Option Nat)
  | established (peerKeepaliveInterval : Nat) (peerNextSeqNo : Option Nat)
  | establishmentRejected (code : EstablishmentRejectCode) (reason : String)
  | refused (message reason : String)
  | handshakeTimedOut (stage : HandshakeStage)
  | sequenceGap (fromSeq count : Nat)
  | recoveryComplete
  | retransmitRequested (fromSeq count : Nat)
  | retransmitRejected (fromSeq count : Nat) (code : RetransmitRejectCode) (reason : String)
  | retransmitTimedOut (fromSeq count : Nat)
  | notApplied (fromSeqNo : UInt64) (count : UInt32)
  | applied (fromSeqNo : UInt64) (count : UInt32)
  | terminated (code : TerminationCode) (reason : String) (byWhom : TerminatedBy)
  | keepaliveLapsed
  | protocolViolation (reason : String)
  | peerFinishedSending (lastSeqNo : Option UInt64)
  | transportClosed
  | sessionFinalized (sessionId : SessionId)
  | ignored (message reason : String)
  deriving DecidableEq

inductive Output where
  | send (message : SessionMessage)
  | sendApplication (seq : Option Nat) (message : SessionMessage)
  | closeTransport
  | event (event : Event)
  deriving DecidableEq

/-- What to do with an application message just received. -/
inductive Delivery where
  | accept (seq : Option Nat) (retransmitted : Bool)
  | discard
  deriving DecidableEq, Repr

/-- The application message handed over. -/
def Delivery.receipts : Delivery → List (Option Nat × Bool)
  | .accept seq retransmitted => [(seq, retransmitted)]
  | .discard => []

/-- The range of a batch to replay. -/
structure RetransmitBatch where
  fromSeq : Nat
  count : Nat
  deriving DecidableEq, Repr

inductive FixpError where
  | invalidState (operation : String) (status : SessionStatus)
  | transportClosing (operation : String)
  | bothFlowsNone
  | flowCarriesNoApplicationMessages (flow : FlowType)
  | finishedReceivingSent
  | sequenceExhausted
  | noRetransmissionInProgress
  | retransmissionOverrun (count remaining : Nat)
  | reasonTooLong (len max : Nat)
  | clockOutOfRange
  deriving DecidableEq, Repr

/-- A reason has to fit the wire's length prefix. -/
def checkReason (reason : String) : Except FixpError Unit :=
  if reason.utf8ByteSize > MAX_VAR_DATA_LEN then
    .error (.reasonTooLong reason.utf8ByteSize MAX_VAR_DATA_LEN)
  else .ok ()

end IronFix.Fixp
