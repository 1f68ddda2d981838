import IronFix.Fixp.Types

/-!
# FIXP session messages

One structure for each message of the session schema. Sequence numbers are as
they came: the session checks them, the codec does not.
-/

namespace IronFix.Fixp

def SCHEMA_ID : Nat := 2748

def SCHEMA_VERSION : Nat := 0

/-- What identifies a message's root block on the wire. -/
structure Layout where
  name : String
  templateId : Nat
  blockLength : Nat

structure Negotiate where
  sessionId : SessionId
  timestamp : Nanotime
  clientFlow : FlowType
  credentials : Option Credentials
  deriving DecidableEq

def Negotiate.layout : Layout := ⟨"Negotiate", 1, 25⟩

structure NegotiationResponse where
  sessionId : SessionId
  requestTimestamp : Nanotime
  serverFlow : FlowType
  credentials : Option Credentials
  deriving DecidableEq

def NegotiationResponse.layout : Layout := ⟨"NegotiationResponse", 2, 25⟩

structure NegotiationReject where
  sessionId : SessionId
  requestTimestamp : Nanotime
  code : NegotiationRejectCode
  reason : String
  deriving DecidableEq

def NegotiationReject.layout : Layout := ⟨"NegotiationReject", 3, 25⟩

structure Topic where
  sessionId : SessionId
  flow : FlowType
  keepaliveInterval : UInt32
  classification : Bytes
  deriving DecidableEq

def Topic.layout : Layout := ⟨"Topic", 4, 21⟩

structure Establish where
  sessionId : SessionId
  timestamp : Nanotime
  keepaliveInterval : UInt32
  nextSeqNo : Option UInt64
  credentials : Option Credentials
  deriving DecidableEq

def Establish.layout : Layout := ⟨"Establish", 5, 36⟩

structure EstablishmentAck where
  sessionId : SessionId
  requestTimestamp : Nanotime
  keepaliveInterval : UInt32
  nextSeqNo : Option UInt64
  deriving DecidableEq

def EstablishmentAck.layout : Layout := ⟨"EstablishmentAck", 6, 36⟩

structure EstablishmentReject where
  sessionId : SessionId
  requestTimestamp : Nanotime
  code : EstablishmentRejectCode
  reason : String
  deriving DecidableEq

def EstablishmentReject.layout : Layout := ⟨"EstablishmentReject", 7, 25⟩

structure Sequence where
  nextSeqNo : UInt64
  deriving DecidableEq

def Sequence.layout : Layout := ⟨"Sequence", 8, 8⟩

structure Context where
  sessionId : SessionId
  nextSeqNo : UInt64
  deriving DecidableEq

def Context.layout : Layout := ⟨"Context", 9, 24⟩

def UnsequencedHeartbeat.layout : Layout := ⟨"UnsequencedHeartbeat", 10, 0⟩

structure RetransmitRequest where
  sessionId : SessionId
  timestamp : Nanotime
  fromSeqNo : UInt64
  count : UInt32
  deriving DecidableEq

def RetransmitRequest.layout : Layout := ⟨"RetransmitRequest", 11, 36⟩

structure Retransmission where
  sessionId : SessionId
  requestTimestamp : Nanotime
  nextSeqNo : UInt64
  count : UInt32
  deriving DecidableEq

def Retransmission.layout : Layout := ⟨"Retransmission", 12, 36⟩

structure RetransmitReject where
  sessionId : SessionId
  requestTimestamp : Nanotime
  code : RetransmitRejectCode
  reason : String
  deriving DecidableEq

def RetransmitReject.layout : Layout := ⟨"RetransmitReject", 13, 25⟩

structure Terminate where
  sessionId : SessionId
  code : TerminationCode
  reason : String
  deriving DecidableEq

def Terminate.layout : Layout := ⟨"Terminate", 14, 17⟩

structure FinishedSending where
  sessionId : SessionId
  lastSeqNo : Option UInt64
  deriving DecidableEq

def FinishedSending.layout : Layout := ⟨"FinishedSending", 15, 24⟩

structure FinishedReceiving where
  sessionId : SessionId
  deriving DecidableEq

def FinishedReceiving.layout : Layout := ⟨"FinishedReceiving", 16, 16⟩

structure Applied where
  fromSeqNo : UInt64
  count : UInt32
  deriving DecidableEq

def Applied.layout : Layout := ⟨"Applied", 17, 12⟩

structure NotApplied where
  fromSeqNo : UInt64
  count : UInt32
  deriving DecidableEq

def NotApplied.layout : Layout := ⟨"NotApplied", 18, 12⟩

structure MessageTemplate where
  encodingType : UInt32
  effectiveTime : Option Nanotime
  version : Bytes
  template : Bytes
  deriving DecidableEq

def MessageTemplate.layout : Layout := ⟨"MessageTemplate", 19, 12⟩

inductive SessionMessage where
  | negotiate (message : Negotiate)
  | negotiationResponse (message : NegotiationResponse)
  | negotiationReject (message : NegotiationReject)
  | topic (message : Topic)
  | establish (message : Establish)
  | establishmentAck (message : EstablishmentAck)
  | establishmentReject (message : EstablishmentReject)
  | sequence (message : Sequence)
  | context (message : Context)
  | unsequencedHeartbeat
  | retransmitRequest (message : RetransmitRequest)
  | retransmission (message : Retransmission)
  | retransmitReject (message : RetransmitReject)
  | terminate (message : Terminate)
  | finishedSending (message : FinishedSending)
  | finishedReceiving (message : FinishedReceiving)
  | applied (message : Applied)
  | notApplied (message : NotApplied)
  | messageTemplate (message : MessageTemplate)
  deriving DecidableEq

namespace SessionMessage

def layout : SessionMessage → Layout
  | .negotiate _ => Negotiate.layout
  | .negotiationResponse _ => NegotiationResponse.layout
  | .negotiationReject _ => NegotiationReject.layout
  | .topic _ => Topic.layout
  | .establish _ => Establish.layout
  | .establishmentAck _ => EstablishmentAck.layout
  | .establishmentReject _ => EstablishmentReject.layout
  | .sequence _ => Sequence.layout
  | .context _ => Context.layout
  | .unsequencedHeartbeat => UnsequencedHeartbeat.layout
  | .retransmitRequest _ => RetransmitRequest.layout
  | .retransmission _ => Retransmission.layout
  | .retransmitReject _ => RetransmitReject.layout
  | .terminate _ => Terminate.layout
  | .finishedSending _ => FinishedSending.layout
  | .finishedReceiving _ => FinishedReceiving.layout
  | .applied _ => Applied.layout
  | .notApplied _ => NotApplied.layout
  | .messageTemplate _ => MessageTemplate.layout

/-- The session a message is about, if it names one. -/
def sessionId : SessionMessage → Option SessionId
  | .negotiate message => some message.sessionId
  | .negotiationResponse message => some message.sessionId
  | .negotiationReject message => some message.sessionId
  | .topic message => some message.sessionId
  | .establish message => some message.sessionId
  | .establishmentAck message => some message.sessionId
  | .establishmentReject message => some message.sessionId
  | .context message => some message.sessionId
  | .retransmitRequest message => some message.sessionId
  | .retransmission message => some message.sessionId
  | .retransmitReject message => some message.sessionId
  | .terminate message => some message.sessionId
  | .finishedSending message => some message.sessionId
  | .finishedReceiving message => some message.sessionId
  | .sequence _ | .unsequencedHeartbeat | .applied _ | .notApplied _ | .messageTemplate _ => none

end SessionMessage

end IronFix.Fixp
