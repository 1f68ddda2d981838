import IronFix.Fixp.Handlers

/-!
# What the two roles share

The calls of a bound session, the same for the client and the server. A call
that fails leaves its role as it was.
-/

namespace IronFix.Fixp

/-- What the shared calls need of a role. -/
class Role (R : Type) where
  core : R → Core
  setCore : R → Core → R
  status : R → SessionStatus
  /-- The parts of the bound session, if there is one. -/
  boundParts : R → Option BoundParts
  /-- Takes back the parts a handler borrowed. -/
  settle : R → Turn → R
  applicationBeforeEstablished : R → R

/-- The commands on a bound session. -/
inductive Command where
  | sendApplication (now : Nat)
  | terminate (code : TerminationCode) (reason : String) (now : Nat)
  | retransmit (count : NonZero u32Max) (now : Nat)
  | rejectRetransmitRequest (code : RetransmitRejectCode) (reason : String)
  | endRetransmission

/-- What a call answers. -/
inductive Reply where
  | done
  | failed (error : FixpError)
  | delivered (delivery : Delivery)
  | numbered (seq : Option Nat)
  | batch (batch : RetransmitBatch)
  deriving DecidableEq

/-- Whether the driver goes on to write application messages. -/
def Reply.writes : Reply → Bool
  | .numbered _ | .batch _ => true
  | .done | .failed _ | .delivered _ => false

/-- The outcome of a command on the parts it borrows. -/
def Command.onParts (command : Command) (parts : BoundParts) : Except FixpError (Reply × Turn) :=
  match command with
  | .sendApplication now =>
    (parts.numberApplication now).map fun (seq, parts) => (.numbered seq, parts, .stay)
  | .terminate code reason now => (parts.terminate code reason now).map fun turn => (.done, turn)
  | .retransmit count now =>
    (parts.retransmit count now).map fun (batch, parts) => (.batch batch, parts, .stay)
  | .rejectRetransmitRequest code reason =>
    (parts.rejectRetransmitRequest code reason).map fun parts => (.done, parts, .stay)
  | .endRetransmission => parts.endRetransmission.map fun parts => (.done, parts, .stay)

def Command.operation : Command → String
  | .sendApplication _ => "send_application"
  | .terminate .. => "terminate"
  | .retransmit .. => "retransmit"
  | .rejectRetransmitRequest .. => "reject_retransmit_request"
  | .endRetransmission => "end_retransmission"

namespace Role

variable {R : Type} [Role R]

def onApplicationMessage (now : Nat) (role : R) : Delivery × R :=
  match boundParts role with
  | some parts =>
    if parts.core.transportClosing then
      (.discard, settle role (parts.ignore APPLICATION_MESSAGE "the transport is closing", .stay))
    else
      let (delivery, turn) := parts.onApplication now
      (delivery, settle role turn)
  | none => (.discard, applicationBeforeEstablished role)

/-- What a session message hands over: it may itself be an application message. -/
def messageReceipts (message : SessionMessage) (now : Nat) (role : R) : List (Option Nat × Bool) :=
  if (core role).transportClosing then []
  else
    match boundParts role, classify message with
    | some parts, .peer message => (parts.peerDelivery message now).receipts
    | _, _ => []

def command (command : Command) (role : R) : Reply × R :=
  match boundParts role with
  | some parts =>
    match command.onParts parts with
    | .ok (reply, turn) => (reply, settle role turn)
    | .error error => (.failed error, role)
  | none => (.failed (.invalidState command.operation (status role)), role)

def pollOutput (role : R) : Option Output × R :=
  ((core role).pollOutput.1, setCore role (core role).pollOutput.2)

/-- The outputs of a call, drained after it. -/
def drain (role : R) : List Output × R := ((core role).drain.1, setCore role (core role).drain.2)

end Role

/-- Whether the timeout has passed. -/
def elapsed (since timeout now : Nat) : Bool := since + timeout ≤ now

end IronFix.Fixp
