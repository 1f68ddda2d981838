import IronFix.Fixp.Role

/-!
# The FIXP server
-/

namespace IronFix.Fixp

inductive ServerClosed where
  | negotiationRejected
  | handshakeTimedOut
  | protocolViolation
  | transportClosed
  | finalized (sessionId : SessionId)
  deriving DecidableEq

inductive ServerState where
  | awaitingNegotiate (since : Nat)
  | negotiationPending (sessionId : SessionId) (request : Nanotime) (clientFlow : FlowType)
      (deadline : Option Nat)
  | negotiated (session : Session) (deadline : Option Nat)
  | establishPending (session : Session) (request : Nanotime) (keepalive : UInt32)
      (nextSeqNo : Option UInt64) (deadline : Option Nat)
  | bound (session : Session) (binding : Binding)
  | closed (reason : ServerClosed)

def ServerState.status : ServerState → SessionStatus
  | .awaitingNegotiate _ => .awaitingNegotiate
  | .negotiationPending .. => .negotiationPending
  | .negotiated .. => .negotiated
  | .establishPending .. => .establishPending
  | .bound _ binding => binding.status
  | .closed (.finalized _) => .finalized
  | .closed _ => .closed

structure FixpServer where
  core : Core
  state : ServerState

namespace FixpServer

def new (config : FixpConfig) (clock : ClockAnchor) (now : Nat) : FixpServer :=
  ⟨.new config (.new clock), .awaitingNegotiate now⟩

def status (server : FixpServer) : SessionStatus := server.state.status

def session (server : FixpServer) : Option Session :=
  match server.state with
  | .negotiated session _ | .establishPending session _ _ _ _ | .bound session _ => some session
  | .awaitingNegotiate _ | .negotiationPending .. | .closed _ => none

def onCore (change : Core → Core) (server : FixpServer) : FixpServer :=
  { server with core := change server.core }

def setState (state : ServerState) (server : FixpServer) : FixpServer := { server with state }

/-! ## Transitions out of a binding -/

def unbound (session : Session) (server : FixpServer) : FixpServer :=
  if session.finalized then
    (server.onCore (·.event (.sessionFinalized session.id))).setState (.closed (.finalized session.id))
  else server.setState (.negotiated session none)

/-- The server after a handler of its bound session. -/
def settle (server : FixpServer) (turn : Turn) : FixpServer :=
  let kept := { server with core := turn.1.core }
  match turn.2 with
  | .stay => kept.setState (.bound turn.1.session turn.1.binding)
  | .unbind => kept.unbound turn.1.session

def afterUnboundFailure : ServerState → ServerState
  | .awaitingNegotiate _ | .negotiationPending .. => .closed .protocolViolation
  | .negotiated session _ | .establishPending session _ _ _ _ => .negotiated session none
  | other => other

def violation (reason : String) (server : FixpServer) : FixpServer :=
  match server.state with
  | .bound session binding =>
    server.settle (BoundParts.violation reason ⟨server.core, session, binding⟩)
  | .closed _ => server
  | .awaitingNegotiate _ | .negotiationPending .. | .negotiated .. | .establishPending .. =>
    (server.onCore (·.violationUnbound reason)).setState (afterUnboundFailure server.state)

def applicationBeforeEstablished (server : FixpServer) : FixpServer :=
  if server.core.transportClosing then
    server.onCore (·.ignore APPLICATION_MESSAGE "the transport is closing")
  else
    match server.state with
    | .closed _ => server.onCore (·.ignore APPLICATION_MESSAGE "the session is closed")
    | _ => server.violation "application message before establishment"

instance : Role FixpServer where
  core := FixpServer.core
  setCore server core := { server with core }
  status := FixpServer.status
  boundParts server :=
    match server.state with
    | .bound session binding => some ⟨server.core, session, binding⟩
    | _ => none
  settle := settle
  applicationBeforeEstablished := applicationBeforeEstablished

/-! ## The application's answers -/

def acceptNegotiation (serverFlow : FlowType) (credentials : Option Credentials) (now : Nat)
    (server : FixpServer) : Except FixpError FixpServer :=
  match server.state with
  | .negotiationPending sessionId request clientFlow _ =>
    if clientFlow = .none ∧ serverFlow = .none then .error .bothFlowsNone
    else
      .ok ((server.onCore fun core =>
        (core.send (.negotiationResponse ⟨sessionId, request, serverFlow, credentials⟩)).event
          (.negotiated sessionId clientFlow serverFlow)).setState
            (.negotiated (.new sessionId serverFlow clientFlow)
              (some (now + server.core.config.handshakeTimeout))))
  | _ => .error (.invalidState "accept_negotiation" server.status)

def rejectNegotiation (code : NegotiationRejectCode) (reason : String) (server : FixpServer) :
    Except FixpError FixpServer := do
  checkReason reason
  match server.state with
  | .negotiationPending sessionId request _ _ =>
    .ok ((server.onCore fun core =>
      (core.send (.negotiationReject ⟨sessionId, request, code, reason⟩)).closeTransport).setState
        (.closed .negotiationRejected))
  | _ => .error (.invalidState "reject_negotiation" server.status)

/-- The server binds as it sends the Ack. -/
def bindWithAck (session : Session) (request : Nanotime) (keepalive : UInt32)
    (nextSeqNo : Option UInt64) (now : Nat) (server : FixpServer) : FixpServer :=
  let remote := fromMillis keepalive.toNat
  let (session, binding) := session.bind now server.core.config.keepaliveInterval remote
  let parts : BoundParts := ⟨server.core, session, binding⟩
  let turn :=
    ((parts.send (.establishmentAck
      { sessionId := session.id
        requestTimestamp := request
        keepaliveInterval := server.core.config.keepaliveMillis
        nextSeqNo := session.announcedNextSeq })).event
      (.established remote (nextSeqNo.map UInt64.toNat))).onEstablished nextSeqNo now
  let kept := { server with core := turn.1.core }
  match turn.2 with
  | .stay => kept.setState (.bound turn.1.session turn.1.binding)
  | .unbind => kept.setState (.negotiated turn.1.session none)

def acceptEstablishment (now : Nat) (server : FixpServer) : Except FixpError FixpServer :=
  match server.state with
  | .establishPending session request keepalive nextSeqNo _ =>
    .ok (server.bindWithAck session request keepalive nextSeqNo now)
  | _ => .error (.invalidState "accept_establishment" server.status)

def rejectEstablishment (code : EstablishmentRejectCode) (reason : String) (now : Nat)
    (server : FixpServer) : Except FixpError FixpServer := do
  checkReason reason
  match server.state with
  | .establishPending session request _ _ _ =>
    .ok ((server.onCore (·.send (.establishmentReject ⟨session.id, request, code, reason⟩))).setState
      (.negotiated session (some (now + server.core.config.handshakeTimeout))))
  | _ => .error (.invalidState "reject_establishment" server.status)

/-! ## Messages -/

def refuseNegotiate (m : Negotiate) (code : NegotiationRejectCode) (reason : String) (core : Core) :
    Core :=
  (core.send (.negotiationReject ⟨m.sessionId, m.timestamp, code, reason⟩)).event
    (.refused NegotiationReject.layout.name reason)

def refuseRenegotiation (session : Session) (m : Negotiate) (core : Core) : Core :=
  if m.sessionId = session.id then refuseNegotiate m .duplicateId "session already negotiated" core
  else refuseNegotiate m .unspecified "multiplexed sessions are not supported" core

def refuseEstablish (m : Establish) (code : EstablishmentRejectCode) (reason : String)
    (core : Core) : Core :=
  (core.send (.establishmentReject ⟨m.sessionId, m.timestamp, code, reason⟩)).event
    (.refused EstablishmentReject.layout.name reason)

def onNegotiate (m : Negotiate) (now : Nat) (server : FixpServer) : FixpServer :=
  match server.state with
  | .awaitingNegotiate _ =>
    if m.sessionId.isNil then
      (server.onCore fun core =>
        (refuseNegotiate m .unspecified "invalid session id" core).closeTransport).setState
          (.closed .negotiationRejected)
    else
      (server.onCore (·.event (.negotiateReceived m.sessionId m.clientFlow))).setState
        (.negotiationPending m.sessionId m.timestamp m.clientFlow
          (some (now + server.core.config.handshakeTimeout)))
  | .negotiationPending .. => server.violation "Negotiate while a Negotiate is pending"
  | .negotiated session _ | .establishPending session _ _ _ _ =>
    (server.onCore (refuseRenegotiation session m)).violation "Negotiate on a negotiated session"
  | .bound session binding =>
    if binding.status = .established then
      (server.onCore (refuseRenegotiation session m)).violation "Negotiate on an established session"
    else server.onCore (·.ignore Negotiate.layout.name "the transport is being unbound")
  | .closed (.finalized sessionId) =>
    if m.sessionId = sessionId then
      server.onCore fun core =>
        (refuseNegotiate m .duplicateId "session finalized" core).violationUnbound
          "Negotiate for a finalized session"
    else server
  | .closed _ => server

/-- An Establish for the negotiated session. -/
def onEstablishNegotiated (session : Session) (deadline : Option Nat) (m : Establish) (now : Nat)
    (server : FixpServer) : FixpServer :=
  if m.sessionId ≠ session.id then
    (server.onCore fun core =>
      (refuseEstablish m .unnegotiated "unknown session" core).violationUnbound
        "Establish for a session not negotiated").setState (.negotiated session none)
  else if !server.core.config.acceptsPeerKeepalive m.keepaliveInterval then
    (server.onCore (refuseEstablish m .keepaliveInterval
      "keepalive interval out of the accepted range")).setState (.negotiated session deadline)
  else if session.remoteFlow.isSequenced ∧ m.nextSeqNo = some 0 then
    (server.onCore (refuseEstablish m .unspecified "NextSeqNo of zero")).setState
      (.negotiated session deadline)
  else if session.regresses m.nextSeqNo then
    (server.onCore (refuseEstablish m .unspecified "NextSeqNo lower than expected")).setState
      (.negotiated session deadline)
  else
    (server.onCore (·.event (.establishReceived m.sessionId (fromMillis m.keepaliveInterval.toNat)
      (m.nextSeqNo.map UInt64.toNat)))).setState
        (.establishPending session m.timestamp m.keepaliveInterval m.nextSeqNo
          (some (now + server.core.config.handshakeTimeout)))

def onEstablish (m : Establish) (now : Nat) (server : FixpServer) : FixpServer :=
  match server.state with
  | .awaitingNegotiate _ =>
    (server.onCore fun core =>
      (refuseEstablish m .unnegotiated "establish without negotiation" core).violationUnbound
        "Establish without a successful negotiation").setState (.closed .protocolViolation)
  | .negotiationPending .. => server.violation "Establish before the negotiation was answered"
  | .negotiated session deadline => server.onEstablishNegotiated session deadline m now
  | .establishPending .. => server.violation "Establish while an Establish is pending"
  | .bound _ binding =>
    if binding.status = .established then
      server.onCore (refuseEstablish m .alreadyEstablished "session already established")
    else server.onCore (·.ignore Establish.layout.name "the transport is being unbound")
  | .closed (.finalized sessionId) =>
    if m.sessionId = sessionId then
      server.onCore fun core =>
        (refuseEstablish m .unnegotiated "session finalized" core).violationUnbound
          "Establish for a finalized session"
    else server
  | .closed _ => server

def onHandshake (message : HandshakeMessage) (now : Nat) (server : FixpServer) : FixpServer :=
  match message with
  | .negotiate m => server.onNegotiate m now
  | .establish m => server.onEstablish m now
  | .negotiationResponse _ | .negotiationReject _ | .establishmentAck _ | .establishmentReject _ =>
    server.violation "a server-only message sent by the client"

def onPeer (message : PeerMessage) (now : Nat) (server : FixpServer) : FixpServer :=
  match server.state with
  | .bound session binding =>
    server.settle (BoundParts.onPeer message now ⟨server.core, session, binding⟩)
  | .closed _ => server
  | .awaitingNegotiate _ | .negotiationPending .. | .negotiated .. | .establishPending .. =>
    match message with
    | .messageTemplate => server
    | .terminate m =>
      (server.onCore fun core =>
        (core.event (.terminated m.code m.reason .peer)).closeTransport).setState
          (afterUnboundFailure server.state)
    | _ => server.violation "session message before establishment"

def handleMessage (message : SessionMessage) (now : Nat) (server : FixpServer) : FixpServer :=
  if server.core.transportClosing then
    server.onCore (·.ignore message.layout.name "the transport is closing")
  else
    match classify message with
    | .handshake message => server.onHandshake message now
    | .peer message => server.onPeer message now

/-! ## Time and transports -/

/-- Arms the Establish deadline of a negotiated session on its new transport. -/
def onTransportOpened (now : Nat) (server : FixpServer) : Except FixpError FixpServer :=
  if server.core.transportClosing then .error (.transportClosing "on_transport_opened")
  else
    match server.state with
    | .negotiated session none =>
      .ok (server.setState (.negotiated session (some (now + server.core.config.handshakeTimeout))))
    | _ => .error (.invalidState "on_transport_opened" server.status)

def handleTimeout (now : Nat) (server : FixpServer) : FixpServer :=
  match server.state with
  | .awaitingNegotiate since =>
    if elapsed since server.core.config.handshakeTimeout now then
      (server.onCore fun core =>
        (core.event (.handshakeTimedOut .negotiation)).closeTransport).setState
          (.closed .handshakeTimedOut)
    else server
  | .negotiated session deadline =>
    if deadline.any (· ≤ now) then
      (server.onCore fun core =>
        (core.event (.handshakeTimedOut .establishment)).closeTransport).setState
          (.negotiated session none)
    else server
  | .negotiationPending sessionId request _ deadline =>
    if deadline.any (· ≤ now) then
      (server.onCore fun core =>
        ((core.send (.negotiationReject
          ⟨sessionId, request, .unspecified, "negotiation not answered in time"⟩)).event
            (.handshakeTimedOut .negotiation)).closeTransport).setState (.closed .handshakeTimedOut)
    else server
  | .establishPending session request _ _ deadline =>
    if deadline.any (· ≤ now) then
      (server.onCore fun core =>
        ((core.send (.establishmentReject
          ⟨session.id, request, .unspecified, "establishment not answered in time"⟩)).event
            (.handshakeTimedOut .establishment)).closeTransport).setState (.negotiated session none)
    else server
  | .bound session binding =>
    server.settle (BoundParts.onTimeout now ⟨server.core, session, binding⟩)
  | .closed _ => server

def onTransportClosed (server : FixpServer) : FixpServer :=
  let freed := server.onCore Core.transportClosed
  match server.state with
  | .awaitingNegotiate _ | .negotiationPending .. =>
    (freed.onCore (·.event .transportClosed)).setState (.closed .transportClosed)
  | .negotiated session _ | .establishPending session _ _ _ _ =>
    (freed.onCore (·.event .transportClosed)).setState (.negotiated session none)
  | .bound session _ => (freed.onCore (·.event .transportClosed)).unbound session.releaseBindingState
  | .closed _ => freed

end FixpServer

/-- What the driver calls on a server. -/
inductive ServerCall where
  | acceptNegotiation (serverFlow : FlowType) (credentials : Option Credentials) (now : Nat)
  | rejectNegotiation (code : NegotiationRejectCode) (reason : String)
  | acceptEstablishment (now : Nat)
  | rejectEstablishment (code : EstablishmentRejectCode) (reason : String) (now : Nat)
  | transportOpened (now : Nat)
  | message (message : SessionMessage) (now : Nat)
  | applicationMessage (now : Nat)
  | timeout (now : Nat)
  | transportClosed
  | command (command : Command)

/-- The server unless the call fails. -/
def FixpServer.attempt (server : FixpServer) : Except FixpError FixpServer → Reply × FixpServer
  | .ok changed => (.done, changed)
  | .error error => (.failed error, server)

def FixpServer.call (server : FixpServer) : ServerCall → Reply × FixpServer
  | .acceptNegotiation serverFlow credentials now =>
    server.attempt (server.acceptNegotiation serverFlow credentials now)
  | .rejectNegotiation code reason => server.attempt (server.rejectNegotiation code reason)
  | .acceptEstablishment now => server.attempt (server.acceptEstablishment now)
  | .rejectEstablishment code reason now =>
    server.attempt (server.rejectEstablishment code reason now)
  | .transportOpened now => server.attempt (server.onTransportOpened now)
  | .message message now => (.done, server.handleMessage message now)
  | .applicationMessage now =>
    let (delivery, server) := Role.onApplicationMessage now server
    (.delivered delivery, server)
  | .timeout now => (.done, server.handleTimeout now)
  | .transportClosed => (.done, server.onTransportClosed)
  | .command command => Role.command command server

/-- The application messages a call hands over. -/
def FixpServer.receipts (server : FixpServer) : ServerCall → List (Option Nat × Bool)
  | .message message now => Role.messageReceipts message now server
  | .applicationMessage now => (Role.onApplicationMessage now server).1.receipts
  | _ => []

end IronFix.Fixp
