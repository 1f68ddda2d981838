import IronFix.Fixp.Role

/-!
# The FIXP client
-/

namespace IronFix.Fixp

inductive ClientClosed where
  | negotiationRejected
  | negotiationTimedOut
  | unnegotiated
  | protocolViolation
  | transportClosed
  | finalized
  deriving DecidableEq, Repr

inductive ClientState where
  | idle
  | negotiating (request : Nanotime) (sentAt : Nat)
  | negotiated (session : Session)
  | establishing (session : Session) (request : Nanotime) (sentAt : Nat)
  | bound (session : Session) (binding : Binding)
  | closed (reason : ClientClosed)

def ClientState.status : ClientState → SessionStatus
  | .idle => .idle
  | .negotiating .. => .negotiating
  | .negotiated _ => .negotiated
  | .establishing .. => .establishing
  | .bound _ binding => binding.status
  | .closed .finalized => .finalized
  | .closed _ => .closed

structure FixpClient where
  core : Core
  sessionId : SessionId
  flow : FlowType
  credentials : Option Credentials
  state : ClientState

namespace FixpClient

def new (config : FixpConfig) (clock : ClockAnchor) (sessionId : SessionId) (flow : FlowType)
    (credentials : Option Credentials) : FixpClient :=
  ⟨.new config (.new clock), sessionId, flow, credentials, .idle⟩

def status (client : FixpClient) : SessionStatus := client.state.status

def session (client : FixpClient) : Option Session :=
  match client.state with
  | .negotiated session | .establishing session _ _ | .bound session _ => some session
  | .idle | .negotiating .. | .closed _ => none

def onCore (change : Core → Core) (client : FixpClient) : FixpClient :=
  { client with core := change client.core }

def setState (state : ClientState) (client : FixpClient) : FixpClient := { client with state }

/-! ## Transitions out of a binding -/

def unbound (session : Session) (client : FixpClient) : FixpClient :=
  if session.finalized then
    (client.onCore (·.event (.sessionFinalized session.id))).setState (.closed .finalized)
  else client.setState (.negotiated session)

/-- The client after a handler of its bound session. -/
def settle (client : FixpClient) (turn : Turn) : FixpClient :=
  let kept := { client with core := turn.1.core }
  match turn.2 with
  | .stay => kept.setState (.bound turn.1.session turn.1.binding)
  | .unbind => kept.unbound turn.1.session

def afterUnboundFailure : ClientState → ClientState
  | .negotiating .. => .closed .protocolViolation
  | .establishing session _ _ => .negotiated session
  | other => other

def violation (reason : String) (client : FixpClient) : FixpClient :=
  match client.state with
  | .bound session binding =>
    client.settle (BoundParts.violation reason ⟨client.core, session, binding⟩)
  | .closed _ => client
  | .idle | .negotiating .. | .negotiated _ | .establishing .. =>
    (client.onCore (·.violationUnbound reason)).setState (afterUnboundFailure client.state)

def applicationBeforeEstablished (client : FixpClient) : FixpClient :=
  if client.core.transportClosing then
    client.onCore (·.ignore APPLICATION_MESSAGE "the transport is closing")
  else
    match client.state with
    | .closed _ => client.onCore (·.ignore APPLICATION_MESSAGE "the session is closed")
    | _ => client.violation "application message before establishment"

instance : Role FixpClient where
  core := FixpClient.core
  setCore client core := { client with core }
  status := FixpClient.status
  boundParts client :=
    match client.state with
    | .bound session binding => some ⟨client.core, session, binding⟩
    | _ => none
  settle := settle
  applicationBeforeEstablished := applicationBeforeEstablished

/-! ## Commands -/

def negotiate (now : Nat) (client : FixpClient) : Except FixpError FixpClient :=
  if client.core.transportClosing then .error (.transportClosing "negotiate")
  else
    match client.state with
    | .idle =>
      match client.core.requestTimestamp now with
      | none => .error .clockOutOfRange
      | some (request, core) =>
        .ok (({ client with core }.onCore (·.send (.negotiate
          ⟨client.sessionId, request, client.flow, client.credentials⟩))).setState
            (.negotiating request now))
    | _ => .error (.invalidState "negotiate" client.status)

def establish (now : Nat) (client : FixpClient) : Except FixpError FixpClient :=
  if client.core.transportClosing then .error (.transportClosing "establish")
  else
    match client.state with
    | .negotiated session =>
      match client.core.requestTimestamp now with
      | none => .error .clockOutOfRange
      | some (request, core) =>
        .ok (({ client with core }.onCore (·.send (.establish
          { sessionId := client.sessionId
            timestamp := request
            keepaliveInterval := client.core.config.keepaliveMillis
            nextSeqNo := session.announcedNextSeq
            credentials := client.credentials }))).setState (.establishing session request now))
    | _ => .error (.invalidState "establish" client.status)

/-! ## Messages -/

def onNegotiationResponse (m : NegotiationResponse) (client : FixpClient) : FixpClient :=
  match client.state with
  | .negotiating request _ =>
    if m.sessionId ≠ client.sessionId ∨ m.requestTimestamp ≠ request then
      client.onCore (·.ignore NegotiationResponse.layout.name
        "session id or request timestamp does not match the Negotiate")
    else if client.flow = .none ∧ m.serverFlow = .none then
      (client.onCore (·.violationUnbound "both flows of the session are None")).setState
        (.closed .protocolViolation)
    else
      (client.onCore (·.event (.negotiated client.sessionId client.flow m.serverFlow))).setState
        (.negotiated (.new client.sessionId client.flow m.serverFlow))
  | _ => client.onCore (·.ignore NegotiationResponse.layout.name "no Negotiate is outstanding")

def onNegotiationReject (m : NegotiationReject) (client : FixpClient) : FixpClient :=
  match client.state with
  | .negotiating request _ =>
    if m.sessionId ≠ client.sessionId ∨ m.requestTimestamp ≠ request then
      client.onCore (·.ignore NegotiationReject.layout.name
        "session id or request timestamp does not match the Negotiate")
    else
      (client.onCore fun core =>
        (core.event (.negotiationRejected m.code m.reason)).closeTransport).setState
          (.closed .negotiationRejected)
  | _ => client.onCore (·.ignore NegotiationReject.layout.name "no Negotiate is outstanding")

/-- The client binds on the Ack that answers its Establish. -/
def bindOnAck (session : Session) (m : EstablishmentAck) (now : Nat) (client : FixpClient) :
    FixpClient :=
  let remote := fromMillis m.keepaliveInterval.toNat
  let (session, binding) := session.bind now client.core.config.keepaliveInterval remote
  let parts : BoundParts := ⟨client.core, session, binding⟩
  let turn :=
    if client.core.config.acceptsPeerKeepalive m.keepaliveInterval then
      (parts.event (.established remote (m.nextSeqNo.map UInt64.toNat))).onEstablished
        m.nextSeqNo now
    else parts.violation "server keepalive interval out of the accepted range"
  let kept := { client with core := turn.1.core }
  match turn.2 with
  | .stay => kept.setState (.bound turn.1.session turn.1.binding)
  | .unbind => kept.setState (.negotiated turn.1.session)

def onEstablishmentAck (m : EstablishmentAck) (now : Nat) (client : FixpClient) : FixpClient :=
  match client.state with
  | .establishing session request _ =>
    if m.sessionId ≠ client.sessionId ∨ m.requestTimestamp ≠ request then
      client.onCore (·.ignore EstablishmentAck.layout.name
        "session id or request timestamp does not match the Establish")
    else client.bindOnAck session m now
  | _ => client.onCore (·.ignore EstablishmentAck.layout.name "no Establish is outstanding")

def onEstablishmentReject (m : EstablishmentReject) (client : FixpClient) : FixpClient :=
  match client.state with
  | .establishing session request _ =>
    if m.sessionId ≠ client.sessionId ∨ m.requestTimestamp ≠ request then
      client.onCore (·.ignore EstablishmentReject.layout.name
        "session id or request timestamp does not match the Establish")
    else
      (client.onCore (·.event (.establishmentRejected m.code m.reason))).setState
        (if m.code = .unnegotiated then .closed .unnegotiated else .negotiated session)
  | _ => client.onCore (·.ignore EstablishmentReject.layout.name "no Establish is outstanding")

def onHandshake (message : HandshakeMessage) (now : Nat) (client : FixpClient) : FixpClient :=
  match message with
  | .negotiationResponse m => client.onNegotiationResponse m
  | .negotiationReject m => client.onNegotiationReject m
  | .establishmentAck m => client.onEstablishmentAck m now
  | .establishmentReject m => client.onEstablishmentReject m
  | .negotiate _ | .establish _ => client.violation "a client-only message sent by the server"

def onPeer (message : PeerMessage) (now : Nat) (client : FixpClient) : FixpClient :=
  match client.state with
  | .bound session binding =>
    client.settle (BoundParts.onPeer message now ⟨client.core, session, binding⟩)
  | .closed _ => client
  | .idle | .negotiating .. | .negotiated _ | .establishing .. =>
    match message with
    | .messageTemplate => client
    | .terminate m =>
      (client.onCore fun core =>
        (core.event (.terminated m.code m.reason .peer)).closeTransport).setState
          (afterUnboundFailure client.state)
    | _ => client.violation "session message before establishment"

def handleMessage (message : SessionMessage) (now : Nat) (client : FixpClient) : FixpClient :=
  if client.core.transportClosing then
    client.onCore (·.ignore message.layout.name "the transport is closing")
  else
    match classify message with
    | .handshake message => client.onHandshake message now
    | .peer message => client.onPeer message now

/-! ## Time and transports -/

def handleTimeout (now : Nat) (client : FixpClient) : FixpClient :=
  let handshakeTimeout := client.core.config.handshakeTimeout
  match client.state with
  | .negotiating _ sentAt =>
    if elapsed sentAt handshakeTimeout now then
      (client.onCore fun core =>
        (core.event (.handshakeTimedOut .negotiation)).closeTransport).setState
          (.closed .negotiationTimedOut)
    else client
  | .establishing session _ sentAt =>
    if elapsed sentAt handshakeTimeout now then
      (client.onCore fun core =>
        (core.event (.handshakeTimedOut .establishment)).closeTransport).setState
          (.negotiated session)
    else client
  | .bound session binding =>
    client.settle (BoundParts.onTimeout now ⟨client.core, session, binding⟩)
  | .idle | .negotiated _ | .closed _ => client

def onTransportClosed (client : FixpClient) : FixpClient :=
  let freed := client.onCore Core.transportClosed
  match client.state with
  | .idle => freed
  | .negotiating .. => (freed.onCore (·.event .transportClosed)).setState (.closed .transportClosed)
  | .negotiated session | .establishing session _ _ =>
    (freed.onCore (·.event .transportClosed)).setState (.negotiated session)
  | .bound session _ => (freed.onCore (·.event .transportClosed)).unbound session.releaseBindingState
  | .closed _ => freed

end FixpClient

/-- What the driver calls on a client. -/
inductive ClientCall where
  | negotiate (now : Nat)
  | establish (now : Nat)
  | message (message : SessionMessage) (now : Nat)
  | applicationMessage (now : Nat)
  | timeout (now : Nat)
  | transportClosed
  | command (command : Command)

/-- The client unless the call fails. -/
def FixpClient.attempt (client : FixpClient) : Except FixpError FixpClient → Reply × FixpClient
  | .ok changed => (.done, changed)
  | .error error => (.failed error, client)

def FixpClient.call (client : FixpClient) : ClientCall → Reply × FixpClient
  | .negotiate now => client.attempt (client.negotiate now)
  | .establish now => client.attempt (client.establish now)
  | .message message now => (.done, client.handleMessage message now)
  | .applicationMessage now =>
    let (delivery, client) := Role.onApplicationMessage now client
    (.delivered delivery, client)
  | .timeout now => (.done, client.handleTimeout now)
  | .transportClosed => (.done, client.onTransportClosed)
  | .command command => Role.command command client

/-- The application messages a call hands over. -/
def FixpClient.receipts (client : FixpClient) : ClientCall → List (Option Nat × Bool)
  | .message message now => Role.messageReceipts message now client
  | .applicationMessage now => (Role.onApplicationMessage now client).1.receipts
  | _ => []

end IronFix.Fixp
