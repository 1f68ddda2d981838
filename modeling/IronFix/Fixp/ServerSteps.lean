import IronFix.Fixp.Server
import IronFix.Fixp.Runs

/-!
# What a call does to a server
-/

namespace IronFix.Fixp

def Event.establishes : Event → Bool
  | .established .. => true
  | _ => false

/-- What a server says of a handshake it refuses. -/
inductive Refusing (core : Core) : Core → Prop where
  | silent : Refusing core core
  | event {said : Core} (event : Event) (other : event.establishes = false)
      (refusing : Refusing core said) : Refusing core (said.event event)
  | negotiation {said : Core} (m : NegotiationReject) (refusing : Refusing core said) :
      Refusing core (said.send (.negotiationReject m))
  | establishment {said : Core} (m : EstablishmentReject) (refusing : Refusing core said) :
      Refusing core (said.send (.establishmentReject m))

namespace FixpServer

/-- Whether the server waits for an answer on its transport. -/
def armed (server : FixpServer) : Bool :=
  match server.state with
  | .awaitingNegotiate _ | .negotiationPending .. | .establishPending .. => true
  | .negotiated _ deadline => deadline.isSome
  | .bound .. | .closed _ => false

/-- Where an unbound server goes when it closes its transport. -/
inductive LostTo : ServerState → ServerState → Prop where
  | awaiting {since : Nat} {reason : ServerClosed} (alive : ∀ id, reason ≠ .finalized id) :
      LostTo (.awaitingNegotiate since) (.closed reason)
  | pending {id : SessionId} {request : Nanotime} {flow : FlowType} {deadline : Option Nat}
      {reason : ServerClosed} (alive : ∀ id, reason ≠ .finalized id) :
      LostTo (.negotiationPending id request flow deadline) (.closed reason)
  | negotiated {session : Session} {deadline : Option Nat} :
      LostTo (.negotiated session deadline) (.negotiated session none)
  | establishing {session : Session} {request : Nanotime} {keepalive : UInt32}
      {nextSeqNo : Option UInt64} {deadline : Option Nat} :
      LostTo (.establishPending session request keepalive nextSeqNo deadline)
        (.negotiated session none)
  /-- A finalized session stays so. -/
  | finalized {id : SessionId} : LostTo (.closed (.finalized id)) (.closed (.finalized id))

/-- Where a server goes when its transport is gone. -/
inductive DetachedTo : ServerState → ServerState → Prop where
  | awaiting {since : Nat} : DetachedTo (.awaitingNegotiate since) (.closed .transportClosed)
  | pending {id : SessionId} {request : Nanotime} {flow : FlowType} {deadline : Option Nat} :
      DetachedTo (.negotiationPending id request flow deadline) (.closed .transportClosed)
  | negotiated {session : Session} {deadline : Option Nat} :
      DetachedTo (.negotiated session deadline) (.negotiated session none)
  | establishing {session : Session} {request : Nanotime} {keepalive : UInt32}
      {nextSeqNo : Option UInt64} {deadline : Option Nat} :
      DetachedTo (.establishPending session request keepalive nextSeqNo deadline)
        (.negotiated session none)
  | closed {reason : ServerClosed} : DetachedTo (.closed reason) (.closed reason)

/-- The transport is gone. -/
inductive Detach (server : FixpServer) : FixpServer → Prop where
  | detached {state : ServerState} {told : Core → Core}
      (quiet : told = id ∨ told = (·.event .transportClosed)) (next : DetachedTo server.state state) :
      Detach server ((server.onCore fun core => told core.transportClosed).setState state)
  | unbound {session : Session} {binding : Binding} (was : server.state = .bound session binding) :
      Detach server ((server.onCore fun core => core.transportClosed.event .transportClosed).unbound
        session.releaseBindingState)

/-- A call, what is seen of it, and the server after it. -/
inductive Step (server : FixpServer) : ServerCall → List Act → FixpServer → Prop where
  | same (call : ServerCall) : Step server call [] server
  | told (call : ServerCall) (message reason : String) :
      Step server call [] (server.onCore (·.ignore message reason))
  /-- A handshake is refused and the server goes on as it was. -/
  | refused {core : Core} (call : ServerCall)
      (up : (∃ session deadline, server.state = .negotiated session deadline) ∨
        ∃ session binding, server.state = .bound session binding ∧ binding.status = .established)
      (free : server.core.transportClosing = false) (said : Refusing server.core core) :
      Step server call [] { server with core }
  | asked (m : Negotiate) (now : Nat) {since : Nat} (was : server.state = .awaitingNegotiate since) :
      Step server (.message (.negotiate m) now) []
        ((server.onCore (·.event (.negotiateReceived m.sessionId m.clientFlow))).setState
          (.negotiationPending m.sessionId m.timestamp m.clientFlow
            (some (now + server.core.config.handshakeTimeout))))
  | negotiated {id : SessionId} {request : Nanotime} {clientFlow : FlowType} {deadline : Option Nat}
      (serverFlow : FlowType) (credentials : Option Credentials) (now : Nat)
      (was : server.state = .negotiationPending id request clientFlow deadline)
      (flows : ¬(clientFlow = .none ∧ serverFlow = .none)) :
      Step server (.acceptNegotiation serverFlow credentials now) []
        ((server.onCore fun core =>
          (core.send (.negotiationResponse ⟨id, request, serverFlow, credentials⟩)).event
            (.negotiated id clientFlow serverFlow)).setState
              (.negotiated (.new id serverFlow clientFlow)
                (some (now + server.core.config.handshakeTimeout))))
  | requested {session : Session} {deadline : Option Nat} (m : Establish) (now : Nat)
      (was : server.state = .negotiated session deadline)
      (free : server.core.transportClosing = false) (names : m.sessionId = session.id)
      (admitted : server.core.config.acceptsPeerKeepalive m.keepaliveInterval = true)
      (positive : ¬(session.remoteFlow.isSequenced ∧ m.nextSeqNo = some 0))
      (onward : session.regresses m.nextSeqNo = false) :
      Step server (.message (.establish m) now) []
        ((server.onCore (·.event (.establishReceived m.sessionId
          (fromMillis m.keepaliveInterval.toNat) (m.nextSeqNo.map UInt64.toNat)))).setState
            (.establishPending session m.timestamp m.keepaliveInterval m.nextSeqNo
              (some (now + server.core.config.handshakeTimeout))))
  | acked {session : Session} {request : Nanotime} {keepalive : UInt32}
      {nextSeqNo : Option UInt64} {deadline : Option Nat} (now : Nat)
      (was : server.state = .establishPending session request keepalive nextSeqNo deadline) :
      Step server (.acceptEstablishment now) []
        (server.bindWithAck session request keepalive nextSeqNo now)
  | rejected {session : Session} {request : Nanotime} {keepalive : UInt32}
      {nextSeqNo : Option UInt64} {deadline : Option Nat} (code : EstablishmentRejectCode)
      (reason : String) (now : Nat)
      (was : server.state = .establishPending session request keepalive nextSeqNo deadline) :
      Step server (.rejectEstablishment code reason now) []
        ((server.onCore (·.send (.establishmentReject ⟨session.id, request, code, reason⟩))).setState
          (.negotiated session (some (now + server.core.config.handshakeTimeout))))
  | opened {session : Session} (now : Nat) (was : server.state = .negotiated session none)
      (free : server.core.transportClosing = false) :
      Step server (.transportOpened now) []
        (server.setState (.negotiated session (some (now + server.core.config.handshakeTimeout))))
  | lost {core : Core} {state : ServerState} (call : ServerCall) (said : Refusing server.core core)
      (free : server.core.transportClosing = false ∨ server.armed = true)
      (next : LostTo server.state state) :
      Step server call [] (({ server with core := core.closeTransport } : FixpServer).setState state)
  | ran {session : Session} {binding : Binding} {core : Core} {seen : List Act} {turn : Turn}
      (call : ServerCall)
      (was : server.state = .bound session binding)
      (said : core = server.core ∨ Refusing server.core core ∧ binding.status = .established)
      (runs : Runs ⟨core, session, binding⟩ seen turn) : Step server call seen (server.settle turn)
  | detached {server' : FixpServer} (gone : Detach server server') :
      Step server .transportClosed [] server'

/-- What is seen of a call. -/
def seen (server : FixpServer) : ServerCall → List Act
  | .message message now => Role.heardMessage message now server
  | .applicationMessage now => Role.heardApplication now server
  | .command command => (Role.command command server).1.acts
  | .acceptNegotiation .. | .rejectNegotiation .. | .acceptEstablishment _ | .rejectEstablishment ..
  | .transportOpened _ | .timeout _ | .transportClosed => []

variable (server : FixpServer) {call : ServerCall}

theorem violation_step (reason : String) (free : server.core.transportClosing = false) :
    server.Step call [] (server.violation reason) := by
  unfold violation
  split
  · rename_i session binding was
    exact .ran call was (.inl rfl) (BoundParts.violation_runs _ reason rfl)
  · exact .same call
  all_goals
    rename_i was
    rw [was]
    refine .lost call (.event _ rfl .silent) (.inl free) ?_
    rw [was]
    constructor
  all_goals simp

theorem applicationBeforeEstablished_step :
    server.Step call [] server.applicationBeforeEstablished := by
  unfold applicationBeforeEstablished
  split
  · exact .told call _ _
  · rename_i closing
    have free : server.core.transportClosing = false := by simpa using closing
    split
    · exact .told call _ _
    · exact server.violation_step _ free

theorem refuseNegotiate_refusing (m : Negotiate) (code : NegotiationRejectCode) (reason : String)
    (core : Core) : Refusing core (refuseNegotiate m code reason core) :=
  .event _ rfl (.negotiation _ .silent)

theorem refuseEstablish_refusing (m : Establish) (code : EstablishmentRejectCode) (reason : String)
    (core : Core) : Refusing core (refuseEstablish m code reason core) :=
  .event _ rfl (.establishment _ .silent)

theorem refuseRenegotiation_refusing (session : Session) (m : Negotiate) (core : Core) :
    Refusing core (refuseRenegotiation session m core) := by
  unfold refuseRenegotiation
  split
  · exact refuseNegotiate_refusing m _ _ core
  · exact refuseNegotiate_refusing m _ _ core

theorem onNegotiate_step (m : Negotiate) (now : Nat) (free : server.core.transportClosing = false) :
    server.Step (.message (.negotiate m) now) [] (server.onNegotiate m now) := by
  unfold onNegotiate
  split
  · rename_i since was
    split
    · exact .lost _ (refuseNegotiate_refusing m _ _ _) (.inl free)
        (by rw [was]; exact .awaiting (by simp))
    · exact .asked m now was
  · exact server.violation_step _ free
  · rename_i session deadline was
    unfold violation
    rw [show (server.onCore (refuseRenegotiation session m)).state = .negotiated session deadline
      from was]
    exact .lost _ (.event _ rfl (refuseRenegotiation_refusing session m _)) (.inl free)
      (by rw [was]; exact .negotiated)
  · rename_i session request keepalive nextSeqNo deadline was
    unfold violation
    rw [show (server.onCore (refuseRenegotiation session m)).state =
      .establishPending session request keepalive nextSeqNo deadline from was]
    exact .lost _ (.event _ rfl (refuseRenegotiation_refusing session m _)) (.inl free)
      (by rw [was]; exact .establishing)
  · rename_i session binding was
    split
    · rename_i up
      unfold violation
      rw [show (server.onCore (refuseRenegotiation session m)).state = .bound session binding
        from was]
      exact .ran _ was (.inr ⟨refuseRenegotiation_refusing session m server.core, up⟩)
        (BoundParts.violation_runs _ _ rfl)
    · exact .told _ _ _
  · rename_i id was
    split
    · have lost := @Step.lost server _ _ (.message (.negotiate m) now)
        (.event (.protocolViolation "Negotiate for a finalized session") rfl
          (refuseNegotiate_refusing m .duplicateId "session finalized" server.core)) (.inl free)
        (by rw [was]; exact .finalized)
      rw [← was] at lost
      exact lost
    · exact .same _
  · exact .same _

theorem onEstablishNegotiated_step {session : Session} {deadline : Option Nat} (m : Establish)
    (now : Nat) (was : server.state = .negotiated session deadline)
    (free : server.core.transportClosing = false) :
    server.Step (.message (.establish m) now) []
      (server.onEstablishNegotiated session deadline m now) := by
  have refuses (code : EstablishmentRejectCode) (reason : String) :
      server.Step (.message (.establish m) now) []
        ((server.onCore (refuseEstablish m code reason)).setState (.negotiated session deadline)) := by
    rw [← was]
    exact .refused _ (.inl ⟨session, deadline, was⟩) free (refuseEstablish_refusing m code reason _)
  unfold onEstablishNegotiated
  split
  · exact .lost _ (.event _ rfl (refuseEstablish_refusing m _ _ _)) (.inl free)
      (by rw [was]; exact .negotiated)
  · rename_i named
    split
    · exact refuses _ _
    · rename_i admitted
      split
      · exact refuses _ _
      · rename_i positive
        split
        · exact refuses _ _
        · rename_i onward
          exact .requested m now was free (not_not.mp named) (by simpa using admitted) positive
            (by simpa using onward)

theorem onEstablish_step (m : Establish) (now : Nat) (free : server.core.transportClosing = false) :
    server.Step (.message (.establish m) now) [] (server.onEstablish m now) := by
  unfold onEstablish
  split
  · rename_i since was
    exact .lost _ (.event _ rfl (refuseEstablish_refusing m _ _ _)) (.inl free)
      (by rw [was]; exact .awaiting (by simp))
  · exact server.violation_step _ free
  · rename_i session deadline was
    exact server.onEstablishNegotiated_step m now was free
  · exact server.violation_step _ free
  · rename_i session binding was
    split
    · rename_i up
      exact .refused _ (.inr ⟨session, binding, was, up⟩) free (refuseEstablish_refusing m _ _ _)
    · exact .told _ _ _
  · rename_i id was
    split
    · have lost := @Step.lost server _ _ (.message (.establish m) now)
        (.event (.protocolViolation "Establish for a finalized session") rfl
          (refuseEstablish_refusing m .unnegotiated "session finalized" server.core)) (.inl free)
        (by rw [was]; exact .finalized)
      rw [← was] at lost
      exact lost
    · exact .same _
  · exact .same _

theorem onHandshake_step (message : HandshakeMessage) (now : Nat) {sent : SessionMessage}
    (named : classify sent = .handshake message) (free : server.core.transportClosing = false) :
    server.Step (.message sent now) [] (server.onHandshake message now) := by
  cases message with
  | negotiate m =>
      cases sent <;> cases named
      exact server.onNegotiate_step m now free
  | establish m =>
      cases sent <;> cases named
      exact server.onEstablish_step m now free
  | negotiationResponse m => exact server.violation_step _ free
  | negotiationReject m => exact server.violation_step _ free
  | establishmentAck m => exact server.violation_step _ free
  | establishmentReject m => exact server.violation_step _ free

theorem boundParts_bound {session : Session} {binding : Binding}
    (was : server.state = .bound session binding) :
    Role.boundParts server = some ⟨server.core, session, binding⟩ := by
  obtain ⟨core, state⟩ := server
  obtain rfl : state = .bound session binding := was
  rfl

theorem boundParts_unbound (unbound : ∀ session binding, server.state ≠ .bound session binding) :
    Role.boundParts server = none := by
  obtain ⟨core, state⟩ := server
  cases state with
  | bound session binding => exact (unbound session binding rfl).elim
  | _ => rfl

theorem onPeer_unbound_step (message : PeerMessage) (now : Nat)
    (free : server.core.transportClosing = false)
    (unbound : ∀ session binding, server.state ≠ .bound session binding) :
    server.Step call [] (server.onPeer message now) := by
  unfold onPeer
  split
  · rename_i session binding was
    exact (unbound session binding was).elim
  · exact .same call
  all_goals
    rename_i was
    split
    · exact .same call
    · refine .lost call (.event _ rfl .silent) (.inl free) ?_
      rw [was]
      constructor <;> simp
    · exact server.violation_step _ free

theorem handleMessage_step (message : SessionMessage) (now : Nat) :
    server.Step (.message message now) (server.seen (.message message now))
      (server.handleMessage message now) := by
  unfold handleMessage
  show server.Step _ (Role.heardMessage message now server) _
  unfold Role.heardMessage
  show server.Step _ (if server.core.transportClosing then _ else _) _
  split
  · exact .told _ _ _
  · rename_i closing
    have free : server.core.transportClosing = false := by simpa using closing
    cases named : classify message with
    | handshake handshake =>
        have step := server.onHandshake_step handshake now named free
        cases Role.boundParts server with
        | none => exact step
        | some parts => exact step
    | peer peer =>
        by_cases bound : ∃ session binding, server.state = .bound session binding
        · obtain ⟨session, binding, was⟩ := bound
          rw [server.boundParts_bound was]
          have runs := BoundParts.onPeer_runs ⟨server.core, session, binding⟩ now peer
          have steps := Step.ran (.message message now) was (.inl rfl) runs
          unfold onPeer
          rw [was]
          exact steps
        · have unbound : ∀ session binding, server.state ≠ .bound session binding :=
            fun session binding was => bound ⟨session, binding, was⟩
          rw [server.boundParts_unbound unbound]
          exact server.onPeer_unbound_step peer now free unbound

theorem handleTimeout_step (now : Nat) :
    server.Step (.timeout now) [] (server.handleTimeout now) := by
  unfold handleTimeout
  split
  · rename_i since was
    split
    · exact .lost _ (.event _ rfl .silent) (.inr (by rw [armed, was]))
        (by rw [was]; exact .awaiting (by simp))
    · exact .same _
  · rename_i session deadline was
    split
    · rename_i passed
      -- only a session with a deadline can miss it
      have waits : deadline.isSome = true := by
        cases deadline with
        | none => cases passed
        | some deadline => rfl
      exact .lost _ (.event _ rfl .silent) (.inr (by rw [armed, was]; exact waits))
        (by rw [was]; exact .negotiated)
    · exact .same _
  · rename_i id request flow deadline was
    split
    · exact .lost _ (.event _ rfl (.negotiation _ .silent)) (.inr (by rw [armed, was]))
        (by rw [was]; exact .pending (by simp))
    · exact .same _
  · rename_i session request keepalive nextSeqNo deadline was
    split
    · exact .lost _ (.event _ rfl (.establishment _ .silent)) (.inr (by rw [armed, was]))
        (by rw [was]; exact .establishing)
    · exact .same _
  · rename_i session binding was
    exact .ran _ was (.inl rfl) (BoundParts.onTimeout_runs _ now)
  · exact .same _

theorem onTransportClosed_detach : server.Detach server.onTransportClosed := by
  unfold onTransportClosed
  dsimp only
  split
  · rename_i since was
    exact .detached (.inr rfl) (by rw [was]; exact .awaiting)
  · rename_i id request flow deadline was
    exact .detached (.inr rfl) (by rw [was]; exact .pending)
  · rename_i session deadline was
    exact .detached (.inr rfl) (by rw [was]; exact .negotiated)
  · rename_i session request keepalive nextSeqNo deadline was
    exact .detached (.inr rfl) (by rw [was]; exact .establishing)
  · rename_i session binding was
    exact .unbound was
  · rename_i reason was
    have kept : server.onCore Core.transportClosed =
        (server.onCore fun core => id core.transportClosed).setState (.closed reason) := by
      rw [← was]
      rfl
    rw [kept]
    exact .detached (.inl rfl) (by rw [was]; exact .closed)

theorem command_step (command : Command) :
    server.Step (.command command) (Role.command command server).1.acts
      (Role.command command server).2 := by
  unfold Role.command
  split
  · rename_i parts bound
    split
    · rename_i reply turn done
      by_cases held : ∃ session binding, server.state = .bound session binding
      · obtain ⟨session, binding, was⟩ := held
        rw [server.boundParts_bound was] at bound
        obtain rfl := Option.some.inj bound
        exact .ran _ was (.inl rfl) (Command.onParts_runs done)
      · rw [server.boundParts_unbound fun session binding was => held ⟨session, binding, was⟩] at bound
        cases bound
    · exact .same _
  · exact .same _

theorem onApplicationMessage_step (now : Nat) :
    server.Step (.applicationMessage now) (server.seen (.applicationMessage now))
      (Role.onApplicationMessage now server).2 := by
  show server.Step _ (Role.heardApplication now server) _
  unfold Role.onApplicationMessage Role.heardApplication
  by_cases held : ∃ session binding, server.state = .bound session binding
  · obtain ⟨session, binding, was⟩ := held
    rw [server.boundParts_bound was]
    dsimp only
    split
    · exact .ran _ was (.inl rfl) (.one (.event _))
    · exact .ran _ was (.inl rfl) (BoundParts.onApplication_runs _ now)
  · rw [server.boundParts_unbound fun session binding was => held ⟨session, binding, was⟩]
    exact server.applicationBeforeEstablished_step

/-- A call that may fail leaves the server as it was when it does. -/
theorem attempt_step {outcome : Except FixpError FixpServer}
    (succeeds : ∀ changed, outcome = .ok changed → server.Step call [] changed) :
    server.Step call [] (server.attempt outcome).2 := by
  cases outcome with
  | error error => exact .same call
  | ok changed => exact succeeds changed rfl

theorem acceptNegotiation_step (serverFlow : FlowType) (credentials : Option Credentials) (now : Nat)
    {changed : FixpServer} (accepted : server.acceptNegotiation serverFlow credentials now = .ok changed) :
    server.Step (.acceptNegotiation serverFlow credentials now) [] changed := by
  unfold acceptNegotiation at accepted
  split at accepted
  · rename_i id request flow deadline was
    split at accepted
    · cases accepted
    · rename_i flows
      obtain rfl := Except.ok.inj accepted
      exact .negotiated serverFlow credentials now was flows
  · cases accepted

theorem rejectNegotiation_step (code : NegotiationRejectCode) (reason : String)
    {changed : FixpServer} (rejected : server.rejectNegotiation code reason = .ok changed) :
    server.Step call [] changed := by
  unfold rejectNegotiation at rejected
  cases short : checkReason reason with
  | error error =>
      rw [short] at rejected
      cases rejected
  | ok granted =>
      rw [short] at rejected
      dsimp only [bind, Except.bind] at rejected
      split at rejected
      · rename_i id request flow deadline was
        obtain rfl := Except.ok.inj rejected
        exact .lost _ (.negotiation _ .silent) (.inr (by rw [armed, was]))
          (by rw [was]; exact .pending (by simp))
      · cases rejected

theorem acceptEstablishment_step (now : Nat) {changed : FixpServer}
    (accepted : server.acceptEstablishment now = .ok changed) :
    server.Step (.acceptEstablishment now) [] changed := by
  unfold acceptEstablishment at accepted
  split at accepted
  · rename_i session request keepalive nextSeqNo deadline was
    obtain rfl := Except.ok.inj accepted
    exact .acked now was
  · cases accepted

theorem rejectEstablishment_step (code : EstablishmentRejectCode) (reason : String) (now : Nat)
    {changed : FixpServer} (rejected : server.rejectEstablishment code reason now = .ok changed) :
    server.Step (.rejectEstablishment code reason now) [] changed := by
  unfold rejectEstablishment at rejected
  cases short : checkReason reason with
  | error error =>
      rw [short] at rejected
      cases rejected
  | ok granted =>
      rw [short] at rejected
      dsimp only [bind, Except.bind] at rejected
      split at rejected
      · rename_i session request keepalive nextSeqNo deadline was
        obtain rfl := Except.ok.inj rejected
        exact .rejected code reason now was
      · cases rejected

theorem onTransportOpened_step (now : Nat) {changed : FixpServer}
    (attached : server.onTransportOpened now = .ok changed) :
    server.Step (.transportOpened now) [] changed := by
  unfold onTransportOpened at attached
  split at attached
  · cases attached
  · rename_i closing
    split at attached
    · rename_i session was
      obtain rfl := Except.ok.inj attached
      exact .opened now was (by simpa using closing)
    · cases attached

/-- What a call hands over is seen. -/
theorem receipts_eq (call : ServerCall) : Act.receipts (server.seen call) = server.receipts call := by
  cases call with
  | message message now => exact Role.heardMessage_receipts message now server
  | applicationMessage now => exact Role.heardApplication_receipts now server
  | command command =>
      show Act.receipts (Role.command command server).1.acts = []
      cases (Role.command command server).1 <;> rfl
  | _ => rfl

/-- Every call is one of the steps. -/
theorem call_step (call : ServerCall) :
    server.Step call (server.seen call) (server.call call).2 := by
  cases call with
  | acceptNegotiation serverFlow credentials now =>
      exact server.attempt_step fun _ accepted =>
        server.acceptNegotiation_step serverFlow credentials now accepted
  | rejectNegotiation code reason =>
      exact server.attempt_step fun _ rejected => server.rejectNegotiation_step code reason rejected
  | acceptEstablishment now =>
      exact server.attempt_step fun _ accepted => server.acceptEstablishment_step now accepted
  | rejectEstablishment code reason now =>
      exact server.attempt_step fun _ rejected =>
        server.rejectEstablishment_step code reason now rejected
  | transportOpened now =>
      exact server.attempt_step fun _ attached => server.onTransportOpened_step now attached
  | message message now => exact server.handleMessage_step message now
  | applicationMessage now => exact server.onApplicationMessage_step now
  | timeout now => exact server.handleTimeout_step now
  | transportClosed => exact .detached server.onTransportClosed_detach
  | command command => exact server.command_step command

end FixpServer

end IronFix.Fixp
