import IronFix.Fixp.Client
import IronFix.Fixp.Runs

/-!
# What a call does to a client
-/

namespace IronFix.Fixp

namespace FixpClient

/-- Whether the client waits for an answer on its transport. -/
def armed (client : FixpClient) : Bool :=
  match client.state with
  | .negotiating .. | .establishing .. => true
  | .idle | .negotiated _ | .bound .. | .closed _ => false

/-- Where an unbound client goes when its transport is closed on it. -/
inductive LostTo : ClientState → ClientState → Prop where
  | idle : LostTo .idle .idle
  | negotiating {request : Nanotime} {sentAt : Nat} {reason : ClientClosed}
      (alive : reason ≠ .finalized) : LostTo (.negotiating request sentAt) (.closed reason)
  | negotiated {session : Session} : LostTo (.negotiated session) (.negotiated session)
  | establishing {session : Session} {request : Nanotime} {sentAt : Nat} :
      LostTo (.establishing session request sentAt) (.negotiated session)

/-- Where a client goes when its transport is gone. -/
inductive DetachedTo : ClientState → ClientState → Prop where
  | idle : DetachedTo .idle .idle
  | negotiating {request : Nanotime} {sentAt : Nat} :
      DetachedTo (.negotiating request sentAt) (.closed .transportClosed)
  | negotiated {session : Session} : DetachedTo (.negotiated session) (.negotiated session)
  | establishing {session : Session} {request : Nanotime} {sentAt : Nat} :
      DetachedTo (.establishing session request sentAt) (.negotiated session)
  | closed {reason : ClientClosed} : DetachedTo (.closed reason) (.closed reason)

/-- The transport is gone. -/
inductive Detach (client : FixpClient) : FixpClient → Prop where
  | detached {state : ClientState} {told : Core → Core}
      (quiet : told = id ∨ told = (·.event .transportClosed)) (next : DetachedTo client.state state) :
      Detach client ((client.onCore fun core => told core.transportClosed).setState state)
  | unbound {session : Session} {binding : Binding} (was : client.state = .bound session binding) :
      Detach client ((client.onCore fun core => core.transportClosed.event .transportClosed).unbound
        session.releaseBindingState)

/-- A call, what is seen of it, and the client after it. -/
inductive Step (client : FixpClient) : ClientCall → List Act → FixpClient → Prop where
  | same (call : ClientCall) : Step client call [] client
  | told (call : ClientCall) (message reason : String) :
      Step client call [] (client.onCore (·.ignore message reason))
  | negotiate {core : Core} {request : Nanotime} (now : Nat) (idle : client.state = .idle)
      (free : client.core.transportClosing = false)
      (stamped : client.core.requestTimestamp now = some (request, core)) :
      Step client (.negotiate now) []
        (({ client with core }.onCore (·.send (.negotiate
          ⟨client.sessionId, request, client.flow, client.credentials⟩))).setState
            (.negotiating request now))
  | establish {session : Session} {core : Core} {request : Nanotime} (now : Nat)
      (was : client.state = .negotiated session) (free : client.core.transportClosing = false)
      (stamped : client.core.requestTimestamp now = some (request, core)) :
      Step client (.establish now) []
        (({ client with core }.onCore (·.send (.establish
          { sessionId := client.sessionId
            timestamp := request
            keepaliveInterval := client.core.config.keepaliveMillis
            nextSeqNo := session.announcedNextSeq
            credentials := client.credentials }))).setState (.establishing session request now))
  | negotiated {request : Nanotime} {sentAt : Nat} (m : NegotiationResponse) (now : Nat)
      (was : client.state = .negotiating request sentAt)
      (free : client.core.transportClosing = false) (names : m.sessionId = client.sessionId)
      (answers : m.requestTimestamp = request)
      (flows : ¬(client.flow = .none ∧ m.serverFlow = .none)) :
      Step client (.message (.negotiationResponse m) now) []
        ((client.onCore (·.event (.negotiated client.sessionId client.flow m.serverFlow))).setState
          (.negotiated (.new client.sessionId client.flow m.serverFlow)))
  | acked {session : Session} {request : Nanotime} {sentAt : Nat} (m : EstablishmentAck) (now : Nat)
      (was : client.state = .establishing session request sentAt)
      (free : client.core.transportClosing = false) (names : m.sessionId = client.sessionId)
      (answers : m.requestTimestamp = request) :
      Step client (.message (.establishmentAck m) now) [] (client.bindOnAck session m now)
  | refused {session : Session} {request : Nanotime} {sentAt : Nat} {state : ClientState}
      (call : ClientCall) (code : EstablishmentRejectCode) (reason : String)
      (was : client.state = .establishing session request sentAt)
      (free : client.core.transportClosing = false)
      (next : state = .negotiated session ∨ state = .closed .unnegotiated) :
      Step client call [] ((client.onCore (·.event (.establishmentRejected code reason))).setState state)
  | lost {state : ClientState} (call : ClientCall) (event : Event)
      (free : client.core.transportClosing = false ∨ client.armed = true)
      (next : LostTo client.state state) :
      Step client call []
        ((client.onCore fun core => (core.event event).closeTransport).setState state)
  | ran {session : Session} {binding : Binding} {seen : List Act} {turn : Turn} (call : ClientCall)
      (was : client.state = .bound session binding)
      (runs : Runs ⟨client.core, session, binding⟩ seen turn) :
      Step client call seen (client.settle turn)
  | detached {client' : FixpClient} (gone : Detach client client') :
      Step client .transportClosed [] client'

/-- What is seen of a call. -/
def seen (client : FixpClient) : ClientCall → List Act
  | .message message now => Role.heardMessage message now client
  | .applicationMessage now => Role.heardApplication now client
  | .command command => (Role.command command client).1.acts
  | .negotiate _ | .establish _ | .timeout _ | .transportClosed => []

variable (client : FixpClient) {call : ClientCall}

theorem violation_step (reason : String) (free : client.core.transportClosing = false) :
    client.Step call [] (client.violation reason) := by
  unfold violation
  split
  · rename_i session binding was
    exact .ran call was (BoundParts.violation_runs _ reason rfl)
  · exact .same call
  all_goals
    rename_i was
    rw [was]
    exact .lost call _ (.inl free) (by rw [was]; constructor <;> simp)

theorem applicationBeforeEstablished_step :
    client.Step call [] client.applicationBeforeEstablished := by
  unfold applicationBeforeEstablished
  split
  · exact .told call _ _
  · rename_i closing
    have free : client.core.transportClosing = false := by simpa using closing
    split
    · exact .told call _ _
    · exact client.violation_step _ free

theorem onNegotiationResponse_step (m : NegotiationResponse) (now : Nat)
    (free : client.core.transportClosing = false) :
    client.Step (.message (.negotiationResponse m) now) [] (client.onNegotiationResponse m) := by
  unfold onNegotiationResponse
  split
  · rename_i request sentAt was
    split
    · exact .told _ _ _
    · rename_i matched
      simp only [not_or, not_not] at matched
      split
      · exact .lost _ _ (.inl free) (by rw [was]; exact .negotiating (by simp))
      · rename_i flows
        exact .negotiated m now was free matched.1 matched.2 flows
  · exact .told _ _ _

theorem onNegotiationReject_step (m : NegotiationReject)
    (free : client.core.transportClosing = false) :
    client.Step call [] (client.onNegotiationReject m) := by
  unfold onNegotiationReject
  split
  · rename_i request sentAt was
    split
    · exact .told _ _ _
    · exact .lost _ _ (.inl free) (by rw [was]; exact .negotiating (by simp))
  · exact .told _ _ _

theorem onEstablishmentAck_step (m : EstablishmentAck) (now : Nat)
    (free : client.core.transportClosing = false) :
    client.Step (.message (.establishmentAck m) now) [] (client.onEstablishmentAck m now) := by
  unfold onEstablishmentAck
  split
  · rename_i session request sentAt was
    split
    · exact .told _ _ _
    · rename_i matched
      simp only [not_or, not_not] at matched
      exact .acked m now was free matched.1 matched.2
  · exact .told _ _ _

theorem onEstablishmentReject_step (m : EstablishmentReject)
    (free : client.core.transportClosing = false) :
    client.Step call [] (client.onEstablishmentReject m) := by
  unfold onEstablishmentReject
  split
  · rename_i session request sentAt was
    split
    · exact .told _ _ _
    · refine .refused call _ _ was free ?_
      split
      · exact .inr rfl
      · exact .inl rfl
  · exact .told _ _ _

theorem boundParts_bound {session : Session} {binding : Binding}
    (was : client.state = .bound session binding) :
    Role.boundParts client = some ⟨client.core, session, binding⟩ := by
  obtain ⟨core, sessionId, flow, credentials, state⟩ := client
  obtain rfl : state = .bound session binding := was
  rfl

theorem boundParts_unbound (unbound : ∀ session binding, client.state ≠ .bound session binding) :
    Role.boundParts client = none := by
  obtain ⟨core, sessionId, flow, credentials, state⟩ := client
  cases state with
  | bound session binding => exact (unbound session binding rfl).elim
  | _ => rfl

theorem onPeer_unbound_step (message : PeerMessage) (now : Nat)
    (free : client.core.transportClosing = false)
    (unbound : ∀ session binding, client.state ≠ .bound session binding) :
    client.Step call [] (client.onPeer message now) := by
  unfold onPeer
  split
  · rename_i session binding was
    exact (unbound session binding was).elim
  · exact .same call
  all_goals
    rename_i was
    split
    · exact .same call
    · exact .lost call _ (.inl free) (by rw [was]; constructor <;> simp)
    · exact client.violation_step _ free

theorem onHandshake_step (message : HandshakeMessage) (now : Nat) {sent : SessionMessage}
    (named : classify sent = .handshake message) (free : client.core.transportClosing = false) :
    client.Step (.message sent now) [] (client.onHandshake message now) := by
  cases message with
  | negotiate m => exact client.violation_step _ free
  | establish m => exact client.violation_step _ free
  | negotiationReject m => exact client.onNegotiationReject_step m free
  | establishmentReject m => exact client.onEstablishmentReject_step m free
  | negotiationResponse m =>
      cases sent <;> cases named
      exact client.onNegotiationResponse_step m now free
  | establishmentAck m =>
      cases sent <;> cases named
      exact client.onEstablishmentAck_step m now free

theorem handleMessage_step (message : SessionMessage) (now : Nat) :
    client.Step (.message message now) (client.seen (.message message now))
      (client.handleMessage message now) := by
  unfold handleMessage
  show client.Step _ (Role.heardMessage message now client) _
  unfold Role.heardMessage
  show client.Step _ (if client.core.transportClosing then _ else _) _
  split
  · exact .told _ _ _
  · rename_i closing
    have free : client.core.transportClosing = false := by simpa using closing
    cases named : classify message with
    | handshake handshake =>
        have step := client.onHandshake_step handshake now named free
        -- a handshake message hands nothing over, bound or not
        cases Role.boundParts client with
        | none => exact step
        | some parts => exact step
    | peer peer =>
        by_cases bound : ∃ session binding, client.state = .bound session binding
        · obtain ⟨session, binding, was⟩ := bound
          rw [client.boundParts_bound was]
          have runs := BoundParts.onPeer_runs ⟨client.core, session, binding⟩ now peer
          have steps := Step.ran (.message message now) was runs
          unfold onPeer
          rw [was]
          exact steps
        · have unbound : ∀ session binding, client.state ≠ .bound session binding :=
            fun session binding was => bound ⟨session, binding, was⟩
          rw [client.boundParts_unbound unbound]
          exact client.onPeer_unbound_step peer now free unbound

theorem handleTimeout_step (now : Nat) : client.Step (.timeout now) [] (client.handleTimeout now) := by
  unfold handleTimeout
  dsimp only
  split
  · rename_i request sentAt was
    split
    · exact .lost _ _ (.inr (by rw [armed, was])) (by rw [was]; exact .negotiating (by simp))
    · exact .same _
  · rename_i session request sentAt was
    split
    · exact .lost _ _ (.inr (by rw [armed, was])) (by rw [was]; exact .establishing)
    · exact .same _
  · rename_i session binding was
    exact .ran _ was (BoundParts.onTimeout_runs _ now)
  · exact .same _
  · exact .same _
  · exact .same _

theorem onTransportClosed_detach : client.Detach client.onTransportClosed := by
  unfold onTransportClosed
  have reset {state : ClientState} (was : client.state = state) :
      client.onCore Core.transportClosed =
        (client.onCore fun core => id core.transportClosed).setState state := by
    rw [← was]
    rfl
  dsimp only
  split
  · rename_i was
    rw [reset was]
    exact .detached (.inl rfl) (by rw [was]; exact .idle)
  · rename_i request sentAt was
    exact .detached (.inr rfl) (by rw [was]; exact .negotiating)
  · rename_i session was
    exact .detached (.inr rfl) (by rw [was]; exact .negotiated)
  · rename_i session request sentAt was
    exact .detached (.inr rfl) (by rw [was]; exact .establishing)
  · rename_i session binding was
    exact .unbound was
  · rename_i reason was
    rw [reset was]
    exact .detached (.inl rfl) (by rw [was]; exact .closed)

theorem command_step (command : Command) :
    client.Step (.command command) (Role.command command client).1.acts
      (Role.command command client).2 := by
  unfold Role.command
  split
  · rename_i parts bound
    split
    · rename_i reply turn done
      by_cases held : ∃ session binding, client.state = .bound session binding
      · obtain ⟨session, binding, was⟩ := held
        rw [client.boundParts_bound was] at bound
        obtain rfl := Option.some.inj bound
        exact .ran _ was (Command.onParts_runs done)
      · rw [client.boundParts_unbound fun session binding was => held ⟨session, binding, was⟩] at bound
        cases bound
    · exact .same _
  · exact .same _

theorem onApplicationMessage_step (now : Nat) :
    client.Step (.applicationMessage now) (client.seen (.applicationMessage now))
      (Role.onApplicationMessage now client).2 := by
  show client.Step _ (Role.heardApplication now client) _
  unfold Role.onApplicationMessage Role.heardApplication
  by_cases held : ∃ session binding, client.state = .bound session binding
  · obtain ⟨session, binding, was⟩ := held
    rw [client.boundParts_bound was]
    dsimp only
    split
    · exact .ran _ was (.one (.event _))
    · exact .ran _ was (BoundParts.onApplication_runs _ now)
  · rw [client.boundParts_unbound fun session binding was => held ⟨session, binding, was⟩]
    exact client.applicationBeforeEstablished_step

/-- What a call hands over is seen. -/
theorem receipts_eq (call : ClientCall) : Act.receipts (client.seen call) = client.receipts call := by
  cases call with
  | message message now => exact Role.heardMessage_receipts message now client
  | applicationMessage now => exact Role.heardApplication_receipts now client
  | command command =>
      show Act.receipts (Role.command command client).1.acts = []
      cases (Role.command command client).1 <;> rfl
  | _ => rfl

/-- Every call is one of the steps. -/
theorem call_step (call : ClientCall) :
    client.Step call (client.seen call) (client.call call).2 := by
  cases call with
  | negotiate now =>
      show client.Step _ [] (client.attempt (client.negotiate now)).2
      unfold negotiate
      split
      · exact .same _
      · rename_i closing
        have free : client.core.transportClosing = false := by simpa using closing
        split
        · rename_i idle
          split
          · exact .same _
          · rename_i request core stamped
            exact .negotiate now idle free stamped
        · exact .same _
  | establish now =>
      show client.Step _ [] (client.attempt (client.establish now)).2
      unfold establish
      split
      · exact .same _
      · rename_i closing
        have free : client.core.transportClosing = false := by simpa using closing
        split
        · rename_i session was
          split
          · exact .same _
          · rename_i request core stamped
            exact .establish now was free stamped
        · exact .same _
  | message message now => exact client.handleMessage_step message now
  | applicationMessage now => exact client.onApplicationMessage_step now
  | timeout now => exact client.handleTimeout_step now
  | transportClosed => exact .detached client.onTransportClosed_detach
  | command command => exact client.command_step command

end FixpClient

end IronFix.Fixp
