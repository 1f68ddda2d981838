import IronFix.Fixp.Driver
import IronFix.Fixp.Standing
import IronFix.Lib.Runs

/-!
# Unbinding a transport, call by call

In whatever order a driver makes its calls, a transport carries at most one
Terminate and nothing behind it, is closed once, and a binding that ends on
this side closes it. A finalized session is never bound again.
-/

namespace IronFix.Fixp

open Stance

/-! ## The client -/

def ClientState.standing : ClientState → Standing
  | .idle => .apart none false
  | .negotiating .. => .apart none true
  | .negotiated session => .apart (some session) false
  | .establishing session _ _ => .apart (some session) true
  | .bound session binding => .bound session binding
  | .closed .finalized => .finalized
  | .closed _ => .apart none false

namespace FixpClient

def stance (client : FixpClient) : Stance := ⟨client.core, client.state.standing⟩

variable {client client' : FixpClient} {session : Session} {binding : Binding}

theorem stance_of {state : ClientState} (was : client.state = state) :
    client.stance = ⟨client.core, state.standing⟩ := by
  rw [← was]
  rfl

theorem standing_closed {reason : ClientClosed} (alive : reason ≠ .finalized) :
    (ClientState.closed reason).standing = .apart none false := by
  cases reason with
  | finalized => exact (alive rfl).elim
  | _ => rfl

theorem unbound_stance (session : Session) (client : FixpClient) :
    (client.unbound session).stance = .leave client.core session := by
  unfold unbound leave
  split
  · rfl
  · rfl

theorem settle_stance (client : FixpClient) (turn : Turn) : (client.settle turn).stance = turn.stance := by
  obtain ⟨q, bound⟩ := turn
  cases bound with
  | stay => rfl
  | unbind => exact unbound_stance q.session { client with core := q.core }

/-- The transport is open while an answer is awaited on it. -/
theorem armed_free (sound : client.stance.Sound) (armed : client.armed = true) :
    client.core.transportClosing = false := by
  unfold FixpClient.armed at armed
  split at armed
  · rename_i was
    rw [stance_of was] at sound
    exact sound.1 rfl
  · rename_i was
    rw [stance_of was] at sound
    exact sound.1 rfl
  all_goals cases armed

theorem bindOnAck_keeps (m : EstablishmentAck) (now : Nat) {held : Option Session} {armed : Bool}
    (free : client.core.transportClosing = false) (unfinalized : session.finalized = false) :
    Keeps ⟨client.core, .apart held armed⟩ (client.bindOnAck session m now).stance := by
  unfold bindOnAck
  dsimp only [Session.bind]
  generalize ready : (⟨client.core, session.releaseBindingState, _⟩ : BoundParts) = parts
  have core : parts.core = client.core := by rw [← ready]
  have up : parts.binding.isEstablished = true := by rw [← ready]; rfl
  have fresh : parts.session.finalized = false := by
    obtain ⟨missing, overflow, released⟩ := session.releaseBindingState_eq
    rw [← ready]
    show session.releaseBindingState.finalized = false
    rw [released]
    exact unfinalized
  generalize answered : (if client.core.config.acceptsPeerKeepalive m.keepaliveInterval = true then
    _ else _ : Turn) = turn
  have runs : Runs parts (parts.announcedWith m.nextSeqNo) turn := by
    rw [← answered]
    split
    · exact .quiet (.event _) rfl (BoundParts.onEstablished_runs _ now _)
    · exact BoundParts.violation_runs _ _ (parts.handed_announcedWith _)
  have silent : client.core.Says Output.Up parts.core := by
    rw [core]
    exact .refl _
  have binds : Keeps ⟨client.core, .apart held armed⟩ turn.begun :=
    keeps_binds free silent (by rw [core]) fresh up runs (parts.handed_announcedWith _)
  obtain ⟨q, bound⟩ := turn
  cases bound with
  | stay => exact binds
  | unbind => exact binds

/-- Every call but one keeps the transport in order. -/
theorem Step.keeps {call : ClientCall} {seen : List Act} (step : client.Step call seen client')
    (other : call ≠ .transportClosed) (sound : client.stance.Sound) :
    Keeps client.stance client'.stance := by
  cases step with
  | same => exact keeps_same sound
  | told _ message reason => exact keeps_told sound rfl
  | negotiate now idle free stamped =>
      have closing := Core.requestTimestamp_transportClosing stamped
      rw [stance_of idle]
      exact keeps_apart free (.trans (.stamped stamped) (.push _ ⟨rfl, rfl⟩)) closing
        (fun _ none_held => by cases none_held)
  | establish now was free stamped =>
      have closing := Core.requestTimestamp_transportClosing stamped
      rw [stance_of was] at sound ⊢
      exact keeps_apart free (.trans (.stamped stamped) (.push _ ⟨rfl, rfl⟩)) closing sound.2
  | negotiated m now was free names answers flows =>
      rw [stance_of was]
      refine keeps_apart free (.push _ ⟨rfl, rfl⟩) rfl fun session same => ?_
      obtain rfl := Option.some.inj same
      rfl
  | acked m now was free names answers =>
      rw [stance_of was] at sound ⊢
      exact bindOnAck_keeps m now free (sound.2 _ rfl)
  | refused _ code reason was free next =>
      rw [stance_of was] at sound ⊢
      rcases next with rfl | rfl
      · exact keeps_apart free (.push _ ⟨rfl, rfl⟩) rfl sound.2
      · exact keeps_apart free (.push _ ⟨rfl, rfl⟩) rfl fun _ none_held => by cases none_held
  | lost _ event free next =>
      have open_ : client.core.transportClosing = false := free.elim id (armed_free sound)
      generalize was : client.state = before at next
      rw [stance_of was] at sound ⊢
      cases next with
      | idle => exact keeps_lost open_ (.push _ rfl) sound.2
      | negotiated => exact keeps_lost open_ (.push _ rfl) sound.2
      | establishing => exact keeps_lost open_ (.push _ rfl) sound.2
      | negotiating alive =>
          rename_i reason
          have lost : Keeps ⟨client.core, .apart none true⟩
              ⟨(client.core.event event).closeTransport, .apart none false⟩ :=
            keeps_lost open_ (.push _ rfl) sound.2
          rw [← standing_closed alive] at lost
          exact lost
  | ran _ was runs =>
      rw [stance_of was] at sound ⊢
      rw [settle_stance]
      exact keeps_runs sound (.inl rfl) runs
  | detached gone => exact (other rfl).elim

theorem Detach.detaches (gone : client.Detach client') (sound : client.stance.Sound) :
    Detaches client.stance client'.stance := by
  cases gone with
  | detached quiet next =>
      generalize was : client.state = before at next
      rw [stance_of was] at sound ⊢
      have unheld : ∀ session : Session, Option.none = some session → session.finalized = false :=
        fun _ none_held => by cases none_held
      cases next with
      | idle => exact .of_standing quiet ⟨fun _ => rfl, unheld⟩ id id
      | negotiating => exact .of_standing quiet ⟨fun _ => rfl, unheld⟩ id id
      | negotiated => exact .of_standing quiet ⟨fun _ => rfl, sound.2⟩ id id
      | establishing => exact .of_standing quiet ⟨fun _ => rfl, sound.2⟩ id id
      | closed =>
          rename_i reason
          cases reason with
          | finalized => exact .of_standing quiet trivial id id
          | _ => exact .of_standing quiet ⟨fun _ => rfl, unheld⟩ id id
  | unbound was =>
      rw [stance_of was, unbound_stance]
      exact detaches_leave

end FixpClient

/-! ## The server -/

def ServerState.standing : ServerState → Standing
  | .awaitingNegotiate _ | .negotiationPending .. => .apart none true
  | .negotiated session deadline => .apart (some session) deadline.isSome
  | .establishPending session _ _ _ _ => .apart (some session) true
  | .bound session binding => .bound session binding
  | .closed (.finalized _) => .finalized
  | .closed _ => .apart none false

theorem isEstablished_of_status {binding : Binding} (established : binding.status = .established) :
    binding.isEstablished = true := by
  unfold Binding.status at established
  unfold Binding.isEstablished
  cases was : binding.state with
  | established => rfl
  | terminating sentAt code reason =>
      rw [was] at established
      cases established
  | closing deadline =>
      rw [was] at established
      cases established

/-- A refusal leaves the transport up. -/
theorem Refusing.voices {core said : Core} (refusing : Refusing core said) :
    core.Says (fun output => output.Plain ∧ output.carries = false) said := by
  induction refusing with
  | silent => exact .refl _
  | event event other _ ih => exact ih.trans (.push _ ⟨⟨rfl, other⟩, rfl⟩)
  | negotiation m _ ih => exact ih.trans (.push _ ⟨⟨rfl, rfl⟩, rfl⟩)
  | establishment m _ ih => exact ih.trans (.push _ ⟨⟨rfl, rfl⟩, rfl⟩)

theorem Refusing.plain {core said : Core} (refusing : Refusing core said) :
    core.Says Output.Plain said := refusing.voices.mono fun _ refuses => refuses.1

theorem Refusing.transportClosing {core said : Core} (refusing : Refusing core said) :
    said.transportClosing = core.transportClosing := by
  induction refusing with
  | silent => rfl
  | event event other _ ih => exact ih
  | negotiation m _ ih => exact ih
  | establishment m _ ih => exact ih

namespace FixpServer

def stance (server : FixpServer) : Stance := ⟨server.core, server.state.standing⟩

variable {server server' : FixpServer} {session : Session} {binding : Binding}

theorem stance_of {state : ServerState} (was : server.state = state) :
    server.stance = ⟨server.core, state.standing⟩ := by
  rw [← was]
  rfl

theorem standing_closed {reason : ServerClosed} (alive : ∀ id, reason ≠ .finalized id) :
    (ServerState.closed reason).standing = .apart none false := by
  cases reason with
  | finalized id => exact (alive id rfl).elim
  | _ => rfl

theorem unbound_stance (session : Session) (server : FixpServer) :
    (server.unbound session).stance = .leave server.core session := by
  unfold unbound leave
  split
  · rfl
  · rfl

theorem settle_stance (server : FixpServer) (turn : Turn) : (server.settle turn).stance = turn.stance := by
  obtain ⟨q, bound⟩ := turn
  cases bound with
  | stay => rfl
  | unbind => exact unbound_stance q.session { server with core := q.core }

theorem armed_free (sound : server.stance.Sound) (armed : server.armed = true) :
    server.core.transportClosing = false := by
  unfold FixpServer.armed at armed
  split at armed
  · rename_i was
    rw [stance_of was] at sound
    exact sound.1 rfl
  · rename_i was
    rw [stance_of was] at sound
    exact sound.1 rfl
  · rename_i was
    rw [stance_of was] at sound
    exact sound.1 rfl
  · rename_i was
    rw [stance_of was] at sound
    exact sound.1 armed
  all_goals cases armed

/-- The server binds as it sends the Ack. -/
theorem bindWithAck_keeps (request : Nanotime) (keepalive : UInt32) (nextSeqNo : Option UInt64)
    (now : Nat) {held : Option Session} {armed : Bool} (free : server.core.transportClosing = false)
    (unfinalized : session.finalized = false) :
    Keeps ⟨server.core, .apart held armed⟩
      (server.bindWithAck session request keepalive nextSeqNo now).stance := by
  unfold bindWithAck
  dsimp only [Session.bind]
  generalize ready : (⟨server.core, session.releaseBindingState, _⟩ : BoundParts) = parts
  have core : parts.core = server.core := by rw [← ready]
  have up : parts.binding.isEstablished = true := by rw [← ready]; rfl
  have fresh : parts.session.finalized = false := by
    obtain ⟨missing, overflow, released⟩ := session.releaseBindingState_eq
    rw [← ready]
    show session.releaseBindingState.finalized = false
    rw [released]
    exact unfinalized
  generalize acked : SessionMessage.establishmentAck _ = ack
  have plain : Output.Up (.send ack) := by
    rw [← acked]
    rfl
  generalize answered : BoundParts.onEstablished nextSeqNo now _ = turn
  have runs : Runs (parts.send ack) ((parts.send ack).announcedWith nextSeqNo) turn := by
    rw [← answered]
    exact .quiet (.event _) rfl (BoundParts.onEstablished_runs _ now _)
  have spoken : server.core.Says Output.Up (parts.send ack).core := by
    rw [← core]
    exact .push _ plain
  have closing : (parts.send ack).core.transportClosing = server.core.transportClosing := by
    rw [← core]
    rfl
  have binds : Keeps ⟨server.core, .apart held armed⟩ turn.begun :=
    keeps_binds free spoken closing fresh up runs (BoundParts.handed_announcedWith _ _)
  obtain ⟨q, bound⟩ := turn
  cases bound with
  | stay => exact binds
  | unbind => exact binds

theorem Step.keeps {call : ServerCall} {seen : List Act} (step : server.Step call seen server')
    (other : call ≠ .transportClosed) (sound : server.stance.Sound) :
    Keeps server.stance server'.stance := by
  cases step with
  | same => exact keeps_same sound
  | told _ message reason => exact keeps_told sound rfl
  | refused _ up free refusing =>
      rcases up with ⟨session, deadline, was⟩ | ⟨session, binding, was, established⟩
      · have closing := refusing.transportClosing
        rw [stance_of was] at sound ⊢
        rename_i core
        rw [show ({ server with core := core } : FixpServer).stance =
          ⟨core, (ServerState.negotiated session deadline).standing⟩ from stance_of was]
        exact keeps_apart free refusing.plain closing sound.2
      · have up : binding.isEstablished = true := isEstablished_of_status established
        rw [stance_of was] at sound ⊢
        rename_i core
        rw [show ({ server with core := core } : FixpServer).stance =
          ⟨core, (ServerState.bound session binding).standing⟩ from stance_of was]
        exact keeps_refused sound up refusing.plain refusing.transportClosing
  | asked m now was =>
      rw [stance_of was] at sound ⊢
      exact keeps_apart (sound.1 rfl) (.push _ ⟨rfl, rfl⟩) rfl fun _ none_held => by cases none_held
  | negotiated serverFlow credentials now was flows =>
      rw [stance_of was] at sound ⊢
      have answered (core : Core) (m : NegotiationResponse) (event : Event)
          (other : event.establishes = false) :
          core.Says Output.Plain ((core.send (.negotiationResponse m)).event event) := by
        have sent : core.Says Output.Plain (core.send (.negotiationResponse m)) :=
          .push _ ⟨rfl, rfl⟩
        exact sent.trans (.push _ ⟨rfl, other⟩)
      refine keeps_apart (sound.1 rfl) (answered _ _ _ rfl) rfl fun session same => ?_
      obtain rfl := Option.some.inj same
      rfl
  | requested m now was free names admitted positive onward =>
      rw [stance_of was] at sound ⊢
      exact keeps_apart free (.push _ ⟨rfl, rfl⟩) rfl sound.2
  | acked now was =>
      rw [stance_of was] at sound ⊢
      exact bindWithAck_keeps _ _ _ now (sound.1 rfl) (sound.2 _ rfl)
  | rejected code reason now was =>
      rw [stance_of was] at sound ⊢
      exact keeps_apart (sound.1 rfl) (.push _ ⟨rfl, rfl⟩) rfl sound.2
  | opened now was free =>
      rw [stance_of was] at sound ⊢
      exact keeps_apart free (.refl _) rfl sound.2
  | lost _ refusing free next =>
      have open_ : server.core.transportClosing = false := free.elim id (armed_free sound)
      have up := refusing.plain.up
      generalize was : server.state = before at next
      rw [stance_of was] at sound ⊢
      have unheld : ∀ session : Session, Option.none = some session → session.finalized = false :=
        fun _ none_held => by cases none_held
      cases next with
      | negotiated => exact keeps_lost open_ up sound.2
      | establishing => exact keeps_lost open_ up sound.2
      | finalized => exact keeps_finalized open_ up (refusing.voices.mono fun _ refuses => refuses.2)
      | awaiting alive =>
          have lost := @keeps_lost server.core _ none none true open_ up unheld
          rw [← standing_closed alive] at lost
          exact lost
      | pending alive =>
          have lost := @keeps_lost server.core _ none none true open_ up unheld
          rw [← standing_closed alive] at lost
          exact lost
  | ran _ was said runs =>
      rw [stance_of was] at sound ⊢
      rw [settle_stance]
      refine keeps_runs sound ?_ runs
      rcases said with same | ⟨refusing, established⟩
      · exact .inl same
      · exact .inr ⟨refusing.plain, refusing.transportClosing, isEstablished_of_status established⟩
  | detached gone => exact (other rfl).elim

theorem Detach.detaches (gone : server.Detach server') (sound : server.stance.Sound) :
    Detaches server.stance server'.stance := by
  cases gone with
  | detached quiet next =>
      generalize was : server.state = before at next
      rw [stance_of was] at sound ⊢
      have unheld : ∀ session : Session, Option.none = some session → session.finalized = false :=
        fun _ none_held => by cases none_held
      cases next with
      | awaiting => exact .of_standing quiet ⟨fun _ => rfl, unheld⟩ id id
      | pending => exact .of_standing quiet ⟨fun _ => rfl, unheld⟩ id id
      | negotiated => exact .of_standing quiet ⟨fun _ => rfl, sound.2⟩ id id
      | establishing => exact .of_standing quiet ⟨fun _ => rfl, sound.2⟩ id id
      | closed =>
          rename_i reason
          cases reason with
          | finalized id => exact .of_standing quiet trivial (fun bound => bound) (fun done => done)
          | _ => exact .of_standing quiet ⟨fun _ => rfl, unheld⟩ id id
  | unbound was =>
      rw [stance_of was, unbound_stance]
      exact detaches_leave

end FixpServer

end IronFix.Fixp
