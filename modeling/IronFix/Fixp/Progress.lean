import IronFix.Fixp.ClientSteps
import IronFix.Fixp.Driver
import IronFix.Fixp.ServerSteps

/-!
# What a call does to the session

The two roles share the ways a call can change their logical session:
`Progress` lists them, with the acts that go with each.
-/

namespace IronFix.Fixp

/-! ## What is queued -/

/-- The core after acts: their outputs are queued, the configuration is the same. -/
structure Core.Queued (core : Core) (outputs : List Output) (after : Core) : Prop where
  outputs : after.outputs = core.outputs ++ outputs
  config : after.config = core.config

namespace Core.Queued

variable {core middle after : Core} {first second : List Output}

theorem refl (core : Core) : core.Queued [] core := ⟨(List.append_nil _).symm, rfl⟩

theorem trans (queued : core.Queued first middle) (more : middle.Queued second after) :
    core.Queued (first ++ second) after :=
  ⟨by rw [more.outputs, queued.outputs, List.append_assoc], more.config.trans queued.config⟩

theorem push (core : Core) (output : Output) : core.Queued [output] (core.push output) := ⟨rfl, rfl⟩

theorem closeTransport (core : Core) : core.Queued [.closeTransport] core.closeTransport := ⟨rfl, rfl⟩

theorem transportClosed (core : Core) : core.Queued [] core.transportClosed :=
  ⟨(List.append_nil _).symm, rfl⟩

theorem requestTimestamp {now : Nat} {timestamp : Nanotime}
    (stamped : core.requestTimestamp now = some (timestamp, after)) : core.Queued [] after := by
  obtain ⟨issued, -, same⟩ := Option.map_eq_some_iff.mp stamped
  obtain ⟨-, rfl⟩ := Prod.mk.inj same
  exact ⟨(List.append_nil _).symm, rfl⟩

end Core.Queued

theorem Inflow.outputs {config : FixpConfig} {s s' : Session} {acts : List Act}
    (changes : Inflow config s acts s') : Act.outputs acts = [] := by
  cases changes with
  | replayed now batch => split <;> rfl
  | _ => rfl

theorem Move.queued {p moved : BoundParts} {acts : List Act} (move : Move p acts moved) :
    p.core.Queued (Act.outputs acts) moved.core := by
  cases move with
  | request up flow unasked first nonempty stamped request outstanding begins undelivered counts =>
      exact (Core.Queued.requestTimestamp stamped).trans (.push _ _)
  | inflow changes =>
      rw [changes.outputs]
      exact .refl _
  | tick => exact .refl _
  | number => exact .refl _
  | unnumbered => exact .refl _
  | finalize => exact .refl _
  | provide => exact .refl _
  | _ => exact .push _ _

theorem Close.queued {p closed : BoundParts} {acts : List Act} (ends : Close p acts closed) :
    p.core.Queued (Act.outputs acts) closed.core := by
  induction ends with
  | failed code reason up =>
      exact ((Core.Queued.push _ _).trans (.push _ _)).trans (.closeTransport _)
  | quiet => exact .closeTransport _
  | told event _ ih =>
      rw [Act.outputs_append]
      exact ih.trans (.push _ _)

theorem Steps.queued {p : BoundParts} {acts : List Act} {turn : Turn} (steps : Steps p acts turn) :
    p.core.Queued (Act.outputs acts) turn.1.core := by
  induction steps with
  | done => exact .refl _
  | close ends => exact ends.queued
  | move moved _ ih =>
      rw [Act.outputs_append]
      exact moved.queued.trans ih

/-! ## The session -/

/-- The changes of a logical session, with the acts that go with them. -/
inductive Progress (config : FixpConfig) : Life → List Act → Life → Prop where
  | quiet {life : Life} {acts : List Act} (silent : Act.silent acts = true) :
      Progress config life acts life
  | opens (id : SessionId) (localFlow remoteFlow : FlowType) :
      Progress config .unborn [] (.live (.new id localFlow remoteFlow))
  | runs {p : BoundParts} {acts : List Act} {turn : Turn} (steps : Steps p acts turn)
      (same : p.core.config = config) : Progress config (.live p.session) acts (.live turn.1.session)
  | ends {life : Life} : Progress config life [] .ended
  | trans {before middle after : Life} {acts more : List Act}
      (first : Progress config before acts middle) (rest : Progress config middle more after) :
      Progress config before (acts ++ more) after

/-- The outputs as acts. -/
def Act.queueing (outputs : List Output) : List Act := outputs.map .output

theorem Act.queueing_silent (outputs : List Output) : Act.silent (Act.queueing outputs) = true := by
  induction outputs with
  | nil => rfl
  | cons output outputs ih => exact ih

theorem Act.queueing_outputs (outputs : List Output) :
    Act.outputs (Act.queueing outputs) = outputs := by
  induction outputs with
  | nil => rfl
  | cons output outputs ih =>
      show output :: Act.outputs (Act.queueing outputs) = output :: outputs
      rw [ih]

/-- The session and the core after a call of which `seen` is seen. -/
def Outcome (core : Core) (life : Life) (seen : List Act) (core' : Core) (life' : Life) : Prop :=
  ∃ acts, Progress core.config life acts life' ∧ Act.handed acts = Act.handed seen ∧
    core.Queued (Act.outputs acts) core'

namespace Outcome

variable {core middle after : Core} {life life' life'' : Life} {outputs : List Output}
  {seen more : List Act}

theorem quiet (queued : core.Queued outputs after) : Outcome core life [] after life := by
  have silent := Act.queueing_silent outputs
  refine ⟨Act.queueing outputs, .quiet silent, Act.handed_silent silent, ?_⟩
  rw [Act.queueing_outputs]
  exact queued

theorem refl (core : Core) (life : Life) : Outcome core life [] core life := quiet (.refl core)

theorem runs {p : BoundParts} {turn : Turn} (runs : Runs p seen turn) :
    Outcome p.core (.live p.session) seen turn.1.core (.live turn.1.session) := by
  obtain ⟨acts, steps, handed, -⟩ := runs
  exact ⟨acts, .runs steps rfl, handed, steps.queued⟩

theorem trans (first : Outcome core life seen middle life')
    (rest : Outcome middle life' more after life'') :
    Outcome core life (seen ++ more) after life'' := by
  obtain ⟨acts, progress, handed, queued⟩ := first
  obtain ⟨acts', progress', handed', queued'⟩ := rest
  rw [queued.config] at progress'
  refine ⟨acts ++ acts', progress.trans progress', ?_, ?_⟩
  · rw [Act.handed_append, Act.handed_append, handed, handed']
  · rw [Act.outputs_append]
    exact queued.trans queued'

/-- The context may be left out. -/
theorem handing (outcome : Outcome core life seen after life')
    (same : Act.handed seen = Act.handed more) : Outcome core life more after life' := by
  obtain ⟨acts, progress, handed, queued⟩ := outcome
  exact ⟨acts, progress, handed.trans same, queued⟩

/-- Outputs, and then the rest. -/
theorem saying (queued : core.Queued outputs middle) (rest : Outcome middle life seen after life') :
    Outcome core life seen after life' := (quiet queued).trans rest

theorem ends (core : Core) (life : Life) : Outcome core life [] core .ended :=
  ⟨[], .ends, rfl, .refl core⟩

theorem opens (core : Core) (id : SessionId) (localFlow remoteFlow : FlowType) :
    Outcome core .unborn [] core (.live (.new id localFlow remoteFlow)) :=
  ⟨[], .opens id localFlow remoteFlow, rfl, .refl core⟩

/-- The transport took with it what only made sense on it. -/
theorem releases {p : BoundParts} (queued : p.core.Queued outputs after) :
    Outcome p.core (.live p.session) [] after (.live p.session.releaseBindingState) :=
  ((runs (.one (p := p) (.inflow .release))).trans (quiet queued)).handing rfl

end Outcome

theorem BoundParts.handed_announcedWith (p : BoundParts) (next : Option UInt64) :
    Act.handed (p.announcedWith next) = [] := by
  unfold announcedWith
  split <;> rfl

/-! ## The calls of the two roles -/

namespace FixpClient

variable {client client' : FixpClient}

/-- A client leaves its binding for `negotiated`, or for good. -/
theorem unbound_outcome (session : Session) (client : FixpClient) :
    Outcome client.core (.live session) [] (client.unbound session).core
      (client.unbound session).state.life := by
  unfold unbound
  split
  · exact (Outcome.quiet (.push _ _)).trans (.ends _ _)
  · exact .refl _ _

theorem settle_outcome {p : BoundParts} {seen : List Act} {turn : Turn} (client : FixpClient)
    (runs : Runs p seen turn) :
    Outcome p.core (.live p.session) seen (client.settle turn).core
      (client.settle turn).state.life := by
  have outcome := Outcome.runs runs
  obtain ⟨q, bound⟩ := turn
  cases bound with
  | stay => exact outcome
  | unbind =>
      have joined := outcome.trans (unbound_outcome q.session { client with core := q.core })
      rwa [List.append_nil] at joined

/-- The Ack binds the session, or the binding ends as it begins. -/
theorem bindOnAck_outcome (session : Session) (m : EstablishmentAck) (now : Nat) :
    Outcome client.core (.live session) [] (client.bindOnAck session m now).core
      (client.bindOnAck session m now).state.life := by
  unfold bindOnAck
  dsimp only [Session.bind]
  generalize ready : (⟨client.core, session.releaseBindingState, _⟩ : BoundParts) = parts
  have released : Outcome client.core (.live session) [] parts.core (.live parts.session) := by
    rw [← ready]
    exact .releases (p := ⟨client.core, session, parts.binding⟩) (.refl _)
  generalize answered : (if client.core.config.acceptsPeerKeepalive m.keepaliveInterval = true then
    _ else _ : Turn) = turn
  have runs : Runs parts (parts.announcedWith m.nextSeqNo) turn := by
    rw [← answered]
    split
    · exact .quiet (.event _) rfl (BoundParts.onEstablished_runs _ now _)
    · exact BoundParts.violation_runs _ _ (parts.handed_announcedWith _)
  have ends : Outcome parts.core (.live parts.session) [] turn.1.core (.live turn.1.session) :=
    (Outcome.runs runs).handing (parts.handed_announcedWith _)
  have joined := released.trans ends
  obtain ⟨q, bound⟩ := turn
  cases bound with
  | stay => exact joined
  | unbind => exact joined

theorem Detach.outcome (gone : client.Detach client') :
    Outcome client.core client.state.life [] client'.core client'.state.life := by
  cases gone with
  | detached quiet next =>
      rename_i told
      have freed : ∃ outputs, client.core.Queued outputs (told client.core.transportClosed) := by
        rcases quiet with rfl | rfl
        · exact ⟨_, Core.Queued.transportClosed client.core⟩
        · exact ⟨_, (Core.Queued.transportClosed client.core).trans (.push _ _)⟩
      obtain ⟨outputs, freed⟩ := freed
      generalize client.state = before at next
      cases next with
      | negotiating => exact .saying freed (.ends _ _)
      | _ => exact .quiet freed
  | unbound was =>
      rename_i session binding
      rw [was]
      have released := Outcome.releases (p := ⟨client.core, session, binding⟩)
        ((Core.Queued.transportClosed client.core).trans (.push _ (.event .transportClosed)))
      exact released.trans (unbound_outcome session.releaseBindingState
        (client.onCore fun core => core.transportClosed.event .transportClosed))

theorem Step.outcome {call : ClientCall} {seen : List Act} (step : client.Step call seen client') :
    Outcome client.core client.state.life seen client'.core client'.state.life := by
  have pushed (core : Core) (output : Output) {life : Life} :
      Outcome core life [] (core.push output) life := .quiet (.push _ _)
  cases step with
  | same => exact .refl _ _
  | told _ event => exact pushed _ _
  | negotiate now idle free stamped =>
      rw [idle]
      exact .saying (.requestTimestamp stamped) (pushed _ _)
  | establish now was free stamped =>
      rw [was]
      exact .saying (.requestTimestamp stamped) (pushed _ _)
  | negotiated m now was free names answers flows =>
      rw [was]
      exact .saying (.push _ _) (.opens _ _ _ _)
  | acked m now was free names answers =>
      rw [was]
      exact bindOnAck_outcome _ m now
  | refused _ code reason was free next =>
      rw [was]
      rcases next with rfl | rfl
      · exact pushed _ _
      · exact .saying (.push _ _) (.ends _ _)
  | lost _ event free next =>
      have closed : client.core.Queued _ (client.core.event event).closeTransport :=
        (Core.Queued.push _ _).trans (.closeTransport _)
      generalize was : client.state = before at next
      cases next with
      | negotiating alive => exact .saying closed (.ends _ _)
      | _ => exact .quiet closed
  | ran _ was runs =>
      rw [was]
      exact settle_outcome _ runs
  | detached gone => exact gone.outcome

end FixpClient

theorem Refusing.queued {core said : Core} (refusing : Refusing core said) :
    ∃ outputs, core.Queued outputs said := by
  induction refusing with
  | silent => exact ⟨_, .refl core⟩
  | event event other _ ih =>
      obtain ⟨outputs, queued⟩ := ih
      exact ⟨_, queued.trans (.push _ _)⟩
  | negotiation m _ ih =>
      obtain ⟨outputs, queued⟩ := ih
      exact ⟨_, queued.trans (.push _ _)⟩
  | establishment m _ ih =>
      obtain ⟨outputs, queued⟩ := ih
      exact ⟨_, queued.trans (.push _ _)⟩

namespace FixpServer

variable {server server' : FixpServer}

/-- A server leaves its binding for `negotiated`, or for good. -/
theorem unbound_outcome (session : Session) (server : FixpServer) :
    Outcome server.core (.live session) [] (server.unbound session).core
      (server.unbound session).state.life := by
  unfold unbound
  split
  · exact (Outcome.quiet (.push _ _)).trans (.ends _ _)
  · exact .refl _ _

theorem settle_outcome {p : BoundParts} {seen : List Act} {turn : Turn} (server : FixpServer)
    (runs : Runs p seen turn) :
    Outcome p.core (.live p.session) seen (server.settle turn).core
      (server.settle turn).state.life := by
  have outcome := Outcome.runs runs
  obtain ⟨q, bound⟩ := turn
  cases bound with
  | stay => exact outcome
  | unbind =>
      have joined := outcome.trans (unbound_outcome q.session { server with core := q.core })
      rwa [List.append_nil] at joined

/-- The server binds as it sends the Ack. -/
theorem bindWithAck_outcome (session : Session) (request : Nanotime) (keepalive : UInt32)
    (nextSeqNo : Option UInt64) (now : Nat) :
    Outcome server.core (.live session) []
      (server.bindWithAck session request keepalive nextSeqNo now).core
      (server.bindWithAck session request keepalive nextSeqNo now).state.life := by
  unfold bindWithAck
  dsimp only [Session.bind]
  generalize ready : (⟨server.core, session.releaseBindingState, _⟩ : BoundParts) = parts
  have released : Outcome server.core (.live session) [] parts.core (.live parts.session) := by
    rw [← ready]
    exact .releases (p := ⟨server.core, session, parts.binding⟩) (.refl _)
  generalize said : BoundParts.send _ parts = sent
  have acked : Outcome parts.core (.live parts.session) [] sent.core (.live sent.session) := by
    rw [← said]
    exact .quiet (.push _ _)
  generalize answered : BoundParts.onEstablished nextSeqNo now _ = turn
  have runs : Runs sent (sent.announcedWith nextSeqNo) turn := by
    rw [← answered]
    exact .quiet (.event _) rfl (BoundParts.onEstablished_runs _ now _)
  have ends : Outcome sent.core (.live sent.session) [] turn.1.core (.live turn.1.session) :=
    (Outcome.runs runs).handing (sent.handed_announcedWith _)
  have joined := (released.trans acked).trans ends
  obtain ⟨q, bound⟩ := turn
  cases bound with
  | stay => exact joined
  | unbind => exact joined

theorem Detach.outcome (gone : server.Detach server') :
    Outcome server.core server.state.life [] server'.core server'.state.life := by
  cases gone with
  | detached quiet next =>
      rename_i told
      have freed : ∃ outputs, server.core.Queued outputs (told server.core.transportClosed) := by
        rcases quiet with rfl | rfl
        · exact ⟨_, Core.Queued.transportClosed server.core⟩
        · exact ⟨_, (Core.Queued.transportClosed server.core).trans (.push _ _)⟩
      obtain ⟨outputs, freed⟩ := freed
      generalize server.state = before at next
      cases next with
      | awaiting => exact .saying freed (.ends _ _)
      | pending => exact .saying freed (.ends _ _)
      | _ => exact .quiet freed
  | unbound was =>
      rename_i session binding
      rw [was]
      have released := Outcome.releases (p := ⟨server.core, session, binding⟩)
        ((Core.Queued.transportClosed server.core).trans (.push _ (.event .transportClosed)))
      exact released.trans (unbound_outcome session.releaseBindingState
        (server.onCore fun core => core.transportClosed.event .transportClosed))

theorem Step.outcome {call : ServerCall} {seen : List Act} (step : server.Step call seen server') :
    Outcome server.core server.state.life seen server'.core server'.state.life := by
  cases step with
  | same => exact .refl _ _
  | told _ event => exact .quiet (.push _ _)
  | refused _ up free said =>
      obtain ⟨outputs, queued⟩ := said.queued
      exact .quiet queued
  | asked m now was =>
      rw [was]
      exact .quiet (.push _ _)
  | negotiated serverFlow credentials now was flows =>
      rw [was]
      exact .saying ((Core.Queued.push _ _).trans (.push _ _)) (.opens _ _ _ _)
  | requested m now was free names admitted positive onward =>
      rw [was]
      exact .quiet (.push _ _)
  | acked now was =>
      rw [was]
      exact bindWithAck_outcome _ _ _ _ now
  | rejected code reason now was =>
      rw [was]
      exact .quiet (.push _ _)
  | opened now was free =>
      rw [was]
      exact .refl _ _
  | lost _ said free next =>
      obtain ⟨outputs, queued⟩ := said.queued
      have closed := queued.trans (.closeTransport _)
      generalize server.state = before at next
      cases next with
      | awaiting alive => exact .saying closed (.ends _ _)
      | pending alive => exact .saying closed (.ends _ _)
      | _ => exact .quiet closed
  | ran _ was said runs =>
      rw [was]
      have settled := settle_outcome server runs
      rcases said with rfl | ⟨refusing, up⟩
      · exact settled
      · obtain ⟨outputs, queued⟩ := refusing.queued
        exact .saying queued settled
  | detached gone => exact gone.outcome

end FixpServer

/-- An endpoint whose calls do no more than `Progress` lists. -/
class LawfulEndpoint (R : Type) {C : outParam Type} [Endpoint R C] : Prop where
  core_setCore (role : R) (core : Core) : Role.core (Role.setCore role core) = core
  life_setCore (role : R) (core : Core) : Endpoint.life (Role.setCore role core) = Endpoint.life role
  outcome (role : R) (call : C) : ∃ seen, Act.receipts seen = Endpoint.receipts role call ∧
    Outcome (Role.core role) (Endpoint.life role) seen (Role.core (Endpoint.call role call).2)
      (Endpoint.life (Endpoint.call role call).2)

instance : LawfulEndpoint FixpClient where
  core_setCore _ _ := rfl
  life_setCore _ _ := rfl
  outcome client call := ⟨_, client.receipts_eq call, (client.call_step call).outcome⟩

instance : LawfulEndpoint FixpServer where
  core_setCore _ _ := rfl
  life_setCore _ _ := rfl
  outcome server call := ⟨_, server.receipts_eq call, (server.call_step call).outcome⟩

end IronFix.Fixp
