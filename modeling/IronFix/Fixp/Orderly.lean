import IronFix.Fixp.Unbinding

/-!
# The order of a record

What a driver sees of an endpoint is in order on every transport, from the
first call to the last.
-/

namespace IronFix.Fixp

open Stance

/-! ## Entries of a transport -/

namespace Entry

/-- Whether a message goes out. -/
def sends : Entry → Bool
  | .output queued => queued.sends
  | .written => true
  | .detached | .taken .. => false

def terminates : Entry → Bool
  | .output (.send message) => message.isTerminate
  | .output _ | .written | .detached | .taken .. => false

def closes : Entry → Bool
  | .output .closeTransport => true
  | .output _ | .written | .detached | .taken .. => false

def establishes : Entry → Bool
  | .output queued => queued.establishes
  | .written | .detached | .taken .. => false

/-- Whether more goes out than the refusal of a handshake. -/
def carries : Entry → Bool
  | .output queued => queued.carries
  | .written => true
  | .detached | .taken .. => false

/-- Two entries of one transport, in the order of the record. -/
def Behind (record : List Entry) (first later : Entry) : Prop :=
  ∃ before between after,
    record = before ++ first :: (between ++ later :: after) ∧ .detached ∉ between

end Entry

namespace Phase

def rank : Phase → Nat
  | .up => 0
  | .terminated => 1
  | .closed => 2

/-- The phase after an entry, unless the entry is out of place. -/
def enter : Phase → Entry → Option Phase
  | _, .detached => some .up
  | phase, .taken .. => some phase
  | phase, .output queued => phase.read queued
  | .up, .written => some .up
  | .terminated, .written | .closed, .written => none

variable {phase after : Phase} {entry : Entry}

/-- A transport does not come back. -/
theorem rank_enter (attached : entry ≠ .detached) (entered : phase.enter entry = some after) :
    phase.rank ≤ after.rank := by
  cases entry with
  | detached => exact (attached rfl).elim
  | taken seq retransmitted =>
      obtain rfl := Option.some.inj entered
      exact le_refl _
  | written =>
      cases phase with
      | up => exact Nat.zero_le _
      | _ => cases entered
  | output queued =>
      cases phase with
      | up => exact Nat.zero_le _
      | terminated =>
          cases queued with
          | event event =>
              obtain rfl := Option.some.inj entered
              exact le_refl _
          | closeTransport =>
              obtain rfl := Option.some.inj entered
              decide
          | _ => cases entered
      | closed =>
          cases queued with
          | event event =>
              obtain rfl := Option.some.inj entered
              exact le_refl _
          | _ => cases entered

theorem rank_enterAll {entries : List Entry} (attached : .detached ∉ entries)
    (entered : entries.foldlM enter phase = some after) : phase.rank ≤ after.rank := by
  induction entries generalizing phase with
  | nil =>
      obtain rfl := Option.some.inj entered
      exact le_refl _
  | cons entry entries ih =>
      rw [List.foldlM_cons] at entered
      obtain ⟨next, first, rest⟩ := Option.bind_eq_some_iff.mp entered
      have step := rank_enter (fun gone => attached (gone ▸ List.mem_cons_self)) first
      exact le_trans step (ih (fun mem => attached (List.mem_cons_of_mem _ mem)) rest)

/-- Only a transport that is up sends. -/
theorem enter_sends (sends : entry.sends = true) (entered : phase.enter entry = some after) :
    phase = .up := by
  cases entry with
  | detached => cases sends
  | taken seq retransmitted => cases sends
  | written =>
      cases phase with
      | up => rfl
      | _ => cases entered
  | output queued =>
      by_contra late
      obtain ⟨silent, -⟩ := read_late late entered
      have said : queued.sends = true := sends
      rw [silent] at said
      cases said

theorem enter_terminates (terminates : entry.terminates = true)
    (entered : phase.enter entry = some after) : after = .terminated := by
  cases entry with
  | output queued =>
      cases queued with
      | send message =>
          have ends : message.isTerminate = true := terminates
          have isSend : Entry.sends (.output (.send message)) = true := rfl
          have up := enter_sends isSend entered
          subst up
          have next := Option.some.inj entered
          rw [if_pos ends] at next
          exact next.symm
      | _ => cases terminates
  | _ => cases terminates

theorem enter_closes (closes : entry.closes = true) (entered : phase.enter entry = some after) :
    phase ≠ .closed ∧ after = .closed := by
  cases entry with
  | output queued =>
      cases queued with
      | closeTransport =>
          cases phase with
          | closed => cases entered
          | _ => exact ⟨by simp, (Option.some.inj entered).symm⟩
      | _ => cases closes
  | _ => cases closes

theorem enterAll_outputs (outputs : List Output) (phase : Phase) :
    (outputs.map Entry.output).foldlM enter phase = phase.readAll outputs := by
  induction outputs generalizing phase with
  | nil => rfl
  | cons output outputs ih =>
      rw [List.map_cons, List.foldlM_cons]
      show (phase.read output).bind _ = (phase.read output).bind _
      exact congrArg _ (funext fun next => ih next)

theorem enterAll_taken (receipts : List (Option Nat × Bool)) (phase : Phase) :
    (receipts.map fun receipt => Entry.taken receipt.1 receipt.2).foldlM enter phase =
      some phase := by
  induction receipts with
  | nil => rfl
  | cons receipt receipts ih =>
      rw [List.map_cons, List.foldlM_cons]
      exact ih

/-- What comes of two entries of one transport. -/
theorem behind {record : List Entry} {first later : Entry} {phase last : Phase}
    (entered : record.foldlM enter phase = some last) (behind : Entry.Behind record first later) :
    ∃ start next before after : Phase, start.enter first = some next ∧
      before.enter later = some after ∧ next.rank ≤ before.rank := by
  obtain ⟨prior, between, rest, rfl, attached⟩ := behind
  rw [List.foldlM_append] at entered
  obtain ⟨start, -, entered⟩ := Option.bind_eq_some_iff.mp entered
  rw [List.foldlM_cons] at entered
  obtain ⟨next, enters, entered⟩ := Option.bind_eq_some_iff.mp entered
  rw [List.foldlM_append] at entered
  obtain ⟨before, passed, entered⟩ := Option.bind_eq_some_iff.mp entered
  rw [List.foldlM_cons] at entered
  obtain ⟨after, enters', -⟩ := Option.bind_eq_some_iff.mp entered
  exact ⟨start, next, before, after, enters, enters', rank_enterAll attached passed⟩

end Phase

/-! ## Endpoints -/

/-- The session is over for good: at rest, or while its binding is still being closed. -/
def Endpoint.Finalized {R C : Type} [Endpoint R C] (role : R) : Prop :=
  Role.status role = .finalized ∨
    ∃ session, Endpoint.life role = .live session ∧ session.finalized = true

/-- An endpoint that unbinds its transports in order. -/
class OrderlyEndpoint (R : Type) {C : outParam Type} [Endpoint R C] extends LawfulEndpoint R where
  standing : R → Standing
  standing_setCore (role : R) (core : Core) : standing (Role.setCore role core) = standing role
  bound (role : R) :
    (Role.boundParts role).isSome = true ↔ Stance.Bound ⟨Role.core role, standing role⟩
  finished (role : R) : Role.status role = .finalized ↔ standing role = .finalized
  lives (role : R) (session : Session) : Endpoint.life role = .live session ↔
    (∃ armed, standing role = .apart (some session) armed) ∨
      ∃ binding, standing role = .bound session binding
  keeps (role : R) (call : C) (stays : Endpoint.detaches R call = false)
    (sound : Sound ⟨Role.core role, standing role⟩) :
    Keeps ⟨Role.core role, standing role⟩
      ⟨Role.core (Endpoint.call role call).2, standing (Endpoint.call role call).2⟩
  detaches (role : R) (call : C) (gone : Endpoint.detaches R call = true)
    (sound : Sound ⟨Role.core role, standing role⟩) :
    Detaches ⟨Role.core role, standing role⟩
      ⟨Role.core (Endpoint.call role call).2, standing (Endpoint.call role call).2⟩
  /-- Application messages are written on an established binding. -/
  writes (role : R) (call : C) (written : (Endpoint.call role call).1.writes = true) :
    Endpoint.detaches R call = false ∧ ∃ session binding,
      standing (Endpoint.call role call).2 = .bound session binding ∧ binding.isEstablished = true

theorem FixpClient.call_writes (client : FixpClient) (call : ClientCall)
    (written : (client.call call).1.writes = true) :
    Endpoint.detaches FixpClient call = false ∧ ∃ session binding,
      (client.call call).2.state.standing = .bound session binding ∧
        binding.isEstablished = true := by
  have attempted (outcome : Except FixpError FixpClient) : (client.attempt outcome).1.writes = false := by
    cases outcome <;> rfl
  cases call with
  | negotiate now =>
      rw [show (client.call (.negotiate now)).1.writes = false from attempted _] at written
      cases written
  | establish now =>
      rw [show (client.call (.establish now)).1.writes = false from attempted _] at written
      cases written
  | command command =>
      refine ⟨rfl, ?_⟩
      show ∃ session binding, (Role.command command client).2.state.standing = _ ∧ _
      have written : (Role.command command client).1.writes = true := written
      unfold Role.command at written ⊢
      split at written
      · rename_i parts bound
        split at written
        · rename_i reply turn done
          obtain ⟨stays, up⟩ := Command.onParts_writes done written
          obtain ⟨q, goes⟩ := turn
          obtain rfl : goes = .stay := stays
          exact ⟨q.session, q.binding, rfl, up⟩
        · cases written
      · cases written
  | _ => cases written

theorem FixpServer.call_writes (server : FixpServer) (call : ServerCall)
    (written : (server.call call).1.writes = true) :
    Endpoint.detaches FixpServer call = false ∧ ∃ session binding,
      (server.call call).2.state.standing = .bound session binding ∧
        binding.isEstablished = true := by
  have attempted (outcome : Except FixpError FixpServer) : (server.attempt outcome).1.writes = false := by
    cases outcome <;> rfl
  have never (outcome : Except FixpError FixpServer) (written : (server.attempt outcome).1.writes = true) :
      False := by
    rw [attempted] at written
    cases written
  cases call with
  | acceptNegotiation serverFlow credentials now => exact (never _ written).elim
  | rejectNegotiation code reason => exact (never _ written).elim
  | acceptEstablishment now => exact (never _ written).elim
  | rejectEstablishment code reason now => exact (never _ written).elim
  | transportOpened now => exact (never _ written).elim
  | command command =>
      refine ⟨rfl, ?_⟩
      show ∃ session binding, (Role.command command server).2.state.standing = _ ∧ _
      have written : (Role.command command server).1.writes = true := written
      unfold Role.command at written ⊢
      split at written
      · rename_i parts bound
        split at written
        · rename_i reply turn done
          obtain ⟨stays, up⟩ := Command.onParts_writes done written
          obtain ⟨q, goes⟩ := turn
          obtain rfl : goes = .stay := stays
          exact ⟨q.session, q.binding, rfl, up⟩
        · cases written
      · cases written
  | _ => cases written

theorem Binding.status_ne_finalized (binding : Binding) : binding.status ≠ .finalized := by
  unfold status
  split <;> simp

namespace ClientState

theorem finished (state : ClientState) : state.status = .finalized ↔ state.standing = .finalized := by
  cases state with
  | bound session binding =>
      exact ⟨fun finished => (binding.status_ne_finalized finished).elim, fun finished => by cases finished⟩
  | closed reason => cases reason <;> simp [status, standing]
  | _ => simp [status, standing]

theorem lives (state : ClientState) (session : Session) : state.life = .live session ↔
    (∃ armed, state.standing = .apart (some session) armed) ∨
      ∃ binding, state.standing = .bound session binding := by
  cases state with
  | closed reason => cases reason <;> simp [life, standing]
  | _ => simp [life, standing]

end ClientState

namespace ServerState

theorem finished (state : ServerState) : state.status = .finalized ↔ state.standing = .finalized := by
  cases state with
  | bound session binding =>
      exact ⟨fun finished => (binding.status_ne_finalized finished).elim, fun finished => by cases finished⟩
  | closed reason => cases reason <;> simp [status, standing]
  | _ => simp [status, standing]

theorem lives (state : ServerState) (session : Session) : state.life = .live session ↔
    (∃ armed, state.standing = .apart (some session) armed) ∨
      ∃ binding, state.standing = .bound session binding := by
  cases state with
  | closed reason => cases reason <;> simp [life, standing]
  | _ => simp [life, standing]

end ServerState

/-- The binding a client reports is the one it stands on. -/
theorem FixpClient.bound_iff (client : FixpClient) :
    (Role.boundParts client).isSome = true ↔ Stance.Bound client.stance := by
  have unbound : (none : Option BoundParts).isSome = true ↔ False := by simp
  cases was : client.state with
  | bound session binding =>
      rw [client.boundParts_bound was, FixpClient.stance_of was]
      exact ⟨fun _ => trivial, fun _ => rfl⟩
  | closed reason =>
      rw [client.boundParts_unbound (by rw [was]; simp), FixpClient.stance_of was]
      cases reason <;> exact unbound
  | _ =>
      rw [client.boundParts_unbound (by rw [was]; simp), FixpClient.stance_of was]
      exact unbound

theorem FixpServer.bound_iff (server : FixpServer) :
    (Role.boundParts server).isSome = true ↔ Stance.Bound server.stance := by
  have unbound : (none : Option BoundParts).isSome = true ↔ False := by simp
  cases was : server.state with
  | bound session binding =>
      rw [server.boundParts_bound was, FixpServer.stance_of was]
      exact ⟨fun _ => trivial, fun _ => rfl⟩
  | closed reason =>
      rw [server.boundParts_unbound (by rw [was]; simp), FixpServer.stance_of was]
      cases reason <;> exact unbound
  | _ =>
      rw [server.boundParts_unbound (by rw [was]; simp), FixpServer.stance_of was]
      exact unbound

instance : OrderlyEndpoint FixpClient where
  standing client := client.state.standing
  standing_setCore _ _ := rfl
  bound := FixpClient.bound_iff
  finished client := client.state.finished
  lives client := client.state.lives
  keeps client call stays sound := (client.call_step call).keeps (by
    rintro rfl
    cases stays) sound
  detaches client call gone sound := by
    cases call with
    | transportClosed => exact client.onTransportClosed_detach.detaches sound
    | _ => cases gone
  writes := FixpClient.call_writes

instance : OrderlyEndpoint FixpServer where
  standing server := server.state.standing
  standing_setCore _ _ := rfl
  bound := FixpServer.bound_iff
  finished server := server.state.finished
  lives server := server.state.lives
  keeps server call stays sound := (server.call_step call).keeps (by
    rintro rfl
    cases stays) sound
  detaches server call gone sound := by
    cases call with
    | transportClosed => exact server.onTransportClosed_detach.detaches sound
    | _ => cases gone
  writes := FixpServer.call_writes

/-! ## Records -/

section Drive

variable {R C : Type} [Endpoint R C]

/-- The outputs of a call are all the driver drains after it. -/
theorem drained_outputs {role : R} {call : C} {outputs : List Output}
    (drained : (Role.core role).outputs = [])
    (queued : (Role.core role).Queued outputs (Role.core (Endpoint.call role call).2)) :
    (Role.drain (Endpoint.call role call).2).1 = outputs := by
  show (Role.core (Endpoint.call role call).2).outputs = outputs
  rw [queued.outputs, drained]
  rfl

variable [OrderlyEndpoint R]

/-- Where the endpoint stands. -/
def stanceOf (role : R) : Stance := ⟨Role.core role, OrderlyEndpoint.standing role⟩

theorem finalized_iff {role : R} (sound : (stanceOf role).Sound) :
    Endpoint.Finalized role ↔ (stanceOf role).Finalized := by
  unfold Endpoint.Finalized
  simp only [OrderlyEndpoint.finished, OrderlyEndpoint.lives]
  unfold stanceOf at sound ⊢
  generalize OrderlyEndpoint.standing role = stands at sound ⊢
  cases stands with
  | finalized => exact ⟨fun _ => trivial, fun _ => .inl rfl⟩
  | bound session binding =>
      constructor
      · rintro (finished | ⟨held, ⟨armed, apart⟩ | ⟨was, same⟩, finalized⟩)
        · cases finished
        · cases apart
        · obtain ⟨rfl, -⟩ := Standing.bound.inj same
          exact finalized
      · intro finalized
        exact .inr ⟨session, .inr ⟨binding, rfl⟩, finalized⟩
  | apart session armed =>
      refine ⟨?_, False.elim⟩
      rintro (finished | ⟨held, ⟨waits, apart⟩ | ⟨was, same⟩, finalized⟩)
      · cases finished
      · obtain ⟨rfl, -⟩ := Standing.apart.inj apart
        rw [sound.2 held rfl] at finalized
        cases finalized
      · cases same

/-- The driver's record is in order, and ends in the phase the endpoint is in. -/
structure Driven.InOrder (driven : Driven R) : Prop where
  drained : (Role.core driven.role).outputs = []
  sound : (stanceOf driven.role).Sound
  entered : driven.record.foldlM Phase.enter .up = some (stanceOf driven.role).phase

/-- An endpoint that lets application messages go is on a transport that is up. -/
theorem writes_up {role : R} {call : C} (sound : (stanceOf (Endpoint.call role call).2).Sound)
    (written : (Endpoint.call role call).1.writes = true) :
    (stanceOf (Endpoint.call role call).2).phase = .up := by
  obtain ⟨-, session, binding, stands, up⟩ := OrderlyEndpoint.writes role call written
  unfold stanceOf at sound ⊢
  rw [stands] at sound ⊢
  rw [phase_bound sound.1]
  exact BoundParts.phase_up up

/-- The entries of one call. -/
theorem entries_enter {role : R} (call : C) (drained : (Role.core role).outputs = [])
    (sound : (stanceOf role).Sound) :
    (stanceOf (Endpoint.call role call).2).Sound ∧
      (entries role call).foldlM Phase.enter (stanceOf role).phase =
        some (stanceOf (Endpoint.call role call).2).phase := by
  -- the phase after the mark of a lost transport, from which the outputs are read
  have reads (phase : Phase) (sound' : (stanceOf (Endpoint.call role call).2).Sound)
      (marked : (if Endpoint.detaches R call then [Entry.detached] else []).foldlM Phase.enter
        (stanceOf role).phase = some phase)
      (speaks : (Role.core role).Speaks phase (Role.core (Endpoint.call role call).2)
        (stanceOf (Endpoint.call role call).2).phase) :
      (entries role call).foldlM Phase.enter (stanceOf role).phase =
        some (stanceOf (Endpoint.call role call).2).phase := by
    obtain ⟨outputs, queued, read⟩ := speaks
    unfold entries
    rw [List.foldlM_append, List.foldlM_append, List.foldlM_append, marked, drained_outputs drained queued]
    simp only [Option.bind_eq_bind, Option.bind_some, Phase.enterAll_taken, Phase.enterAll_outputs, read]
    split
    · rename_i written
      rw [writes_up sound' written]
      rfl
    · rfl
  cases gone : Endpoint.detaches R call with
  | false =>
      have keeps := OrderlyEndpoint.keeps role call gone sound
      exact ⟨keeps.sound, reads _ keeps.sound (by rw [gone]; rfl) keeps.speaks⟩
  | true =>
      have leaves := OrderlyEndpoint.detaches role call gone sound
      refine ⟨leaves.sound, reads .up leaves.sound (by rw [gone]; rfl) ?_⟩
      have up : (stanceOf (Endpoint.call role call).2).phase = .up := leaves.up
      rw [up]
      exact leaves.tells.tells .up

/-- Draining changes only the outputs. -/
theorem Driven.stanceOf_step (driven : Driven R) (call : C) : stanceOf (driven.step call).role =
    ⟨(Role.core (Endpoint.call driven.role call).2).drain.2,
      OrderlyEndpoint.standing (Endpoint.call driven.role call).2⟩ := by
  have stands : OrderlyEndpoint.standing (driven.step call).role =
      OrderlyEndpoint.standing (Endpoint.call driven.role call).2 :=
    OrderlyEndpoint.standing_setCore _ _
  have core : Role.core (driven.step call).role =
      (Role.core (Endpoint.call driven.role call).2).drain.2 := LawfulEndpoint.core_setCore _ _
  unfold stanceOf
  rw [stands, core]

theorem Driven.step_inOrder (driven : Driven R) (call : C) (ordered : driven.InOrder) :
    (driven.step call).InOrder := by
  obtain ⟨sound, enters⟩ := entries_enter call ordered.drained ordered.sound
  have core : Role.core (driven.step call).role =
      (Role.core (Endpoint.call driven.role call).2).drain.2 := LawfulEndpoint.core_setCore _ _
  have rests := driven.stanceOf_step call
  refine ⟨by rw [core]; rfl, ?_, ?_⟩
  · rw [rests]
    exact sound.transfer rfl
  · show (driven.record ++ entries driven.role call).foldlM Phase.enter .up = _
    have same : phase ⟨(Role.core (Endpoint.call driven.role call).2).drain.2,
        OrderlyEndpoint.standing (Endpoint.call driven.role call).2⟩ =
          (stanceOf (Endpoint.call driven.role call).2).phase := phase_core rfl _
    rw [List.foldlM_append, ordered.entered, rests, same]
    exact enters

/-- Whatever the driver calls. -/
theorem drive_inOrder (role : R) (drained : (Role.core role).outputs = [])
    (sound : (stanceOf role).Sound) (up : (stanceOf role).phase = .up) (calls : List C) :
    (drive role calls).InOrder := by
  have starts : (⟨role, []⟩ : Driven R).InOrder := ⟨drained, sound, by rw [up]; rfl⟩
  exact Lib.Runs.invariant (fun driven call ordered _ => driven.step_inOrder call ordered) starts
    (Lib.Runs.along_true _ calls)

/-! ## What the record shows -/

/-- Nothing is sent behind a Terminate, and nothing but events follows the close. -/
theorem Driven.InOrder.behind {driven : Driven R} (ordered : driven.InOrder) {first later : Entry}
    (behind : Entry.Behind driven.record first later) :
    (first.terminates = true → later.sends = false) ∧
      (first.closes = true → later.sends = false ∧ later.closes = false) := by
  obtain ⟨start, next, before, after, enters, enters', onward⟩ := Phase.behind ordered.entered behind
  have quiet (late : 0 < next.rank) : later.sends = false := by
    cases sends : later.sends with
    | false => rfl
    | true =>
        rw [Phase.enter_sends sends enters'] at onward
        exact absurd onward (Nat.not_le_of_lt late)
  constructor
  · intro terminates
    refine quiet ?_
    rw [Phase.enter_terminates terminates enters]
    decide
  · intro closes
    obtain ⟨-, closed⟩ := Phase.enter_closes closes enters
    rw [closed] at onward quiet
    refine ⟨quiet (by decide), ?_⟩
    cases again : later.closes with
    | false => rfl
    | true =>
        obtain ⟨open_, -⟩ := Phase.enter_closes again enters'
        cases before with
        | closed => exact (open_ rfl).elim
        | _ => exact absurd onward (by decide)

/-- A binding that ends in a call, or begins and ends in it, closes the transport. -/
theorem closes_of_ends {role : R} {call : C} (drained : (Role.core role).outputs = [])
    (sound : (stanceOf role).Sound) (stays : Endpoint.detaches R call = false)
    (bound : (Role.boundParts role).isSome = true ∨
      ∃ entry ∈ entries role call, entry.establishes = true)
    (ended : (Role.boundParts (Endpoint.call role call).2).isSome = false) :
    .output .closeTransport ∈ entries role call := by
  have keeps := OrderlyEndpoint.keeps role call stays sound
  have apart : ¬Stance.Bound (stanceOf (Endpoint.call role call).2) := by
    intro held
    rw [(OrderlyEndpoint.bound _).mpr held] at ended
    cases ended
  have outputs_mem {outputs : List Output} {output : Output}
      (queued : (Role.core role).Queued outputs (Role.core (Endpoint.call role call).2))
      (mem : output ∈ outputs) : Entry.output output ∈ entries role call := by
    unfold entries
    rw [drained_outputs drained queued]
    exact List.mem_append_left _ (List.mem_append_right _ (List.mem_map_of_mem mem))
  rcases keeps.ends with ⟨free, closing⟩ | held | ⟨unbound, outputs, queued, hushed⟩
  · obtain ⟨outputs, queued, reads⟩ := keeps.speaks
    rw [phase_closed closing] at reads
    exact outputs_mem queued (Phase.readAll_closes (phase_open free) reads)
  · exact (apart held).elim
  · rcases bound with held | ⟨entry, mem, establishes⟩
    · exact (unbound ((OrderlyEndpoint.bound role).mp held)).elim
    · -- an establishment is told of among the outputs, and there is none
      exfalso
      cases entry with
      | output queued' =>
          have said : queued' ∈ outputs := by
            unfold entries at mem
            rw [drained_outputs drained queued] at mem
            simpa [stays] using mem
          have establishes : queued'.establishes = true := establishes
          rw [hushed queued' said] at establishes
          cases establishes
      | _ => cases establishes

/-- Entries that carry nothing, when the outputs do not. -/
theorem entries_silent {role : R} {call : C} (drained : (Role.core role).outputs = [])
    (voiced : (Role.core role).Says (·.carries = false) (Role.core (Endpoint.call role call).2))
    (sound : (stanceOf (Endpoint.call role call).2).Sound)
    (finalized : (stanceOf (Endpoint.call role call).2).Finalized) :
    ∀ entry ∈ entries role call, entry.carries = false := by
  obtain ⟨outputs, queued, silent⟩ := voiced
  -- a finalized session is not on an established binding
  have unwritten : (Endpoint.call role call).1.writes = false := by
    cases written : (Endpoint.call role call).1.writes with
    | false => rfl
    | true =>
        obtain ⟨-, session, binding, stands, up⟩ := OrderlyEndpoint.writes role call written
        unfold stanceOf at sound finalized
        rw [stands] at sound finalized
        rw [sound.2 finalized] at up
        cases up
  intro entry mem
  unfold entries at mem
  rw [drained_outputs drained queued, unwritten] at mem
  simp only [List.append_assoc, List.mem_append, List.mem_map] at mem
  rcases mem with mem | ⟨receipt, -, rfl⟩ | ⟨output, mem, rfl⟩ | mem
  · split at mem
    · obtain rfl := List.mem_singleton.mp mem
      rfl
    · cases mem
  · rfl
  · exact silent output mem
  · cases mem

/-- A finalized session stays so, and nothing of it goes out any more. -/
theorem Driven.step_finalized (driven : Driven R) (call : C) (ordered : driven.InOrder)
    (finalized : (stanceOf driven.role).Finalized) :
    (stanceOf (driven.step call).role).Finalized ∧
      ∀ entry ∈ entries driven.role call, entry.carries = false := by
  have settles : (stanceOf (Endpoint.call driven.role call).2).Finalized ∧
      (Role.core driven.role).Says (·.carries = false)
        (Role.core (Endpoint.call driven.role call).2) := by
    cases gone : Endpoint.detaches R call with
    | false => exact (OrderlyEndpoint.keeps driven.role call gone ordered.sound).finalized finalized
    | true =>
        have leaves := OrderlyEndpoint.detaches driven.role call gone ordered.sound
        refine ⟨leaves.finalized finalized, leaves.tells.mono ?_⟩
        rintro output ⟨event, rfl⟩
        rfl
  obtain ⟨sound, -⟩ := entries_enter call ordered.drained ordered.sound
  refine ⟨?_, entries_silent ordered.drained settles.2 sound settles.1⟩
  rw [driven.stanceOf_step call]
  exact settles.1

/-- From then on. -/
theorem Driven.run_finalized (driven : Driven R) (more : List C) (ordered : driven.InOrder)
    (finalized : (stanceOf driven.role).Finalized) :
    (stanceOf (Lib.Runs.run Driven.step driven more).role).Finalized ∧
      ∃ later, (Lib.Runs.run Driven.step driven more).record = driven.record ++ later ∧
        ∀ entry ∈ later, entry.carries = false := by
  induction more generalizing driven with
  | nil => exact ⟨finalized, [], (List.append_nil _).symm, by simp⟩
  | cons call more ih =>
      obtain ⟨stays, silent⟩ := driven.step_finalized call ordered finalized
      obtain ⟨done, later, record, silent'⟩ :=
        ih (driven.step call) (driven.step_inOrder call ordered) stays
      refine ⟨done, entries driven.role call ++ later, ?_, ?_⟩
      · rw [Lib.Runs.run_cons, record, ← List.append_assoc]
        rfl
      · intro entry mem
        rcases List.mem_append.mp mem with mem | mem
        · exact silent entry mem
        · exact silent' entry mem

end Drive

/-- The order in which a driver's calls leave a transport. -/
structure Disciplined {R C : Type} [Endpoint R C] (role : R) (calls : List C) : Prop where
  /-- A transport carries nothing behind a Terminate, so at most one. -/
  terminated : ∀ first later, Entry.Behind (drive role calls).record first later →
    first.terminates = true → later.sends = false
  /-- Nothing is sent on a transport that was closed, and it is not closed again. -/
  closed : ∀ first later, Entry.Behind (drive role calls).record first later →
    first.closes = true → later.sends = false ∧ later.closes = false
  /-- A binding that ends in the next call closes the transport, unless the transport is gone. -/
  closes : ∀ call, Endpoint.detaches R call = false →
    ((Role.boundParts (drive role calls).role).isSome = true ∨
      ∃ entry ∈ entries (drive role calls).role call, entry.establishes = true) →
    (Role.boundParts (drive role (calls ++ [call])).role).isSome = false →
    .output .closeTransport ∈ entries (drive role calls).role call
  /-- A finalized session is over, and only refusals of a handshake are sent. -/
  finalized : Endpoint.Finalized (drive role calls).role → ∀ more,
    Endpoint.Finalized (drive role (calls ++ more)).role ∧
      ∃ later, (drive role (calls ++ more)).record = (drive role calls).record ++ later ∧
        ∀ entry ∈ later, entry.carries = false

section Drive

variable {R C : Type} [Endpoint R C] [OrderlyEndpoint R]

theorem disciplined (role : R) (drained : (Role.core role).outputs = [])
    (sound : (stanceOf role).Sound) (up : (stanceOf role).phase = .up) (calls : List C) :
    Disciplined role calls := by
  have ordered := drive_inOrder role drained sound up calls
  have onward (more : List C) : drive role (calls ++ more) =
      Lib.Runs.run Driven.step (drive role calls) more := Lib.Runs.run_append _ _ _ _
  refine ⟨?_, ?_, ?_, ?_⟩
  · intro first later behind
    exact (ordered.behind behind).1
  · intro first later behind
    exact (ordered.behind behind).2
  · intro call stays bound ended
    refine closes_of_ends ordered.drained ordered.sound stays bound ?_
    cases held : (Role.boundParts (Endpoint.call (drive role calls).role call).2).isSome with
    | false => rfl
    | true =>
        have stands := (OrderlyEndpoint.bound _).mp held
        have rests : Stance.Bound (stanceOf ((drive role calls).step call).role) := by
          rw [(drive role calls).stanceOf_step call]
          exact stands
        rw [onward] at ended
        have bound' := (OrderlyEndpoint.bound ((drive role calls).step call).role).mpr rests
        have ended : (Role.boundParts ((drive role calls).step call).role).isSome = false := ended
        rw [ended] at bound'
        cases bound'
  · intro finalized more
    have finished := (finalized_iff ordered.sound).mp finalized
    obtain ⟨done, silent⟩ := (drive role calls).run_finalized more ordered finished
    rw [← onward] at done silent
    have ordered' := drive_inOrder role drained sound up (calls ++ more)
    exact ⟨(finalized_iff ordered'.sound).mpr done, silent⟩

end Drive

/-- For either role, any configuration, any calls and any messages of the counterparty. -/
theorem unbinding_discipline :
    (∀ config clock id flow credentials (calls : List ClientCall),
      Disciplined (FixpClient.new config clock id flow credentials) calls) ∧
    ∀ config clock now (calls : List ServerCall),
      Disciplined (FixpServer.new config clock now) calls := by
  constructor
  · intro config clock id flow credentials calls
    have sound : (stanceOf (FixpClient.new config clock id flow credentials)).Sound :=
      And.intro (fun _ => rfl) fun _ none_held => by cases none_held
    exact disciplined _ rfl sound rfl calls
  · intro config clock now calls
    have sound : (stanceOf (FixpServer.new config clock now)).Sound :=
      And.intro (fun _ => rfl) fun _ none_held => by cases none_held
    exact disciplined _ rfl sound rfl calls

end IronFix.Fixp
