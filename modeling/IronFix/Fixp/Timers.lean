import IronFix.Fixp.Progress

/-!
# The timers of an endpoint

`poll_timeout` names the next instant at which `handle_timeout` has work to do.
The two agree in every reachable state: before that instant nothing changes, and
from then on the work is done and the next instant lies ahead.
-/

namespace IronFix.Fixp

namespace BoundParts

def stallDeadline (parts : BoundParts) : Option Nat :=
  (parts.session.outstanding.filter fun outstanding => !outstanding.stallReported).map
    fun outstanding => outstanding.lastProgress + parts.core.config.retransmitTimeout

def keepaliveDeadline (parts : BoundParts) : Nat :=
  parts.binding.lastKeepalive + parts.binding.localKeepalive

/-- The next instant at which `onTimeout` has work to do. -/
def nextDeadline (parts : BoundParts) : Option Nat :=
  match parts.binding.state with
  | .established =>
    (parts.silenceDeadline :: parts.keepaliveDeadline :: parts.stallDeadline.toList).min?
  | .terminating sentAt _ _ => some (sentAt + parts.binding.localKeepalive)
  | .closing deadline => deadline

end BoundParts

def FixpClient.pollTimeout (client : FixpClient) : Option Nat :=
  match client.state with
  | .negotiating _ sentAt | .establishing _ _ sentAt =>
    some (sentAt + client.core.config.handshakeTimeout)
  | .bound session binding => BoundParts.nextDeadline ⟨client.core, session, binding⟩
  | .idle | .negotiated _ | .closed _ => none

def FixpServer.pollTimeout (server : FixpServer) : Option Nat :=
  match server.state with
  | .awaitingNegotiate since => some (since + server.core.config.handshakeTimeout)
  | .negotiated _ deadline | .negotiationPending _ _ _ deadline | .establishPending _ _ _ _ deadline =>
    deadline
  | .bound session binding => BoundParts.nextDeadline ⟨server.core, session, binding⟩
  | .closed _ => none

/-- Something is queued behind what was. -/
def Core.Acted (before after : Core) : Prop :=
  ∃ output more, after.outputs = before.outputs ++ output :: more

/-- `poll` and `handle` agree at `now`. -/
structure Coherent {R : Type} [Role R] (poll : R → Option Nat) (handle : Nat → R → R) (role : R)
    (now : Nat) : Prop where
  early : (∀ due, poll role = some due → now < due) → handle now role = role
  acts : ∀ due, poll role = some due → due ≤ now →
    (Role.core role).Acted (Role.core (handle now role)) ∧
      ∀ next, poll (handle now role) = some next → now < next

/-- The intervals that a built configuration has above zero. -/
structure FixpConfig.Ticks (config : FixpConfig) : Prop where
  keepalive : 0 < config.keepaliveInterval
  retransmit : 0 < config.retransmitTimeout

theorem validateKeepalive_pos {setting : String} {interval : Nat}
    {millis : {millis : UInt32 // interval = fromMillis millis.toNat}}
    (valid : validateKeepalive setting interval = .ok millis) : 0 < interval := by
  unfold validateKeepalive at valid
  split at valid
  · rename_i inRange
    exact Nat.lt_of_lt_of_le (by decide) inRange.1
  · cases valid

theorem validateTimeout_pos {setting : String} {timeout : Nat}
    (valid : validateTimeout setting timeout = .ok ()) : 0 < timeout := by
  unfold validateTimeout at valid
  split at valid
  · cases valid
  · rename_i some_
    exact Nat.pos_of_ne_zero some_

theorem bound_ok {ε α β : Type} {first : Except ε α} {next : α → Except ε β} {b : β}
    (ends : first >>= next = .ok b) : ∃ a, first = .ok a ∧ next a = .ok b := by
  cases first with
  | error => cases ends
  | ok a => exact ⟨a, rfl, ends⟩

theorem FixpConfigBuilder.build_ticks {builder : FixpConfigBuilder} {config : FixpConfig}
    (built : builder.build = .ok config) : config.Ticks := by
  unfold build at built
  obtain ⟨millis, keepalive, built⟩ := bound_ok built
  obtain ⟨_, _, built⟩ := bound_ok built
  obtain ⟨_, _, built⟩ := bound_ok built
  split at built
  · cases built
  · obtain ⟨_, _, built⟩ := bound_ok built
    obtain ⟨_, retransmit, built⟩ := bound_ok built
    obtain ⟨_, _, built⟩ := bound_ok built
    cases built
    exact ⟨validateKeepalive_pos keepalive, validateTimeout_pos retransmit⟩

/-! ## What a handler queues -/

namespace Core.Acted

variable {core middle after : Core}

theorem push (core : Core) (output : Output) : core.Acted (core.push output) := ⟨output, [], rfl⟩

theorem more (acted : core.Acted middle) {outputs : List Output} (queued : middle.Queued outputs after) :
    core.Acted after := by
  obtain ⟨output, first, same⟩ := acted
  exact ⟨output, first ++ outputs, by rw [queued.outputs, same, List.append_assoc, List.cons_append]⟩

theorem trans (first : core.Acted middle) (second : middle.Acted after) : core.Acted after := by
  obtain ⟨output, more, same⟩ := first
  obtain ⟨output', more', same'⟩ := second
  exact ⟨output, more ++ output' :: more', by rw [same', same, List.append_assoc, List.cons_append]⟩

end Core.Acted

namespace BoundParts

variable {p q : BoundParts} {now : Nat}

/-- A binding that fails here asks for its transport to be closed. -/
theorem fail_ends (code : TerminationCode) (reason : String) (p : BoundParts) :
    (p.fail code reason).2 = .unbind ∧ p.core.Acted (p.fail code reason).1.core := by
  unfold fail
  split
  · exact ⟨rfl, _, _, by
      show ((p.core.outputs ++ [_]) ++ [_]) ++ [_] = _
      rw [List.append_assoc, List.append_assoc]
      rfl⟩
  · exact ⟨rfl, .push _ _⟩
  · exact ⟨rfl, .push _ _⟩

/-- What the timers of an established binding leave: its instants, and a
stalled request that is not due again. -/
structure Rested (now : Nat) (p q : BoundParts) : Prop where
  binding : q.binding = { p.binding with inSequence := q.binding.inSequence }
  config : q.core.config = p.core.config
  stall : ∀ due, q.stallDeadline = some due → now < due

theorem stallDeadline_unasked (unasked : p.session.outstanding = none) : p.stallDeadline = none := by
  unfold stallDeadline
  rw [unasked]
  rfl

theorem requestMissing_rests (ticks : p.core.config.Ticks) (unasked : p.session.outstanding = none) :
    (p.requestMissing now).2 = .unbind ∨
      (p.requestMissing now).2 = .stay ∧ Rested now p (p.requestMissing now).1 := by
  have resting : Rested now p p := by
    refine ⟨rfl, rfl, ?_⟩
    rw [stallDeadline_unasked unasked]
    exact nofun
  unfold requestMissing
  split
  · exact .inr ⟨rfl, resting⟩
  · split
    · exact .inr ⟨rfl, resting⟩
    · split
      · exact .inr ⟨rfl, resting⟩
      · split
        · exact .inl (fail_ends _ _ p).1
        · rename_i timestamp core stamped
          have config := (Core.Queued.requestTimestamp stamped).config
          refine .inr ⟨rfl, rfl, config, ?_⟩
          intro due stalls
          have retransmit := ticks.retransmit
          rw [← config] at retransmit
          obtain rfl : now + core.config.retransmitTimeout = due := Option.some.inj stalls
          omega

theorem settleOutstanding_unasked (count : Nat) (p : BoundParts) :
    (p.settleOutstanding count).session.outstanding = none := by
  obtain ⟨missing, overflow, same⟩ := Session.consumeMissing_eq count
    ({ p.session with outstanding := none, replay := none } : Session)
  show (Session.consumeMissing count _).outstanding = none
  rw [same]

/-- A stall is reported, and then the binding ends or rests. -/
theorem onStall_rests (ticks : p.core.config.Ticks) {outstanding : Outstanding}
    (asked : p.session.outstanding = some outstanding) :
    p.core.Acted (p.onStall outstanding now).1.core ∧ ((p.onStall outstanding now).2 = .unbind ∨
      (p.onStall outstanding now).2 = .stay ∧ Rested now p (p.onStall outstanding now).1) := by
  have reported := Core.Acted.push p.core (.event (.retransmitTimedOut outstanding.fromSeq outstanding.count))
  generalize turned : p.onStall outstanding now = turn
  unfold onStall at turned
  have again : ∀ {turn : Turn}, ((p.event (.retransmitTimedOut outstanding.fromSeq outstanding.count)).reRequest
      outstanding now) = turn → p.core.Acted turn.1.core ∧ (turn.2 = .unbind ∨
        turn.2 = .stay ∧ Rested now p turn.1) := by
    rintro _ rfl
    let reset := (p.event (.retransmitTimedOut outstanding.fromSeq outstanding.count)).settleOutstanding
      outstanding.delivered
    obtain ⟨acts, steps, _⟩ := reset.requestMissing_runs now
    refine ⟨reported.more steps.queued, ?_⟩
    rcases @requestMissing_rests reset now ticks (settleOutstanding_unasked _ _) with ends | goes
    · exact .inl ends
    · exact .inr ⟨goes.1, goes.2.binding, goes.2.config, goes.2.stall⟩
  have waits : ∀ {turn : Turn}, ((p.event (.retransmitTimedOut outstanding.fromSeq outstanding.count)).onSession
      fun session => { session with outstanding := session.outstanding.map fun outstanding =>
        { outstanding with stallReported := true } }, Bound.stay) = turn →
      p.core.Acted turn.1.core ∧ (turn.2 = .unbind ∨ turn.2 = .stay ∧ Rested now p turn.1) := by
    rintro _ rfl
    refine ⟨reported, .inr ⟨rfl, rfl, rfl, ?_⟩⟩
    intro due stalls
    unfold stallDeadline at stalls
    simp only [onSession, event, asked, Option.map_some, Option.filter_some, Bool.not_true,
      Bool.false_eq_true, if_false, Option.map_none] at stalls
    cases stalls
  split at turned
  · have ends := fail_ends .unspecifiedError "retransmission stalled"
      (p.event (.retransmitTimedOut outstanding.fromSeq outstanding.count))
    rw [turned] at ends
    exact ⟨reported.trans ends.2, .inl ends.1⟩
  · split at turned
    · exact again turned
    · exact waits turned
  · split at turned
    · exact again turned
    · exact waits turned
  · exact waits turned

theorem stalled_eq_some {outstanding : Outstanding} (due : p.stalled now = some outstanding) :
    p.session.outstanding = some outstanding ∧ ∃ deadline, p.stallDeadline = some deadline ∧ deadline ≤ now := by
  obtain ⟨asked, late⟩ := Option.filter_eq_some_iff.mp due
  rw [Bool.and_eq_true, decide_eq_true_eq] at late
  refine ⟨asked, _, ?_, late.2⟩
  unfold stallDeadline
  rw [asked, Option.filter_some, if_pos late.1]
  rfl

theorem stalled_eq_none (quiet : p.stalled now = none) {deadline : Nat}
    (stalls : p.stallDeadline = some deadline) : now < deadline := by
  obtain ⟨outstanding, found, rfl⟩ := Option.map_eq_some_iff.mp stalls
  obtain ⟨asked, unreported⟩ := Option.filter_eq_some_iff.mp found
  by_contra late
  have due : p.stalled now = some outstanding := by
    refine Option.filter_eq_some_iff.mpr ⟨asked, ?_⟩
    rw [Bool.and_eq_true, decide_eq_true_eq]
    exact ⟨unreported, Nat.le_of_not_lt late⟩
  rw [quiet] at due
  cases due

/-- The deadlines of an established binding. -/
theorem nextDeadline_established (up : p.binding.state = .established) {due : Nat}
    (next : p.nextDeadline = some due) :
    (due = p.silenceDeadline ∨ due = p.keepaliveDeadline ∨ p.stallDeadline = some due) ∧
      due ≤ p.silenceDeadline ∧ due ≤ p.keepaliveDeadline ∧
        ∀ deadline, p.stallDeadline = some deadline → due ≤ deadline := by
  unfold nextDeadline at next
  rw [up] at next
  obtain ⟨among, least⟩ := List.min?_eq_some_iff.mp next
  simp only [List.mem_cons, Option.mem_toList] at among least
  exact ⟨among, least _ (.inl rfl), least _ (.inr (.inl rfl)), fun _ stalls => least _ (.inr (.inr stalls))⟩

theorem nextDeadline_some (up : p.binding.state = .established) : ∃ due, p.nextDeadline = some due := by
  unfold nextDeadline
  rw [up]
  exact ⟨_, rfl⟩

/-- The heartbeat is all that is left of the turn. -/
theorem heartbeat_spec (now : Nat) (p : BoundParts) : p.core.Acted (p.heartbeat now).core ∧
    (p.heartbeat now).binding.state = p.binding.state ∧ (p.heartbeat now).core.config = p.core.config ∧
    (p.heartbeat now).session = p.session ∧
    (p.heartbeat now).silenceDeadline = p.silenceDeadline ∧
    (p.heartbeat now).keepaliveDeadline = now + p.binding.localKeepalive := by
  unfold heartbeat
  split
  · exact ⟨.push _ _, rfl, rfl, rfl, rfl, rfl⟩
  · exact ⟨.push _ _, rfl, rfl, rfl, rfl, rfl⟩

/-- Before the next deadline nothing changes. -/
theorem onTimeout_early (early : ∀ due, p.nextDeadline = some due → now < due) :
    p.onTimeout now = (p, .stay) := by
  unfold onTimeout
  cases state : p.binding.state with
  | established =>
      obtain ⟨due, next⟩ := nextDeadline_some state
      have later := early due next
      obtain ⟨_, silence, keepalive, stall⟩ := nextDeadline_established state next
      have quiet : p.stalled now = none := by
        cases stalled : p.stalled now with
        | none => rfl
        | some outstanding =>
            obtain ⟨_, deadline, stalls, late⟩ := stalled_eq_some stalled
            have := stall deadline stalls
            omega
      have notSilent : ¬p.silenceDeadline ≤ now := by omega
      have kept : ¬p.binding.lastKeepalive + p.binding.localKeepalive ≤ now := by
        unfold keepaliveDeadline at keepalive
        omega
      dsimp only
      rw [if_neg notSilent, quiet]
      dsimp only [Turn.andThen]
      rw [if_neg kept]
  | terminating sentAt code reason =>
      have later := early (sentAt + p.binding.localKeepalive) (by unfold nextDeadline; rw [state])
      dsimp only
      rw [if_pos later]
  | closing deadline =>
      dsimp only
      cases deadline with
      | none => rfl
      | some due =>
          have later := early due (by unfold nextDeadline; rw [state])
          rw [Option.any_some, decide_eq_false (Nat.not_le.mpr later)]
          rfl

/-- Nothing is due once the heartbeat is sent that was. -/
theorem heartbeat_rests (up : p.binding.state = .established) (positive : 0 < p.binding.localKeepalive)
    (heard : now < p.silenceDeadline) (stall : ∀ due, p.stallDeadline = some due → now < due)
    {q : BoundParts}
    (next : q = if p.binding.lastKeepalive + p.binding.localKeepalive ≤ now then p.heartbeat now else p)
    {later : Nat} (deadline : q.nextDeadline = some later) : now < later := by
  by_cases due : p.binding.lastKeepalive + p.binding.localKeepalive ≤ now
  · rw [if_pos due] at next
    subst next
    obtain ⟨_, state, config, session, silence, keepalive⟩ := heartbeat_spec now p
    have stalls : (p.heartbeat now).stallDeadline = p.stallDeadline := by
      unfold stallDeadline
      rw [config, session]
    obtain ⟨among, _⟩ := nextDeadline_established (state.trans up) deadline
    rw [silence, keepalive, stalls] at among
    rcases among with rfl | rfl | stalled
    · exact heard
    · omega
    · exact stall later stalled
  · rw [if_neg due] at next
    subst next
    obtain ⟨among, _⟩ := nextDeadline_established up deadline
    rcases among with rfl | rfl | stalled
    · exact heard
    · exact Nat.not_le.mp due
    · exact stall later stalled

/-- From the next deadline on something is done, and where the binding goes on
its next deadline lies ahead. -/
theorem onTimeout_acts (ticks : p.core.config.Ticks)
    (tuned : p.binding.localKeepalive = p.core.config.keepaliveInterval) {due : Nat}
    (next : p.nextDeadline = some due) (late : due ≤ now) :
    p.core.Acted (p.onTimeout now).1.core ∧ ((p.onTimeout now).2 = .stay →
      ∀ later, (p.onTimeout now).1.nextDeadline = some later → now < later) := by
  have positive : 0 < p.binding.localKeepalive := by
    rw [tuned]
    exact ticks.keepalive
  unfold onTimeout
  cases state : p.binding.state with
  | established =>
      obtain ⟨among, silence, keepalive, stall⟩ := nextDeadline_established state next
      dsimp only
      by_cases silent : p.silenceDeadline ≤ now
      · rw [if_pos silent]
        have ends := fail_ends .unspecifiedError "keepalive interval lapsed" (p.event .keepaliveLapsed)
        refine ⟨(Core.Acted.push p.core _).trans ends.2, ?_⟩
        intro stays
        rw [ends.1] at stays
        cases stays
      · rw [if_neg silent]
        have heard := Nat.not_le.mp silent
        cases stalled : p.stalled now with
        | none =>
            have stalls := fun deadline => @stalled_eq_none p now stalled deadline
            -- neither silence nor a stall is due, so the heartbeat is
            have beats : p.binding.lastKeepalive + p.binding.localKeepalive ≤ now := by
              rcases among with rfl | rfl | stalled'
              · omega
              · exact late
              · exact absurd (stalls due stalled') (Nat.not_lt.mpr late)
            dsimp only [Turn.andThen]
            rw [if_pos beats]
            exact ⟨(heartbeat_spec now p).1, fun _ later deadline =>
              heartbeat_rests state positive heard stalls (if_pos beats).symm deadline⟩
        | some outstanding =>
            obtain ⟨asked, _⟩ := stalled_eq_some stalled
            obtain ⟨acted, outcome⟩ := @onStall_rests p now ticks outstanding asked
            dsimp only
            generalize p.onStall outstanding now = turn at acted outcome ⊢
            obtain ⟨q, bound⟩ := turn
            rcases outcome with ends | ⟨stays, rests⟩
            · obtain rfl : bound = .unbind := ends
              exact ⟨acted, nofun⟩
            · obtain rfl : bound = .stay := stays
              have binding := rests.binding
              have up : q.binding.state = .established := by rw [binding]; exact state
              have ticking : 0 < q.binding.localKeepalive := by rw [binding]; exact positive
              have audible : now < q.silenceDeadline := by
                unfold silenceDeadline at heard ⊢
                rw [binding, rests.config]
                exact heard
              dsimp only [Turn.andThen]
              by_cases beats : q.binding.lastKeepalive + q.binding.localKeepalive ≤ now
              · rw [if_pos beats]
                exact ⟨acted.trans (heartbeat_spec now q).1, fun _ later deadline =>
                  heartbeat_rests up ticking audible rests.stall (if_pos beats).symm deadline⟩
              · rw [if_neg beats]
                exact ⟨acted, fun _ later deadline =>
                  heartbeat_rests up ticking audible rests.stall (if_neg beats).symm deadline⟩
  | terminating sentAt code reason =>
      obtain rfl : sentAt + p.binding.localKeepalive = due := by
        unfold nextDeadline at next
        rw [state] at next
        exact Option.some.inj next
      dsimp only
      rw [if_neg (Nat.not_lt.mpr late)]
      exact ⟨(Core.Acted.push p.core _).trans (.push _ _), nofun⟩
  | closing deadline =>
      obtain rfl : deadline = some due := by
        unfold nextDeadline at next
        rw [state] at next
        exact next
      dsimp only
      rw [Option.any_some, decide_eq_true late, if_pos rfl]
      exact ⟨.push _ _, nofun⟩

end BoundParts

/-! ## Reachable endpoints -/

/-- What calls and polls make of an endpoint, in any order. -/
inductive Reached {R C : Type} [Endpoint R C] (start : R) : R → Prop where
  | start : Reached start start
  | called {role : R} (before : Reached start role) (call : C) :
      Reached start (Endpoint.call role call).2
  | polled {role : R} (before : Reached start role) : Reached start (Role.pollOutput role).2

/-- A binding keeps to the keepalive its side announced. -/
def Tuned {R : Type} [Role R] (config : FixpConfig) (role : R) : Prop :=
  (Role.core role).config = config ∧
    ∀ parts, Role.boundParts role = some parts → parts.binding.localKeepalive = config.keepaliveInterval

theorem Move.localKeepalive {p moved : BoundParts} {acts : List Act} (move : Move p acts moved) :
    moved.binding.localKeepalive = p.binding.localKeepalive := by
  cases move <;> rfl

theorem Close.localKeepalive {p closed : BoundParts} {acts : List Act} (ends : Close p acts closed) :
    closed.binding.localKeepalive = p.binding.localKeepalive := by
  induction ends with
  | failed => rfl
  | quiet => rfl
  | told event _ ih => exact ih

theorem Steps.localKeepalive {p : BoundParts} {acts : List Act} {turn : Turn} (steps : Steps p acts turn) :
    turn.1.binding.localKeepalive = p.binding.localKeepalive := by
  induction steps with
  | done => rfl
  | close ends => exact ends.localKeepalive
  | move moved _ ih => exact ih.trans moved.localKeepalive

namespace FixpClient

variable {client client' : FixpClient} {config : FixpConfig} {call : ClientCall} {seen : List Act}

theorem bound_of_boundParts {parts : BoundParts} (found : Role.boundParts client = some parts) :
    client.state = .bound parts.session parts.binding := by
  obtain ⟨core, sessionId, flow, credentials, state⟩ := client
  cases state with
  | bound session binding =>
      cases found
      rfl
  | _ => cases found

theorem LostTo.not_bound {state state' : ClientState} (next : LostTo state state') {session : Session}
    {binding : Binding} : state' ≠ .bound session binding := by
  cases next <;> exact nofun

theorem DetachedTo.not_bound {state state' : ClientState} (next : DetachedTo state state')
    {session : Session} {binding : Binding} : state' ≠ .bound session binding := by
  cases next <;> exact nofun

theorem unbound_not_bound {session session' : Session} {binding : Binding} :
    (client.unbound session).state ≠ .bound session' binding := by
  unfold unbound
  split
  · exact nofun
  · exact nofun

theorem settle_bound {turn : Turn} {session : Session} {binding : Binding}
    (bound : (client.settle turn).state = .bound session binding) : binding = turn.1.binding := by
  unfold settle at bound
  split at bound
  · cases bound
    rfl
  · exact absurd bound unbound_not_bound

theorem bindOnAck_localKeepalive {session session' : Session} {m : EstablishmentAck} {now : Nat}
    {binding : Binding} (bound : (client.bindOnAck session m now).state = .bound session' binding) :
    binding.localKeepalive = client.core.config.keepaliveInterval := by
  unfold bindOnAck at bound
  dsimp only [Session.bind] at bound
  generalize ready : (⟨client.core, session.releaseBindingState, _⟩ : BoundParts) = parts at bound
  have fresh : parts.binding.localKeepalive = client.core.config.keepaliveInterval := by rw [← ready]
  generalize answered : (if client.core.config.acceptsPeerKeepalive m.keepaliveInterval = true then
    _ else _ : Turn) = turn at bound
  have runs : Runs parts (parts.announcedWith m.nextSeqNo) turn := by
    rw [← answered]
    split
    · exact .quiet (.event _) rfl (BoundParts.onEstablished_runs _ now _)
    · exact BoundParts.violation_runs _ _ (parts.handed_announcedWith _)
  obtain ⟨acts, steps, _⟩ := runs
  split at bound
  · cases bound
    exact steps.localKeepalive.trans fresh
  · cases bound

/-- A binding after a call is the one before, or the call bound it. -/
theorem Step.localKeepalive (step : client.Step call seen client') {session' : Session}
    {binding' : Binding} (bound : client'.state = .bound session' binding') :
    (∃ session binding, client.state = .bound session binding ∧
        binding'.localKeepalive = binding.localKeepalive) ∨
      binding'.localKeepalive = client.core.config.keepaliveInterval := by
  cases step with
  | same => exact .inl ⟨_, _, bound, rfl⟩
  | told => exact .inl ⟨_, _, bound, rfl⟩
  | negotiate => cases bound
  | establish => cases bound
  | negotiated => cases bound
  | acked m now was free names answers => exact .inr (bindOnAck_localKeepalive bound)
  | refused call code reason was free next =>
      rcases next with rfl | rfl
      · cases bound
      · cases bound
  | lost call event free next => exact absurd bound next.not_bound
  | ran call was runs =>
      obtain ⟨acts, steps, _⟩ := runs
      refine .inl ⟨_, _, was, ?_⟩
      rw [settle_bound bound]
      exact steps.localKeepalive
  | detached gone =>
      cases gone with
      | detached quiet next => exact absurd bound next.not_bound
      | unbound => exact absurd bound unbound_not_bound

theorem tuned_call {config : FixpConfig} (tuned : Tuned config client) (call : ClientCall) :
    Tuned config (client.call call).2 := by
  obtain ⟨_, _, _, _, _, queued⟩ := LawfulEndpoint.outcome client call
  refine ⟨queued.config.trans tuned.1, ?_⟩
  intro parts found
  rcases (client.call_step call).localKeepalive (bound_of_boundParts found) with
    ⟨session, binding, was, kept⟩ | fresh
  · exact kept.trans (tuned.2 _ (client.boundParts_bound was))
  · exact fresh.trans (congrArg (fun config : FixpConfig => config.keepaliveInterval) tuned.1)

theorem tuned_new {config : FixpConfig} (same : client.core.config = config)
    (unbound : ∀ session binding, client.state ≠ .bound session binding) : Tuned config client :=
  ⟨same, fun _ found => absurd (bound_of_boundParts found) (unbound _ _)⟩

theorem tuned_polled {config : FixpConfig} (tuned : Tuned config client) :
    Tuned config (Role.pollOutput client).2 := by
  have polled : (client.core.pollOutput).2.config = client.core.config := by
    unfold Core.pollOutput
    split
    · rfl
    · rfl
  refine ⟨polled.trans tuned.1, ?_⟩
  intro parts found
  have was : client.state = .bound parts.session parts.binding :=
    @bound_of_boundParts (Role.pollOutput client).2 parts found
  exact tuned.2 ⟨client.core, parts.session, parts.binding⟩ (client.boundParts_bound was)

theorem settle_acts {turn : Turn} {now : Nat} (acted : client.core.Acted turn.1.core)
    (rests : turn.2 = .stay → ∀ next, turn.1.nextDeadline = some next → now < next) :
    client.core.Acted (client.settle turn).core ∧
      ∀ next, (client.settle turn).pollTimeout = some next → now < next := by
  obtain ⟨parts, bound⟩ := turn
  cases bound with
  | stay => exact ⟨acted, rests rfl⟩
  | unbind =>
      unfold settle unbound
      dsimp only
      split
      · exact ⟨acted.trans (.push _ _), nofun⟩
      · exact ⟨acted, nofun⟩

/-- The two timer functions of a client whose binding keeps to its keepalive. -/
theorem coherent {config : FixpConfig} (ticks : config.Ticks) (tuned : Tuned config client) (now : Nat) :
    Coherent pollTimeout handleTimeout client now := by
  have acting : ∀ {event : Event}, client.core.Acted (client.core.event event).closeTransport :=
    (Core.Acted.push _ _).trans (.push _ _)
  constructor
  · intro early
    unfold handleTimeout
    unfold pollTimeout at early
    split
    · rename_i request sentAt was
      rw [was] at early
      have later := early _ rfl
      rw [if_neg (by unfold elapsed; rw [decide_eq_true_eq]; omega)]
    · rename_i session request sentAt was
      rw [was] at early
      have later := early _ rfl
      rw [if_neg (by unfold elapsed; rw [decide_eq_true_eq]; omega)]
    · rename_i session binding was
      rw [was] at early
      rw [BoundParts.onTimeout_early early]
      show { client with state := .bound session binding } = client
      rw [← was]
    all_goals rfl
  · intro due polled late
    show client.core.Acted (client.handleTimeout now).core ∧ _
    unfold handleTimeout
    unfold pollTimeout at polled
    split
    · rename_i request sentAt was
      rw [was] at polled
      obtain rfl : sentAt + client.core.config.handshakeTimeout = due := Option.some.inj polled
      rw [if_pos (by unfold elapsed; rw [decide_eq_true_eq]; exact late)]
      exact ⟨acting, nofun⟩
    · rename_i session request sentAt was
      rw [was] at polled
      obtain rfl : sentAt + client.core.config.handshakeTimeout = due := Option.some.inj polled
      rw [if_pos (by unfold elapsed; rw [decide_eq_true_eq]; exact late)]
      exact ⟨acting, nofun⟩
    · rename_i session binding was
      rw [was] at polled
      have keepalive := tuned.2 _ (client.boundParts_bound was)
      rw [← show client.core.config = config from tuned.1] at ticks keepalive
      obtain ⟨acted, rests⟩ := BoundParts.onTimeout_acts (p := ⟨client.core, session, binding⟩) ticks keepalive
        polled late
      exact settle_acts acted rests
    all_goals
      rename_i was
      rw [was] at polled
      cases polled

theorem tuned_start (config : FixpConfig) (clock : ClockAnchor) (id : SessionId) (flow : FlowType)
    (credentials : Option Credentials) : Tuned config (new config clock id flow credentials) := by
  refine tuned_new rfl ?_
  intro session binding was
  cases was

theorem tuned_reached {start : FixpClient} (tuned : Tuned config start) (reached : Reached start client) :
    Tuned config client := by
  induction reached with
  | start => exact tuned
  | called before call ih => exact tuned_call ih call
  | polled before ih => exact tuned_polled ih

end FixpClient

namespace FixpServer

variable {server server' : FixpServer} {config : FixpConfig} {call : ServerCall} {seen : List Act}

theorem bound_of_boundParts {parts : BoundParts} (found : Role.boundParts server = some parts) :
    server.state = .bound parts.session parts.binding := by
  obtain ⟨core, state⟩ := server
  cases state with
  | bound session binding =>
      cases found
      rfl
  | _ => cases found

theorem LostTo.not_bound {state state' : ServerState} (next : LostTo state state') {session : Session}
    {binding : Binding} : state' ≠ .bound session binding := by
  cases next <;> exact nofun

theorem DetachedTo.not_bound {state state' : ServerState} (next : DetachedTo state state')
    {session : Session} {binding : Binding} : state' ≠ .bound session binding := by
  cases next <;> exact nofun

theorem unbound_not_bound {session session' : Session} {binding : Binding} :
    (server.unbound session).state ≠ .bound session' binding := by
  unfold unbound
  split
  · exact nofun
  · exact nofun

theorem settle_bound {turn : Turn} {session : Session} {binding : Binding}
    (bound : (server.settle turn).state = .bound session binding) : binding = turn.1.binding := by
  unfold settle at bound
  split at bound
  · cases bound
    rfl
  · exact absurd bound unbound_not_bound

theorem bindWithAck_localKeepalive {session session' : Session} {request : Nanotime} {keepalive : UInt32}
    {nextSeqNo : Option UInt64} {now : Nat} {binding : Binding}
    (bound : (server.bindWithAck session request keepalive nextSeqNo now).state = .bound session' binding) :
    binding.localKeepalive = server.core.config.keepaliveInterval := by
  unfold bindWithAck at bound
  dsimp only [Session.bind] at bound
  generalize ready : (⟨server.core, session.releaseBindingState, _⟩ : BoundParts) = parts at bound
  have fresh : parts.binding.localKeepalive = server.core.config.keepaliveInterval := by rw [← ready]
  generalize said : BoundParts.send _ parts = sent at bound
  have kept : sent.binding = parts.binding := by rw [← said]; rfl
  generalize answered : BoundParts.onEstablished nextSeqNo now _ = turn at bound
  have runs : Runs sent (sent.announcedWith nextSeqNo) turn := by
    rw [← answered]
    exact .quiet (.event _) rfl (BoundParts.onEstablished_runs _ now _)
  obtain ⟨acts, steps, _⟩ := runs
  split at bound
  · cases bound
    exact steps.localKeepalive.trans ((congrArg _ kept).trans fresh)
  · cases bound

/-- A binding after a call is the one before, or the call bound it. -/
theorem Step.localKeepalive (step : server.Step call seen server') {session' : Session}
    {binding' : Binding} (bound : server'.state = .bound session' binding') :
    (∃ session binding, server.state = .bound session binding ∧
        binding'.localKeepalive = binding.localKeepalive) ∨
      binding'.localKeepalive = server.core.config.keepaliveInterval := by
  cases step with
  | same => exact .inl ⟨_, _, bound, rfl⟩
  | told => exact .inl ⟨_, _, bound, rfl⟩
  | refused => exact .inl ⟨_, _, bound, rfl⟩
  | asked => cases bound
  | negotiated => cases bound
  | requested => cases bound
  | acked => exact .inr (bindWithAck_localKeepalive bound)
  | rejected => cases bound
  | opened => cases bound
  | lost call said free next => exact absurd bound next.not_bound
  | ran call was said runs =>
      obtain ⟨acts, steps, _⟩ := runs
      refine .inl ⟨_, _, was, ?_⟩
      rw [settle_bound bound]
      exact steps.localKeepalive
  | detached gone =>
      cases gone with
      | detached quiet next => exact absurd bound next.not_bound
      | unbound => exact absurd bound unbound_not_bound

theorem tuned_call {config : FixpConfig} (tuned : Tuned config server) (call : ServerCall) :
    Tuned config (server.call call).2 := by
  obtain ⟨_, _, _, _, _, queued⟩ := LawfulEndpoint.outcome server call
  refine ⟨queued.config.trans tuned.1, ?_⟩
  intro parts found
  rcases (server.call_step call).localKeepalive (bound_of_boundParts found) with
    ⟨session, binding, was, kept⟩ | fresh
  · exact kept.trans (tuned.2 _ (server.boundParts_bound was))
  · exact fresh.trans (congrArg (fun config : FixpConfig => config.keepaliveInterval) tuned.1)

theorem tuned_new {config : FixpConfig} (same : server.core.config = config)
    (unbound : ∀ session binding, server.state ≠ .bound session binding) : Tuned config server :=
  ⟨same, fun _ found => absurd (bound_of_boundParts found) (unbound _ _)⟩

theorem tuned_polled {config : FixpConfig} (tuned : Tuned config server) :
    Tuned config (Role.pollOutput server).2 := by
  have polled : (server.core.pollOutput).2.config = server.core.config := by
    unfold Core.pollOutput
    split
    · rfl
    · rfl
  refine ⟨polled.trans tuned.1, ?_⟩
  intro parts found
  have was : server.state = .bound parts.session parts.binding :=
    @bound_of_boundParts (Role.pollOutput server).2 parts found
  exact tuned.2 ⟨server.core, parts.session, parts.binding⟩ (server.boundParts_bound was)

theorem settle_acts {turn : Turn} {now : Nat} (acted : server.core.Acted turn.1.core)
    (rests : turn.2 = .stay → ∀ next, turn.1.nextDeadline = some next → now < next) :
    server.core.Acted (server.settle turn).core ∧
      ∀ next, (server.settle turn).pollTimeout = some next → now < next := by
  obtain ⟨parts, bound⟩ := turn
  cases bound with
  | stay => exact ⟨acted, rests rfl⟩
  | unbind =>
      unfold settle unbound
      dsimp only
      split
      · exact ⟨acted.trans (.push _ _), nofun⟩
      · exact ⟨acted, nofun⟩

/-- The two timer functions of a server whose binding keeps to its keepalive. -/
theorem coherent {config : FixpConfig} (ticks : config.Ticks) (tuned : Tuned config server) (now : Nat) :
    Coherent pollTimeout handleTimeout server now := by
  have acting : ∀ {event : Event}, server.core.Acted (server.core.event event).closeTransport :=
    (Core.Acted.push _ _).trans (.push _ _)
  have refusing : ∀ {message : SessionMessage} {event : Event},
      server.core.Acted ((server.core.send message).event event).closeTransport :=
    (Core.Acted.push _ _).trans ((Core.Acted.push _ _).trans (.push _ _))
  constructor
  · intro early
    have waiting : ∀ {deadline : Option Nat}, server.pollTimeout = deadline →
        deadline.any (· ≤ now) = false := by
      rintro deadline rfl
      rw [Option.any_eq_false]
      intro due polled
      exact decide_eq_false (Nat.not_le.mpr (early due polled))
    unfold handleTimeout
    unfold pollTimeout at early waiting
    split
    · rename_i since was
      rw [was] at early
      have later := early _ rfl
      rw [if_neg (by unfold elapsed; rw [decide_eq_true_eq]; omega)]
    · rename_i session deadline was
      rw [was] at waiting
      rw [waiting rfl, if_neg Bool.false_ne_true]
    · rename_i sessionId request flow deadline was
      rw [was] at waiting
      rw [waiting rfl, if_neg Bool.false_ne_true]
    · rename_i session request keepalive next deadline was
      rw [was] at waiting
      rw [waiting rfl, if_neg Bool.false_ne_true]
    · rename_i session binding was
      rw [was] at early
      rw [BoundParts.onTimeout_early early]
      show { server with state := .bound session binding } = server
      rw [← was]
    · rfl
  · intro due polled late
    have reached : ∀ {deadline : Option Nat}, server.pollTimeout = deadline →
        deadline.any (· ≤ now) = true := by
      rintro deadline rfl
      rw [polled, Option.any_some]
      exact decide_eq_true late
    show server.core.Acted (server.handleTimeout now).core ∧ _
    unfold handleTimeout
    unfold pollTimeout at polled reached
    split
    · rename_i since was
      rw [was] at polled
      obtain rfl : since + server.core.config.handshakeTimeout = due := Option.some.inj polled
      rw [if_pos (by unfold elapsed; rw [decide_eq_true_eq]; exact late)]
      exact ⟨acting, nofun⟩
    · rename_i session deadline was
      rw [was] at reached
      rw [if_pos (reached rfl)]
      exact ⟨acting, nofun⟩
    · rename_i sessionId request flow deadline was
      rw [was] at reached
      rw [if_pos (reached rfl)]
      exact ⟨refusing, nofun⟩
    · rename_i session request keepalive next deadline was
      rw [was] at reached
      rw [if_pos (reached rfl)]
      exact ⟨refusing, nofun⟩
    · rename_i session binding was
      rw [was] at polled
      have keepalive := tuned.2 _ (server.boundParts_bound was)
      rw [← show server.core.config = config from tuned.1] at ticks keepalive
      obtain ⟨acted, rests⟩ := BoundParts.onTimeout_acts (p := ⟨server.core, session, binding⟩) ticks keepalive
        polled late
      exact settle_acts acted rests
    · rename_i was
      rw [was] at polled
      cases polled

theorem tuned_start (config : FixpConfig) (clock : ClockAnchor) (begun : Nat) :
    Tuned config (new config clock begun) := by
  refine tuned_new rfl ?_
  intro session binding was
  cases was

theorem tuned_reached {start : FixpServer} (tuned : Tuned config start) (reached : Reached start server) :
    Tuned config server := by
  induction reached with
  | start => exact tuned
  | called before call ih => exact tuned_call ih call
  | polled before ih => exact tuned_polled ih

end FixpServer

/-- `poll_timeout` and `handle_timeout` agree in every reachable state of a
client and of a server: before the instant polled nothing changes and nothing is
queued, and from it on something is queued and the next instant lies ahead. -/
theorem timers_coherent {builder : FixpConfigBuilder} {config : FixpConfig}
    (built : builder.build = .ok config) :
    (∀ clock id flow credentials client, Reached (FixpClient.new config clock id flow credentials) client →
      ∀ now, Coherent FixpClient.pollTimeout FixpClient.handleTimeout client now) ∧
    ∀ clock begun server, Reached (FixpServer.new config clock begun) server →
      ∀ now, Coherent FixpServer.pollTimeout FixpServer.handleTimeout server now := by
  have ticks := FixpConfigBuilder.build_ticks built
  constructor
  · intro clock id flow credentials client reached now
    exact FixpClient.coherent ticks (FixpClient.tuned_reached (FixpClient.tuned_start ..) reached) now
  · intro clock begun server reached now
    exact FixpServer.coherent ticks (FixpServer.tuned_reached (FixpServer.tuned_start ..) reached) now

/-- A client that sent its Negotiate at the start. -/
def negotiatingClient : FixpClient :=
  ((FixpClient.new .default ⟨0, 0⟩ ⟨List.replicate 16 1, rfl⟩ .recoverable none).call (.negotiate 0)).2

/-- After the ten seconds of its handshake timeout it gives up. -/
theorem timers_coherent_negotiating : negotiatingClient.pollTimeout = some 10000000000 ∧
    negotiatingClient.core.Acted (negotiatingClient.handleTimeout 10000000000).core :=
  have built : FixpConfig.default.toFixpConfigBuilder.build = .ok .default := rfl
  ⟨rfl, ((((timers_coherent built).1 ⟨0, 0⟩ ⟨List.replicate 16 1, rfl⟩ .recoverable none negotiatingClient
    (.called .start (ClientCall.negotiate 0)) 10000000000).acts 10000000000 rfl (Nat.le_refl _)).1)⟩

end IronFix.Fixp
