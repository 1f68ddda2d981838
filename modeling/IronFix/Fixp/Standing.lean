import IronFix.Fixp.Discipline

/-!
# Where an endpoint stands

The unbinding of a transport depends on little of an endpoint: its core, and
whether it waits for an answer, has a binding, or is done with its session.
The two roles share what they do to that.
-/

namespace IronFix.Fixp

/-! ## What is said -/

def Output.establishes : Output → Bool
  | .event told => told.establishes
  | .send _ | .sendApplication .. | .closeTransport => false

/-- Whether a message goes out that is more than the refusal of a handshake. -/
def Output.carries : Output → Bool
  | .send (.negotiationReject _) | .send (.establishmentReject _) => false
  | .send _ | .sendApplication .. => true
  | .closeTransport | .event _ => false

theorem Output.not_carries {output : Output} (silent : output.sends = false) :
    output.carries = false := by
  cases output with
  | send message => cases silent
  | sendApplication seq message => cases silent
  | _ => rfl

/-- The core queues outputs of the kind allowed. -/
def Core.Says (allowed : Output → Prop) (core core' : Core) : Prop :=
  ∃ outputs, core.Queued outputs core' ∧ ∀ output ∈ outputs, allowed output

/-- A transport that is up stays up. -/
def Output.Up (output : Output) : Prop := Phase.up.read output = some .up

/-- The transport stays up, and nothing is said of an establishment. -/
def Output.Plain (output : Output) : Prop := output.Up ∧ output.establishes = false

namespace Core.Says

variable {allowed wider : Output → Prop} {core middle after : Core}

theorem refl (core : Core) : core.Says allowed core := ⟨[], .refl core, by simp⟩

theorem trans (first : core.Says allowed middle) (rest : middle.Says allowed after) :
    core.Says allowed after := by
  obtain ⟨outputs, queued, fine⟩ := first
  obtain ⟨more, queued', fine'⟩ := rest
  refine ⟨outputs ++ more, queued.trans queued', fun output mem => ?_⟩
  rcases List.mem_append.mp mem with mem | mem
  · exact fine output mem
  · exact fine' output mem

theorem push (core : Core) {output : Output} (fine : allowed output) :
    core.Says allowed (core.push output) := by
  refine ⟨[output], .push _ _, fun found mem => ?_⟩
  obtain rfl := List.mem_singleton.mp mem
  exact fine

theorem stamped {now : Nat} {timestamp : Nanotime}
    (issued : core.requestTimestamp now = some (timestamp, after)) : core.Says allowed after :=
  ⟨[], .requestTimestamp issued, by simp⟩

theorem mono (voiced : core.Says allowed after) (widens : ∀ output, allowed output → wider output) :
    core.Says wider after := by
  obtain ⟨outputs, queued, fine⟩ := voiced
  exact ⟨outputs, queued, fun output mem => widens output (fine output mem)⟩

theorem up (voiced : core.Says Output.Plain after) : core.Says Output.Up after :=
  voiced.mono fun _ plain => plain.1

theorem speaks (voiced : core.Says Output.Up after) : core.Speaks .up after .up := by
  obtain ⟨outputs, queued, plain⟩ := voiced
  refine ⟨outputs, queued, ?_⟩
  clear queued
  induction outputs with
  | nil => rfl
  | cons output outputs ih =>
      show (Phase.up.read output).bind _ = _
      rw [plain output List.mem_cons_self]
      exact ih fun found mem => plain found (List.mem_cons_of_mem _ mem)

/-- The application is told of things on any transport. -/
theorem tells (told : core.Says (fun output => ∃ event, output = .event event) after)
    (phase : Phase) : core.Speaks phase after phase := by
  obtain ⟨outputs, queued, events⟩ := told
  refine ⟨outputs, queued, ?_⟩
  clear queued
  induction outputs with
  | nil => rfl
  | cons output outputs ih =>
      obtain ⟨event, rfl⟩ := events output List.mem_cons_self
      show (phase.read (.event event)).bind _ = _
      have same : phase.read (.event event) = some phase := by cases phase <;> rfl
      rw [same]
      exact ih fun found mem => events found (List.mem_cons_of_mem _ mem)

theorem hushed (voiced : core.Says Output.Plain after) :
    core.Says (·.establishes = false) after := voiced.mono fun _ plain => plain.2

end Core.Says

theorem Core.requestTimestamp_transportClosing {core after : Core} {now : Nat}
    {timestamp : Nanotime} (stamped : core.requestTimestamp now = some (timestamp, after)) :
    after.transportClosing = core.transportClosing := by
  obtain ⟨issued, -, same⟩ := Option.map_eq_some_iff.mp stamped
  obtain ⟨-, rfl⟩ := Prod.mk.inj same
  rfl

/-- Nothing is sent on a transport that carries a Terminate. -/
theorem Core.Speaks.silent {core after : Core} {phase phase' : Phase} (late : phase ≠ .up)
    (speaks : core.Speaks phase after phase') : core.Says (·.carries = false) after := by
  obtain ⟨outputs, queued, reads⟩ := speaks
  exact ⟨outputs, queued, fun output mem =>
    output.not_carries (Phase.readAll_late late reads output mem)⟩

/-! ## Standings -/

inductive Standing where
  /-- No binding; whether an answer is awaited on the transport. -/
  | apart (session : Option Session) (armed : Bool)
  | bound (session : Session) (binding : Binding)
  | finalized

structure Stance where
  core : Core
  standing : Standing

namespace Stance

def Bound (stance : Stance) : Prop :=
  match stance.standing with
  | .bound .. => True
  | .apart .. | .finalized => False

def Finalized (stance : Stance) : Prop :=
  match stance.standing with
  | .finalized => True
  | .bound session _ => session.finalized = true
  | .apart .. => False

def phase (stance : Stance) : Phase :=
  if stance.core.transportClosing then .closed
  else
    match stance.standing with
    | .bound session binding => BoundParts.phase ⟨stance.core, session, binding⟩
    | .apart .. | .finalized => .up

/-- The transport is open while it is in use, and a finalized session is being unbound. -/
def Sound (stance : Stance) : Prop :=
  match stance.standing with
  | .apart session armed =>
    (armed = true → stance.core.transportClosing = false) ∧
      ∀ held, session = some held → held.finalized = false
  | .bound session binding =>
    stance.core.transportClosing = false ∧
      (session.finalized = true → binding.isEstablished = false)
  | .finalized => True

/-- What a call leaves. -/
structure Keeps (before after : Stance) : Prop where
  speaks : before.core.Speaks before.phase after.core after.phase
  sound : after.Sound
  /-- A binding that ends closes the transport. -/
  ends : before.core.transportClosing = false ∧ after.core.transportClosing = true ∨ after.Bound ∨
    ¬before.Bound ∧ before.core.Says (·.establishes = false) after.core
  finalized : before.Finalized →
    after.Finalized ∧ before.core.Says (·.carries = false) after.core

variable {stance : Stance} {core middle after : Core} {session : Session} {binding : Binding}

theorem phase_closed {stance : Stance} (closing : stance.core.transportClosing = true) : stance.phase = .closed :=
  if_pos closing

theorem phase_free (stance : Stance) (free : stance.core.transportClosing = false) : stance.phase =
    (match stance.standing with
      | .bound session binding => BoundParts.phase ⟨stance.core, session, binding⟩
      | .apart .. | .finalized => .up) := by
  unfold phase
  rw [free]
  exact if_neg (by simp)

theorem phase_open {stance : Stance} (free : stance.core.transportClosing = false) :
    stance.phase ≠ .closed := by
  rw [phase_free stance free]
  split
  · exact BoundParts.phase_open _
  · simp
  · simp

theorem phase_apart {held : Option Session} {armed : Bool} (free : core.transportClosing = false) :
    phase ⟨core, .apart held armed⟩ = .up := phase_free _ free

theorem phase_bound (free : core.transportClosing = false) :
    phase ⟨core, .bound session binding⟩ = BoundParts.phase ⟨core, session, binding⟩ :=
  phase_free _ free

/-- The phase hangs on the core's outputs only through its transport. -/
theorem phase_core (closing : after.transportClosing = core.transportClosing) (standing : Standing) :
    phase ⟨after, standing⟩ = phase ⟨core, standing⟩ := by
  unfold phase
  show (if after.transportClosing = true then _ else _) = _
  rw [closing]
  cases standing <;> rfl

theorem Sound.transfer {standing : Standing} (sound : Sound ⟨core, standing⟩)
    (closing : after.transportClosing = core.transportClosing) : Sound ⟨after, standing⟩ := by
  cases standing with
  | apart session armed => exact ⟨fun waits => closing.trans (sound.1 waits), sound.2⟩
  | bound session binding => exact ⟨closing.trans sound.1, sound.2⟩
  | finalized => exact trivial

/-- The endpoint stays as it is and tells its application something. -/
theorem keeps_told {standing : Standing} (sound : Sound ⟨core, standing⟩) {event : Event}
    (other : event.establishes = false) : Keeps ⟨core, standing⟩ ⟨core.event event, standing⟩ := by
  refine ⟨?_, sound.transfer rfl, ?_, fun finalized => ⟨finalized, .push _ rfl⟩⟩
  · rw [@phase_core core (core.event event) rfl]
    exact .event _ _ _
  · cases standing with
    | bound => exact .inr (.inl trivial)
    | _ => exact .inr (.inr ⟨id, .push _ other⟩)

theorem keeps_same (sound : stance.Sound) : Keeps stance stance := by
  refine ⟨.refl _ _, sound, ?_, fun finalized => ⟨finalized, .refl _⟩⟩
  cases was : stance.standing with
  | bound session binding => exact .inr (.inl (by unfold Bound; rw [was]; exact trivial))
  | apart session armed => exact .inr (.inr ⟨(by unfold Bound; rw [was]; exact id), .refl _⟩)
  | finalized => exact .inr (.inr ⟨(by unfold Bound; rw [was]; exact id), .refl _⟩)

/-- A handshake goes on. -/
theorem keeps_apart {held held' : Option Session} {armed armed' : Bool}
    (free : core.transportClosing = false) (voiced : core.Says Output.Plain after)
    (closing : after.transportClosing = core.transportClosing)
    (unfinalized : ∀ session, held' = some session → session.finalized = false) :
    Keeps ⟨core, .apart held armed⟩ ⟨after, .apart held' armed'⟩ := by
  have open_ := closing.trans free
  refine ⟨?_, ⟨fun _ => open_, unfinalized⟩, .inr (.inr ⟨id, voiced.hushed⟩), False.elim⟩
  rw [phase_apart free, phase_apart open_]
  exact voiced.up.speaks

/-- A handshake ends, and with it the transport. -/
theorem keeps_lost {held held' : Option Session} {armed : Bool}
    (free : core.transportClosing = false) (voiced : core.Says Output.Up after)
    (unfinalized : ∀ session, held' = some session → session.finalized = false) :
    Keeps ⟨core, .apart held armed⟩ ⟨after.closeTransport, .apart held' false⟩ := by
  refine ⟨?_, ⟨fun armed => (by cases armed), unfinalized⟩, .inl ⟨free, rfl⟩, False.elim⟩
  rw [phase_apart free, @phase_closed ⟨after.closeTransport, _⟩ rfl]
  exact voiced.speaks.trans (.closes _ (by simp))

/-- A finalized session is refused. -/
theorem keeps_finalized (free : core.transportClosing = false) (voiced : core.Says Output.Up after)
    (refuses : core.Says (·.carries = false) after) :
    Keeps ⟨core, .finalized⟩ ⟨after.closeTransport, .finalized⟩ := by
  refine ⟨?_, trivial, .inl ⟨free, rfl⟩, fun _ => ⟨trivial, refuses.trans ?_⟩⟩
  · rw [phase_free ⟨core, .finalized⟩ free,
      @phase_closed ⟨after.closeTransport, _⟩ rfl]
    exact voiced.speaks.trans (.closes _ (by simp))
  · refine ⟨[.closeTransport], .closeTransport _, fun output mem => ?_⟩
    obtain rfl := List.mem_singleton.mp mem
    rfl

/-- A handshake is refused on an established binding. -/
theorem keeps_refused (sound : Sound ⟨core, .bound session binding⟩)
    (up : binding.isEstablished = true) (voiced : core.Says Output.Plain after)
    (closing : after.transportClosing = core.transportClosing) :
    Keeps ⟨core, .bound session binding⟩ ⟨after, .bound session binding⟩ := by
  refine ⟨?_, sound.transfer closing, .inr (.inl trivial), fun finalized => ?_⟩
  · rw [phase_core closing, phase_bound sound.1,
      BoundParts.phase_up (p := ⟨core, session, binding⟩) up]
    exact voiced.up.speaks
  · rw [sound.2 finalized] at up
    cases up

end Stance

/-! ## Handlers of a bound session -/

/-- A role leaves its binding. -/
def Stance.leave (core : Core) (session : Session) : Stance :=
  if session.finalized then ⟨core.event (.sessionFinalized session.id), .finalized⟩
  else ⟨core, .apart (some session) false⟩

/-- Where the end of a handshake leaves its role. -/
def Turn.begun (turn : Turn) : Stance :=
  match turn.2 with
  | .stay => ⟨turn.1.core, .bound turn.1.session turn.1.binding⟩
  | .unbind => ⟨turn.1.core, .apart (some turn.1.session) false⟩

/-- Where a handler leaves its role. -/
def Turn.stance (turn : Turn) : Stance :=
  match turn.2 with
  | .stay => ⟨turn.1.core, .bound turn.1.session turn.1.binding⟩
  | .unbind => .leave turn.1.core turn.1.session

namespace Stance

variable {core after : Core} {session : Session} {binding : Binding} {turn : Turn} {seen : List Act}

theorem leave_sound (core : Core) (session : Session) : (leave core session).Sound := by
  unfold leave
  split
  · exact trivial
  · rename_i unfinalized
    refine ⟨fun armed => (by cases armed), fun held same => ?_⟩
    obtain rfl := Option.some.inj same
    simpa using unfinalized

theorem leave_unbound (core : Core) (session : Session) : ¬(leave core session).Bound := by
  unfold leave
  split
  · exact id
  · exact id

theorem leave_transportClosing (core : Core) (session : Session) :
    (leave core session).core.transportClosing = core.transportClosing := by
  unfold leave
  split
  · rfl
  · rfl

theorem leave_speaks (core : Core) (session : Session) (phase : Phase) :
    core.Speaks phase (leave core session).core phase := by
  unfold leave
  split
  · exact .event _ _ _
  · exact .refl _ _

theorem leave_finalized (core : Core) {session : Session} (finalized : session.finalized = true) :
    (leave core session).Finalized := by
  unfold leave
  rw [if_pos finalized]
  exact trivial

/-- A bound session runs a handler, perhaps after refusing a handshake. -/
theorem keeps_runs (sound : Sound ⟨core, .bound session binding⟩)
    (said : after = core ∨ core.Says Output.Plain after ∧
      after.transportClosing = core.transportClosing ∧ binding.isEstablished = true)
    (runs : Runs ⟨after, session, binding⟩ seen turn) :
    Keeps ⟨core, .bound session binding⟩ turn.stance := by
  have free : after.transportClosing = false := by
    rcases said with rfl | ⟨-, closing, -⟩
    · exact sound.1
    · exact closing.trans sound.1
  have spoken : core.Speaks (phase ⟨core, .bound session binding⟩) turn.1.core turn.phase := by
    rw [phase_bound sound.1]
    rcases said with rfl | ⟨voiced, -, up⟩
    · exact runs.speaks
    · have begins : (⟨after, session, binding⟩ : BoundParts).phase = .up := BoundParts.phase_up up
      have speaks := runs.speaks
      rw [begins] at speaks
      rw [BoundParts.phase_up (p := ⟨core, session, binding⟩) up]
      exact voiced.up.speaks.trans speaks
  have closing := runs.transportClosing
  have guards := runs.guarded sound.2
  have final := runs.keeps_finalized
  have late (finalized : session.finalized = true) :
      phase ⟨core, .bound session binding⟩ ≠ .up := by
    rw [phase_bound sound.1,
      BoundParts.phase_down (p := ⟨core, session, binding⟩) (sound.2 finalized)]
    simp
  obtain ⟨q, bound⟩ := turn
  cases bound with
  | stay =>
      have open_ : q.core.transportClosing = false := closing.trans free
      have rests : (Turn.stance (q, .stay)).phase = q.phase := phase_bound open_
      have speaks : core.Speaks (phase ⟨core, .bound session binding⟩) q.core
          (Turn.stance (q, .stay)).phase := by
        rw [rests]
        exact spoken
      exact ⟨speaks, ⟨open_, guards rfl⟩, .inr (.inl trivial),
        fun finalized => ⟨final finalized, speaks.silent (late finalized)⟩⟩
  | unbind =>
      have closed : (leave q.core q.session).core.transportClosing = true :=
        (leave_transportClosing _ _).trans closing
      have speaks : core.Speaks (phase ⟨core, .bound session binding⟩) (leave q.core q.session).core
          (leave q.core q.session).phase := by
        rw [phase_closed closed]
        exact spoken.trans (leave_speaks _ _ _)
      exact ⟨speaks, leave_sound _ _, .inl ⟨sound.1, closed⟩,
        fun finalized => ⟨leave_finalized _ (final finalized), speaks.silent (late finalized)⟩⟩

/-- The end of a handshake binds the session, or the binding ends as it begins. -/
theorem keeps_binds {held : Option Session} {armed : Bool} (free : core.transportClosing = false)
    (voiced : core.Says Output.Up after)
    (closing : after.transportClosing = core.transportClosing) (fresh : session.finalized = false)
    (up : binding.isEstablished = true) (runs : Runs ⟨after, session, binding⟩ seen turn)
    (nothing : Act.handed seen = []) :
    Keeps ⟨core, .apart held armed⟩ turn.begun := by
  have begins : (⟨after, session, binding⟩ : BoundParts).phase = .up := BoundParts.phase_up up
  have spoken := runs.speaks
  rw [begins] at spoken
  have joined : core.Speaks .up turn.1.core turn.phase := voiced.speaks.trans spoken
  have ends := runs.transportClosing
  have kept : turn.1.session.finalized = false := (runs.unfinalized nothing).trans fresh
  obtain ⟨q, bound⟩ := turn
  cases bound with
  | stay =>
      have open_ : q.core.transportClosing = false := ends.trans (closing.trans free)
      refine ⟨?_, ⟨open_, fun finalized => ?_⟩, .inr (.inl trivial), False.elim⟩
      · rw [phase_apart free]
        show core.Speaks .up q.core (phase ⟨q.core, .bound q.session q.binding⟩)
        rw [phase_bound open_]
        exact joined
      · rw [kept] at finalized
        cases finalized
  | unbind =>
      refine ⟨?_, ⟨fun armed => (by cases armed), fun held same => ?_⟩, .inl ⟨free, ends⟩, False.elim⟩
      · rw [phase_apart free]
        show core.Speaks .up q.core (phase ⟨q.core, .apart (some q.session) false⟩)
        rw [phase_closed ends]
        exact joined
      · obtain rfl := Option.some.inj same
        exact kept

/-- What is left when the transport is gone. -/
structure Detaches (before after : Stance) : Prop where
  tells : before.core.Says (fun output => ∃ event, output = .event event) after.core
  up : after.phase = .up
  sound : after.Sound
  unbound : ¬after.Bound
  finalized : before.Finalized → after.Finalized

theorem phase_unbound {stance : Stance} (free : stance.core.transportClosing = false)
    (unbound : ¬stance.Bound) : stance.phase = .up := by
  rw [phase_free _ free]
  obtain ⟨core, standing⟩ := stance
  cases standing with
  | bound session binding => exact (unbound trivial).elim
  | _ => rfl

theorem Detaches.of_standing {standing standing' : Standing} {told : Core → Core}
    (quiet : told = id ∨ told = (·.event .transportClosed))
    (sound : Sound ⟨core.transportClosed, standing'⟩) (unbound : ¬Bound ⟨core, standing'⟩)
    (final : Finalized ⟨core, standing⟩ → Finalized ⟨core, standing'⟩) :
    Detaches ⟨core, standing⟩ ⟨told core.transportClosed, standing'⟩ := by
  have freed : core.Says (fun output => ∃ event, output = .event event) core.transportClosed :=
    ⟨[], .transportClosed core, by simp⟩
  have tells : core.Says (fun output => ∃ event, output = .event event) (told core.transportClosed) ∧
      (told core.transportClosed).transportClosing = false := by
    rcases quiet with rfl | rfl
    · exact ⟨freed, rfl⟩
    · exact ⟨freed.trans (.push _ ⟨_, rfl⟩), rfl⟩
  exact ⟨tells.1, phase_unbound tells.2 unbound, sound.transfer tells.2, unbound, final⟩

/-- A binding is gone with its transport. -/
theorem detaches_leave : Detaches ⟨core, .bound session binding⟩
    (leave (core.transportClosed.event .transportClosed) session.releaseBindingState) := by
  have freed : core.Says (fun output => ∃ event, output = .event event)
      (core.transportClosed.event .transportClosed) :=
    .trans ⟨[], .transportClosed core, by simp⟩ (.push _ ⟨_, rfl⟩)
  have kept : session.releaseBindingState.finalized = session.finalized := by
    obtain ⟨missing, overflow, released⟩ := session.releaseBindingState_eq
    rw [released]
  have tells : core.Says (fun output => ∃ event, output = .event event)
      (leave (core.transportClosed.event .transportClosed) session.releaseBindingState).core := by
    unfold leave
    split
    · exact freed.trans (.push _ ⟨_, rfl⟩)
    · exact freed
  have unbound := leave_unbound (core.transportClosed.event .transportClosed)
    session.releaseBindingState
  exact ⟨tells, phase_unbound (leave_transportClosing _ _) unbound, leave_sound _ _, unbound,
    fun finalized => leave_finalized _ (kept.trans finalized)⟩

end Stance

end IronFix.Fixp
