import IronFix.Fixp.Progress

/-!
# The end of a binding on the wire

A transport is unbound in order: a Terminate is the last message, and closing
the transport comes after all messages. The phase of a transport is read off
its outputs, and every call keeps it in step with the endpoint.
-/

namespace IronFix.Fixp

/-! ## Phases of a transport -/

/-- How far the unbinding of a transport has come. -/
inductive Phase where
  | up
  | terminated
  | closed
  deriving DecidableEq, Repr

def SessionMessage.isTerminate : SessionMessage → Bool
  | .terminate _ => true
  | _ => false

def Output.sends : Output → Bool
  | .send _ | .sendApplication .. => true
  | .closeTransport | .event _ => false

namespace Phase

/-- The phase after an output, unless the output is out of place. -/
def read : Phase → Output → Option Phase
  | phase, .event _ => some phase
  | .up, .send message => some (if message.isTerminate then .terminated else .up)
  | .up, .sendApplication .. => some .up
  | .up, .closeTransport | .terminated, .closeTransport => some .closed
  | .terminated, .send _ | .terminated, .sendApplication .. => none
  | .closed, .send _ | .closed, .sendApplication .. | .closed, .closeTransport => none

def readAll : Phase → List Output → Option Phase
  | phase, [] => some phase
  | phase, output :: rest => (phase.read output).bind (readAll · rest)

variable {phase middle after : Phase}

theorem readAll_append {first second : List Output} (reads : phase.readAll first = some middle) :
    phase.readAll (first ++ second) = middle.readAll second := by
  induction first generalizing phase with
  | nil =>
      obtain rfl := Option.some.inj reads
      rfl
  | cons output first ih =>
      obtain ⟨next, read, reads⟩ := Option.bind_eq_some_iff.mp reads
      show (phase.read output).bind _ = _
      rw [read]
      exact ih reads

/-- Nothing is sent once a Terminate is. -/
theorem read_late {output : Output} (late : phase ≠ .up) (reads : phase.read output = some after) :
    output.sends = false ∧ after ≠ .up := by
  cases phase with
  | up => exact (late rfl).elim
  | terminated =>
      cases output with
      | event event =>
          obtain rfl := Option.some.inj reads
          exact ⟨rfl, by simp⟩
      | closeTransport =>
          obtain rfl := Option.some.inj reads
          exact ⟨rfl, by simp⟩
      | _ => cases reads
  | closed =>
      cases output with
      | event event =>
          obtain rfl := Option.some.inj reads
          exact ⟨rfl, by simp⟩
      | _ => cases reads

theorem readAll_late {outputs : List Output} (late : phase ≠ .up)
    (reads : phase.readAll outputs = some after) : ∀ output ∈ outputs, output.sends = false := by
  induction outputs generalizing phase with
  | nil => simp
  | cons output outputs ih =>
      obtain ⟨next, read, reads⟩ := Option.bind_eq_some_iff.mp reads
      obtain ⟨silent, late'⟩ := read_late late read
      intro found mem
      rcases List.mem_cons.mp mem with rfl | mem
      · exact silent
      · exact ih late' reads found mem

/-- A transport is closed by closing it. -/
theorem readAll_closes {outputs : List Output} (open_ : phase ≠ .closed)
    (reads : phase.readAll outputs = some .closed) : .closeTransport ∈ outputs := by
  induction outputs generalizing phase with
  | nil => exact (open_ (Option.some.inj reads)).elim
  | cons output outputs ih =>
      obtain ⟨next, read, reads⟩ := Option.bind_eq_some_iff.mp reads
      by_cases closes : output = .closeTransport
      · rw [closes]
        exact List.mem_cons_self
      · refine List.mem_cons_of_mem _ (ih (fun closed => ?_) reads)
        subst closed
        cases output with
        | closeTransport => exact closes rfl
        | event event => exact open_ (Option.some.inj read)
        | send message =>
            cases phase with
            | up =>
                have never := Option.some.inj read
                split at never
                · cases never
                · cases never
            | _ => cases read
        | sendApplication seq message => cases phase <;> cases read

end Phase

/-- The core speaks, and the phase of its transport follows. -/
def Core.Speaks (core : Core) (phase : Phase) (core' : Core) (phase' : Phase) : Prop :=
  ∃ outputs, core.Queued outputs core' ∧ phase.readAll outputs = some phase'

namespace Core.Speaks

variable {core middle after : Core} {phase phase' phase'' : Phase}

theorem refl (core : Core) (phase : Phase) : core.Speaks phase core phase := ⟨[], .refl core, rfl⟩

theorem trans (first : core.Speaks phase middle phase') (second : middle.Speaks phase' after phase'') :
    core.Speaks phase after phase'' := by
  obtain ⟨outputs, queued, reads⟩ := first
  obtain ⟨outputs', queued', reads'⟩ := second
  exact ⟨outputs ++ outputs', queued.trans queued', by rw [Phase.readAll_append reads, reads']⟩

theorem event (core : Core) (phase : Phase) (event : Event) :
    core.Speaks phase (core.event event) phase := ⟨[.event event], .push _ _, by cases phase <;> rfl⟩

theorem closes (core : Core) {phase : Phase} (open_ : phase ≠ .closed) :
    core.Speaks phase core.closeTransport .closed := by
  refine ⟨[.closeTransport], .closeTransport _, ?_⟩
  cases phase with
  | closed => exact (open_ rfl).elim
  | _ => rfl

end Core.Speaks

/-! ## A bound session -/

def BoundParts.phase (p : BoundParts) : Phase := if p.isEstablished then .up else .terminated

theorem BoundParts.phase_up {p : BoundParts} (up : p.isEstablished = true) : p.phase = .up :=
  if_pos up

theorem BoundParts.phase_down {p : BoundParts} (down : p.isEstablished = false) :
    p.phase = .terminated := if_neg (by rw [down]; simp)

theorem BoundParts.phase_open (p : BoundParts) : p.phase ≠ .closed := by
  unfold phase
  split <;> simp

theorem Move.reads {p moved : BoundParts} {acts : List Act} (move : Move p acts moved) :
    p.phase.readAll (Act.outputs acts) = some moved.phase := by
  have spoken {output : Output} (up : p.isEstablished = true)
      (plain : Phase.up.read output = some .up) (same : moved.phase = p.phase) :
      p.phase.readAll [output] = some moved.phase := by
    rw [same, BoundParts.phase_up up]
    show (Phase.up.read output).bind _ = _
    rw [plain]
    rfl
  cases move with
  | event event =>
      show p.phase.readAll [.event event] = some p.phase
      cases p.phase <;> rfl
  | heartbeat up => exact spoken up rfl rfl
  | sequence up sequenced => exact spoken up rfl rfl
  | report m up idempotent sequenced numbering fits => exact spoken up rfl rfl
  | reportUnnumbered m up idempotent flow => exact spoken up rfl rfl
  | aside up aside => cases aside <;> exact spoken up rfl rfl
  | batch up asked begins some inRange fits header names counts => exact spoken up rfl rfl
  | request up flow unasked first nonempty stamped request outstanding begins undelivered counts =>
      exact spoken up rfl rfl
  | inflow changes =>
      rw [changes.outputs]
      rfl
  | abandon code reason asked =>
      show p.phase.readAll [.event _] = some p.phase
      cases p.phase <;> rfl
  | beginTerminating code reason now up =>
      rw [BoundParts.phase_up up]
      rfl
  | answer deadline up =>
      rw [BoundParts.phase_up up]
      rfl
  | _ => rfl

theorem Close.reads {p closed : BoundParts} {acts : List Act} (ends : Close p acts closed) :
    p.phase.readAll (Act.outputs acts) = some .closed := by
  induction ends with
  | failed code reason up =>
      rw [BoundParts.phase_up up]
      rfl
  | quiet down =>
      rw [BoundParts.phase_down down]
      rfl
  | told event _ ih =>
      rw [Act.outputs_append, Phase.readAll_append ih]
      rfl

/-- The phase of the transport after a handler. -/
def Turn.phase (turn : Turn) : Phase :=
  match turn.2 with
  | .stay => turn.1.phase
  | .unbind => .closed

theorem Steps.reads {p : BoundParts} {acts : List Act} {turn : Turn} (steps : Steps p acts turn) :
    p.phase.readAll (Act.outputs acts) = some turn.phase := by
  induction steps with
  | done => rfl
  | close ends => exact ends.reads
  | move moved _ ih => rw [Act.outputs_append, Phase.readAll_append moved.reads, ih]

/-- Only a close sets the transport closing. -/
theorem Move.transportClosing {p moved : BoundParts} {acts : List Act} (move : Move p acts moved) :
    moved.core.transportClosing = p.core.transportClosing := by
  cases move with
  | request up flow unasked first nonempty stamped request outstanding begins undelivered counts =>
      obtain ⟨issued, -, same⟩ := Option.map_eq_some_iff.mp stamped
      obtain ⟨-, rfl⟩ := Prod.mk.inj same
      rfl
  | _ => rfl

theorem Close.transportClosing {p closed : BoundParts} {acts : List Act} (ends : Close p acts closed) :
    closed.core.transportClosing = true := by
  induction ends with
  | failed => rfl
  | quiet => rfl
  | told event _ ih => exact ih

theorem Steps.transportClosing {p : BoundParts} {acts : List Act} {turn : Turn}
    (steps : Steps p acts turn) : turn.1.core.transportClosing =
      (match turn.2 with
        | .stay => p.core.transportClosing
        | .unbind => true) := by
  induction steps with
  | done => rfl
  | close ends => exact ends.transportClosing
  | move moved _ ih => rw [ih, moved.transportClosing]

/-- What a handler says. -/
theorem Runs.speaks {p : BoundParts} {seen : List Act} {turn : Turn} (runs : Runs p seen turn) :
    p.core.Speaks p.phase turn.1.core turn.phase := by
  obtain ⟨acts, steps, -, -⟩ := runs
  exact ⟨_, steps.queued, steps.reads⟩

/-! ## Finalization -/

theorem Session.consumeMissing_finalized (count : Nat) (s : Session) :
    (s.consumeMissing count).finalized = s.finalized := by
  obtain ⟨missing, overflow, same⟩ := consumeMissing_eq count s
  rw [same]

theorem Inflow.finalized {config : FixpConfig} {s s' : Session} {acts : List Act}
    (changes : Inflow config s acts s') : s'.finalized = s.finalized := by
  cases changes with
  | record flow fixed was ahead fits admitted =>
      obtain ⟨missing, rfl⟩ := Session.recordGap_eq admitted
      rfl
  | hold flow fixed was ahead fits refused kept =>
      obtain ⟨missing, overflow, rfl⟩ := Session.holdRefusedGap_eq kept
      rfl
  | replayed now batch =>
      rename_i replay
      obtain ⟨left, outstanding, advanced⟩ := Session.advanceReplay_eq replay (replay.next + 1) now s
      rw [advanced]
      rfl
  | complete asked full => exact Session.consumeMissing_finalized _ _
  | redo asked => exact Session.consumeMissing_finalized _ _
  | release =>
      obtain ⟨missing, overflow, released⟩ := s.releaseBindingState_eq
      rw [released]
  | _ => rfl

theorem Session.finalizeIfFinished_keeps {s : Session} (finalized : s.finalized = true) :
    s.finalizeIfFinished.finalized = true := by
  unfold finalizeIfFinished
  split
  · rfl
  · exact finalized

/-- Only the end of a binding finalizes its session. -/
theorem Move.finalized {p moved : BoundParts} {acts : List Act} (move : Move p acts moved) :
    moved.session.finalized = p.session.finalized ∨
      moved.isEstablished = false ∧ .switched .finalized ∈ acts := by
  cases move with
  | finalize down => exact .inr ⟨down, List.mem_singleton.mpr rfl⟩
  | inflow changes => exact .inl changes.finalized
  | abandon code reason asked => exact .inl (Session.consumeMissing_finalized _ _)
  | _ => exact .inl rfl

theorem Move.keeps_finalized {p moved : BoundParts} {acts : List Act} (move : Move p acts moved)
    (finalized : p.session.finalized = true) : moved.session.finalized = true := by
  cases move with
  | finalize down => exact Session.finalizeIfFinished_keeps finalized
  | inflow changes => exact changes.finalized.trans finalized
  | abandon code reason asked => exact (Session.consumeMissing_finalized _ _).trans finalized
  | _ => exact finalized

/-- A binding that is ending is not established again. -/
theorem Move.established {p moved : BoundParts} {acts : List Act} (move : Move p acts moved)
    (up : moved.isEstablished = true) : p.isEstablished = true := by
  cases move with
  | beginTerminating => cases up
  | answer => cases up
  | _ => exact up

/-- The session is finalized only once its binding is ending. -/
def BoundParts.Guarded (p : BoundParts) : Prop :=
  p.session.finalized = true → p.isEstablished = false

theorem Move.guarded {p moved : BoundParts} {acts : List Act} (move : Move p acts moved)
    (guarded : p.Guarded) : moved.Guarded := by
  intro finalized
  rcases move.finalized with same | ⟨down, -⟩
  · have down := guarded (same.symm.trans finalized)
    cases up : moved.isEstablished with
    | false => rfl
    | true =>
        rw [move.established up] at down
        cases down
  · exact down

theorem Steps.guarded {p : BoundParts} {acts : List Act} {turn : Turn} (steps : Steps p acts turn)
    (guarded : p.Guarded) (stays : turn.2 = .stay) : turn.1.Guarded := by
  induction steps with
  | done => exact guarded
  | close => cases stays
  | move moved _ ih => exact ih (moved.guarded guarded) stays

theorem Steps.keeps_finalized {p : BoundParts} {acts : List Act} {turn : Turn}
    (steps : Steps p acts turn) (finalized : p.session.finalized = true) :
    turn.1.session.finalized = true := by
  induction steps with
  | done => exact finalized
  | close ends =>
      rw [ends.session]
      exact finalized
  | move moved _ ih => exact ih (moved.keeps_finalized finalized)

theorem Steps.unfinalized {p : BoundParts} {acts : List Act} {turn : Turn}
    (steps : Steps p acts turn) (never : .switched .finalized ∉ acts) :
    turn.1.session.finalized = p.session.finalized := by
  induction steps with
  | done => rfl
  | close ends => rw [ends.session]
  | move moved _ ih =>
      rw [ih fun mem => never (List.mem_append_right _ mem)]
      rcases moved.finalized with same | ⟨-, mem⟩
      · exact same
      · exact (never (List.mem_append_left _ mem)).elim

/-- Nothing that counts is seen, so the session is not finalized. -/
theorem Runs.unfinalized {p : BoundParts} {seen : List Act} {turn : Turn} (runs : Runs p seen turn)
    (nothing : Act.handed seen = []) : turn.1.session.finalized = p.session.finalized := by
  obtain ⟨acts, steps, handed, -⟩ := runs
  refine steps.unfinalized fun mem => ?_
  have counted : Act.switched .finalized ∈ Act.handed acts := List.mem_filter.mpr ⟨mem, rfl⟩
  rw [handed, nothing] at counted
  cases counted

theorem Runs.guarded {p : BoundParts} {seen : List Act} {turn : Turn} (runs : Runs p seen turn)
    (guarded : p.Guarded) (stays : turn.2 = .stay) : turn.1.Guarded := by
  obtain ⟨acts, steps, -, -⟩ := runs
  exact steps.guarded guarded stays

theorem Runs.keeps_finalized {p : BoundParts} {seen : List Act} {turn : Turn}
    (runs : Runs p seen turn) (finalized : p.session.finalized = true) :
    turn.1.session.finalized = true := by
  obtain ⟨acts, steps, -, -⟩ := runs
  exact steps.keeps_finalized finalized

/-- The transport is closing once a binding has ended, and only then. -/
theorem Runs.transportClosing {p : BoundParts} {seen : List Act} {turn : Turn}
    (runs : Runs p seen turn) : turn.1.core.transportClosing =
      (match turn.2 with
        | .stay => p.core.transportClosing
        | .unbind => true) := by
  obtain ⟨acts, steps, -, -⟩ := runs
  exact steps.transportClosing

end IronFix.Fixp
