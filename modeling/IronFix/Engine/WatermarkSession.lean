import IronFix.Engine.Watermark

/-!
# The watermark of a session

What the two tasks of one session keep between them, whatever the store does:
the watermark in memory covers only numbers that are dealt with, and what the
dispatcher still holds lies above it.
-/

namespace IronFix.Engine

open Lib.Decimal
open IronFix.Session

/-! ## The ledger -/

namespace InboundLedger

/-- What the session does with a number of the kind was done. -/
def Done (ledger : InboundLedger) : InboundKind → Nat → Prop
  | .app, seq => seq ∈ ledger.returned ∧ ∃ session, (session, seq) ∈ ledger.handed
  | .other, seq => seq ∈ ledger.processed

/-- The number lies in a span the application was told of. -/
def Reported (ledger : InboundLedger) (seq : Nat) : Prop :=
  ∃ span ∈ ledger.reported, span.1 ≤ seq ∧ seq ≤ span.2

def Settled (ledger : InboundLedger) (kind : InboundKind) (seq : Nat) : Prop :=
  ledger.Done kind seq ∨ ledger.Reported seq

/-- Everything noted in the one is noted in the other. -/
structure Grows (before after : InboundLedger) : Prop where
  handed : before.handed ⊆ after.handed
  returned : before.returned ⊆ after.returned
  processed : before.processed ⊆ after.processed
  reported : before.reported ⊆ after.reported

theorem Grows.refl (ledger : InboundLedger) : ledger.Grows ledger := ⟨.refl _, .refl _, .refl _, .refl _⟩

theorem Done.grow {before after : InboundLedger} {kind : InboundKind} {seq : Nat} (done : before.Done kind seq)
    (grows : before.Grows after) : after.Done kind seq := by
  cases kind with
  | app =>
      obtain ⟨returned, session, handed⟩ := done
      exact ⟨grows.returned returned, session, grows.handed handed⟩
  | other => exact grows.processed done

theorem Reported.grow {before after : InboundLedger} {seq : Nat} (reported : before.Reported seq)
    (grows : before.Grows after) : after.Reported seq := by
  obtain ⟨span, listed, inside⟩ := reported
  exact ⟨span, grows.reported listed, inside⟩

theorem Settled.grow {before after : InboundLedger} {kind : InboundKind} {seq : Nat}
    (settled : before.Settled kind seq) (grows : before.Grows after) : after.Settled kind seq :=
  settled.imp (·.grow grows) (·.grow grows)

theorem grows_report (ledger : InboundLedger) (span : Nat × Nat) : ledger.Grows (ledger.report span) :=
  ⟨.refl _, .refl _, .refl _, List.subset_cons_self _ _⟩

theorem grows_acceptNext (ledger : InboundLedger) (reactor : InboundReactor) (kind : Option InboundKind) :
    ledger.Grows (ledger.acceptNext reactor kind) := by
  cases kind with
  | none => exact .refl _
  | some kind => exact ⟨.refl _, .refl _, .refl _, .refl _⟩

theorem mem_acceptNext {ledger : InboundLedger} {reactor : InboundReactor} {kind : Option InboundKind}
    {entry : InboundKind × Nat} : entry ∈ (ledger.acceptNext reactor kind).accepted ↔
      entry ∈ ledger.accepted ∨ kind = some entry.1 ∧ entry.2 = reactor.nextTarget := by
  obtain ⟨of, seq⟩ := entry
  cases kind with
  | none => simp [acceptNext]
  | some kind =>
      simp only [acceptNext, accept, List.mem_cons, Prod.mk.injEq, Option.some.injEq]
      constructor
      · rintro (⟨rfl, rfl⟩ | listed)
        · exact .inr ⟨rfl, rfl⟩
        · exact .inl listed
      · rintro (listed | ⟨rfl, rfl⟩)
        · exact .inr listed
        · exact .inl ⟨rfl, rfl⟩

end InboundLedger

/-! ## Where the two tasks stand -/

/-- The mark that is accounted for once the queue is drained. -/
def Resume.seen : Resume → Option Nat
  | .drain mark => some mark
  | _ => none

namespace DispatcherStage

/-- The number `from_app` has. -/
def current : DispatcherStage → Option Nat
  | .running seq _ => some seq
  | _ => none

def seen : DispatcherStage → Option Nat
  | .drain mark => some mark
  | .running _ next => next.seen
  | .storing _ next => next.seen
  | _ => none

def storing? : DispatcherStage → Option Nat
  | .storing mark _ => some mark
  | _ => none

end DispatcherStage

@[simp] theorem Resume.stage_current (next : Resume) : next.stage.current = none := by cases next <;> rfl
@[simp] theorem Resume.stage_seen (next : Resume) : next.stage.seen = next.seen := by cases next <;> rfl
@[simp] theorem Resume.stage_storing (next : Resume) : next.stage.storing? = none := by cases next <;> rfl

namespace ReactorStage

/-- The session still takes messages. -/
def isOpen : ReactorStage → Bool
  | .opening | .waiting | .handling | .persisting _ _ | .acting _ => true
  | _ => false

/-- What the dispatcher did not finish has been reported. -/
def isReported : ReactorStage → Bool
  | .recording _ | .closed => true
  | _ => false

/-- The number the reactor acts on. -/
def acting? : ReactorStage → Option Nat
  | .acting seq => some seq
  | _ => none

/-- The message whose target number is being persisted. -/
def offer? : ReactorStage → Option (Option InboundKind × Nat)
  | .persisting kind next => some (kind, next)
  | _ => none

end ReactorStage

/-- What a message taken may make of the number expected. -/
def Moves (target : Nat) (kind : Option InboundKind) (next : Nat) : Prop :=
  match kind with
  | some .app => next = target + 1 ∧ next ≤ u64Max
  | some .other => target < next ∧ next ≤ u64Max
  | none => target ≤ next ∧ next ≤ u64Max

theorem Moves.le {target next : Nat} {kind : Option InboundKind} (moves : Moves target kind next) :
    target ≤ next ∧ next ≤ u64Max := by
  rcases kind with _ | (_ | _) <;> unfold Moves at moves <;> omega

theorem Moves.lt {target next : Nat} {kind : InboundKind} (moves : Moves target (some kind) next) :
    target < next := by
  cases kind <;> unfold Moves at moves <;> omega

/-! ## What consuming a number changes -/

namespace InboundReactor

variable (reactor : InboundReactor) (kind : Option InboundKind) (next : Nat)

theorem advance_opening : (reactor.advance kind next).opening = reactor.opening := by
  rcases kind with _ | (_ | _) <;> rfl

theorem advance_nextTarget : (reactor.advance kind next).nextTarget = next := by
  rcases kind with _ | (_ | _) <;> rfl

theorem advance_persisted : (reactor.advance kind next).persisted = next := by
  rcases kind with _ | (_ | _) <;> rfl

theorem advance_published : (reactor.advance kind next).published = reactor.published := by
  rcases kind with _ | (_ | _) <;> rfl

theorem advance_queue : (reactor.advance kind next).queue = reactor.queue ∨
    (reactor.advance kind next).queue = reactor.queue ++ [reactor.nextTarget] := by
  rcases kind with _ | (_ | _)
  · exact .inl rfl
  · exact .inr rfl
  · exact .inl rfl

variable {kind next}

theorem mem_advance_queue {seq : Nat} : seq ∈ (reactor.advance kind next).queue ↔
    seq ∈ reactor.queue ∨ kind = some .app ∧ seq = reactor.nextTarget := by
  rcases kind with _ | (_ | _) <;> simp [advance]

theorem advance_acting {seq : Nat} : seq ∈ (reactor.advance kind next).stage.acting? ↔
    kind = some .other ∧ seq = reactor.nextTarget := by
  rcases kind with _ | (_ | _) <;> simp [advance, ReactorStage.acting?, eq_comm]

end InboundReactor

/-- What a live session keeps, whatever the store does. -/
structure LiveSession (ledger : InboundLedger) (session : Nat) (reactor : InboundReactor)
    (dispatcher : AppDispatcher) : Prop where
  written : dispatcher.written = dispatcher.completed
  opened : reactor.opening ≤ dispatcher.completed
  completed : dispatcher.completed < reactor.nextTarget
  bounded : reactor.nextTarget ≤ u64Max
  published : reactor.published < reactor.nextTarget
  queued : ∀ seq ∈ reactor.queue, dispatcher.completed < seq ∧ seq < reactor.nextTarget
  ordered : reactor.queue.Pairwise (· < ·)
  current : ∀ seq ∈ dispatcher.stage.current, dispatcher.completed < seq ∧ seq < reactor.nextTarget ∧
    (∀ queued ∈ reactor.queue, seq < queued) ∧ (session, seq) ∈ ledger.handed
  seen : ∀ mark ∈ dispatcher.stage.seen, mark ≤ reactor.published
  storing : ∀ mark ∈ dispatcher.stage.storing?, mark = dispatcher.completed
  offered : ∀ offer ∈ reactor.stage.offer?, Moves reactor.nextTarget offer.1 offer.2
  acting : ∀ seq ∈ reactor.stage.acting?, reactor.published < seq ∧ dispatcher.completed < seq ∧
    (∀ queued ∈ reactor.queue, queued < seq) ∧ ∀ current ∈ dispatcher.stage.current, current < seq
  below : reactor.stage.isOpen = true → ∀ entry ∈ ledger.accepted, entry.2 < reactor.nextTarget
  apps : ∀ seq, (.app, seq) ∈ ledger.accepted → reactor.opening < seq → seq < reactor.nextTarget →
    ledger.Done .app seq ∨ seq ∈ reactor.queue ∨ seq ∈ dispatcher.stage.current ∨
      dispatcher.stage = .stopped ∧ dispatcher.completed < seq
  others : ∀ seq, (.other, seq) ∈ ledger.accepted → reactor.opening < seq → seq < reactor.nextTarget →
    ledger.Done .other seq ∨ seq ∈ reactor.stage.acting?
  handed : ∀ seq, (session, seq) ∈ ledger.handed → seq < reactor.nextTarget ∧ ∀ queued ∈ reactor.queue, seq < queued
  reported : reactor.stage.isReported = true → dispatcher.stage = .stopped ∧ (reactor.opening ≠ 0 →
    ∀ kind seq, (kind, seq) ∈ ledger.accepted → reactor.opening < seq → seq < reactor.nextTarget →
      ledger.Settled kind seq)

namespace LiveSession

variable {ledger : InboundLedger} {session : Nat} {reactor : InboundReactor} {dispatcher : AppDispatcher}

/-- What the watermark in memory covers is dealt with. -/
theorem done (live : LiveSession ledger session reactor dispatcher) {kind : InboundKind} {seq : Nat}
    (accepted : (kind, seq) ∈ ledger.accepted) (past : reactor.opening < seq) (covered : seq ≤ dispatcher.completed) :
    ledger.Done kind seq := by
  have below : seq < reactor.nextTarget := Nat.lt_of_le_of_lt covered live.completed
  cases kind with
  | app =>
      rcases live.apps seq accepted past below with done | queued | current | ⟨_, above⟩
      · exact done
      · exact absurd covered (Nat.not_le.mpr (live.queued seq queued).1)
      · exact absurd covered (Nat.not_le.mpr (live.current seq current).1)
      · exact absurd covered (Nat.not_le.mpr above)
  | other =>
      rcases live.others seq accepted past below with done | acting
      · exact done
      · exact absurd covered (Nat.not_le.mpr (live.acting seq acting).2.1)

/-! ### The reactor's steps -/

/-- The reactor moves on without consuming a number. -/
theorem move (live : LiveSession ledger session reactor dispatcher) {after : InboundReactor}
    (resting : reactor.stage.acting? = none) (opening : after.opening = reactor.opening)
    (nextTarget : after.nextTarget = reactor.nextTarget) (queue : after.queue = reactor.queue)
    (published : reactor.published ≤ after.published) (inside : after.published < reactor.nextTarget)
    (rests : after.stage.acting? = none) (unreported : after.stage.isReported = false)
    (opens : after.stage.isOpen = true → reactor.stage.isOpen = true)
    (offered : ∀ offer ∈ after.stage.offer?, Moves reactor.nextTarget offer.1 offer.2) :
    LiveSession ledger session after dispatcher where
  written := live.written
  opened := opening ▸ live.opened
  completed := nextTarget ▸ live.completed
  bounded := nextTarget ▸ live.bounded
  published := nextTarget ▸ inside
  queued := by
    rw [queue, nextTarget]
    exact live.queued
  ordered := queue ▸ live.ordered
  current := by
    rw [queue, nextTarget]
    exact live.current
  seen := fun mark seen => Nat.le_trans (live.seen mark seen) published
  storing := live.storing
  offered := nextTarget ▸ offered
  acting := by
    rw [rests]
    exact nofun
  below := fun isOpen => nextTarget ▸ live.below (opens isOpen)
  apps := by
    rw [opening, nextTarget, queue]
    exact live.apps
  others := by
    rw [opening, nextTarget]
    intro seq accepted past below
    refine (live.others seq accepted past below).imp_right ?_
    rw [resting]
    exact nofun
  handed := by
    rw [queue, nextTarget]
    exact live.handed
  reported := by
    rw [unreported]
    exact nofun

/-- The reactor consumes the number expected. -/
theorem advance (live : LiveSession ledger session reactor dispatcher) {kind : Option InboundKind} {next : Nat}
    (isOpen : reactor.stage.isOpen = true) (resting : reactor.stage.acting? = none)
    (moves : Moves reactor.nextTarget kind next) :
    LiveSession (ledger.acceptNext reactor kind) session (reactor.advance kind next) dispatcher := by
  have grows := ledger.grows_acceptNext reactor kind
  have older {entry : InboundKind × Nat} (listed : entry ∈ ledger.accepted) : entry.2 < reactor.nextTarget :=
    live.below isOpen entry listed
  have sameHanded : (ledger.acceptNext reactor kind).handed = ledger.handed := by cases kind <;> rfl
  constructor
  case written => exact live.written
  case opened => exact reactor.advance_opening kind next ▸ live.opened
  case completed =>
      rw [reactor.advance_nextTarget]
      exact Nat.lt_of_lt_of_le live.completed moves.le.1
  case bounded =>
      rw [reactor.advance_nextTarget]
      exact moves.le.2
  case published =>
      rw [reactor.advance_nextTarget, reactor.advance_published]
      exact Nat.lt_of_lt_of_le live.published moves.le.1
  case queued =>
      intro seq queued
      rw [reactor.advance_nextTarget]
      rcases reactor.mem_advance_queue.mp queued with already | ⟨rfl, rfl⟩
      · exact ⟨(live.queued seq already).1, Nat.lt_of_lt_of_le (live.queued seq already).2 moves.le.1⟩
      · exact ⟨live.completed, moves.lt⟩
  case ordered =>
      rcases reactor.advance_queue kind next with same | pushed
      · exact same ▸ live.ordered
      · rw [pushed, List.pairwise_append]
        refine ⟨live.ordered, List.pairwise_singleton _ _, ?_⟩
        intro queued listed last isLast
        rw [List.mem_singleton.mp isLast]
        exact (live.queued queued listed).2
  case current =>
      intro seq current
      obtain ⟨above, below, first, handed⟩ := live.current seq current
      rw [reactor.advance_nextTarget]
      refine ⟨above, Nat.lt_of_lt_of_le below moves.le.1, ?_, sameHanded ▸ handed⟩
      intro queued listed
      rcases reactor.mem_advance_queue.mp listed with already | ⟨rfl, rfl⟩
      · exact first queued already
      · exact below
  case seen =>
      rw [reactor.advance_published]
      exact live.seen
  case storing => exact live.storing
  case offered =>
      intro offer offered
      rcases kind with _ | (_ | _) <;> cases offered
  case acting =>
      intro seq acting
      obtain ⟨rfl, isTarget⟩ := reactor.advance_acting.mp acting
      subst isTarget
      rw [reactor.advance_published]
      refine ⟨live.published, live.completed, ?_, ?_⟩
      · intro queued listed
        rcases reactor.mem_advance_queue.mp listed with already | ⟨isApp, _⟩
        · exact (live.queued queued already).2
        · cases isApp
      · intro current isCurrent
        exact (live.current current isCurrent).2.1
  case below =>
      intro _ entry listed
      rw [reactor.advance_nextTarget]
      rcases InboundLedger.mem_acceptNext.mp listed with before | ⟨rfl, isTarget⟩
      · exact Nat.lt_of_lt_of_le (older before) moves.le.1
      · exact isTarget ▸ moves.lt
  case apps =>
      intro seq accepted past _
      rw [reactor.advance_opening] at past
      rcases InboundLedger.mem_acceptNext.mp accepted with before | ⟨rfl, rfl⟩
      · rcases live.apps seq before past (older before) with done | queued | rest
        · exact .inl (done.grow grows)
        · exact .inr (.inl (reactor.mem_advance_queue.mpr (.inl queued)))
        · exact .inr (.inr rest)
      · exact .inr (.inl (reactor.mem_advance_queue.mpr (.inr ⟨rfl, rfl⟩)))
  case others =>
      intro seq accepted past _
      rw [reactor.advance_opening] at past
      rcases InboundLedger.mem_acceptNext.mp accepted with before | ⟨rfl, rfl⟩
      · rcases live.others seq before past (older before) with done | acting
        · exact .inl (done.grow grows)
        · rw [resting] at acting
          cases acting
      · exact .inr (reactor.advance_acting.mpr ⟨rfl, rfl⟩)
  case handed =>
      intro seq handed
      obtain ⟨below, first⟩ := live.handed seq (sameHanded ▸ handed)
      rw [reactor.advance_nextTarget]
      refine ⟨Nat.lt_of_lt_of_le below moves.le.1, ?_⟩
      intro queued listed
      rcases reactor.mem_advance_queue.mp listed with already | ⟨rfl, rfl⟩
      · exact first queued already
      · exact below
  case reported =>
      intro reported
      rcases kind with _ | (_ | _) <;> cases reported

/-- The target write of a message fails, and the session closes over it. -/
theorem refuse (live : LiveSession ledger session reactor dispatcher) (kind : Option InboundKind) (persisted : Nat)
    (resting : reactor.stage.acting? = none) (landed : Bool) :
    LiveSession (if landed then ledger.acceptNext reactor kind else ledger) session
      { reactor with persisted := persisted, stage := .closing } dispatcher := by
  have closing : LiveSession ledger session { reactor with persisted := persisted, stage := .closing } dispatcher :=
    live.move resting rfl rfl rfl (Nat.le_refl _) live.published rfl rfl nofun nofun
  cases landed with
  | false => exact closing
  | true =>
      have grows := ledger.grows_acceptNext reactor kind
      have sameHanded : (ledger.acceptNext reactor kind).handed = ledger.handed := by cases kind <;> rfl
      -- the number is at the target still, so nothing is asked of it here
      have before {of : InboundKind} {seq : Nat} (accepted : (of, seq) ∈ (ledger.acceptNext reactor kind).accepted)
          (below : seq < reactor.nextTarget) : (of, seq) ∈ ledger.accepted := by
        rcases InboundLedger.mem_acceptNext.mp accepted with before | ⟨_, isTarget⟩
        · exact before
        · exact absurd isTarget (Nat.ne_of_lt below)
      exact { closing with
        current := fun seq current => by
          obtain ⟨above, below, first, handed⟩ := live.current seq current
          exact ⟨above, below, first, sameHanded ▸ handed⟩
        below := nofun
        apps := fun seq accepted past below =>
          (closing.apps seq (before accepted below) past below).imp_left (·.grow grows)
        others := fun seq accepted past below =>
          (closing.others seq (before accepted below) past below).imp_left (·.grow grows)
        handed := fun seq handed => closing.handed seq (sameHanded ▸ handed)
        reported := nofun }

/-- The reactor is done with the number it acts on. -/
theorem processed (live : LiveSession ledger session reactor dispatcher) {seq : Nat}
    (acting : reactor.stage = .acting seq) (closes : Bool) :
    LiveSession { ledger with processed := seq :: ledger.processed } session
      { reactor with stage := if closes then .closing else .handling } dispatcher := by
  have grows : ledger.Grows { ledger with processed := seq :: ledger.processed } :=
    ⟨.refl _, .refl _, List.subset_cons_self _ _, .refl _⟩
  have rests : (if closes then ReactorStage.closing else .handling).acting? = none := by cases closes <;> rfl
  have unreported : (if closes then ReactorStage.closing else .handling).isReported = false := by cases closes <;> rfl
  have unoffered : (if closes then ReactorStage.closing else .handling).offer? = none := by cases closes <;> rfl
  exact { live with
    offered := by
      rw [unoffered]
      exact nofun
    acting := by
      rw [rests]
      exact nofun
    below := fun _ => live.below (by rw [acting]; rfl)
    apps := fun other accepted past below => (live.apps other accepted past below).imp_left (·.grow grows)
    others := fun other accepted past below => by
      rcases live.others other accepted past below with done | current
      · exact .inl (done.grow grows)
      · rw [acting] at current
        obtain rfl := Option.some.inj current
        exact .inl List.mem_cons_self
    reported := by
      rw [unreported]
      exact nofun }

/-! ### The dispatcher's steps -/

/-- While the dispatcher runs, nothing has been reported. -/
theorem unreported (live : LiveSession ledger session reactor dispatcher) (runs : dispatcher.stage ≠ .stopped) :
    reactor.stage.isReported = false :=
  Bool.eq_false_iff.mpr fun reported => runs (live.reported reported).1

/-- The dispatcher calls `from_app` with the first number queued. -/
theorem recv (live : LiveSession ledger session reactor dispatcher) (runs : dispatcher.stage ≠ .stopped)
    (free : dispatcher.stage.current = none) {seq : Nat} {rest : List Nat} (queue : reactor.queue = seq :: rest)
    {next : Resume} (resumes : next.seen = dispatcher.stage.seen) :
    LiveSession { ledger with handed := (session, seq) :: ledger.handed } session { reactor with queue := rest }
      { dispatcher with stage := .running seq next } := by
  have grows : ledger.Grows { ledger with handed := (session, seq) :: ledger.handed } :=
    ⟨List.subset_cons_self _ _, .refl _, .refl _, .refl _⟩
  have first := live.queued seq (queue ▸ List.mem_cons_self)
  have later {queued : Nat} (listed : queued ∈ rest) : queued ∈ reactor.queue :=
    queue ▸ List.mem_cons_of_mem _ listed
  have ordered := queue ▸ live.ordered
  rw [List.pairwise_cons] at ordered
  exact { live with
    queued := fun queued listed => live.queued queued (later listed)
    ordered := ordered.2
    current := fun current isCurrent => by
      obtain rfl := Option.some.inj isCurrent
      exact ⟨first.1, first.2, ordered.1, List.mem_cons_self⟩
    seen := fun mark seen => live.seen mark (resumes ▸ seen)
    storing := nofun
    acting := fun acting isActing => by
      obtain ⟨unpublished, uncovered, above, _⟩ := live.acting acting isActing
      refine ⟨unpublished, uncovered, fun queued listed => above queued (later listed), ?_⟩
      intro current isCurrent
      obtain rfl := Option.some.inj isCurrent
      exact above _ (queue ▸ List.mem_cons_self)
    apps := fun other accepted past below => by
      rcases live.apps other accepted past below with done | queued | current | ⟨stopped, _⟩
      · exact .inl (done.grow grows)
      · rcases List.mem_cons.mp (queue ▸ queued) with rfl | listed
        · exact .inr (.inr (.inl rfl))
        · exact .inr (.inl listed)
      · rw [free] at current
        cases current
      · exact absurd stopped runs
    others := fun other accepted past below => (live.others other accepted past below).imp_left (·.grow grows)
    handed := fun other handed => by
      rcases List.mem_cons.mp handed with same | before
      · obtain rfl := (Prod.mk.inj same).2
        exact ⟨first.2, ordered.1⟩
      · obtain ⟨below, above⟩ := live.handed other before
        exact ⟨below, fun queued listed => above queued (later listed)⟩
    reported := by
      rw [live.unreported runs]
      exact nofun }

/-- `from_app` returns; the number is still to be accounted for. -/
theorem returned (live : LiveSession ledger session reactor dispatcher) {seq : Nat} {next : Resume}
    (running : dispatcher.stage = .running seq next) :
    LiveSession { ledger with returned := seq :: ledger.returned } session reactor
      { dispatcher with stage := .select } := by
  have grows : ledger.Grows { ledger with returned := seq :: ledger.returned } :=
    ⟨.refl _, List.subset_cons_self _ _, .refl _, .refl _⟩
  have runs : dispatcher.stage ≠ .stopped := by rw [running]; exact nofun
  exact { live with
    current := nofun
    seen := nofun
    storing := nofun
    acting := fun acting isActing => by
      obtain ⟨unpublished, uncovered, above, _⟩ := live.acting acting isActing
      exact ⟨unpublished, uncovered, above, nofun⟩
    apps := fun other accepted past below => by
      rcases live.apps other accepted past below with done | queued | current | ⟨stopped, _⟩
      · exact .inl (done.grow grows)
      · exact .inr (.inl queued)
      · obtain ⟨_, _, _, handed⟩ := live.current other current
        rw [running] at current
        obtain rfl := Option.some.inj current
        exact .inl ⟨List.mem_cons_self, session, handed⟩
      · exact absurd stopped runs
    others := fun other accepted past below => (live.others other accepted past below).imp_left (·.grow grows)
    reported := by
      rw [live.unreported runs]
      exact nofun }

/-- The dispatcher accounts for a mark below all it holds. -/
theorem account (live : LiveSession ledger session reactor dispatcher) (runs : dispatcher.stage ≠ .stopped)
    (free : dispatcher.stage.current = none) {mark : Nat} {next : Resume} (inside : mark < reactor.nextTarget)
    (clear : ∀ seq ∈ reactor.queue, mark < seq) (unacted : ∀ seq ∈ reactor.stage.acting?, mark < seq)
    (resumes : ∀ seen ∈ next.seen, seen ≤ reactor.published) :
    LiveSession ledger session reactor (dispatcher.account mark next) := by
  have apps {seq : Nat} (accepted : (.app, seq) ∈ ledger.accepted) (past : reactor.opening < seq)
      (below : seq < reactor.nextTarget) : ledger.Done .app seq ∨ seq ∈ reactor.queue := by
    rcases live.apps seq accepted past below with done | queued | current | ⟨stopped, _⟩
    · exact .inl done
    · exact .inr queued
    · rw [free] at current
      cases current
    · exact absurd stopped runs
  have unreported := live.unreported runs
  unfold AppDispatcher.account
  split
  · exact { live with
      current := by simp
      seen := by simpa using resumes
      storing := by simp
      acting := fun seq acting => by
        obtain ⟨unpublished, uncovered, above, _⟩ := live.acting seq acting
        exact ⟨unpublished, uncovered, above, by simp⟩
      apps := fun seq accepted past below => (apps accepted past below).imp_right .inl
      reported := by
        rw [unreported]
        exact nofun }
  · rename_i higher
    rw [live.written, Nat.not_le] at higher
    exact { live with
      written := rfl
      opened := Nat.le_trans live.opened (Nat.le_of_lt higher)
      completed := inside
      queued := fun seq queued => ⟨clear seq queued, (live.queued seq queued).2⟩
      current := nofun
      seen := resumes
      storing := fun stored isStored => (Option.some.inj isStored).symm
      acting := fun seq acting => by
        obtain ⟨unpublished, _, above, _⟩ := live.acting seq acting
        exact ⟨unpublished, unacted seq acting, above, nofun⟩
      apps := fun seq accepted past below => (apps accepted past below).imp_right .inl
      reported := by
        rw [unreported]
        exact nofun }

/-- The dispatcher goes on from a stage in which it holds no number. -/
theorem goOn (live : LiveSession ledger session reactor dispatcher) (runs : dispatcher.stage ≠ .stopped)
    (free : dispatcher.stage.current = none) {stage : DispatcherStage} (holds : stage.current = none)
    (stores : stage.storing? = none) (sees : ∀ mark ∈ stage.seen, mark ≤ reactor.published) (changed : Bool) :
    LiveSession ledger session { reactor with changed := changed } { dispatcher with stage := stage } :=
  { live with
    current := by
      rw [holds]
      exact nofun
    seen := sees
    storing := by
      rw [stores]
      exact nofun
    acting := fun seq acting => by
      obtain ⟨unpublished, uncovered, above, _⟩ := live.acting seq acting
      refine ⟨unpublished, uncovered, above, ?_⟩
      rw [holds]
      exact nofun
    apps := fun seq accepted past below => by
      rcases live.apps seq accepted past below with done | queued | current | ⟨stopped, _⟩
      · exact .inl done
      · exact .inr (.inl queued)
      · rw [free] at current
        cases current
      · exact absurd stopped runs
    reported := by
      rw [live.unreported runs]
      exact nofun }

/-- The dispatcher stops where it is: what it held is left above the watermark. -/
theorem stop (live : LiveSession ledger session reactor dispatcher) (runs : dispatcher.stage ≠ .stopped) :
    LiveSession ledger session reactor { dispatcher with stage := .stopped } :=
  { live with
    current := nofun
    seen := nofun
    storing := nofun
    acting := fun seq acting => by
      obtain ⟨unpublished, uncovered, above, _⟩ := live.acting seq acting
      exact ⟨unpublished, uncovered, above, nofun⟩
    apps := fun seq accepted past below => by
      rcases live.apps seq accepted past below with done | queued | current | ⟨stopped, _⟩
      · exact .inl done
      · exact .inr (.inl queued)
      · exact .inr (.inr (.inr ⟨rfl, (live.current seq current).1⟩))
      · exact absurd stopped runs
    reported := by
      rw [live.unreported runs]
      exact nofun }

/-! ### The ends of a session -/

theorem spawned {target persisted : Nat} (positive : 1 ≤ target) (bounded : target ≤ u64Max)
    (below : ∀ entry ∈ ledger.accepted, entry.2 < target) (unhanded : ∀ seq, (session, seq) ∉ ledger.handed) :
    LiveSession ledger session
      { stage := .opening
        opening := target - 1
        nextTarget := target
        persisted := persisted
        published := target - 1
        changed := false
        queue := []
        queueOpen := true } ⟨target - 1, target - 1, .select⟩ where
  written := rfl
  opened := Nat.le_refl _
  completed := Nat.sub_one_lt_of_lt positive
  bounded := bounded
  published := Nat.sub_one_lt_of_lt positive
  queued := nofun
  ordered := .nil
  current := nofun
  seen := nofun
  storing := nofun
  offered := nofun
  acting := nofun
  below := fun _ => below
  apps := fun _ _ past below => by
    have : target - 1 < target - 1 := Nat.lt_of_lt_of_le past (Nat.le_sub_one_of_lt below)
    exact absurd this (Nat.lt_irrefl _)
  others := fun _ _ past below => by
    have : target - 1 < target - 1 := Nat.lt_of_lt_of_le past (Nat.le_sub_one_of_lt below)
    exact absurd this (Nat.lt_irrefl _)
  handed := fun seq handed => absurd handed (unhanded seq)
  reported := nofun

/-- The close reports what lies above the watermark of the session. -/
theorem report (live : LiveSession ledger session reactor dispatcher) (draining : reactor.stage = .draining)
    (stopped : dispatcher.stage = .stopped) {after : InboundLedger} (grows : ledger.Grows after)
    (sameAccepted : after.accepted = ledger.accepted) (sameHanded : after.handed = ledger.handed) {stage : ReactorStage}
    (reported : stage.isReported = true) (covers : dispatcher.completed ≠ 0 → ∀ seq, dispatcher.completed < seq →
      seq < reactor.nextTarget → after.Reported seq) :
    LiveSession after session { reactor with stage := stage } dispatcher := by
  have closed : stage.isOpen = false ∧ stage.acting? = none ∧ stage.offer? = none := by
    cases stage <;> first | exact ⟨rfl, rfl, rfl⟩ | cases reported
  exact { live with
    current := fun seq current => by
      rw [stopped] at current
      cases current
    offered := by
      rw [closed.2.2]
      exact nofun
    acting := by
      rw [closed.2.1]
      exact nofun
    below := by
      rw [closed.1]
      exact nofun
    apps := fun seq accepted past below => (live.apps seq (sameAccepted ▸ accepted) past below).imp_left (·.grow grows)
    others := fun seq accepted past below => by
      refine (live.others seq (sameAccepted ▸ accepted) past below).imp (·.grow grows) ?_
      rw [draining]
      exact nofun
    handed := sameHanded ▸ live.handed
    reported := fun _ => by
      refine ⟨stopped, ?_⟩
      intro opening kind seq accepted past below
      rcases Nat.lt_or_ge dispatcher.completed seq with above | covered
      · exact .inr (covers (fun none => opening (Nat.le_zero.mp (none ▸ live.opened))) seq above below)
      · exact .inl ((live.done (sameAccepted ▸ accepted) past covered).grow grows) }

theorem recorded (live : LiveSession ledger session reactor dispatcher) {last : Nat}
    (recording : reactor.stage = .recording last) :
    LiveSession ledger session { reactor with stage := .closed } dispatcher :=
  { live with
    offered := nofun
    acting := nofun
    below := nofun
    others := fun seq accepted past below => by
      refine (live.others seq accepted past below).imp_right ?_
      rw [recording]
      exact nofun
    reported := fun _ => live.reported (by rw [recording]; rfl) }

end LiveSession

end IronFix.Engine
