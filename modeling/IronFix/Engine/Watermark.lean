import IronFix.Engine.StoreCalls
import IronFix.Lib.Transitions

/-!
# The inbound watermark

The reactor accepts inbound numbers in sequence and hands the application
messages among them to the dispatcher; the dispatcher runs `from_app` and moves
the watermark, in memory and then in the store. The two run side by side, a
store write may fail with its effect unknown, and the process may die before
any step. The ledger remembers, for the stream the store holds, what was done
with each number.
-/

namespace IronFix.Engine

open Lib.Decimal
open IronFix.Session

/-! ## The store and the ledger -/

/-- What the store keeps of the inbound stream. -/
structure InboundStore where
  nextTargetSeq : Nat
  appWatermark : Nat
  deriving DecidableEq, Repr

/-- How a store write ended; one that failed, or overran its timeout, may have taken effect. -/
inductive WriteEnd where
  | done
  | failed (landed : Bool)
  deriving DecidableEq, Repr

def WriteEnd.landed : WriteEnd → Bool
  | .done => true
  | .failed landed => landed

/-- Whether the engine goes on after the write under the policy. -/
def WriteEnd.goesOn (policy : StoreFailurePolicy) : WriteEnd → Bool
  | .done => true
  | .failed _ => !policy.closesSession

def InboundStore.setNextTargetSeq (store : InboundStore) (seq : Nat) (write : WriteEnd) : InboundStore :=
  if write.landed then { store with nextTargetSeq := seq } else store

def InboundStore.setAppWatermark (store : InboundStore) (watermark : Nat) (write : WriteEnd) : InboundStore :=
  if write.landed then { store with appWatermark := watermark } else store

inductive InboundKind where
  | app
  /-- Administrative, or rejected before `from_app`. -/
  | other
  deriving DecidableEq, Repr

/-- What became of the numbers of one stream. -/
structure InboundLedger where
  accepted : List (InboundKind × Nat)
  /-- What `from_app` was called with, each under the session that called it. -/
  handed : List (Nat × Nat)
  returned : List Nat
  processed : List Nat
  /-- The spans `on_inbound_lost` was called with. -/
  reported : List (Nat × Nat)
  deriving DecidableEq, Repr

namespace InboundLedger

def new : InboundLedger := ⟨[], [], [], [], []⟩

def accept (ledger : InboundLedger) (kind : InboundKind) (seq : Nat) : InboundLedger :=
  { ledger with accepted := (kind, seq) :: ledger.accepted }

/-- The counterparty is asked again for the numbers from `target` on. -/
def keepBelow (ledger : InboundLedger) (target : Nat) : InboundLedger :=
  { ledger with accepted := ledger.accepted.filter fun entry => entry.2 < target }

def report (ledger : InboundLedger) (span : Nat × Nat) : InboundLedger :=
  { ledger with reported := span :: ledger.reported }

end InboundLedger

/-! ## The two tasks -/

/-- What the dispatcher does once it has accounted for a number. -/
inductive Resume where
  | select
  /-- Delivers what is queued, then accounts for the mark it saw. -/
  | drain (mark : Nat)
  | finish
  deriving DecidableEq, Repr

inductive DispatcherStage where
  | select
  | drain (mark : Nat)
  /-- In `from_app`. -/
  | running (seq : Nat) (next : Resume)
  /-- The watermark is published in memory and being written. -/
  | storing (mark : Nat) (next : Resume)
  /-- It ended, was aborted, or stopped at a failed write. -/
  | stopped
  deriving DecidableEq, Repr

def Resume.stage : Resume → DispatcherStage
  | .select => .select
  | .drain mark => .drain mark
  | .finish => .stopped

structure AppDispatcher where
  completed : Nat
  written : Nat
  stage : DispatcherStage
  deriving DecidableEq, Repr

/-- `account`: publishes the mark and goes to write it, unless it is not above what was written. -/
def AppDispatcher.account (dispatcher : AppDispatcher) (mark : Nat) (next : Resume) : AppDispatcher :=
  if mark ≤ dispatcher.written then { dispatcher with stage := next.stage }
  else { completed := mark, written := mark, stage := .storing mark next }

inductive ReactorStage where
  /-- Before the opening watermark is persisted. -/
  | opening
  /-- Before the counters are persisted and the next event is taken. -/
  | waiting
  | handling
  /-- The next target number is being persisted for a message in sequence, or, for none, for a
  `SequenceReset`-Reset. -/
  | persisting (kind : Option InboundKind) (next : Nat)
  /-- Acting on a number already consumed. -/
  | acting (seq : Nat)
  /-- The loop is left. -/
  | closing
  /-- Waits for the dispatcher to end. -/
  | draining
  /-- What the dispatcher did not finish is reported and being recorded. -/
  | recording (last : Nat)
  | closed
  deriving DecidableEq, Repr

structure InboundReactor where
  stage : ReactorStage
  /-- Where the watermark of this session started. -/
  opening : Nat
  nextTarget : Nat
  /-- The next target number last written to the store. -/
  persisted : Nat
  /-- The mark last published to the dispatcher. -/
  published : Nat
  /-- The dispatcher has not looked at the mark. -/
  changed : Bool
  /-- The numbers of the frames queued for the dispatcher. -/
  queue : List Nat
  /-- The queue has a sender. -/
  queueOpen : Bool
  deriving DecidableEq, Repr

def InboundReactor.publishAccounted (reactor : InboundReactor) : InboundReactor :=
  if reactor.published < reactor.nextTarget - 1 then
    { reactor with published := reactor.nextTarget - 1, changed := true }
  else reactor

/-- The number is consumed: an application message goes to the dispatcher, anything else is acted on
here. -/
def InboundReactor.advance (reactor : InboundReactor) (kind : Option InboundKind) (next : Nat) :
    InboundReactor :=
  match kind with
  | some .app =>
    { reactor with
      queue := reactor.queue ++ [reactor.nextTarget]
      nextTarget := next
      persisted := next
      stage := .handling }
  | some .other => { reactor with nextTarget := next, persisted := next, stage := .acting reactor.nextTarget }
  | none => { reactor with nextTarget := next, persisted := next, stage := .handling }

/-- A number the store's target has passed, or the reactor has consumed, is accepted. -/
def InboundLedger.acceptNext (ledger : InboundLedger) (reactor : InboundReactor) : Option InboundKind → InboundLedger
  | some kind => ledger.accept kind reactor.nextTarget
  | none => ledger

inductive InboundPhase where
  /-- No session is up, and none is starting. -/
  | down
  /-- The span found at start is reported and being recorded. -/
  | recording (last : Nat)
  | seeding
  /-- The counters are seeded. -/
  | handshake (target persisted : Nat)
  /-- The counterparty's Logon is consumed. -/
  | established (target persisted : Nat)
  | live (reactor : InboundReactor) (dispatcher : AppDispatcher)
  /-- The close has reset the store. -/
  | leaving (persisted : Nat)
  deriving DecidableEq, Repr

/-- The engine's two tasks over one store. -/
structure InboundSystem where
  policy : StoreFailurePolicy
  /-- How many frames the dispatcher's queue takes. -/
  capacity : Nat
  store : InboundStore
  phase : InboundPhase
  /-- How many sessions went live. -/
  sessions : Nat
  /-- The stream the store holds. -/
  ledger : InboundLedger
  /-- The streams a reset ended, each with the number it expected next. -/
  ended : List (Nat × InboundLedger)
  deriving DecidableEq, Repr

inductive InboundAction where
  /-- The process dies. -/
  | crash
  /-- A session starts: `report_inbound_loss`. -/
  | reportInboundLoss
  | recordLoss (write : WriteEnd)
  | seed
  /-- The handshake resets the store, both counters then being 1, or 2. -/
  | reset (consumed : Bool) (write : WriteEnd)
  | acceptLogon (write : WriteEnd)
  /-- The handshake is over: the reactor and the dispatcher are spawned. -/
  | spawn
  | persistOpeningWatermark (write : WriteEnd)
  | persistCounters (write : WriteEnd)
  /-- A message in sequence, or a `SequenceReset`-Reset, that makes `next` the number expected. -/
  | receive (kind : Option InboundKind) (next : Nat)
  | persistTarget (write : WriteEnd)
  /-- The number being acted on is dealt with, which may close the session. -/
  | processed (closes : Bool)
  | publishAccounted
  | close
  /-- The close publishes what is accounted for and drops the queue's sender. -/
  | dropQueue
  /-- The drain timeout passes; a watermark write under way may still land. -/
  | abort (landed : Bool)
  | reportUnfinished
  | recordUnfinished (write : WriteEnd)
  | resetOnClose (write : WriteEnd)
  | persistCountersOnClose (write : WriteEnd)
  /-- The dispatcher takes a frame and calls `from_app`. -/
  | recv
  | fromAppReturned
  | fromAppPanicked
  /-- The dispatcher sees a published mark. -/
  | marksChanged
  /-- The dispatcher has drained its queue, and accounts for the mark it saw. -/
  | drained
  | setAppWatermark (write : WriteEnd)
  /-- The dispatcher finds its queue closed, and accounts for the last mark. -/
  | queueClosed
  deriving DecidableEq, Repr

namespace InboundSystem

def start (policy : StoreFailurePolicy) (capacity : Nat) : InboundSystem where
  policy := policy
  capacity := capacity
  store := ⟨1, 0⟩
  phase := .down
  sessions := 0
  ledger := .new
  ended := []

/-- The store is reset: the stream it held ends, `target` being expected of it next. -/
def endStream (system : InboundSystem) (target : Nat) (fresh : InboundStore) : InboundSystem :=
  { system with store := fresh, ledger := .new, ended := (target, system.ledger) :: system.ended }

/-! ## Starting -/

def reportInboundLoss (system : InboundSystem) : InboundSystem :=
  match inboundLossSpan system.store.appWatermark system.store.nextTargetSeq with
  | none => { system with phase := .seeding }
  | some span => { system with ledger := system.ledger.report span, phase := .recording span.2 }

def recordLoss (system : InboundSystem) (last : Nat) (write : WriteEnd) : InboundSystem :=
  { system with
    store := system.store.setAppWatermark last write
    phase := if write.goesOn system.policy then .seeding else .down }

/-- The counters come from the store. -/
def seed (system : InboundSystem) : InboundSystem :=
  let target := (seedFromStore 1 system.store.nextTargetSeq).sequences.nextTargetSeq
  { system with
    ledger := system.ledger.keepBelow target
    phase := .handshake target system.store.nextTargetSeq }

/-- A failed reset refuses the session under either policy. -/
def reset (system : InboundSystem) (target : Nat) (consumed : Bool) (write : WriteEnd) : InboundSystem :=
  let first := if consumed then 2 else 1
  let after := if write.landed then system.endStream target ⟨first, 0⟩ else system
  { after with
    phase := match write with
      | .done => if consumed then .established first first else .handshake first first
      | .failed _ => .down }

def acceptLogon (system : InboundSystem) (target : Nat) (write : WriteEnd) : Option InboundSystem := do
  let next ← checkedAdd u64Max target 1
  return { system with
    store := system.store.setNextTargetSeq next write
    phase := if write.goesOn system.policy then .established next next else .down }

def spawn (system : InboundSystem) (target persisted : Nat) : InboundSystem :=
  let openingMark := target - 1
  { system with
    sessions := system.sessions + 1
    phase := .live
      { stage := .opening
        opening := openingMark
        nextTarget := target
        persisted := persisted
        published := openingMark
        changed := false
        queue := []
        queueOpen := true }
      ⟨openingMark, openingMark, .select⟩ }

/-! ## The reactor -/

def persistOpeningWatermark (system : InboundSystem) (reactor : InboundReactor) (dispatcher : AppDispatcher)
    (write : WriteEnd) : InboundSystem :=
  if reactor.published = 0 then { system with phase := .live { reactor with stage := .handling } dispatcher }
  else { system with
    store := system.store.setAppWatermark reactor.published write
    phase := .live
      { reactor with stage := if write.goesOn system.policy then .handling else .closing } dispatcher }

def persistCounters (system : InboundSystem) (reactor : InboundReactor) (dispatcher : AppDispatcher)
    (write : WriteEnd) : InboundSystem :=
  if reactor.persisted = reactor.nextTarget then
    { system with phase := .live { reactor with stage := .handling } dispatcher }
  else { system with
    store := system.store.setNextTargetSeq reactor.nextTarget write
    phase := .live
      { reactor with
        persisted := reactor.nextTarget
        stage := if write.goesOn system.policy then .handling else .closing } dispatcher }

/-- Whether the reactor takes a message of the kind, the number it expects moving to `next`. -/
def mayReceive (system : InboundSystem) (reactor : InboundReactor) (dispatcher : AppDispatcher)
    (kind : Option InboundKind) (next : Nat) : Bool :=
  match kind with
  | some .app => next = reactor.nextTarget + 1 && next ≤ u64Max && dispatcher.stage != .stopped
      && reactor.queue.length < system.capacity
  | some .other => reactor.nextTarget < next && next ≤ u64Max
  | none => reactor.nextTarget ≤ next && next ≤ u64Max

def persistTarget (system : InboundSystem) (reactor : InboundReactor) (dispatcher : AppDispatcher)
    (kind : Option InboundKind) (next : Nat) (write : WriteEnd) : InboundSystem :=
  let ledger := system.ledger.acceptNext reactor kind
  if reactor.persisted = next then
    { system with ledger := ledger, phase := .live (reactor.advance kind next) dispatcher }
  else if write.goesOn system.policy then
    { system with
      store := system.store.setNextTargetSeq next write
      ledger := ledger
      phase := .live (reactor.advance kind next) dispatcher }
  else
    { system with
      store := system.store.setNextTargetSeq next write
      ledger := if write.landed then ledger else system.ledger
      phase := .live { reactor with persisted := next, stage := .closing } dispatcher }

/-! ## Closing -/

def reportUnfinished (system : InboundSystem) (reactor : InboundReactor) (dispatcher : AppDispatcher) :
    InboundSystem :=
  match inboundLossSpan dispatcher.completed reactor.nextTarget with
  | none => { system with phase := .live { reactor with stage := .closed } dispatcher }
  | some span => { system with
    ledger := system.ledger.report span
    phase := .live { reactor with stage := .recording span.2 } dispatcher }

/-- The watermark write the aborted dispatcher had under way, if any, lands or not. -/
def abort (system : InboundSystem) (reactor : InboundReactor) (dispatcher : AppDispatcher) (landed : Bool) :
    InboundSystem :=
  { system with
    store := match dispatcher.stage with
      | .storing mark _ => system.store.setAppWatermark mark (.failed landed)
      | _ => system.store
    phase := .live reactor { dispatcher with stage := .stopped } }

/-- After a reset that failed no counter is written. -/
def resetOnClose (system : InboundSystem) (reactor : InboundReactor) (write : WriteEnd) : InboundSystem :=
  let after := if write.landed then system.endStream reactor.nextTarget ⟨1, 0⟩ else system
  { after with
    phase := match write with
      | .done => .leaving reactor.persisted
      | .failed _ => .down }

def persistCountersOnClose (system : InboundSystem) (nextTarget persisted : Nat) (write : WriteEnd) :
    InboundSystem :=
  { system with
    store := if persisted = nextTarget then system.store else system.store.setNextTargetSeq nextTarget write
    phase := .down }

/-! ## The dispatcher -/

def recv (system : InboundSystem) (reactor : InboundReactor) (dispatcher : AppDispatcher) (next : Resume) :
    Option InboundSystem :=
  match reactor.queue with
  | [] => none
  | seq :: rest => some { system with
    ledger := { system.ledger with handed := (system.sessions, seq) :: system.ledger.handed }
    phase := .live { reactor with queue := rest } { dispatcher with stage := .running seq next } }

def fromAppReturned (system : InboundSystem) (reactor : InboundReactor) (dispatcher : AppDispatcher) (seq : Nat)
    (next : Resume) : InboundSystem :=
  { system with
    ledger := { system.ledger with returned := seq :: system.ledger.returned }
    phase := .live reactor (dispatcher.account seq next) }

def setAppWatermark (system : InboundSystem) (reactor : InboundReactor) (dispatcher : AppDispatcher) (mark : Nat)
    (next : Resume) (write : WriteEnd) : InboundSystem :=
  { system with
    store := system.store.setAppWatermark mark write
    phase := .live reactor
      { dispatcher with stage := if write.goesOn system.policy then next.stage else .stopped } }

/-! ## Steps -/

/-- The step of a live session, its reactor and its dispatcher in the state. -/
def stepLive (system : InboundSystem) (reactor : InboundReactor) (dispatcher : AppDispatcher) :
    InboundAction → Option InboundSystem
  | .persistOpeningWatermark write =>
    if reactor.stage = .opening then some (system.persistOpeningWatermark reactor dispatcher write) else none
  | .persistCounters write =>
    if reactor.stage = .waiting then some (system.persistCounters reactor dispatcher write) else none
  | .receive kind next =>
    if reactor.stage = .handling ∧ system.mayReceive reactor dispatcher kind next then
      some { system with phase := .live { reactor with stage := .persisting kind next } dispatcher }
    else none
  | .persistTarget write =>
    match reactor.stage with
    | .persisting kind next => some (system.persistTarget reactor dispatcher kind next write)
    | _ => none
  | .processed closes =>
    match reactor.stage with
    | .acting seq => some { system with
      ledger := { system.ledger with processed := seq :: system.ledger.processed }
      phase := .live { reactor with stage := if closes then .closing else .handling } dispatcher }
    | _ => none
  | .publishAccounted =>
    if reactor.stage = .handling then
      some { system with phase := .live { reactor.publishAccounted with stage := .waiting } dispatcher }
    else none
  | .close =>
    if reactor.stage = .handling ∨ reactor.stage = .waiting then
      some { system with phase := .live { reactor with stage := .closing } dispatcher }
    else none
  | .dropQueue =>
    if reactor.stage = .closing then
      some { system with
        phase := .live { reactor.publishAccounted with stage := .draining, queueOpen := false } dispatcher }
    else none
  | .abort landed =>
    if reactor.stage = .draining ∧ dispatcher.stage ≠ .stopped then
      some (system.abort reactor dispatcher landed)
    else none
  | .reportUnfinished =>
    if reactor.stage = .draining ∧ dispatcher.stage = .stopped then
      some (system.reportUnfinished reactor dispatcher)
    else none
  | .recordUnfinished write =>
    match reactor.stage with
    | .recording last => some { system with
      store := system.store.setAppWatermark last write
      phase := .live { reactor with stage := .closed } dispatcher }
    | _ => none
  | .resetOnClose write =>
    if reactor.stage = .closed then some (system.resetOnClose reactor write) else none
  | .persistCountersOnClose write =>
    if reactor.stage = .closed then
      some (system.persistCountersOnClose reactor.nextTarget reactor.persisted write)
    else none
  | .recv =>
    match dispatcher.stage with
    | .select => system.recv reactor dispatcher .select
    | .drain mark => system.recv reactor dispatcher (.drain mark)
    | _ => none
  | .fromAppReturned =>
    match dispatcher.stage with
    | .running seq next => some (system.fromAppReturned reactor dispatcher seq next)
    | _ => none
  | .fromAppPanicked =>
    match dispatcher.stage with
    | .running _ _ => some { system with phase := .live reactor { dispatcher with stage := .stopped } }
    | _ => none
  | .marksChanged =>
    if dispatcher.stage = .select ∧ reactor.changed then
      some { system with
        phase := .live { reactor with changed := false }
          { dispatcher with stage := .drain reactor.published } }
    else none
  | .drained =>
    match dispatcher.stage with
    | .drain mark =>
      if reactor.queue = [] then some { system with phase := .live reactor (dispatcher.account mark .select) }
      else none
    | _ => none
  | .setAppWatermark write =>
    match dispatcher.stage with
    | .storing mark next => some (system.setAppWatermark reactor dispatcher mark next write)
    | _ => none
  | .queueClosed =>
    if dispatcher.stage = .select ∧ reactor.queue = [] ∧ reactor.queueOpen = false then
      some { system with phase := .live reactor (dispatcher.account reactor.published .finish) }
    else none
  | _ => none

def step (system : InboundSystem) (action : InboundAction) : Option InboundSystem :=
  match action, system.phase with
  | .crash, _ => some { system with phase := .down }
  | .reportInboundLoss, .down => some system.reportInboundLoss
  | .recordLoss write, .recording last => some (system.recordLoss last write)
  | .seed, .seeding => some system.seed
  | .reset consumed write, .handshake target _ => some (system.reset target consumed write)
  | .acceptLogon write, .handshake target _ => system.acceptLogon target write
  | .spawn, .handshake target persisted => some (system.spawn target persisted)
  | .spawn, .established target persisted => some (system.spawn target persisted)
  | .persistCountersOnClose write, .leaving persisted => some (system.persistCountersOnClose 1 persisted write)
  | action, .live reactor dispatcher => system.stepLive reactor dispatcher action
  | _, _ => none

end InboundSystem

end IronFix.Engine
