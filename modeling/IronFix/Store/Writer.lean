import IronFix.Core.Error
import IronFix.Lib.Transitions
import Mathlib.Logic.Function.Basic

/-!
# The writer thread of a file store

Callers queue commands for one thread that owns the store and runs them in
turn. Each call has a reply cell, taken from a pool and given back after use:
the caller's future holds it on one side, the ticket in the queue on the other.
A step is what one party does under one lock, so the parties' steps interleave
as the locks let them.
-/

namespace IronFix.Store

/-! ## The store -/

/-- What the thread serves calls on: `none` is a panic. -/
structure Served (S C A : Type) where
  execute : S → C → Option (Except StoreError A × S)
  closes : C → Bool
  afterCallDue : S → Bool
  afterCall : S → Option S

inductive StoreState (S : Type) where
  /-- The thread has not built the state yet. -/
  | starting
  | opened (state : S)
  | closed
  deriving DecidableEq, Repr

def storeClosed : StoreError := .io "the file store is closed: its writer thread has stopped"

def queueFull (capacity : Nat) : StoreError :=
  .io s!"the file store's call queue is full ({capacity} calls waiting): the call was not queued and changed nothing"

def panicked (what : String) : StoreError :=
  .io s!"the file store's writer panicked while {what}; the store is closed, and its journal is left as a process crash would leave it"

/-- What happens to the store. -/
inductive StoreEvent (S C : Type) where
  /-- The thread's `init`, where it succeeds with a state. -/
  | started (built : Option S)
  | ran (call : Nat) (command : C)
  | worked
  | shut
  deriving DecidableEq, Repr

namespace Served

variable {S C A : Type} (served : Served S C A)

/-- `run` under the state lock: the answer, the state left and whether work is due. -/
def serve (command : C) : StoreState S → Except StoreError A × StoreState S × Bool
  | .opened state =>
    match served.execute state command with
    | some (result, next) =>
      if served.closes command then (result, .closed, false)
      else (result, .opened next, served.afterCallDue next)
    | none => (.error (panicked "running a call"), .closed, false)
  | .starting => (.error storeClosed, .starting, false)
  | .closed => (.error storeClosed, .closed, false)

def perform (store : StoreState S) : StoreEvent S C → StoreState S
  | .started built =>
    match store with
    -- a writer dropped before the thread started has closed the state
    | .starting => (built.map StoreState.opened).getD .closed
    | .opened state => .opened state
    | .closed => .closed
  | .ran _ command => (served.serve command store).2.1
  | .worked =>
    match store with
    | .opened state => ((served.afterCall state).map StoreState.opened).getD .closed
    | .starting => .starting
    | .closed => .closed
  | .shut => .closed

end Served

/-! ## Calls and cells -/

def REPLY_CELL_POOL : Nat := 64

structure ReplyCell (A : Type) where
  answer : Option (Except StoreError A)
  /-- The task that waits for the answer. -/
  waker : Option Nat
  abandoned : Bool

def ReplyCell.new {A : Type} : ReplyCell A := ⟨none, none, false⟩

/-- What a caller ends with. -/
inductive CallOutcome (A : Type) where
  | answered (result : Except StoreError A)
  | refused (error : StoreError)
  | dropped

/-- The caller's side of a call. -/
inductive CallerState (A : Type) where
  /-- It has a cell and is about to queue the call. -/
  | queueing
  | waiting
  /-- It gives the cell back: empties it, then puts it in the pool. -/
  | giving (emptied : Bool) (outcome : CallOutcome A)
  | finished (outcome : CallOutcome A)

/-- The writer's side of a call. -/
inductive TicketState where
  | unsent
  | queued
  /-- The thread took the call. -/
  | held
  | giving (emptied : Bool)
  /-- It no longer has the cell. -/
  | spent
  deriving DecidableEq, Repr

structure Call (C A : Type) where
  command : C
  cell : Nat
  caller : CallerState A
  ticket : TicketState
  /-- The task that polled last and was told to wait. -/
  awaited : Option Nat

def CallerState.holds {A : Type} : CallerState A → Bool
  | .queueing | .waiting | .giving _ _ => true
  | .finished _ => false

def TicketState.holds : TicketState → Bool
  | .queued | .held | .giving _ => true
  | .unsent | .spent => false

/-- Some party still has the call's cell. -/
def Call.live {C A : Type} (call : Call C A) : Bool := call.caller.holds || call.ticket.holds

/-! ## The thread -/

/-- Where the thread goes on once a call is off its hands. -/
inductive Continuation where
  | loop
  | work
  | drain
  deriving DecidableEq, Repr

inductive WriterThread (A : Type) where
  | starting
  /-- Has the state lock and runs `init`. -/
  | building
  | idle
  | took (call : Nat)
  /-- Saw that the caller still waits. -/
  | checked (call : Nat)
  | locked (call : Nat)
  | answering (call : Nat) (result : Except StoreError A) (next : Continuation)
  | giving (call : Nat) (next : Continuation)
  | waking (waker : Nat) (next : Continuation)
  | following
  | working
  | draining
  | exited

def Continuation.thread {A : Type} : Continuation → WriterThread A
  | .loop => .idle
  | .work => .following
  | .drain => .draining

/-- Whether the thread has the state lock. -/
def WriterThread.locksState {A : Type} : WriterThread A → Bool
  | .building | .locked _ | .working => true
  | _ => false

/-- The `Writer` itself, by how far its drop is. -/
inductive WriterHandle where
  | alive
  | dropping
  | gone
  deriving DecidableEq, Repr

/-! ## The system -/

structure WriterSystem (S C A : Type) where
  capacity : Nat
  store : StoreState S
  cells : Nat → ReplyCell A
  /-- How many cells were made. -/
  allocated : Nat
  pool : List Nat
  queue : List Nat
  calls : List (Call C A)
  thread : WriterThread A
  handle : WriterHandle
  /-- What happened to the store, in order. -/
  history : List (StoreEvent S C)
  /-- The calls queued so far, in order. -/
  sent : List Nat
  taken : List Nat
  /-- The calls whose futures were dropped while they were queued. -/
  cancelled : List Nat
  /-- The commands given to the recycler. -/
  discarded : List Nat
  answers : List (Nat × Except StoreError A)
  woken : List Nat

inductive WriterAction (S C : Type) where
  | call (command : C)
  | send (call : Nat)
  | poll (call : Nat) (waker : Nat)
  | drop (call : Nat)
  /-- The two steps of `give`, on the caller's side. -/
  | emptyCell (call : Nat)
  | giveCell (call : Nat)
  /-- The thread's next step; `init` builds this state if the step runs it. -/
  | thread (built : Option S)
  /-- The two steps of the `Writer`'s drop. -/
  | dropWriter
  | disconnect

namespace WriterSystem

variable {S C A : Type}

def spawn (capacity : Nat) : WriterSystem S C A where
  capacity
  store := .starting
  cells _ := .new
  allocated := 0
  pool := []
  queue := []
  calls := []
  thread := .starting
  handle := .alive
  history := []
  sent := []
  taken := []
  cancelled := []
  discarded := []
  answers := []
  woken := []

def setCall (i : Nat) (call : Call C A) (system : WriterSystem S C A) : WriterSystem S C A :=
  { system with calls := system.calls.set i call }

def setCell (cell : Nat) (state : ReplyCell A) (system : WriterSystem S C A) : WriterSystem S C A :=
  { system with cells := Function.update system.cells cell state }

/-- `CellPool::take`, and the call that takes the cell. -/
def begin (command : C) (system : WriterSystem S C A) : WriterSystem S C A :=
  match system.pool with
  | cell :: pool =>
    { system with
      pool
      calls := system.calls ++ [⟨command, cell, .queueing, .unsent, none⟩] }
  | [] =>
    { system with
      allocated := system.allocated + 1
      calls := system.calls ++ [⟨command, system.allocated, .queueing, .unsent, none⟩] }

/-- The end of `give`: keeps an emptied cell, if there is room. -/
def keepCell (cell : Nat) (system : WriterSystem S C A) : WriterSystem S C A :=
  if system.pool.length < REPLY_CELL_POOL then { system with pool := cell :: system.pool }
  else system

def happens (served : Served S C A) (event : StoreEvent S C) (system : WriterSystem S C A) :
    WriterSystem S C A :=
  { system with
    store := served.perform system.store event
    history := system.history ++ [event] }

def discard (i : Nat) (system : WriterSystem S C A) : WriterSystem S C A :=
  { system with discarded := system.discarded ++ [i] }

/-- The thread takes the call at the head of the queue. -/
def takeCall (i : Nat) (queue : List Nat) (call : Call C A) (system : WriterSystem S C A) :
    WriterSystem S C A :=
  { system.setCall i { call with ticket := .held } with
    queue
    taken := system.taken ++ [i] }

/-- `run` under the state lock. -/
def execute (served : Served S C A) (i : Nat) (command : C) (system : WriterSystem S C A) :
    WriterSystem S C A :=
  let (result, _, due) := served.serve command system.store
  let ran := system.happens served (.ran i command)
  let ran := match system.store with
    | .opened _ => ran
    | .starting | .closed => ran.discard i
  { ran with thread := .answering i result (if due then .work else .loop) }

/-- `deliver` under the cell's lock. -/
def deliver (i : Nat) (call : Call C A) (result : Except StoreError A) (next : Continuation)
    (system : WriterSystem S C A) : WriterSystem S C A :=
  let cell := system.cells call.cell
  if cell.abandoned then
    { system.setCall i { call with ticket := .giving false } with thread := .giving i next }
  else
    { (system.setCall i { call with ticket := .spent }).setCell call.cell
        { cell with
          answer := some result
          waker := none } with
      answers := system.answers ++ [(i, result)]
      thread := match cell.waker with
        | some waker => .waking waker next
        | none => next.thread }

def threadStep (served : Served S C A) (built : Option S) (system : WriterSystem S C A) :
    Option (WriterSystem S C A) :=
  match system.thread with
  | .starting => some { system with thread := .building }
  | .building => some { system.happens served (.started built) with thread := .idle }
  | .idle =>
    match system.queue with
    | i :: queue => (system.calls[i]?).map fun call =>
      { system.takeCall i queue call with thread := .took i }
    | [] =>
      if system.handle = .gone then
        some { system.happens served .shut with thread := .draining }
      else none
  | .took i => (system.calls[i]?).map fun call =>
    if (system.cells call.cell).abandoned then
      { system.discard i with thread := .answering i (.error storeClosed) .loop }
    else { system with thread := .checked i }
  | .checked i => some { system with thread := .locked i }
  | .locked i => (system.calls[i]?).map fun call => system.execute served i call.command
  | .answering i result next => (system.calls[i]?).map fun call => system.deliver i call result next
  | .giving i next => (system.calls[i]?).bind fun call =>
    match call.ticket with
    | .giving false =>
      some ((system.setCell call.cell .new).setCall i { call with ticket := .giving true })
    | .giving true =>
      some { (system.keepCell call.cell).setCall i { call with ticket := .spent } with
        thread := next.thread }
    | _ => none
  | .waking waker next =>
    some { system with
      woken := system.woken ++ [waker]
      thread := next.thread }
  | .following => some { system with thread := .working }
  | .working => some { system.happens served .worked with thread := .idle }
  | .draining =>
    match system.queue with
    | i :: queue => (system.calls[i]?).map fun call =>
      { (system.takeCall i queue call).discard i with
        thread := .answering i (.error storeClosed) .drain }
    | [] => some { system with thread := .exited }
  | .exited => none

/-- A call that was not queued gives its command and its cell back. -/
def refuse (i : Nat) (call : Call C A) (error : StoreError) (system : WriterSystem S C A) :
    WriterSystem S C A :=
  (system.setCall i { call with caller := .giving false (.refused error), ticket := .spent }).discard i

/-- `try_send`. -/
def trySend (i : Nat) (call : Call C A) (system : WriterSystem S C A) : WriterSystem S C A :=
  match system.thread with
  | .exited => system.refuse i call storeClosed
  | _ =>
    if system.queue.length < system.capacity then
      { system.setCall i { call with caller := .waiting, ticket := .queued } with
        queue := system.queue ++ [i]
        sent := system.sent ++ [i] }
    else system.refuse i call (queueFull system.capacity)

def poll (i : Nat) (call : Call C A) (waker : Nat) (system : WriterSystem S C A) : WriterSystem S C A :=
  let cell := system.cells call.cell
  match cell.answer with
  | some result =>
    (system.setCell call.cell { cell with answer := none }).setCall i
      { call with caller := .giving false (.answered result) }
  | none =>
    (system.setCell call.cell { cell with waker := some waker }).setCall i
      { call with awaited := some waker }

/-- The drop of a reply that has its cell. -/
def dropReply (i : Nat) (call : Call C A) (system : WriterSystem S C A) : WriterSystem S C A :=
  let cell := system.cells call.cell
  match cell.answer with
  | some _ => system.setCall i { call with caller := .giving false .dropped }
  | none =>
    { (system.setCell call.cell { cell with abandoned := true, waker := none }).setCall i
        { call with caller := .finished .dropped } with
      cancelled := if i ∈ system.queue then system.cancelled ++ [i] else system.cancelled }

/-- The next state, unless the action cannot be taken. -/
def step (served : Served S C A) (system : WriterSystem S C A) :
    WriterAction S C → Option (WriterSystem S C A)
  | .call command => if system.handle = .alive then some (system.begin command) else none
  | .send i =>
    match system.calls[i]? with
    | some call =>
      match call.caller with
      | .queueing => some (system.trySend i call)
      | _ => none
    | none => none
  | .poll i waker =>
    match system.calls[i]? with
    | some call =>
      match call.caller with
      | .waiting => some (system.poll i call waker)
      | _ => none
    | none => none
  | .drop i =>
    match system.calls[i]? with
    | some call =>
      match call.caller with
      | .waiting => some (system.dropReply i call)
      | _ => none
    | none => none
  | .emptyCell i =>
    match system.calls[i]? with
    | some call =>
      match call.caller with
      | .giving false outcome =>
        some ((system.setCell call.cell .new).setCall i { call with caller := .giving true outcome })
      | _ => none
    | none => none
  | .giveCell i =>
    match system.calls[i]? with
    | some call =>
      match call.caller with
      | .giving true outcome =>
        some ((system.keepCell call.cell).setCall i { call with caller := .finished outcome })
      | _ => none
    | none => none
  | .thread built => system.threadStep served built
  | .dropWriter =>
    -- every call and reply borrows the writer
    if system.handle = .alive ∧ system.calls.all (fun call => !call.caller.holds) then
      some { (if system.thread.locksState then system else system.happens served .shut) with
        handle := .dropping }
    else none
  | .disconnect => if system.handle = .dropping then some { system with handle := .gone } else none

end WriterSystem

end IronFix.Store
