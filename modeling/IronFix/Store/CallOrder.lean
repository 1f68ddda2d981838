import IronFix.Store.Cells

/-!
# The order of the calls

A call is in the queue, in the thread's hands or off them, as its ticket says.
-/

namespace IronFix.Store

open Lib.Positions

variable {S C A : Type}

namespace WriterThread

/-- The call the thread has not answered yet. -/
def holding : WriterThread A → Option Nat
  | .took call | .checked call | .locked call | .answering call _ _ => some call
  | _ => none

/-- The call whose cell the thread gives back. -/
def returning : WriterThread A → Option Nat
  | .giving call _ => some call
  | _ => none

end WriterThread

@[simp] theorem Continuation.holding_thread (next : Continuation) :
    (next.thread : WriterThread A).holding = none := by
  cases next <;> rfl

@[simp] theorem Continuation.returning_thread (next : Continuation) :
    (next.thread : WriterThread A).returning = none := by
  cases next <;> rfl

namespace WriterSystem

def ticketOf (i : Nat) (system : WriterSystem S C A) : Option TicketState := system.calls[i]?.map Call.ticket

def callerOf (i : Nat) (system : WriterSystem S C A) : Option (CallerState A) :=
  system.calls[i]?.map Call.caller

def commandOf (i : Nat) (system : WriterSystem S C A) : Option C := system.calls[i]?.map Call.command

theorem ticketOf_found {system : WriterSystem S C A} {i : Nat} {call : Call C A}
    (found : system.calls[i]? = some call) : system.ticketOf i = some call.ticket := by
  unfold ticketOf
  rw [found]
  rfl

theorem found_of_ticketOf {system : WriterSystem S C A} {i : Nat} {ticket : TicketState}
    (known : system.ticketOf i = some ticket) : ∃ call, system.calls[i]? = some call ∧ call.ticket = ticket :=
  Option.map_eq_some_iff.mp known

/-- Where each call is. -/
structure Lined (system : WriterSystem S C A) : Prop where
  order : system.sent = system.taken ++ system.queue
  once : system.sent.Nodup
  known : ∀ i ∈ system.sent, ∃ ticket, system.ticketOf i = some ticket ∧ ticket ≠ .unsent
  queued : ∀ i, i ∈ system.queue ↔ system.ticketOf i = some .queued
  held : ∀ i, system.thread.holding = some i ↔ system.ticketOf i = some .held
  giving : ∀ i, system.thread.returning = some i ↔ ∃ emptied, system.ticketOf i = some (.giving emptied)

theorem spawn_lined (capacity : Nat) : (spawn capacity : WriterSystem S C A).Lined where
  order := rfl
  once := List.nodup_nil
  known := by simp [spawn]
  queued := by simp [spawn, ticketOf]
  held := by simp [spawn, ticketOf, WriterThread.holding]
  giving := by simp [spawn, ticketOf, WriterThread.returning]

/-- A step that moves no ticket. -/
theorem Lined.still {system after : WriterSystem S C A} (lined : system.Lined)
    (tickets : ∀ i, after.ticketOf i = system.ticketOf i) (sent : after.sent = system.sent)
    (taken : after.taken = system.taken) (queue : after.queue = system.queue)
    (holding : after.thread.holding = system.thread.holding)
    (returning : after.thread.returning = system.thread.returning) : after.Lined where
  order := by
    rw [sent, taken, queue]
    exact lined.order
  once := sent ▸ lined.once
  known i inside := by
    rw [tickets]
    exact lined.known i (sent ▸ inside)
  queued i := by
    rw [tickets, queue]
    exact lined.queued i
  held i := by
    rw [tickets, holding]
    exact lined.held i
  giving i := by
    rw [tickets, returning]
    exact lined.giving i

/-- What a caller does leaves the ticket. -/
theorem ticketOf_set {system after : WriterSystem S C A} {i : Nat} {a b : Call C A}
    (found : system.calls[i]? = some a) (calls : after.calls = system.calls.set i b) (j : Nat) :
    after.ticketOf j = if j = i then some b.ticket else system.ticketOf j := by
  unfold ticketOf
  rw [calls]
  exact getElem?_set_map Call.ticket found b j

theorem Lined.caller {system after : WriterSystem S C A} (lined : system.Lined) {i : Nat} {a b : Call C A}
    (found : system.calls[i]? = some a) (calls : after.calls = system.calls.set i b)
    (ticket : b.ticket = a.ticket) (sent : after.sent = system.sent) (taken : after.taken = system.taken)
    (queue : after.queue = system.queue) (thread : after.thread = system.thread) : after.Lined := by
  refine lined.still ?_ sent taken queue (thread ▸ rfl) (thread ▸ rfl)
  intro j
  rw [ticketOf_set found calls]
  split
  · rename_i same
    rw [same, ticketOf_found found, ticket]
  · rfl

theorem Lined.begin {system : WriterSystem S C A} (lined : system.Lined) (command : C) :
    (system.begin command).Lined := by
  have general (cell allocated : Nat) (pool : List Nat) : Lined { system with
      pool
      allocated
      calls := system.calls ++ [⟨command, cell, .queueing, .unsent, none⟩] } := by
    have tickets (j : Nat) (ticket : TicketState) (sent : ticket ≠ .unsent) :
        ticketOf j { system with
          pool
          allocated
          calls := system.calls ++ [⟨command, cell, .queueing, .unsent, none⟩] } = some ticket ↔
        system.ticketOf j = some ticket := by
      unfold ticketOf
      rw [List.getElem?_append]
      split
      · rfl
      · rename_i beyond
        rw [List.getElem?_eq_none (Nat.le_of_not_lt beyond)]
        constructor
        · intro known
          obtain ⟨call, found, rfl⟩ := Option.map_eq_some_iff.mp known
          rw [List.mem_singleton.mp (List.mem_of_getElem? found)] at sent
          exact absurd rfl sent
        · intro known
          cases known
    refine ⟨lined.order, lined.once, ?_, ?_, ?_, ?_⟩
    · intro i inside
      obtain ⟨ticket, known, sent⟩ := lined.known i inside
      exact ⟨ticket, (tickets i ticket sent).mpr known, sent⟩
    · intro i
      exact (lined.queued i).trans (tickets i .queued (by simp)).symm
    · intro i
      exact (lined.held i).trans (tickets i .held (by simp)).symm
    · intro i
      refine (lined.giving i).trans ?_
      exact exists_congr fun emptied => (tickets i (.giving emptied) (by simp)).symm
  unfold WriterSystem.begin
  split
  · exact general _ _ _
  · exact general _ _ _

/-- A step that moves the ticket of `i`, and the call with it. -/
theorem Lined.moved {system after : WriterSystem S C A} (lined : system.Lined) {i : Nat} {a b : Call C A}
    (found : system.calls[i]? = some a) (calls : after.calls = system.calls.set i b)
    (sent : b.ticket ≠ .unsent) (order : after.sent = after.taken ++ after.queue) (once : after.sent.Nodup)
    (known : ∀ j ∈ after.sent, j = i ∨ j ∈ system.sent)
    (queued : ∀ j, j ∈ after.queue ↔ if j = i then b.ticket = .queued else j ∈ system.queue)
    (held : ∀ j, after.thread.holding = some j ↔
      if j = i then b.ticket = .held else system.thread.holding = some j)
    (giving : ∀ j, after.thread.returning = some j ↔
      if j = i then ∃ emptied, b.ticket = .giving emptied else system.thread.returning = some j) :
    after.Lined := by
  have tickets := ticketOf_set found calls
  refine ⟨order, once, ?_, ?_, ?_, ?_⟩
  · intro j inside
    rw [tickets]
    split
    · exact ⟨b.ticket, rfl, sent⟩
    · rename_i other
      exact lined.known j ((known j inside).resolve_left other)
  · intro j
    rw [queued, tickets]
    split
    · exact Option.some_inj.symm
    · exact lined.queued j
  · intro j
    rw [held, tickets]
    split
    · exact Option.some_inj.symm
    · exact lined.held j
  · intro j
    rw [giving, tickets]
    split
    · exact exists_congr fun _ => Option.some_inj.symm
    · exact lined.giving j

theorem Lined.mem_queue {system : WriterSystem S C A} (lined : system.Lined) {i : Nat} {call : Call C A}
    (found : system.calls[i]? = some call) : i ∈ system.queue ↔ call.ticket = .queued := by
  rw [lined.queued, ticketOf_found found]
  exact Option.some_inj

theorem Lined.is_held {system : WriterSystem S C A} (lined : system.Lined) {i : Nat} {call : Call C A}
    (found : system.calls[i]? = some call) : system.thread.holding = some i ↔ call.ticket = .held := by
  rw [lined.held, ticketOf_found found]
  exact Option.some_inj

theorem Lined.is_given {system : WriterSystem S C A} (lined : system.Lined) {i : Nat} {call : Call C A}
    (found : system.calls[i]? = some call) :
    system.thread.returning = some i ↔ ∃ emptied, call.ticket = .giving emptied := by
  rw [lined.giving, ticketOf_found found]
  exact exists_congr fun _ => Option.some_inj

/-- A call with an unsent ticket was never queued. -/
theorem Lined.unsent {system : WriterSystem S C A} (lined : system.Lined) {i : Nat} {call : Call C A}
    (found : system.calls[i]? = some call) (unsent : call.ticket = .unsent) : i ∉ system.sent := by
  intro inside
  obtain ⟨ticket, known, sent⟩ := lined.known i inside
  rw [ticketOf_found found, unsent] at known
  exact sent (Option.some.inj known).symm

/-- Nor is it in the queue or in the thread's hands. -/
theorem Lined.nowhere {system : WriterSystem S C A} (lined : system.Lined) {i : Nat} {call : Call C A}
    (found : system.calls[i]? = some call) (unsent : call.ticket = .unsent) :
    i ∉ system.queue ∧ system.thread.holding ≠ some i ∧ system.thread.returning ≠ some i := by
  refine ⟨?_, ?_, ?_⟩
  · rw [lined.mem_queue found, unsent]
    simp
  · rw [Ne, lined.is_held found, unsent]
    simp
  · rw [Ne, lined.is_given found, unsent]
    simp

theorem Lined.refuse {system : WriterSystem S C A} (lined : system.Lined) {i : Nat} {call : Call C A}
    (found : system.calls[i]? = some call) (unsent : call.ticket = .unsent) (error : StoreError) :
    (system.refuse i call error).Lined := by
  obtain ⟨unqueued, notHeld, notGiven⟩ := lined.nowhere found unsent
  refine lined.moved found (b := { call with
    caller := .giving false (.refused error)
    ticket := .spent }) rfl (by simp) lined.order lined.once (fun j inside => .inr inside) ?_ ?_ ?_
  · intro j
    show j ∈ system.queue ↔ _
    split
    · rename_i same
      simp [same, unqueued]
    · exact Iff.rfl
  · intro j
    show system.thread.holding = some j ↔ _
    split
    · rename_i same
      simp [same, notHeld]
    · exact Iff.rfl
  · intro j
    show system.thread.returning = some j ↔ _
    split
    · rename_i same
      simp [same, notGiven]
    · exact Iff.rfl

theorem Lined.trySend {system : WriterSystem S C A} (lined : system.Lined) {i : Nat} {call : Call C A}
    (found : system.calls[i]? = some call) (unsent : call.ticket = .unsent) :
    (system.trySend i call).Lined := by
  have new := lined.unsent found unsent
  obtain ⟨unqueued, notHeld, notGiven⟩ := lined.nowhere found unsent
  unfold WriterSystem.trySend
  split
  · exact lined.refuse found unsent _
  · split
    · refine lined.moved found (b := { call with
        caller := .waiting
        ticket := .queued }) rfl (by simp) ?_ ?_ ?_ ?_ ?_ ?_
      · show system.sent ++ [i] = system.taken ++ (system.queue ++ [i])
        rw [lined.order, List.append_assoc]
      · refine List.nodup_append.mpr ⟨lined.once, List.nodup_singleton _, ?_⟩
        intro j inside k isNew same
        rw [same, List.mem_singleton.mp isNew] at inside
        exact new inside
      · intro j inside
        rcases List.mem_append.mp inside with old | isNew
        · exact .inr old
        · exact .inl (List.mem_singleton.mp isNew)
      · intro j
        show j ∈ system.queue ++ [i] ↔ _
        rw [List.mem_append, List.mem_singleton]
        split
        · rename_i same
          simp [same]
        · rename_i other
          simp [other]
      · intro j
        show system.thread.holding = some j ↔ _
        split
        · rename_i same
          simp [same, notHeld]
        · exact Iff.rfl
      · intro j
        show system.thread.returning = some j ↔ _
        split
        · rename_i same
          simp [same, notGiven]
        · exact Iff.rfl
    · exact lined.refuse found unsent _

/-- The thread, its hands free, takes the call at the head of the queue. -/
theorem Lined.takeCall {system after : WriterSystem S C A} (lined : system.Lined) {i : Nat} {queue : List Nat}
    {call : Call C A} (head : system.queue = i :: queue) (found : system.calls[i]? = some call)
    (free : system.thread.holding = none) (returned : system.thread.returning = none)
    (calls : after.calls = system.calls.set i { call with ticket := .held })
    (sent : after.sent = system.sent) (taken : after.taken = system.taken ++ [i])
    (rest : after.queue = queue) (holding : after.thread.holding = some i)
    (returning : after.thread.returning = none) : after.Lined := by
  have once := lined.once
  rw [lined.order, head] at once
  have fresh : i ∉ queue := (List.nodup_cons.mp (List.nodup_append.mp once).2.1).1
  refine lined.moved found calls (by simp) ?_ (sent ▸ lined.once) (fun j inside => .inr (sent ▸ inside)) ?_ ?_ ?_
  · rw [sent, taken, rest, lined.order, head, List.append_assoc]
    rfl
  · intro j
    rw [rest, head]
    split
    · rename_i same
      simp [same, fresh]
    · rename_i other
      simp [other]
  · intro j
    rw [holding, free]
    split
    · rename_i same
      simp [same]
    · rename_i other
      simp [Ne.symm other]
  · intro j
    rw [returning, returned]
    simp

/-- The thread passes the call in its hands on, or lets go of it. -/
theorem Lined.passes {system after : WriterSystem S C A} (lined : system.Lined) {i : Nat} {a b : Call C A}
    (found : system.calls[i]? = some a) (calls : after.calls = system.calls.set i b)
    (inHand : system.thread.holding = some i ∨ system.thread.returning = some i)
    (sent : after.sent = system.sent) (taken : after.taken = system.taken) (queue : after.queue = system.queue)
    (onward : b.ticket ≠ .unsent ∧ b.ticket ≠ .queued ∧ b.ticket ≠ .held)
    (holding : after.thread.holding = none)
    (returning : after.thread.returning = if b.ticket = .spent then none else some i) : after.Lined := by
  have unqueued : i ∉ system.queue := by
    rw [lined.mem_queue found]
    intro queued
    rcases inHand with held | given
    · rw [lined.is_held found, queued] at held
      cases held
    · rw [lined.is_given found, queued] at given
      obtain ⟨_, given⟩ := given
      cases given
  have only : ∀ j, j ≠ i → system.thread.holding ≠ some j ∧ system.thread.returning ≠ some j := by
    intro j other
    cases thread : system.thread with
    | took k | checked k | locked k | answering k result next | giving k next =>
        rw [thread] at inHand
        simp only [WriterThread.holding, WriterThread.returning, Option.some.injEq, reduceCtorEq, or_false,
          false_or] at inHand ⊢
        subst inHand
        simp [Ne.symm other]
    | _ => simp [WriterThread.holding, WriterThread.returning]
  refine lined.moved found calls onward.1 ?_ (sent ▸ lined.once) (fun j inside => .inr (sent ▸ inside)) ?_ ?_ ?_
  · rw [sent, taken, queue]
    exact lined.order
  · intro j
    rw [queue]
    split
    · rename_i same
      subst same
      simp [unqueued, onward.2.1]
    · exact Iff.rfl
  · intro j
    rw [holding]
    split
    · simp [onward.2.2]
    · rename_i other
      simp [(only j other).1]
  · intro j
    rw [returning]
    by_cases same : j = i
    · rw [if_pos same, same]
      cases ticket : b.ticket with
      | spent => simp
      | giving emptied => simp
      | unsent => exact absurd ticket onward.1
      | queued => exact absurd ticket onward.2.1
      | held => exact absurd ticket onward.2.2
    · rw [if_neg same]
      split
      · simp [(only j same).2]
      · simp [(only j same).2, Ne.symm same]

/-! ## The caller's other steps -/

theorem Lined.poll {system : WriterSystem S C A} (lined : system.Lined) {i : Nat} {call : Call C A}
    (found : system.calls[i]? = some call) (waker : Nat) : (system.poll i call waker).Lined := by
  unfold WriterSystem.poll
  dsimp only
  split
  · exact lined.caller found rfl rfl rfl rfl rfl rfl
  · exact lined.caller found rfl rfl rfl rfl rfl rfl

theorem Lined.dropReply {system : WriterSystem S C A} (lined : system.Lined) {i : Nat} {call : Call C A}
    (found : system.calls[i]? = some call) : (system.dropReply i call).Lined := by
  unfold WriterSystem.dropReply
  dsimp only
  split
  · exact lined.caller found rfl rfl rfl rfl rfl rfl
  · exact lined.caller found rfl rfl rfl rfl rfl rfl

/-- Putting a cell away changes the pool alone. -/
theorem keepCell_eq (cell : Nat) (system : WriterSystem S C A) :
    ∃ pool, system.keepCell cell = { system with pool } := by
  unfold keepCell
  split
  · exact ⟨_, rfl⟩
  · exact ⟨_, rfl⟩

theorem Lined.giveCell {system : WriterSystem S C A} (lined : system.Lined) {i : Nat} {call : Call C A}
    (found : system.calls[i]? = some call) (caller : CallerState A) :
    Lined ((system.keepCell call.cell).setCall i { call with caller }) := by
  obtain ⟨pool, same⟩ := keepCell_eq call.cell system
  rw [same]
  exact lined.caller found rfl rfl rfl rfl rfl rfl

end WriterSystem

end IronFix.Store
