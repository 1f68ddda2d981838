import IronFix.Store.CallOrder

/-!
# Every call has its own answer

The store is what the calls that ran left it, in the order they were queued; an
answer is what its own call returned when it ran; and a call whose future was
dropped while it was queued never runs.
-/

namespace IronFix.Store

open Lib.Positions Lib.Transitions

variable {S C A : Type}

/-- The store after all of this happened. -/
def Served.storeAfter (served : Served S C A) (history : List (StoreEvent S C)) : StoreState S :=
  history.foldl served.perform .starting

theorem Served.storeAfter_append (served : Served S C A) (history : List (StoreEvent S C))
    (event : StoreEvent S C) :
    served.storeAfter (history ++ [event]) = served.perform (served.storeAfter history) event := by
  unfold Served.storeAfter
  rw [List.foldl_append]
  rfl

def StoreEvent.call? : StoreEvent S C → Option Nat
  | .ran call _ => some call
  | .started _ | .worked | .shut => none

namespace WriterThread

/-- The call the thread took and may still run. -/
def pending : WriterThread A → Option Nat
  | .took call | .checked call | .locked call => some call
  | _ => none

/-- The call the thread is going to run. -/
def committed : WriterThread A → Option Nat
  | .checked call | .locked call => some call
  | _ => none

/-- The thread empties a queue that no sender is left to fill. -/
def drains : WriterThread A → Bool
  | .draining | .exited | .answering _ _ .drain | .giving _ .drain | .waking _ .drain => true
  | _ => false

theorem holding_of_committed {thread : WriterThread A} {i : Nat} (committed : thread.committed = some i) :
    thread.holding = some i := by
  cases thread <;> first | exact committed | cases committed

end WriterThread

@[simp] theorem Continuation.pending_thread (next : Continuation) :
    (next.thread : WriterThread A).pending = none := by
  cases next <;> rfl

@[simp] theorem Continuation.committed_thread (next : Continuation) :
    (next.thread : WriterThread A).committed = none := by
  cases next <;> rfl

/-- Going on to this drains the queue. -/
def Continuation.drains (next : Continuation) : Bool := next == .drain

@[simp] theorem Continuation.drains_thread (next : Continuation) :
    (next.thread : WriterThread A).drains = next.drains := by
  cases next <;> rfl

theorem WriterThread.drains_answering (i : Nat) (result : Except StoreError A) (next : Continuation) :
    (WriterThread.answering i result next).drains = next.drains := by
  cases next <;> rfl

theorem WriterThread.drains_giving (i : Nat) (next : Continuation) :
    (WriterThread.giving i next : WriterThread A).drains = next.drains := by
  cases next <;> rfl

theorem WriterThread.drains_waking (waker : Nat) (next : Continuation) :
    (WriterThread.waking waker next : WriterThread A).drains = next.drains := by
  cases next <;> rfl

theorem Continuation.thread_ne_answering {next after : Continuation} {i : Nat} {result : Except StoreError A} :
    (next.thread : WriterThread A) ≠ .answering i result after := by
  cases next <;> simp [Continuation.thread]

namespace WriterSystem

variable {served : Served S C A}

/-- The calls that ran, in order. -/
def ranCalls (system : WriterSystem S C A) : List Nat := system.history.filterMap StoreEvent.call?

/-- `result` is what the call's own run returned. -/
def Own (served : Served S C A) (i : Nat) (result : Except StoreError A) (system : WriterSystem S C A) :
    Prop :=
  ∃ command before after, system.commandOf i = some command ∧
    system.history = before ++ .ran i command :: after ∧
    (served.serve command (served.storeAfter before)).1 = result

theorem Own.mono {system after : WriterSystem S C A} {i : Nat} {result : Except StoreError A}
    (own : system.Own served i result) (commands : after.commandOf i = system.commandOf i)
    (more : List (StoreEvent S C)) (history : after.history = system.history ++ more) :
    after.Own served i result := by
  obtain ⟨command, before, rest, known, split, returned⟩ := own
  refine ⟨command, before, rest ++ more, commands.trans known, ?_, returned⟩
  rw [history, split, List.append_assoc, List.cons_append]

/-- What the parties have done so far. -/
structure Story (served : Served S C A) (system : WriterSystem S C A) : Prop where
  store : system.store = served.storeAfter system.history
  runs : ∃ earlier, system.taken = earlier ++ system.thread.pending.toList ∧
    system.ranCalls.Sublist earlier
  spared : ∀ i ∈ system.cancelled, i ∉ system.ranCalls ∧ system.thread.committed ≠ some i ∧
    system.callerOf i = some (.finished .dropped)
  own : ∀ i result, (i, result) ∈ system.answers → system.Own served i result
  answering : ∀ i result next, system.thread = .answering i result next →
    system.callerOf i = some (.finished .dropped) ∨ system.Own served i result
  single : (system.answers.map Prod.fst).Nodup
  spent : ∀ i result, (i, result) ∈ system.answers → system.ticketOf i = some .spent
  gone : system.handle ≠ .alive → ∀ call ∈ system.calls, call.caller.holds = false
  drains : system.thread.drains = true → system.handle = .gone
  wakes : ∀ call ∈ system.calls, call.caller = .waiting → call.ticket = .spent →
    ∀ waker, call.awaited = some waker →
      waker ∈ system.woken ∨ ∃ next, system.thread = .waking waker next

theorem spawn_story (capacity : Nat) : (spawn capacity : WriterSystem S C A).Story served where
  store := rfl
  runs := ⟨[], rfl, List.Sublist.refl _⟩
  spared := by simp [spawn]
  own := by simp [spawn]
  answering := by simp [spawn]
  single := List.nodup_nil
  spent := by simp [spawn]
  gone := by simp [spawn]
  drains := by simp [spawn, WriterThread.drains]
  wakes := by simp [spawn]

/-! ## The caller's steps -/

/-- A step of a caller: what the thread and the store did stays. -/
theorem Story.caller {system after : WriterSystem S C A} (story : system.Story served) (lined : system.Lined)
    (store : after.store = system.store) (history : after.history = system.history)
    (taken : after.taken = system.taken) (thread : after.thread = system.thread)
    (answers : after.answers = system.answers) (woken : after.woken = system.woken)
    (handle : after.handle = system.handle) (alive : system.handle = .alive)
    (commands : ∀ j c, system.commandOf j = some c → after.commandOf j = some c)
    (callers : ∀ j, system.callerOf j = some (.finished .dropped) → after.callerOf j = some (.finished .dropped))
    (tickets : ∀ j, system.ticketOf j = some .spent → after.ticketOf j = some .spent)
    (cancelled : ∀ j ∈ after.cancelled, j ∈ system.cancelled ∨
      (j ∈ system.queue ∧ after.callerOf j = some (.finished .dropped)))
    (waiting : ∀ call ∈ after.calls, call.caller = .waiting → call.ticket = .spent → call ∈ system.calls) :
    after.Story served := by
  have ran : after.ranCalls = system.ranCalls := by
    unfold ranCalls
    rw [history]
  have owns {j : Nat} {result : Except StoreError A} (own : system.Own served j result) :
      after.Own served j result := by
    have known := own
    obtain ⟨command, _, _, has, _⟩ := known
    exact own.mono ((commands j command has).trans has.symm) [] (by rw [history, List.append_nil])
  refine ⟨?_, ?_, ?_, ?_, ?_, ?_, ?_, ?_, ?_, ?_⟩
  · rw [store, history]
    exact story.store
  · rw [taken, thread, ran]
    exact story.runs
  · intro j inside
    rw [ran, thread]
    rcases cancelled j inside with old | ⟨queued, dropped⟩
    · obtain ⟨notRun, notCommitted, dropped⟩ := story.spared j old
      exact ⟨notRun, notCommitted, callers j dropped⟩
    · -- a call in the queue is not yet taken, so it has not run
      have once := lined.once
      rw [lined.order] at once
      have untaken : j ∉ system.taken := fun inside => (List.disjoint_of_nodup_append once) inside queued
      refine ⟨?_, ?_, dropped⟩
      · intro hasRun
        obtain ⟨earlier, split, sub⟩ := story.runs
        rw [split] at untaken
        exact untaken (List.mem_append_left _ (sub.subset hasRun))
      · intro committed
        have held := (lined.held j).mp (WriterThread.holding_of_committed committed)
        rw [(lined.queued j).mp queued] at held
        cases held
  · intro j result inside
    exact owns (story.own j result (answers ▸ inside))
  · intro j result next isAnswering
    rcases story.answering j result next (thread ▸ isAnswering) with dropped | own
    · exact .inl (callers j dropped)
    · exact .inr (owns own)
  · rw [answers]
    exact story.single
  · intro j result inside
    exact tickets j (story.spent j result (answers ▸ inside))
  · intro notAlive
    exact absurd (handle.trans alive) notAlive
  · rw [thread, handle]
    exact story.drains
  · intro call inside isWaiting spent waker awaited
    rw [woken, thread]
    exact story.wakes call (waiting call inside isWaiting spent) isWaiting spent waker awaited

theorem Story.alive {system : WriterSystem S C A} (story : system.Story served) {i : Nat} {call : Call C A}
    (found : system.calls[i]? = some call) (holds : call.caller.holds = true) : system.handle = .alive := by
  by_contra notAlive
  have released := story.gone notAlive call (List.mem_of_getElem? found)
  rw [holds] at released
  cases released

/-- A caller that has the cell changes its side of the call. -/
theorem Story.callerSet {system after : WriterSystem S C A} (story : system.Story served) (lined : system.Lined)
    {i : Nat} {a b : Call C A} (found : system.calls[i]? = some a) (holds : a.caller.holds = true)
    (calls : after.calls = system.calls.set i b) (command : b.command = a.command)
    (spent : a.ticket = .spent → b.ticket = .spent) (unspent : b.caller = .waiting → b.ticket ≠ .spent)
    (store : after.store = system.store) (history : after.history = system.history)
    (taken : after.taken = system.taken) (thread : after.thread = system.thread)
    (answers : after.answers = system.answers) (woken : after.woken = system.woken)
    (handle : after.handle = system.handle)
    (cancelled : ∀ j ∈ after.cancelled, j ∈ system.cancelled ∨
      (j ∈ system.queue ∧ after.callerOf j = some (.finished .dropped))) : after.Story served := by
  refine story.caller lined store history taken thread answers woken handle (story.alive found holds)
    ?_ ?_ ?_ cancelled ?_
  · intro j c known
    unfold commandOf at known ⊢
    rw [calls, getElem?_set_map Call.command found]
    split
    · rename_i same
      rw [same, found] at known
      rw [command]
      exact known
    · exact known
  · intro j dropped
    unfold callerOf at dropped ⊢
    rw [calls, getElem?_set_map Call.caller found, if_neg]
    · exact dropped
    · rintro rfl
      rw [found] at dropped
      obtain dropped : a.caller = .finished .dropped := Option.some.inj dropped
      rw [dropped] at holds
      cases holds
  · intro j isSpent
    rw [ticketOf_set found calls]
    split
    · rename_i same
      rw [same, ticketOf_found found] at isSpent
      rw [spent (Option.some.inj isSpent)]
    · exact isSpent
  · intro call inside isWaiting isSpent
    rw [calls] at inside
    rcases List.mem_or_eq_of_mem_set inside with old | rfl
    · exact old
    · exact absurd isSpent (unspent isWaiting)

theorem Story.begin {system : WriterSystem S C A} (story : system.Story served) (lined : system.Lined)
    (alive : system.handle = .alive) (command : C) : (system.begin command).Story served := by
  have general (cell allocated : Nat) (pool : List Nat) : Story served { system with
      pool
      allocated
      calls := system.calls ++ [⟨command, cell, .queueing, .unsent, none⟩] } := by
    have known {β : Type} (f : Call C A → β) (j : Nat) {x : β} (was : system.calls[j]?.map f = some x) :
        (system.calls ++ [⟨command, cell, .queueing, .unsent, none⟩])[j]?.map f = some x := by
      obtain ⟨call, found, rfl⟩ := Option.map_eq_some_iff.mp was
      rw [List.getElem?_append_left (List.getElem?_eq_some_iff.mp found).1, found]
      rfl
    refine story.caller lined rfl rfl rfl rfl rfl rfl rfl alive (fun j c => known Call.command j)
      (fun j => known Call.caller j) (fun j => known Call.ticket j) (fun j inside => .inl inside) ?_
    intro call inside isWaiting _
    rcases List.mem_append.mp inside with old | new
    · exact old
    · rw [List.mem_singleton.mp new] at isWaiting
      cases isWaiting
  unfold WriterSystem.begin
  split
  · exact general _ _ _
  · exact general _ _ _

theorem Story.trySend {system : WriterSystem S C A} (story : system.Story served) (lined : system.Lined)
    {i : Nat} {call : Call C A} (found : system.calls[i]? = some call) (queueing : call.caller = .queueing)
    (unsent : call.ticket = .unsent) : (system.trySend i call).Story served := by
  have holds : call.caller.holds = true := by
    rw [queueing]
    rfl
  have refused (error : StoreError) : (system.refuse i call error).Story served :=
    story.callerSet lined found holds rfl rfl (fun _ => rfl) (fun h => by cases h) rfl rfl rfl rfl rfl rfl rfl
      (fun j inside => .inl inside)
  unfold WriterSystem.trySend
  split
  · exact refused _
  · split
    · refine story.callerSet lined found holds rfl rfl ?_ ?_ rfl rfl rfl rfl rfl rfl rfl
        (fun j inside => .inl inside)
      · intro spent
        rw [unsent] at spent
        cases spent
      · intro _ spent
        cases spent
    · exact refused _

theorem Story.poll {system : WriterSystem S C A} (story : system.Story served) (owned : system.Owned)
    (lined : system.Lined) {i waker : Nat} {call : Call C A} (found : system.calls[i]? = some call)
    (waiting : call.caller = .waiting) : (system.poll i call waker).Story served := by
  have holds : call.caller.holds = true := by
    rw [waiting]
    rfl
  unfold WriterSystem.poll
  dsimp only
  split
  · exact story.callerSet lined found holds rfl rfl id (fun h => by cases h) rfl rfl rfl rfl rfl rfl rfl
      (fun j inside => .inl inside)
  · rename_i unanswered
    refine story.callerSet lined found holds rfl rfl id ?_ rfl rfl rfl rfl rfl rfl rfl
      (fun j inside => .inl inside)
    intro _ spent
    have fits := owned.fits i call found
    unfold Call.Fits at fits
    rw [waiting, show call.ticket = .spent from spent] at fits
    obtain ⟨result, answered, _⟩ := fits
    rw [unanswered] at answered
    cases answered

theorem callerOf_set {system after : WriterSystem S C A} {i : Nat} {a b : Call C A}
    (found : system.calls[i]? = some a) (calls : after.calls = system.calls.set i b) (j : Nat) :
    after.callerOf j = if j = i then some b.caller else system.callerOf j := by
  unfold callerOf
  rw [calls]
  exact getElem?_set_map Call.caller found b j

theorem Story.dropReply {system : WriterSystem S C A} (story : system.Story served) (lined : system.Lined)
    {i : Nat} {call : Call C A} (found : system.calls[i]? = some call) (waiting : call.caller = .waiting) :
    (system.dropReply i call).Story served := by
  have holds : call.caller.holds = true := by
    rw [waiting]
    rfl
  unfold WriterSystem.dropReply
  dsimp only
  split
  · exact story.callerSet lined found holds rfl rfl id (fun h => by cases h) rfl rfl rfl rfl rfl rfl rfl
      (fun j inside => .inl inside)
  · refine story.callerSet lined found holds rfl rfl id (fun h => by cases h) rfl rfl rfl rfl rfl rfl rfl ?_
    intro j inside
    dsimp only at inside
    split at inside
    · rename_i queued
      rcases List.mem_append.mp inside with old | new
      · exact .inl old
      · obtain rfl := List.mem_singleton.mp new
        refine .inr ⟨queued, ?_⟩
        rw [callerOf_set found rfl, if_pos rfl]
    · exact .inl inside

theorem Story.emptyCell {system : WriterSystem S C A} (story : system.Story served) (lined : system.Lined)
    {i : Nat} {call : Call C A} {outcome : CallOutcome A} (found : system.calls[i]? = some call)
    (giving : call.caller = .giving false outcome) :
    Story served ((system.setCell call.cell .new).setCall i { call with caller := .giving true outcome }) :=
  story.callerSet lined found (by rw [giving]; rfl) rfl rfl id (fun h => by cases h) rfl rfl rfl rfl rfl rfl rfl
    (fun j inside => .inl inside)

theorem Story.giveCell {system : WriterSystem S C A} (story : system.Story served) (lined : system.Lined)
    {i : Nat} {call : Call C A} {outcome : CallOutcome A} (found : system.calls[i]? = some call)
    (giving : call.caller = .giving true outcome) :
    Story served ((system.keepCell call.cell).setCall i { call with caller := .finished outcome }) := by
  obtain ⟨pool, same⟩ := keepCell_eq call.cell system
  rw [same]
  exact story.callerSet lined found (by rw [giving]; rfl) rfl rfl id (fun h => by cases h) rfl rfl rfl rfl rfl
    rfl rfl (fun j inside => .inl inside)

/-! ## The thread's steps -/

/-- The thread, or the writer's drop, does something to the store that runs no call. -/
theorem Story.happens {system : WriterSystem S C A} (story : system.Story served) {event : StoreEvent S C}
    (noCall : event.call? = none) {thread : WriterThread A} {handle : WriterHandle}
    (pending : thread.pending = system.thread.pending) (committed : thread.committed = system.thread.committed)
    (answering : ∀ i result next, thread = .answering i result next → system.thread = .answering i result next)
    (waking : ∀ waker next, system.thread = .waking waker next → thread = .waking waker next)
    (gone : handle ≠ .alive → ∀ call ∈ system.calls, call.caller.holds = false)
    (drains : thread.drains = true → handle = .gone) : Story served { system.happens served event with thread, handle } := by
  have ran : ranCalls { system.happens served event with thread, handle } = system.ranCalls := by
    show (system.history ++ [event]).filterMap StoreEvent.call? = _
    rw [List.filterMap_append, List.filterMap_cons_none noCall, List.filterMap_nil, List.append_nil]
    rfl
  have owns {i : Nat} {result : Except StoreError A} (own : system.Own served i result) :
      Own served i result { system.happens served event with thread, handle } := own.mono rfl [event] rfl
  refine ⟨?_, ?_, ?_, ?_, ?_, story.single, story.spent, gone, drains, ?_⟩
  · show served.perform system.store event = served.storeAfter (system.history ++ [event])
    rw [served.storeAfter_append, story.store]
  · rw [ran]
    show ∃ earlier, system.taken = earlier ++ thread.pending.toList ∧ _
    rw [pending]
    exact story.runs
  · intro i inside
    rw [ran]
    show _ ∧ thread.committed ≠ some i ∧ _
    rw [committed]
    exact story.spared i inside
  · intro i result inside
    exact owns (story.own i result inside)
  · intro i result next isAnswering
    exact (story.answering i result next (answering i result next isAnswering)).imp id owns
  · intro call inside isWaiting spent waker awaited
    exact (story.wakes call inside isWaiting spent waker awaited).imp id fun ⟨next, was⟩ =>
      ⟨next, waking waker next was⟩

/-- The thread goes on without touching a call or the store. -/
theorem Story.pause {system : WriterSystem S C A} (story : system.Story served) {thread : WriterThread A}
    {woken discarded : List Nat} (runs : system.thread.pending = thread.pending ∨ thread.pending = none)
    (committed : ∀ i, thread.committed = some i → i ∉ system.cancelled)
    (answering : ∀ i result next, thread = .answering i result next →
      system.callerOf i = some (.finished .dropped))
    (drains : thread.drains = true → system.handle = .gone) (keeps : ∀ waker ∈ system.woken, waker ∈ woken)
    (wakes : ∀ waker next, system.thread = .waking waker next → waker ∈ woken) :
    Story served { system with thread, woken, discarded } := by
  refine ⟨story.store, ?_, ?_, story.own, ?_, story.single, story.spent, story.gone, drains, ?_⟩
  · show ∃ earlier, system.taken = earlier ++ thread.pending.toList ∧ system.ranCalls.Sublist earlier
    rcases runs with same | none
    · rw [← same]
      exact story.runs
    · obtain ⟨earlier, split, sub⟩ := story.runs
      refine ⟨system.taken, ?_, ?_⟩
      · rw [none]
        exact (List.append_nil _).symm
      · rw [split]
        exact sub.trans (List.sublist_append_left _ _)
  · intro i inside
    obtain ⟨notRun, _, dropped⟩ := story.spared i inside
    exact ⟨notRun, (fun isCommitted => committed i isCommitted inside), dropped⟩
  · intro i result next isAnswering
    exact .inl (answering i result next isAnswering)
  · intro call inside isWaiting spent waker awaited
    rcases story.wakes call inside isWaiting spent waker awaited with already | ⟨next, waking⟩
    · exact .inl (keeps waker already)
    · exact .inl (wakes waker next waking)

/-- The thread moves the ticket of `i`, and may answer it. -/
theorem Story.ticketSet {system after : WriterSystem S C A} (story : system.Story served) {i : Nat}
    {a b : Call C A} (found : system.calls[i]? = some a) (calls : after.calls = system.calls.set i b)
    (command : b.command = a.command) (caller : b.caller = a.caller) (unspent : a.ticket ≠ .spent)
    (store : after.store = system.store) (history : after.history = system.history)
    (handle : after.handle = system.handle) (woken : after.woken = system.woken)
    (cancelled : after.cancelled = system.cancelled)
    (runs : ∃ earlier, after.taken = earlier ++ after.thread.pending.toList ∧ system.ranCalls.Sublist earlier)
    (committed : after.thread.committed = none)
    (answering : ∀ j result next, after.thread = .answering j result next →
      system.callerOf j = some (.finished .dropped))
    (answers : after.answers = system.answers ∨ ∃ result, after.answers = system.answers ++ [(i, result)] ∧
      system.Own served i result ∧ b.ticket = .spent)
    (drains : after.thread.drains = true → system.handle = .gone)
    (calm : ∀ waker next, system.thread ≠ .waking waker next)
    (wakes : b.caller = .waiting → b.ticket = .spent → ∀ waker, b.awaited = some waker →
      ∃ next, after.thread = .waking waker next) : after.Story served := by
  have callers (j : Nat) : after.callerOf j = system.callerOf j := by
    rw [callerOf_set found calls]
    split
    · rename_i same
      unfold callerOf
      rw [same, found, caller]
      rfl
    · rfl
  have commands (j : Nat) : after.commandOf j = system.commandOf j := by
    unfold commandOf
    rw [calls, getElem?_set_map Call.command found]
    split
    · rename_i same
      rw [same, found, command]
      rfl
    · rfl
  have owns {j : Nat} {result : Except StoreError A} (own : system.Own served j result) :
      after.Own served j result := own.mono (commands j) [] (by rw [history, List.append_nil])
  have ran : after.ranCalls = system.ranCalls := by
    unfold ranCalls
    rw [history]
  have unanswered : i ∉ system.answers.map Prod.fst := by
    intro inside
    obtain ⟨⟨j, result⟩, entry, rfl⟩ := List.mem_map.mp inside
    have isSpent := story.spent j result entry
    rw [ticketOf_found found] at isSpent
    exact unspent (Option.some.inj isSpent)
  have isAnswer {j : Nat} {result : Except StoreError A} (inside : (j, result) ∈ after.answers) :
      (j, result) ∈ system.answers ∨ (j = i ∧ system.Own served i result ∧ b.ticket = .spent) := by
    rcases answers with same | ⟨answer, more, own, spent⟩
    · exact .inl (same ▸ inside)
    · rw [more] at inside
      rcases List.mem_append.mp inside with old | new
      · exact .inl old
      · obtain ⟨rfl, rfl⟩ := Prod.mk.inj (List.mem_singleton.mp new)
        exact .inr ⟨rfl, own, spent⟩
  refine ⟨?_, ?_, ?_, ?_, ?_, ?_, ?_, ?_, ?_, ?_⟩
  · rw [store, history]
    exact story.store
  · rw [ran]
    exact runs
  · intro j inside
    rw [cancelled] at inside
    obtain ⟨notRun, _, dropped⟩ := story.spared j inside
    rw [ran, committed, callers]
    exact ⟨notRun, by simp, dropped⟩
  · intro j result inside
    rcases isAnswer inside with old | ⟨rfl, own, _⟩
    · exact owns (story.own j result old)
    · exact owns own
  · intro j result next isAnswering
    rw [callers]
    exact .inl (answering j result next isAnswering)
  · rcases answers with same | ⟨answer, more, _, _⟩
    · rw [same]
      exact story.single
    · rw [more, List.map_append]
      refine List.nodup_append.mpr ⟨story.single, List.nodup_singleton _, ?_⟩
      intro j inside k new same
      rw [same, List.mem_singleton.mp new] at inside
      exact unanswered inside
  · intro j result inside
    rw [ticketOf_set found calls]
    rcases isAnswer inside with old | ⟨rfl, _, spent⟩
    · rw [if_neg]
      · exact story.spent j result old
      · rintro rfl
        exact unanswered (List.mem_map.mpr ⟨_, old, rfl⟩)
    · rw [if_pos rfl, spent]
  · intro notAlive call inside
    rw [handle] at notAlive
    rw [calls] at inside
    rcases List.mem_or_eq_of_mem_set inside with old | rfl
    · exact story.gone notAlive call old
    · rw [caller]
      exact story.gone notAlive a (List.mem_of_getElem? found)
  · rw [handle]
    exact drains
  · intro call inside isWaiting spent waker awaited
    rw [calls] at inside
    rcases List.mem_or_eq_of_mem_set inside with old | rfl
    · rcases story.wakes call old isWaiting spent waker awaited with already | ⟨next, waking⟩
      · exact .inl (woken ▸ already)
      · exact absurd waking (calm waker next)
    · exact .inr (wakes isWaiting spent waker awaited)

/-- A run answers with what the call returns, and goes on to the work that is due. -/
theorem execute_eq (served : Served S C A) (i : Nat) (command : C) (system : WriterSystem S C A) :
    ∃ discarded next, next ≠ .drain ∧ system.execute served i command =
      { system.happens served (.ran i command) with
        thread := .answering i (served.serve command system.store).1 next
        discarded } := by
  have loops (due : Bool) : (if due then Continuation.work else .loop) ≠ .drain := by
    cases due <;> simp
  unfold WriterSystem.execute
  cases store : system.store with
  | opened state => exact ⟨system.discarded, _, loops _, rfl⟩
  | starting => exact ⟨system.discarded ++ [i], _, loops _, rfl⟩
  | closed => exact ⟨system.discarded ++ [i], _, loops _, rfl⟩

theorem Story.execute {system : WriterSystem S C A} (story : system.Story served)
    {i : Nat} {call : Call C A} (found : system.calls[i]? = some call) (locked : system.thread = .locked i) :
    (system.execute served i call.command).Story served := by
  obtain ⟨discarded, next, loops, same⟩ := execute_eq served i call.command system
  rw [same]
  have ran : (system.history ++ [StoreEvent.ran i call.command]).filterMap StoreEvent.call? = system.ranCalls ++ [i] := by
    rw [List.filterMap_append]
    rfl
  have owns {j : Nat} {result : Except StoreError A} (own : system.Own served j result) :
      Own served j result { system.happens served (.ran i call.command) with
        thread := .answering i (served.serve call.command system.store).1 next
        discarded } := own.mono rfl [.ran i call.command] rfl
  refine ⟨?_, ?_, ?_, ?_, ?_, story.single, story.spent, story.gone, ?_, ?_⟩
  · show served.perform system.store (.ran i call.command) = served.storeAfter (system.history ++ [_])
    rw [served.storeAfter_append, story.store]
  · obtain ⟨earlier, split, sub⟩ := story.runs
    refine ⟨system.taken, (List.append_nil _).symm, ?_⟩
    show ((system.history ++ [StoreEvent.ran i call.command]).filterMap StoreEvent.call?).Sublist system.taken
    rw [ran, split, locked]
    exact sub.append (List.Sublist.refl _)
  · intro j inside
    obtain ⟨notRun, notCommitted, dropped⟩ := story.spared j inside
    refine ⟨?_, by simp [WriterThread.committed], dropped⟩
    show j ∉ (system.history ++ [StoreEvent.ran i call.command]).filterMap StoreEvent.call?
    rw [ran]
    intro hasRun
    rcases List.mem_append.mp hasRun with old | new
    · exact notRun old
    · rw [List.mem_singleton.mp new, locked] at notCommitted
      exact notCommitted rfl
  · intro j result inside
    exact owns (story.own j result inside)
  · intro j result after isAnswering
    cases isAnswering
    refine .inr ⟨call.command, system.history, [], ?_, rfl, ?_⟩
    · show system.calls[i]?.map Call.command = _
      rw [found]
      rfl
    · rw [← story.store]
  · rw [WriterThread.drains_answering]
    intro draining
    exact absurd (eq_of_beq draining) loops
  · intro waiting inside isWaiting spent waker awaited
    rcases story.wakes waiting inside isWaiting spent waker awaited with already | ⟨_, waking⟩
    · exact .inl already
    · rw [locked] at waking
      cases waking

theorem Story.deliver {system : WriterSystem S C A} (story : system.Story served) (owned : system.Owned)
    {i : Nat} {call : Call C A} (found : system.calls[i]? = some call) (held : call.ticket = .held)
    {result : Except StoreError A} {next : Continuation} (isAnswering : system.thread = .answering i result next) :
    (system.deliver i call result next).Story served := by
  have unspent : call.ticket ≠ .spent := by
    rw [held]
    simp
  have calm (waker : Nat) (onward : Continuation) : system.thread ≠ .waking waker onward := by
    rw [isAnswering]
    simp
  obtain ⟨earlier, split, sub⟩ := story.runs
  rw [isAnswering, show (WriterThread.answering i result next).pending = none from rfl, Option.toList_none,
    List.append_nil] at split
  have draining : next.drains = true → system.handle = .gone := by
    have := story.drains
    rw [isAnswering, WriterThread.drains_answering] at this
    exact this
  unfold WriterSystem.deliver
  rcases owned.inHand found held with ⟨waiting, kept, waker⟩ | ⟨dropped, abandoned⟩
  · dsimp only
    rw [if_neg (by simp [kept])]
    have own : system.Own served i result := by
      refine (story.answering i result next isAnswering).resolve_left ?_
      unfold callerOf
      rw [found, Option.map_some, waiting]
      simp
    cases polled : (system.cells call.cell).waker with
    | none =>
        refine story.ticketSet found rfl rfl rfl unspent rfl rfl rfl rfl rfl ?_ (by simp) ?_
          (.inr ⟨result, rfl, own, rfl⟩) ?_ calm ?_
        · exact ⟨earlier, by simp [setCall, setCell, split], sub⟩
        · intro j answer after isNow
          exact absurd isNow Continuation.thread_ne_answering
        · intro drains
          exact draining (by simpa using drains)
        · intro _ _ w awaited
          rw [waker] at polled
          rw [show call.awaited = some w from awaited] at polled
          cases polled
    | some w =>
        refine story.ticketSet found rfl rfl rfl unspent rfl rfl rfl rfl rfl ?_ rfl ?_
          (.inr ⟨result, rfl, own, rfl⟩) ?_ calm ?_
        · exact ⟨earlier, by simp [setCall, setCell, split, WriterThread.pending], sub⟩
        · intro j answer after isNow
          cases isNow
        · intro drains
          rw [WriterThread.drains_waking] at drains
          exact draining drains
        · intro _ _ other awaited
          rw [waker, show call.awaited = some other from awaited] at polled
          obtain rfl := Option.some.inj polled
          exact ⟨next, rfl⟩
  · dsimp only
    rw [if_pos abandoned]
    refine story.ticketSet found rfl rfl rfl unspent rfl rfl rfl rfl rfl ?_ rfl ?_ (.inl rfl) ?_ calm ?_
    · exact ⟨earlier, by simp [setCall, split, WriterThread.pending], sub⟩
    · intro j answer after isNow
      cases isNow
    · intro drains
      rw [WriterThread.drains_giving] at drains
      exact draining drains
    · intro isWaiting
      rw [show call.caller = .waiting from isWaiting] at dropped
      cases dropped

theorem Story.takeCall {system : WriterSystem S C A} (story : system.Story served) {i : Nat} {queue : List Nat}
    {call : Call C A} (found : system.calls[i]? = some call) (queued : call.ticket = .queued)
    (free : system.thread.pending = none) (calm : ∀ waker next, system.thread ≠ .waking waker next)
    {thread : WriterThread A} {discarded : List Nat}
    (pending : thread.pending = some i ∨ thread.pending = none) (committed : thread.committed = none)
    (answering : ∀ j result next, thread = .answering j result next →
      system.callerOf j = some (.finished .dropped))
    (drains : thread.drains = true → system.handle = .gone) :
    Story served { system.takeCall i queue call with thread, discarded } := by
  refine story.ticketSet found rfl rfl rfl (by rw [queued]; simp) rfl rfl rfl rfl rfl ?_ committed answering
    (.inl rfl) drains calm (fun _ spent => by cases spent)
  obtain ⟨earlier, split, sub⟩ := story.runs
  rw [free, Option.toList_none, List.append_nil] at split
  rcases pending with same | none
  · refine ⟨system.taken, ?_, split ▸ sub⟩
    show system.taken ++ [i] = system.taken ++ thread.pending.toList
    rw [same]
    rfl
  · refine ⟨system.taken ++ [i], ?_, (split ▸ sub).trans (List.sublist_append_left _ _)⟩
    show system.taken ++ [i] = system.taken ++ [i] ++ thread.pending.toList
    rw [none]
    exact (List.append_nil _).symm

/-- The thread gives an abandoned cell back. -/
theorem Story.giveTicket {system after : WriterSystem S C A} (story : system.Story served) (owned : system.Owned)
    {i : Nat} {call : Call C A} {emptied : Bool} {ticket : TicketState} {next : Continuation}
    (found : system.calls[i]? = some call) (giving : call.ticket = .giving emptied)
    (isGiving : system.thread = .giving i next)
    (calls : after.calls = system.calls.set i { call with ticket })
    (store : after.store = system.store) (history : after.history = system.history)
    (handle : after.handle = system.handle) (woken : after.woken = system.woken)
    (cancelled : after.cancelled = system.cancelled) (taken : after.taken = system.taken)
    (answers : after.answers = system.answers)
    (thread : after.thread = system.thread ∨ after.thread = next.thread) : after.Story served := by
  have dropped := (owned.givingBack found giving).1
  refine story.ticketSet found calls rfl rfl (by rw [giving]; simp) store history handle woken cancelled ?_ ?_ ?_
    (.inl answers) ?_ (by simp [isGiving]) ?_
  · obtain ⟨earlier, split, sub⟩ := story.runs
    refine ⟨earlier, ?_, sub⟩
    rw [taken, split, isGiving]
    rcases thread with same | onward
    · rw [same, isGiving]
    · rw [onward, next.pending_thread]
      rfl
  · rcases thread with same | onward
    · rw [same, isGiving]
      rfl
    · rw [onward, next.committed_thread]
  · intro j result after isAnswering
    rcases thread with same | onward
    · rw [same, isGiving] at isAnswering
      cases isAnswering
    · exact absurd (onward.symm.trans isAnswering) Continuation.thread_ne_answering
  · have := story.drains
    rw [isGiving, WriterThread.drains_giving] at this
    intro drains
    refine this ?_
    rcases thread with same | onward
    · rw [same, isGiving, WriterThread.drains_giving] at drains
      exact drains
    · rw [onward, next.drains_thread] at drains
      exact drains
  · intro isWaiting
    rw [show call.caller = .waiting from isWaiting] at dropped
    cases dropped

/-! ## Every step -/

structure Sound (served : Served S C A) (system : WriterSystem S C A) : Prop where
  owned : system.Owned
  lined : system.Lined
  story : system.Story served

theorem spawn_sound (capacity : Nat) : (spawn capacity : WriterSystem S C A).Sound served :=
  ⟨spawn_owned capacity, spawn_lined capacity, spawn_story capacity⟩

/-- A queued call whose caller is done with it was dropped. -/
theorem Owned.queuedOver {system : WriterSystem S C A} (owned : system.Owned) {i : Nat} {call : Call C A}
    (found : system.calls[i]? = some call) (queued : call.ticket = .queued)
    (released : call.caller.holds = false) : call.caller = .finished .dropped := by
  have fits := owned.fits i call found
  obtain ⟨command, cell, caller, ticket, awaited⟩ := call
  dsimp only at queued
  subst queued
  cases caller with
  | finished outcome =>
      cases outcome with
      | dropped => rfl
      | answered result => cases fits
      | refused error => cases fits
  | queueing | waiting | giving emptied outcome => cases released

/-- A step that touches no call, cell or ticket. -/
theorem Owned.thread {system after : WriterSystem S C A} (owned : system.Owned) (calls : after.calls = system.calls)
    (cells : after.cells = system.cells) (pool : after.pool = system.pool)
    (allocated : after.allocated = system.allocated) (answers : after.answers = system.answers) :
    after.Owned := by
  obtain ⟨apart, pooled, distinct, made, fresh, fits⟩ := owned
  refine ⟨?_, ?_, ?_, ?_, ?_, ?_⟩
  · rwa [calls]
  · rwa [calls, pool, allocated]
  · rwa [pool]
  · rwa [pool, allocated]
  · rwa [pool, allocated, cells]
  · rwa [calls, answers, cells]

theorem Lined.thread {system after : WriterSystem S C A} (lined : system.Lined) (calls : after.calls = system.calls)
    (sent : after.sent = system.sent) (taken : after.taken = system.taken) (queue : after.queue = system.queue)
    (holding : after.thread.holding = system.thread.holding)
    (returning : after.thread.returning = system.thread.returning) : after.Lined := by
  refine lined.still ?_ sent taken queue holding returning
  intro i
  unfold ticketOf
  rw [calls]

/-- The call the thread has in hand. -/
theorem Sound.inHand {system : WriterSystem S C A} (sound : system.Sound served) {i : Nat}
    (holding : system.thread.holding = some i) :
    ∃ call, system.calls[i]? = some call ∧ call.ticket = .held :=
  found_of_ticketOf ((sound.lined.held i).mp holding)

theorem Sound.pause {system : WriterSystem S C A} (sound : system.Sound served) {thread : WriterThread A}
    {woken discarded : List Nat} (holding : thread.holding = system.thread.holding)
    (returning : thread.returning = system.thread.returning)
    (runs : system.thread.pending = thread.pending ∨ thread.pending = none)
    (committed : ∀ i, thread.committed = some i → i ∉ system.cancelled)
    (answering : ∀ i result next, thread = .answering i result next →
      system.callerOf i = some (.finished .dropped))
    (drains : thread.drains = true → system.handle = .gone) (keeps : ∀ waker ∈ system.woken, waker ∈ woken)
    (wakes : ∀ waker next, system.thread = .waking waker next → waker ∈ woken) :
    Sound served { system with thread, woken, discarded } where
  owned := sound.owned.thread rfl rfl rfl rfl rfl
  lined := sound.lined.thread rfl rfl rfl rfl holding returning
  story := sound.story.pause runs committed answering drains keeps wakes

/-- A step of a thread that has no call in hand. -/
theorem Sound.rest {system : WriterSystem S C A} (sound : system.Sound served) {thread : WriterThread A}
    (holding : system.thread.holding = none) (returning : system.thread.returning = none)
    (calm : ∀ waker next, system.thread ≠ .waking waker next)
    (free : thread.holding = none) (returned : thread.returning = none)
    (drains : thread.drains = true → system.handle = .gone) : Sound served { system with thread } := by
  have hands (i : Nat) : thread.holding ≠ some i := by
    rw [free]
    simp
  refine sound.pause (free.trans holding.symm) (returned.trans returning.symm) (.inr ?_) ?_ ?_ drains
    (fun _ inside => inside) ?_
  · cases thread <;> first | rfl | cases free
  · intro i committed
    exact absurd (WriterThread.holding_of_committed committed) (hands i)
  · rintro i result next rfl
    exact absurd rfl (hands i)
  · intro waker next waking
    exact absurd waking (calm waker next)

theorem Sound.happens {system : WriterSystem S C A} (sound : system.Sound served) {event : StoreEvent S C}
    (noCall : event.call? = none) {thread : WriterThread A} {handle : WriterHandle}
    (holding : thread.holding = system.thread.holding) (returning : thread.returning = system.thread.returning)
    (pending : thread.pending = system.thread.pending) (committed : thread.committed = system.thread.committed)
    (answering : ∀ i result next, thread = .answering i result next → system.thread = .answering i result next)
    (waking : ∀ waker next, system.thread = .waking waker next → thread = .waking waker next)
    (gone : handle ≠ .alive → ∀ call ∈ system.calls, call.caller.holds = false)
    (drains : thread.drains = true → handle = .gone) :
    Sound served { system.happens served event with thread, handle } where
  owned := sound.owned.thread rfl rfl rfl rfl rfl
  lined := sound.lined.thread rfl rfl rfl rfl holding returning
  story := sound.story.happens noCall pending committed answering waking gone drains

theorem Sound.threadStep {system after : WriterSystem S C A} (sound : system.Sound served) {built : Option S}
    (taken : system.threadStep served built = some after) : after.Sound served := by
  obtain ⟨owned, lined, story⟩ := sound
  have sound : system.Sound served := ⟨owned, lined, story⟩
  unfold WriterSystem.threadStep at taken
  cases isThread : system.thread with
  | starting =>
      rw [isThread] at taken
      obtain rfl := Option.some.inj taken
      exact sound.rest (by rw [isThread]; rfl) (by rw [isThread]; rfl) (by simp [isThread]) rfl rfl
        (fun h => by cases h)
  | building =>
      rw [isThread] at taken
      obtain rfl := Option.some.inj taken
      exact sound.happens rfl (by rw [isThread]; rfl) (by rw [isThread]; rfl) (by rw [isThread]; rfl)
        (by rw [isThread]; rfl) (fun i r n h => by cases h) (fun w n h => by rw [isThread] at h; cases h)
        story.gone (fun h => by cases h)
  | idle =>
      rw [isThread] at taken
      dsimp only at taken
      cases line : system.queue with
      | nil =>
          rw [line] at taken
          obtain ⟨gone, ran⟩ := Option.ite_none_right_eq_some.mp taken
          obtain rfl := Option.some.inj ran
          exact sound.happens rfl (by rw [isThread]; rfl) (by rw [isThread]; rfl) (by rw [isThread]; rfl)
            (by rw [isThread]; rfl) (fun i r n h => by cases h) (fun w n h => by rw [isThread] at h; cases h)
            story.gone (fun _ => gone)
      | cons i queue =>
          rw [line] at taken
          obtain ⟨call, found, rfl⟩ := Option.map_eq_some_iff.mp taken
          have queued : call.ticket = .queued := (lined.mem_queue found).mp (line ▸ List.mem_cons_self)
          have ownedStill : (system.takeCall i queue call).Owned := owned.takeCall found queued
          refine ⟨ownedStill.thread rfl rfl rfl rfl rfl, ?_, ?_⟩
          · exact lined.takeCall line found (by rw [isThread]; rfl) (by rw [isThread]; rfl) rfl rfl rfl rfl rfl rfl
          · exact story.takeCall found queued (by rw [isThread]; rfl) (by simp [isThread]) (.inl rfl) rfl
              (fun j r n h => by cases h) (fun h => by cases h)
  | took i =>
      rw [isThread] at taken
      obtain ⟨call, found, ran⟩ := Option.map_eq_some_iff.mp taken
      have held : call.ticket = .held := (lined.is_held found).mp (by rw [isThread]; rfl)
      rcases owned.inHand found held with ⟨waiting, kept, _⟩ | ⟨dropped, abandoned⟩
      · rw [if_neg (by simp [kept])] at ran
        subst ran
        refine sound.pause (by rw [isThread]; rfl) (by rw [isThread]; rfl) (.inl (by rw [isThread]; rfl)) ?_
          (fun j r n h => by cases h) (fun h => by cases h) (fun _ inside => inside)
          (fun w n h => by rw [isThread] at h; cases h)
        rintro j same inside
        obtain rfl : i = j := Option.some.inj same
        have dropped := (story.spared i inside).2.2
        unfold callerOf at dropped
        rw [found, Option.map_some, waiting] at dropped
        cases dropped
      · rw [if_pos abandoned] at ran
        subst ran
        refine sound.pause (by rw [isThread]; rfl) (by rw [isThread]; rfl) (.inr rfl) (fun j h => by cases h) ?_
          (fun h => by cases h) (fun _ inside => inside) (fun w n h => by rw [isThread] at h; cases h)
        intro j result next isAnswering
        cases isAnswering
        unfold callerOf
        rw [found, Option.map_some, dropped]
  | checked i =>
      rw [isThread] at taken
      obtain rfl := Option.some.inj taken
      refine sound.pause (by rw [isThread]; rfl) (by rw [isThread]; rfl) (.inl (by rw [isThread]; rfl)) ?_
        (fun j r n h => by cases h) (fun h => by cases h) (fun _ inside => inside)
        (fun w n h => by rw [isThread] at h; cases h)
      intro j same inside
      refine (story.spared j inside).2.1 ?_
      rw [isThread]
      exact same
  | locked i =>
      rw [isThread] at taken
      obtain ⟨call, found, rfl⟩ := Option.map_eq_some_iff.mp taken
      refine ⟨?_, ?_, story.execute found isThread⟩
      · obtain ⟨discarded, next, _, same⟩ := execute_eq served i call.command system
        rw [same]
        exact owned.thread rfl rfl rfl rfl rfl
      · obtain ⟨discarded, next, _, same⟩ := execute_eq served i call.command system
        rw [same]
        exact lined.thread rfl rfl rfl rfl (by rw [isThread]; rfl) (by rw [isThread]; rfl)
  | answering i result next =>
      rw [isThread] at taken
      obtain ⟨call, found, rfl⟩ := Option.map_eq_some_iff.mp taken
      have held : call.ticket = .held := (lined.is_held found).mp (by rw [isThread]; rfl)
      refine ⟨owned.deliver found held result next, ?_, story.deliver owned found held isThread⟩
      have inHand : system.thread.holding = some i := by
        rw [isThread]
        rfl
      unfold WriterSystem.deliver
      dsimp only
      split
      · exact lined.passes found rfl (.inl inHand) rfl rfl rfl (by simp) rfl rfl
      · refine lined.passes found rfl (.inl inHand) rfl rfl rfl (by simp) ?_ ?_
        · dsimp only
          split
          · rfl
          · exact next.holding_thread
        · dsimp only
          split
          · rfl
          · exact next.returning_thread
  | giving i next =>
      rw [isThread] at taken
      obtain ⟨call, found, ran⟩ := Option.bind_eq_some_iff.mp taken
      have inHand : system.thread.returning = some i := by
        rw [isThread]
        rfl
      cases giving : call.ticket with
      | giving emptied =>
          rw [giving] at ran
          cases emptied with
          | false =>
              obtain rfl := Option.some.inj ran
              refine ⟨owned.emptyTicket found giving, ?_, ?_⟩
              · refine lined.passes found rfl (.inr inHand) rfl rfl rfl (by simp) ?_ inHand
                show system.thread.holding = none
                rw [isThread]
                rfl
              · exact story.giveTicket owned found giving isThread rfl rfl rfl rfl rfl rfl rfl rfl (.inl rfl)
          | true =>
              obtain rfl := Option.some.inj ran
              refine ⟨owned.giveTicket found giving _, ?_, ?_⟩
              · obtain ⟨pool, same⟩ := keepCell_eq call.cell system
                rw [same]
                exact lined.passes found rfl (.inr inHand) rfl rfl rfl (by simp) next.holding_thread
                  next.returning_thread
              · obtain ⟨pool, same⟩ := keepCell_eq call.cell system
                rw [same]
                exact story.giveTicket owned found giving isThread rfl rfl rfl rfl rfl rfl rfl rfl (.inr rfl)
      | unsent | queued | held | spent =>
          rw [giving] at ran
          cases ran
  | waking waker next =>
      rw [isThread] at taken
      obtain rfl := Option.some.inj taken
      have drains := story.drains
      rw [isThread, WriterThread.drains_waking] at drains
      refine sound.pause ?_ ?_ (.inr next.pending_thread) ?_ ?_ ?_ ?_ ?_
      · rw [isThread]
        exact next.holding_thread
      · rw [isThread]
        exact next.returning_thread
      · intro i committed
        rw [next.committed_thread] at committed
        cases committed
      · intro i result after isAnswering
        exact absurd isAnswering Continuation.thread_ne_answering
      · rw [next.drains_thread]
        exact drains
      · intro w inside
        exact List.mem_append_left _ inside
      · intro w after same
        rw [isThread] at same
        obtain ⟨rfl, _⟩ := WriterThread.waking.inj same
        exact List.mem_append_right _ (List.mem_singleton_self _)
  | following =>
      rw [isThread] at taken
      obtain rfl := Option.some.inj taken
      exact sound.rest (by rw [isThread]; rfl) (by rw [isThread]; rfl) (by simp [isThread]) rfl rfl
        (fun h => by cases h)
  | working =>
      rw [isThread] at taken
      obtain rfl := Option.some.inj taken
      exact sound.happens rfl (by rw [isThread]; rfl) (by rw [isThread]; rfl) (by rw [isThread]; rfl)
        (by rw [isThread]; rfl) (fun i r n h => by cases h) (fun w n h => by rw [isThread] at h; cases h)
        story.gone (fun h => by cases h)
  | draining =>
      rw [isThread] at taken
      dsimp only at taken
      have gone : system.handle = .gone := story.drains (by rw [isThread]; rfl)
      cases line : system.queue with
      | nil =>
          rw [line] at taken
          obtain rfl := Option.some.inj taken
          rw [← line]
          exact sound.rest (by rw [isThread]; rfl) (by rw [isThread]; rfl) (by simp [isThread]) rfl rfl
            (fun _ => gone)
      | cons i queue =>
          rw [line] at taken
          obtain ⟨call, found, rfl⟩ := Option.map_eq_some_iff.mp taken
          have queued : call.ticket = .queued := (lined.mem_queue found).mp (line ▸ List.mem_cons_self)
          have ownedStill : (system.takeCall i queue call).Owned := owned.takeCall found queued
          refine ⟨ownedStill.thread rfl rfl rfl rfl rfl, ?_, ?_⟩
          · exact lined.takeCall line found (by rw [isThread]; rfl) (by rw [isThread]; rfl) rfl rfl rfl rfl rfl rfl
          · refine story.takeCall found queued (by rw [isThread]; rfl) (by simp [isThread]) (.inr rfl) rfl ?_
              (fun _ => gone)
            intro j result next isAnswering
            cases isAnswering
            -- no caller outlives the writer
            have released := story.gone (by simp [gone]) call (List.mem_of_getElem? found)
            unfold callerOf
            rw [found, Option.map_some, owned.queuedOver found queued released]
  | exited =>
      rw [isThread] at taken
      cases taken

/-- The `Writer` itself is dropped, a step further. -/
theorem Sound.handled {system : WriterSystem S C A} (sound : system.Sound served) {handle : WriterHandle}
    (gone : handle ≠ .alive → ∀ call ∈ system.calls, call.caller.holds = false)
    (drains : system.thread.drains = true → handle = .gone) : Sound served { system with handle } where
  owned := sound.owned.thread rfl rfl rfl rfl rfl
  lined := sound.lined.thread rfl rfl rfl rfl rfl rfl
  story := { sound.story with
    gone := gone
    drains := drains }

theorem Owned.isUnsent {system : WriterSystem S C A} (owned : system.Owned) {i : Nat} {call : Call C A}
    (found : system.calls[i]? = some call) (queueing : call.caller = .queueing) : call.ticket = .unsent := by
  have fits := owned.fits i call found
  obtain ⟨command, cell, caller, ticket, awaited⟩ := call
  dsimp only at queueing
  subst queueing
  cases ticket with
  | unsent => rfl
  | queued | held | giving emptied | spent => cases fits

theorem Sound.step {system after : WriterSystem S C A} (sound : system.Sound served) {action : WriterAction S C}
    (taken : system.step served action = some after) : after.Sound served := by
  obtain ⟨owned, lined, story⟩ := sound
  have sound : system.Sound served := ⟨owned, lined, story⟩
  cases action with
  | call command =>
      obtain ⟨alive, ran⟩ := Option.ite_none_right_eq_some.mp taken
      obtain rfl := Option.some.inj ran
      exact ⟨owned.begin command, lined.begin command, story.begin lined alive command⟩
  | send i =>
      simp only [WriterSystem.step] at taken
      split at taken
      · rename_i call found
        split at taken
        · rename_i queueing
          obtain rfl := Option.some.inj taken
          have unsent := owned.isUnsent found queueing
          exact ⟨owned.trySend found queueing, lined.trySend found unsent,
            story.trySend lined found queueing unsent⟩
        · cases taken
      · cases taken
  | poll i waker =>
      simp only [WriterSystem.step] at taken
      split at taken
      · rename_i call found
        split at taken
        · rename_i waiting
          obtain rfl := Option.some.inj taken
          exact ⟨owned.poll found waiting, lined.poll found waker, story.poll owned lined found waiting⟩
        · cases taken
      · cases taken
  | drop i =>
      simp only [WriterSystem.step] at taken
      split at taken
      · rename_i call found
        split at taken
        · rename_i waiting
          obtain rfl := Option.some.inj taken
          exact ⟨owned.dropReply found waiting, lined.dropReply found, story.dropReply lined found waiting⟩
        · cases taken
      · cases taken
  | emptyCell i =>
      simp only [WriterSystem.step] at taken
      split at taken
      · rename_i call found
        split at taken
        · rename_i outcome giving
          obtain rfl := Option.some.inj taken
          exact ⟨owned.emptyCell found giving, lined.caller found rfl rfl rfl rfl rfl rfl,
            story.emptyCell lined found giving⟩
        · cases taken
      · cases taken
  | giveCell i =>
      simp only [WriterSystem.step] at taken
      split at taken
      · rename_i call found
        split at taken
        · rename_i outcome giving
          obtain rfl := Option.some.inj taken
          exact ⟨owned.giveCell found giving, lined.giveCell found _, story.giveCell lined found giving⟩
        · cases taken
      · cases taken
  | thread built => exact sound.threadStep taken
  | dropWriter =>
      obtain ⟨⟨alive, released⟩, ran⟩ := Option.ite_none_right_eq_some.mp taken
      obtain rfl := Option.some.inj ran
      have free : ∀ call ∈ system.calls, call.caller.holds = false := by
        intro call inside
        have := List.all_eq_true.mp released call inside
        simpa using this
      have working : system.thread.drains = true → False := by
        intro drains
        have gone := story.drains drains
        rw [alive] at gone
        cases gone
      split
      · exact sound.handled (fun _ => free) (fun drains => absurd drains working)
      · exact sound.happens rfl rfl rfl rfl rfl (fun i r n h => h) (fun w n h => h) (fun _ => free)
          (fun drains => absurd drains working)
  | disconnect =>
      obtain ⟨dropping, ran⟩ := Option.ite_none_right_eq_some.mp taken
      obtain rfl := Option.some.inj ran
      exact sound.handled (fun _ => story.gone (by simp [dropping])) (fun _ => rfl)

/-! ## The thread answers every call -/

/-- How far the thread is from having nothing to do, the queue aside. -/
def left (system : WriterSystem S C A) : Nat :=
  match system.thread with
  | .starting => 14
  | .building => 13
  | .took _ => 12
  | .checked _ => 11
  | .locked _ => 10
  | .answering _ _ _ => 9
  | .giving i _ => if system.ticketOf i = some (.giving false) then 8 else 7
  | .waking _ _ => 6
  | .following => 5
  | .working => 4
  | .idle => 3
  | .draining => 2
  | .exited => 0

def work (system : WriterSystem S C A) : Nat := 16 * system.queue.length + system.left

theorem left_onward {system : WriterSystem S C A} (next : Continuation) (onward : system.thread = next.thread) :
    system.left ≤ 5 := by
  unfold left
  rw [onward]
  cases next <;> simp [Continuation.thread]

/-- A step that leaves the queue does some of the work. -/
theorem work_lt {system after : WriterSystem S C A} (queue : after.queue = system.queue)
    (less : after.left < system.left) : after.work < system.work := by
  unfold work
  rw [queue]
  omega

theorem work_lt_take {system after : WriterSystem S C A} {i : Nat} (queue : system.queue = i :: after.queue)
    (little : after.left ≤ 14) : after.work < system.work := by
  unfold work
  rw [queue, List.length_cons]
  omega

/-- Left to itself the thread works until the queue is empty, or it has exited. -/
theorem Sound.progress {system : WriterSystem S C A} (sound : system.Sound served) :
    (∃ after, system.threadStep served none = some after ∧ after.work < system.work) ∨
      (system.thread = .idle ∧ system.queue = []) ∨ system.thread = .exited := by
  unfold WriterSystem.threadStep
  cases isThread : system.thread with
  | starting | building | checked i | following | working =>
      refine .inl ⟨_, rfl, work_lt rfl ?_⟩
      simp [left, isThread]
  | idle =>
      cases line : system.queue with
      | nil => exact .inr (.inl ⟨rfl, rfl⟩)
      | cons i queue =>
          obtain ⟨call, found, _⟩ := found_of_ticketOf ((sound.lined.queued i).mp (line ▸ List.mem_cons_self))
          dsimp only
          rw [found, Option.map_some]
          exact .inl ⟨_, rfl, work_lt_take line (by simp [left])⟩
  | took i =>
      obtain ⟨call, found, _⟩ := sound.inHand (by rw [isThread]; rfl)
      dsimp only
      rw [found, Option.map_some]
      refine .inl ⟨_, rfl, ?_⟩
      split
      · exact work_lt rfl (by simp [left, isThread])
      · exact work_lt rfl (by simp [left, isThread])
  | locked i =>
      obtain ⟨call, found, _⟩ := sound.inHand (by rw [isThread]; rfl)
      dsimp only
      rw [found, Option.map_some]
      refine .inl ⟨_, rfl, ?_⟩
      obtain ⟨discarded, next, _, same⟩ := execute_eq served i call.command system
      rw [same]
      exact work_lt rfl (by simp [left, isThread])
  | answering i result next =>
      obtain ⟨call, found, _⟩ := sound.inHand (by rw [isThread]; rfl)
      dsimp only
      rw [found, Option.map_some]
      refine .inl ⟨_, rfl, ?_⟩
      unfold WriterSystem.deliver
      dsimp only
      split
      · refine work_lt rfl ?_
        simp only [left, isThread]
        split <;> omega
      · cases polled : (system.cells call.cell).waker with
        | none =>
            refine work_lt rfl (Nat.lt_of_le_of_lt (left_onward next rfl) ?_)
            simp [left, isThread]
        | some waker => exact work_lt rfl (by simp [left, isThread])
  | giving i next =>
      obtain ⟨emptied, known⟩ := (sound.lined.giving i).mp (by rw [isThread]; rfl)
      obtain ⟨call, found, giving⟩ := found_of_ticketOf known
      dsimp only
      rw [found, Option.bind_some, giving]
      cases emptied with
      | false =>
          refine .inl ⟨_, rfl, work_lt rfl ?_⟩
          have now : ticketOf i ((system.setCell call.cell .new).setCall i
              { call with ticket := .giving true }) = some (.giving true) := by
            rw [ticketOf_set found rfl, if_pos rfl]
          have onward : ((system.setCell call.cell .new).setCall i
              { call with ticket := .giving true }).thread = .giving i next := isThread
          unfold left
          rw [onward, isThread]
          dsimp only
          rw [now, known]
          simp
      | true =>
          refine .inl ⟨_, rfl, work_lt ?_ ?_⟩
          · obtain ⟨pool, same⟩ := keepCell_eq call.cell system
            rw [same]
            rfl
          · refine Nat.lt_of_le_of_lt (left_onward next rfl) ?_
            simp only [left, isThread]
            split <;> omega
  | waking waker next =>
      refine .inl ⟨_, rfl, work_lt rfl (Nat.lt_of_le_of_lt (left_onward next rfl) ?_)⟩
      simp [left, isThread]
  | draining =>
      cases line : system.queue with
      | nil =>
          refine .inl ⟨_, rfl, work_lt line.symm ?_⟩
          simp [left, isThread]
      | cons i queue =>
          obtain ⟨call, found, _⟩ := found_of_ticketOf ((sound.lined.queued i).mp (line ▸ List.mem_cons_self))
          dsimp only
          rw [found, Option.map_some]
          exact .inl ⟨_, rfl, work_lt_take line (by simp [left])⟩
  | exited => exact .inr (.inr rfl)

/-- Only the thread takes steps. -/
def ThreadOnly (_ : WriterSystem S C A) (action : WriterAction S C) : Prop := ∃ built, action = .thread built

theorem Sound.finishes {system : WriterSystem S C A} (sound : system.Sound served) :
    ∃ later, Reaches (WriterSystem.step served) ThreadOnly system later ∧ later.Sound served ∧
      ((later.thread = .idle ∧ later.queue = []) ∨ later.thread = .exited) := by
  induction amount : system.work using Nat.strong_induction_on generalizing system with
  | _ amount ih =>
      subst amount
      rcases sound.progress with ⟨after, taken, less⟩ | finished
      · obtain ⟨later, reached, rest⟩ := ih after.work less (sound.threadStep taken) rfl
        exact ⟨later, Reaches.trans (.next .refl (.thread none) ⟨none, rfl⟩ taken) reached, rest⟩
      · exact ⟨system, .refl, sound, finished⟩

/-- Every caller that waits finds its answer in its cell. -/
def Answered (system : WriterSystem S C A) : Prop :=
  ∀ (i : Nat) (call : Call C A), system.calls[i]? = some call → call.caller = .waiting →
    ∃ result, (system.cells call.cell).answer = some result ∧ (i, result) ∈ system.answers

theorem Sound.answered {system : WriterSystem S C A} (sound : system.Sound served)
    (finished : (system.thread = .idle ∧ system.queue = []) ∨ system.thread = .exited) : system.Answered := by
  obtain ⟨owned, lined, story⟩ := sound
  intro i call found waiting
  rcases finished with ⟨isIdle, isEmpty⟩ | hasExited
  · have fits := owned.fits i call found
    have unqueued : call.ticket ≠ .queued := by
      rw [Ne, ← lined.mem_queue found, isEmpty]
      exact List.not_mem_nil
    have unheld : call.ticket ≠ .held := by
      rw [Ne, ← lined.is_held found, isIdle]
      simp [WriterThread.holding]
    unfold Call.Fits at fits
    rw [waiting] at fits
    cases ticket : call.ticket with
    | spent =>
        rw [ticket] at fits
        exact fits
    | queued => exact absurd ticket unqueued
    | held => exact absurd ticket unheld
    | unsent | giving emptied =>
        rw [ticket] at fits
        cases fits
  · -- the thread exits only when no caller is left
    have gone := story.drains (by rw [hasExited]; rfl)
    have released := story.gone (by simp [gone]) call (List.mem_of_getElem? found)
    rw [waiting] at released
    cases released

/-! ## What the writer promises -/

structure Kept (served : Served S C A) (system : WriterSystem S C A) : Prop where
  /-- Calls are taken in the order they were queued, each once, and run in that order. -/
  order : system.sent = system.taken ++ system.queue ∧ system.sent.Nodup ∧
    system.ranCalls.Sublist system.taken
  /-- Nothing but what happened to it, these runs among it, made the store what it is. -/
  store : system.store = served.storeAfter system.history
  /-- A call whose future was dropped while it was queued does not run. -/
  spared : ∀ i ∈ system.cancelled, i ∉ system.ranCalls
  /-- No call is answered twice, and its answer is what its own run returned. -/
  once : (system.answers.map Prod.fst).Nodup
  own : ∀ i result, (i, result) ∈ system.answers → system.Own served i result
  /-- A caller is told the answer its call was given. -/
  told : ∀ (i : Nat) (call : Call C A) (result : Except StoreError A), system.calls[i]? = some call →
    call.caller = .finished (.answered result) → (i, result) ∈ system.answers
  /-- The thread alone can answer every call that still waits. -/
  answered : ∃ later, Reaches (step served) ThreadOnly system later ∧ later.Answered
  /-- A caller that was told to wait is woken once the answer is there. -/
  wakes : ∀ call ∈ system.calls, call.caller = .waiting → call.ticket = .spent →
    ∀ waker, call.awaited = some waker →
      waker ∈ system.woken ∨ ∃ next, system.thread = .waking waker next
  /-- No two live calls share a cell. -/
  apart : ∀ (i j : Nat) (a b : Call C A), system.calls[i]? = some a → system.calls[j]? = some b →
    a.live = true → b.live = true → a.cell = b.cell → i = j

theorem Sound.kept {system : WriterSystem S C A} (sound : system.Sound served) : system.Kept served where
  order := by
    refine ⟨sound.lined.order, sound.lined.once, ?_⟩
    obtain ⟨earlier, split, sub⟩ := sound.story.runs
    rw [split]
    exact sub.trans (List.sublist_append_left _ _)
  store := sound.story.store
  spared i inside := (sound.story.spared i inside).1
  once := sound.story.single
  own := sound.story.own
  told i call result found finished := by
    have fits := sound.owned.fits i call found
    unfold Call.Fits at fits
    rw [finished] at fits
    cases ticket : call.ticket with
    | spent =>
        rw [ticket] at fits
        exact fits
    | unsent | queued | held | giving emptied =>
        rw [ticket] at fits
        cases fits
  answered := by
    obtain ⟨later, reached, laterSound, finished⟩ := sound.finishes
    exact ⟨later, reached, laterSound.answered finished⟩
  wakes := sound.story.wakes
  apart := sound.owned.apart

/-- Whatever the callers and the thread do, and in whatever order. -/
theorem kept_of_reaches (served : Served S C A) (capacity : Nat) (system : WriterSystem S C A)
    (reached : Reaches (step served) anyStep (spawn capacity) system) : system.Kept served := by
  refine Sound.kept ?_
  refine reached.invariant ?_ (spawn_sound capacity)
  intro now action next sound _ taken
  exact sound.step taken

/-- A store that adds what it is given. -/
def adding : Served Nat Nat Nat where
  execute total amount := some (.ok (total + amount), total + amount)
  closes _ := false
  afterCallDue _ := false
  afterCall total := some total

/-- Two calls: the first is dropped while it is queued, the second is answered. -/
def dropsFirst : List (WriterAction Nat Nat) :=
  [.thread none, .thread (some 40), .call 1, .send 0, .call 2, .send 1, .poll 1 9, .drop 0, .thread none,
    .thread none, .thread none, .thread none, .thread none, .thread none, .thread none, .thread none,
    .thread none, .thread none, .thread none, .poll 1 9, .emptyCell 1, .giveCell 1]

theorem dropsFirst_kept : ∃ system, run (step adding) (spawn 2) dropsFirst = some system ∧
    system.store = .opened 42 ∧ system.answers = [(1, .ok 42)] ∧ system.Kept adding := by
  have reached (system : WriterSystem Nat Nat Nat) (ran : run (step adding) (spawn 2) dropsFirst = some system) :
      Reaches (step adding) anyStep (spawn 2) system := reaches_of_run ran
  exact ⟨_, rfl, rfl, rfl, kept_of_reaches adding 2 _ (reached _ rfl)⟩

end WriterSystem

end IronFix.Store
