import IronFix.Lib.Positions
import IronFix.Store.Writer
import Mathlib.Data.List.Nodup

/-!
# Whose cell it is

No two live calls have one cell, no live call's cell is in the pool, and what a
cell holds fits what both sides of its call have done so far.
-/

namespace IronFix.Store

open Lib.Positions

variable {S C A : Type}

/-- An answered caller has the answer that was given to its call. -/
def CallOutcome.Settled (i : Nat) (answers : List (Nat × Except StoreError A)) : CallOutcome A → Prop
  | .answered result => (i, result) ∈ answers
  | .refused _ | .dropped => True

/-- What a call's cell holds, by how far the two sides are. -/
def Call.Fits (i : Nat) (answers : List (Nat × Except StoreError A)) (cell : ReplyCell A)
    (call : Call C A) : Prop :=
  match call.caller, call.ticket with
  | .queueing, .unsent => cell = .new ∧ call.awaited = none
  | .waiting, .queued | .waiting, .held =>
    cell.answer = none ∧ cell.abandoned = false ∧ cell.waker = call.awaited
  | .waiting, .spent => ∃ result, cell.answer = some result ∧ (i, result) ∈ answers
  | .giving emptied outcome, .spent => (emptied = true → cell = .new) ∧ outcome.Settled i answers
  | .finished .dropped, .queued | .finished .dropped, .held => cell.abandoned = true
  | .finished .dropped, .giving emptied => emptied = true → cell = .new
  | .finished outcome, .spent => outcome.Settled i answers
  | _, _ => False

theorem CallOutcome.Settled.mono {i : Nat} {answers more : List (Nat × Except StoreError A)}
    {outcome : CallOutcome A} (settled : outcome.Settled i answers) (grows : answers ⊆ more) :
    outcome.Settled i more := by
  cases outcome with
  | answered result => exact grows settled
  | refused error => trivial
  | dropped => trivial

theorem Call.Fits.mono {i : Nat} {answers more : List (Nat × Except StoreError A)} {cell : ReplyCell A}
    {call : Call C A} (fits : call.Fits i answers cell) (grows : answers ⊆ more) :
    call.Fits i more cell := by
  unfold Call.Fits at fits ⊢
  split at fits
  · exact fits
  · exact fits
  · exact fits
  · obtain ⟨result, answered, inside⟩ := fits
    exact ⟨result, answered, grows inside⟩
  · exact ⟨fits.1, fits.2.mono grows⟩
  · exact fits
  · exact fits
  · exact fits
  · exact fits.mono grows
  · exact fits

/-- What is in a cell matters only to a live call. -/
theorem Call.Fits.elsewhere {i : Nat} {answers : List (Nat × Except StoreError A)} {cell other : ReplyCell A}
    {call : Call C A} (fits : call.Fits i answers cell) (finished : call.live = false) :
    call.Fits i answers other := by
  obtain ⟨command, number, caller, ticket, awaited⟩ := call
  cases caller with
  | finished outcome =>
      cases ticket with
      | spent => cases outcome <;> exact fits
      | unsent => cases outcome <;> exact fits
      | queued | held | giving emptied => cases finished
  | queueing | waiting | giving emptied outcome => cases finished

namespace WriterSystem

section KeepCell

variable (cell : Nat) (system : WriterSystem S C A)

@[simp] theorem keepCell_calls : (system.keepCell cell).calls = system.calls := by
  unfold keepCell
  split <;> rfl

@[simp] theorem keepCell_cells : (system.keepCell cell).cells = system.cells := by
  unfold keepCell
  split <;> rfl

@[simp] theorem keepCell_allocated : (system.keepCell cell).allocated = system.allocated := by
  unfold keepCell
  split <;> rfl

@[simp] theorem keepCell_answers : (system.keepCell cell).answers = system.answers := by
  unfold keepCell
  split <;> rfl

end KeepCell

structure Owned (system : WriterSystem S C A) : Prop where
  /-- A live call has its cell to itself. -/
  apart : ∀ (i j : Nat) (a b : Call C A), system.calls[i]? = some a → system.calls[j]? = some b →
    a.live = true → b.live = true → a.cell = b.cell → i = j
  /-- Nor is its cell free for another call. -/
  pooled : ∀ (i : Nat) (a : Call C A), system.calls[i]? = some a → a.live = true →
    a.cell ∉ system.pool ∧ a.cell < system.allocated
  distinct : system.pool.Nodup
  made : ∀ c ∈ system.pool, c < system.allocated
  fresh : ∀ c, c ∈ system.pool ∨ system.allocated ≤ c → system.cells c = .new
  fits : ∀ (i : Nat) (a : Call C A), system.calls[i]? = some a →
    a.Fits i system.answers (system.cells a.cell)

theorem spawn_owned (capacity : Nat) : (spawn capacity : WriterSystem S C A).Owned where
  apart := by simp [spawn]
  pooled := by simp [spawn]
  distinct := List.nodup_nil
  made := by simp [spawn]
  fresh _ _ := rfl
  fits := by simp [spawn]

/-- Both sides of a live call may change it and what its cell holds. -/
theorem Owned.update {system after : WriterSystem S C A} (owned : system.Owned) {i : Nat} {a b : Call C A}
    {cell : ReplyCell A} (found : system.calls[i]? = some a) (live : a.live = true)
    (calls : after.calls = system.calls.set i b)
    (cells : after.cells = Function.update system.cells a.cell cell) (pool : after.pool = system.pool)
    (allocated : after.allocated = system.allocated) (answers : system.answers ⊆ after.answers)
    (same : b.cell = a.cell) (fits : b.Fits i after.answers cell) : after.Owned := by
  have own := owned.pooled i a found live
  refine ⟨?_, ?_, pool ▸ owned.distinct, ?_, ?_, ?_⟩
  · intro j k x y atJ atK liveX liveY shared
    rw [calls] at atJ atK
    rcases getElem?_set_cases atJ with ⟨rfl, rfl⟩ | ⟨_, keptJ⟩
    · rcases getElem?_set_cases atK with ⟨rfl, rfl⟩ | ⟨_, keptK⟩
      · rfl
      · exact owned.apart _ _ _ _ found keptK live liveY (same ▸ shared)
    · rcases getElem?_set_cases atK with ⟨rfl, rfl⟩ | ⟨_, keptK⟩
      · exact owned.apart _ _ _ _ keptJ found liveX live (shared.trans same)
      · exact owned.apart _ _ _ _ keptJ keptK liveX liveY shared
  · intro j x atJ liveX
    rw [calls] at atJ
    rw [pool, allocated]
    rcases getElem?_set_cases atJ with ⟨rfl, rfl⟩ | ⟨_, atJ⟩
    · exact same ▸ own
    · exact owned.pooled j x atJ liveX
  · rw [pool, allocated]
    exact owned.made
  · intro c free
    rw [pool, allocated] at free
    have other : c ≠ a.cell := by
      rintro rfl
      rcases free with inside | beyond
      · exact own.1 inside
      · exact Nat.not_le.mpr own.2 beyond
    rw [cells, Function.update_of_ne other]
    exact owned.fresh c free
  · intro j x atJ
    rw [calls] at atJ
    rw [cells]
    rcases getElem?_set_cases atJ with ⟨rfl, rfl⟩ | ⟨otherJ, atJ⟩
    · rw [same, Function.update_self]
      exact fits
    · have was := (owned.fits j x atJ).mono answers
      by_cases shared : x.cell = a.cell
      · refine was.elsewhere ?_
        cases liveX : x.live with
        | false => rfl
        | true => exact absurd (owned.apart _ _ _ _ atJ found liveX live shared) otherJ
      · rw [Function.update_of_ne shared]
        exact was

/-- A step that leaves the cells and what was answered. -/
theorem Owned.move {system after : WriterSystem S C A} (owned : system.Owned) {i : Nat} {a b : Call C A}
    (found : system.calls[i]? = some a) (live : a.live = true)
    (calls : after.calls = system.calls.set i b) (cells : after.cells = system.cells)
    (pool : after.pool = system.pool) (allocated : after.allocated = system.allocated)
    (answers : after.answers = system.answers) (same : b.cell = a.cell)
    (fits : b.Fits i system.answers (system.cells a.cell)) : after.Owned := by
  refine owned.update found live calls ?_ pool allocated ?_ same (answers ▸ fits)
  · rw [cells, Function.update_eq_self]
  · rw [answers]
    exact List.Subset.refl _

theorem Owned.begin {system : WriterSystem S C A} (owned : system.Owned) (command : C) :
    (system.begin command).Owned := by
  -- the call's cell is free, wherever it comes from
  have general (cell : Nat) (pool : List Nat) (allocated : Nat) (free : cell ∈ system.pool ∨ cell = system.allocated)
      (subset : ∀ c ∈ pool, c ∈ system.pool) (distinct : pool.Nodup) (taken : cell ∉ pool)
      (beyond : cell < allocated) (grows : system.allocated ≤ allocated) :
      Owned { system with
        pool
        allocated
        calls := system.calls ++ [⟨command, cell, .queueing, .unsent, none⟩] } := by
    have cases {j : Nat} {x : Call C A}
        (found : (system.calls ++ [⟨command, cell, .queueing, .unsent, none⟩])[j]? = some x) :
        (system.calls[j]? = some x ∧ j < system.calls.length) ∨
          (x = ⟨command, cell, .queueing, .unsent, none⟩ ∧ j = system.calls.length) := by
      have bound := (List.getElem?_eq_some_iff.mp found).1
      rw [List.length_append, List.length_singleton] at bound
      rw [List.getElem?_append] at found
      split at found
      · exact .inl ⟨found, by assumption⟩
      · obtain rfl := List.mem_singleton.mp (List.mem_of_getElem? found)
        exact .inr ⟨rfl, by omega⟩
    have unowned {j : Nat} {x : Call C A} (found : system.calls[j]? = some x) (live : x.live = true) :
        x.cell ≠ cell := by
      intro same
      have own := owned.pooled j x found live
      rw [same] at own
      rcases free with inside | new
      · exact own.1 inside
      · omega
    refine ⟨?_, ?_, distinct, ?_, ?_, ?_⟩
    · intro j k x y atJ atK liveX liveY shared
      rcases cases atJ with ⟨atJ, _⟩ | ⟨rfl, rfl⟩
      · rcases cases atK with ⟨atK, _⟩ | ⟨rfl, rfl⟩
        · exact owned.apart _ _ _ _ atJ atK liveX liveY shared
        · exact absurd shared (unowned atJ liveX)
      · rcases cases atK with ⟨atK, _⟩ | ⟨rfl, rfl⟩
        · exact absurd shared.symm (unowned atK liveY)
        · rfl
    · intro j x atJ liveX
      rcases cases atJ with ⟨atJ, _⟩ | ⟨rfl, rfl⟩
      · have own := owned.pooled j x atJ liveX
        exact ⟨fun inside => own.1 (subset _ inside), Nat.lt_of_lt_of_le own.2 grows⟩
      · exact ⟨taken, beyond⟩
    · intro c inside
      exact Nat.lt_of_lt_of_le (owned.made c (subset c inside)) grows
    · intro c isFree
      refine owned.fresh c ?_
      rcases isFree with inside | above
      · exact .inl (subset c inside)
      · exact .inr (Nat.le_trans grows above)
    · intro j x atJ
      rcases cases atJ with ⟨atJ, _⟩ | ⟨rfl, rfl⟩
      · exact owned.fits j x atJ
      · refine ⟨owned.fresh cell ?_, rfl⟩
        rcases free with inside | rfl
        · exact .inl inside
        · exact .inr (Nat.le_refl _)
  unfold WriterSystem.begin
  cases pooled : system.pool with
  | cons cell pool =>
      have distinct := owned.distinct
      rw [pooled, List.nodup_cons] at distinct
      refine general cell pool system.allocated ?_ ?_ distinct.2 distinct.1 ?_ (Nat.le_refl _)
      · exact .inl (pooled ▸ List.mem_cons_self)
      · intro c inside
        exact pooled ▸ List.mem_cons_of_mem _ inside
      · exact owned.made cell (pooled ▸ List.mem_cons_self)
  | nil =>
      refine general system.allocated [] (system.allocated + 1) (.inr rfl) ?_ List.nodup_nil ?_
        (Nat.lt_succ_self _) (Nat.le_succ _)
      · intro c inside
        cases inside
      · exact List.not_mem_nil

/-- A call lets go of its emptied cell, which goes to the pool or is dropped. -/
theorem Owned.release {system after : WriterSystem S C A} (owned : system.Owned) {i : Nat} {a b : Call C A}
    (found : system.calls[i]? = some a) (live : a.live = true) (emptied : system.cells a.cell = .new)
    (calls : after.calls = system.calls.set i b) (cells : after.cells = system.cells)
    (pool : after.pool = (system.keepCell a.cell).pool) (allocated : after.allocated = system.allocated)
    (answers : after.answers = system.answers) (finished : b.live = false)
    (fits : b.Fits i system.answers .new) : after.Owned := by
  have own := owned.pooled i a found live
  have inPool {c : Nat} (inside : c ∈ after.pool) : c ∈ system.pool ∨ c = a.cell := by
    rw [pool] at inside
    unfold keepCell at inside
    split at inside
    · rcases List.mem_cons.mp inside with rfl | inside
      · exact .inr rfl
      · exact .inl inside
    · exact .inl inside
  have others {j : Nat} {x : Call C A} (atJ : after.calls[j]? = some x) (liveX : x.live = true) :
      j ≠ i ∧ system.calls[j]? = some x := by
    rw [calls] at atJ
    rcases getElem?_set_cases atJ with ⟨rfl, rfl⟩ | kept
    · rw [finished] at liveX
      cases liveX
    · exact kept
  refine ⟨?_, ?_, ?_, ?_, ?_, ?_⟩
  · intro j k x y atJ atK liveX liveY shared
    exact owned.apart _ _ _ _ (others atJ liveX).2 (others atK liveY).2 liveX liveY shared
  · intro j x atJ liveX
    obtain ⟨other, atJ⟩ := others atJ liveX
    have kept := owned.pooled j x atJ liveX
    refine ⟨?_, allocated ▸ kept.2⟩
    intro inside
    rcases inPool inside with inside | shared
    · exact kept.1 inside
    · exact other (owned.apart _ _ _ _ atJ found liveX live shared)
  · rw [pool]
    unfold keepCell
    split
    · exact List.nodup_cons.mpr ⟨own.1, owned.distinct⟩
    · exact owned.distinct
  · intro c inside
    rw [allocated]
    rcases inPool inside with inside | rfl
    · exact owned.made c inside
    · exact own.2
  · intro c free
    rw [cells]
    rw [allocated] at free
    rcases free with inside | above
    · rcases inPool inside with inside | rfl
      · exact owned.fresh c (.inl inside)
      · exact emptied
    · exact owned.fresh c (.inr above)
  · intro j x atJ
    rw [calls] at atJ
    rw [answers, cells]
    rcases getElem?_set_cases atJ with ⟨rfl, rfl⟩ | ⟨_, atJ⟩
    · exact fits.elsewhere finished
    · exact owned.fits j x atJ

/-! ## The caller's steps -/

theorem Owned.trySend {system : WriterSystem S C A} (owned : system.Owned) {i : Nat} {call : Call C A}
    (found : system.calls[i]? = some call) (queueing : call.caller = .queueing) :
    (system.trySend i call).Owned := by
  have fits := owned.fits i call found
  obtain ⟨command, cell, caller, ticket, awaited⟩ := call
  dsimp only at queueing
  subst queueing
  cases ticket with
  | unsent =>
      obtain ⟨isNew, unawaited⟩ := fits
      have refused (error : StoreError) : (system.refuse i ⟨command, cell, .queueing, .unsent, awaited⟩ error).Owned :=
        owned.move found rfl rfl rfl rfl rfl rfl rfl ⟨(fun h => by cases h), trivial⟩
      unfold WriterSystem.trySend
      split
      · exact refused _
      · split
        · refine owned.move found rfl rfl rfl rfl rfl rfl rfl ?_
          dsimp only at isNew unawaited
          rw [isNew, unawaited]
          exact ⟨rfl, rfl, rfl⟩
        · exact refused _
  | queued | held | giving emptied | spent => cases fits

theorem Owned.poll {system : WriterSystem S C A} (owned : system.Owned) {i waker : Nat} {call : Call C A}
    (found : system.calls[i]? = some call) (waiting : call.caller = .waiting) :
    (system.poll i call waker).Owned := by
  have fits := owned.fits i call found
  obtain ⟨command, cell, caller, ticket, awaited⟩ := call
  dsimp only at waiting
  subst waiting
  unfold WriterSystem.poll
  cases ticket with
  | queued | held =>
      obtain ⟨unanswered, kept, _⟩ := fits
      dsimp only at unanswered kept ⊢
      rw [unanswered]
      exact owned.update found rfl rfl rfl rfl rfl (List.Subset.refl _) rfl ⟨rfl, kept, rfl⟩
  | spent =>
      obtain ⟨result, answered, inside⟩ := fits
      dsimp only at answered ⊢
      rw [answered]
      exact owned.update found rfl rfl rfl rfl rfl (List.Subset.refl _) rfl ⟨(fun h => by cases h), inside⟩
  | unsent | giving emptied => cases fits

theorem Owned.dropReply {system : WriterSystem S C A} (owned : system.Owned) {i : Nat} {call : Call C A}
    (found : system.calls[i]? = some call) (waiting : call.caller = .waiting) :
    (system.dropReply i call).Owned := by
  have fits := owned.fits i call found
  obtain ⟨command, cell, caller, ticket, awaited⟩ := call
  dsimp only at waiting
  subst waiting
  unfold WriterSystem.dropReply
  cases ticket with
  | queued | held =>
      obtain ⟨unanswered, _, _⟩ := fits
      dsimp only at unanswered ⊢
      rw [unanswered]
      exact owned.update found rfl rfl rfl rfl rfl (List.Subset.refl _) rfl rfl
  | spent =>
      obtain ⟨result, answered, _⟩ := fits
      dsimp only at answered ⊢
      rw [answered]
      exact owned.move found rfl rfl rfl rfl rfl rfl rfl ⟨(fun h => by cases h), trivial⟩
  | unsent | giving emptied => cases fits

theorem Owned.emptyCell {system : WriterSystem S C A} (owned : system.Owned) {i : Nat} {call : Call C A}
    {outcome : CallOutcome A} (found : system.calls[i]? = some call)
    (giving : call.caller = .giving false outcome) :
    Owned ((system.setCell call.cell .new).setCall i { call with caller := .giving true outcome }) := by
  have fits := owned.fits i call found
  obtain ⟨command, cell, caller, ticket, awaited⟩ := call
  dsimp only at giving
  subst giving
  cases ticket with
  | spent =>
      exact owned.update found rfl rfl rfl rfl rfl (List.Subset.refl _) rfl ⟨fun _ => rfl, fits.2⟩
  | unsent | queued | held | giving emptied => cases fits

theorem Owned.giveCell {system : WriterSystem S C A} (owned : system.Owned) {i : Nat} {call : Call C A}
    {outcome : CallOutcome A} (found : system.calls[i]? = some call)
    (giving : call.caller = .giving true outcome) :
    Owned ((system.keepCell call.cell).setCall i { call with caller := .finished outcome }) := by
  have fits := owned.fits i call found
  obtain ⟨command, cell, caller, ticket, awaited⟩ := call
  dsimp only at giving
  subst giving
  cases ticket with
  | spent =>
      refine owned.release (b := ⟨command, cell, .finished outcome, .spent, awaited⟩) found rfl (fits.1 rfl)
        (congrArg (List.set · i _) (keepCell_calls _ _)) (keepCell_cells _ _) rfl (keepCell_allocated _ _)
        (keepCell_answers _ _) rfl ?_
      cases outcome <;> exact fits.2
  | unsent | queued | held | giving emptied => cases fits

/-! ## The thread's steps -/

/-- The thread takes a call out of the queue. -/
theorem Owned.takeCall {system : WriterSystem S C A} (owned : system.Owned) {i : Nat} {call : Call C A}
    {queue : List Nat} (found : system.calls[i]? = some call) (queued : call.ticket = .queued) :
    (system.takeCall i queue call).Owned := by
  have fits := owned.fits i call found
  obtain ⟨command, cell, caller, ticket, awaited⟩ := call
  dsimp only at queued
  subst queued
  cases caller with
  | waiting => exact owned.move found rfl rfl rfl rfl rfl rfl rfl fits
  | finished outcome =>
      cases outcome with
      | dropped => exact owned.move found rfl rfl rfl rfl rfl rfl rfl fits
      | answered result => cases fits
      | refused error => cases fits
  | queueing | giving emptied outcome => cases fits

/-- Of a call in hand the cell says whether its caller is gone. -/
theorem Owned.inHand {system : WriterSystem S C A} (owned : system.Owned) {i : Nat} {call : Call C A}
    (found : system.calls[i]? = some call) (held : call.ticket = .held) :
    (call.caller = .waiting ∧ (system.cells call.cell).abandoned = false ∧
      (system.cells call.cell).waker = call.awaited) ∨
    (call.caller = .finished .dropped ∧ (system.cells call.cell).abandoned = true) := by
  have fits := owned.fits i call found
  obtain ⟨command, cell, caller, ticket, awaited⟩ := call
  dsimp only at held
  subst held
  cases caller with
  | waiting => exact .inl ⟨rfl, fits.2⟩
  | finished outcome =>
      cases outcome with
      | dropped => exact .inr ⟨rfl, fits⟩
      | answered result => cases fits
      | refused error => cases fits
  | queueing | giving emptied outcome => cases fits

theorem Owned.deliver {system : WriterSystem S C A} (owned : system.Owned) {i : Nat} {call : Call C A}
    (found : system.calls[i]? = some call) (held : call.ticket = .held) (result : Except StoreError A)
    (next : Continuation) : (system.deliver i call result next).Owned := by
  have live : call.live = true := by
    unfold Call.live
    rw [held]
    exact Bool.or_true _
  unfold WriterSystem.deliver
  rcases owned.inHand found held with ⟨waiting, kept, _⟩ | ⟨dropped, abandoned⟩
  · dsimp only
    rw [if_neg (by simp [kept])]
    refine owned.update found live rfl rfl rfl rfl (List.subset_append_left _ _) rfl ?_
    unfold Call.Fits
    dsimp only
    rw [waiting]
    exact ⟨result, rfl, List.mem_append_right _ (List.mem_singleton_self _)⟩
  · dsimp only
    rw [if_pos abandoned]
    refine owned.move found live rfl rfl rfl rfl rfl rfl ?_
    unfold Call.Fits
    dsimp only
    rw [dropped]
    intro emptied
    cases emptied

theorem Owned.givingBack {system : WriterSystem S C A} (owned : system.Owned) {i : Nat} {call : Call C A}
    {emptied : Bool} (found : system.calls[i]? = some call) (giving : call.ticket = .giving emptied) :
    call.caller = .finished .dropped ∧ (emptied = true → system.cells call.cell = .new) := by
  have fits := owned.fits i call found
  obtain ⟨command, cell, caller, ticket, awaited⟩ := call
  dsimp only at giving
  subst giving
  cases caller with
  | finished outcome =>
      cases outcome with
      | dropped => exact ⟨rfl, fits⟩
      | answered result => cases fits
      | refused error => cases fits
  | queueing | waiting | giving emptied outcome => cases fits

theorem Owned.emptyTicket {system : WriterSystem S C A} (owned : system.Owned) {i : Nat} {call : Call C A}
    (found : system.calls[i]? = some call) (giving : call.ticket = .giving false) :
    Owned ((system.setCell call.cell .new).setCall i { call with ticket := .giving true }) := by
  have dropped := (owned.givingBack found giving).1
  have live : call.live = true := by
    unfold Call.live
    rw [giving]
    exact Bool.or_true _
  refine owned.update found live rfl rfl rfl rfl (List.Subset.refl _) rfl ?_
  unfold Call.Fits
  dsimp only
  rw [dropped]
  intro _
  rfl

theorem Owned.giveTicket {system : WriterSystem S C A} (owned : system.Owned) {i : Nat} {call : Call C A}
    (found : system.calls[i]? = some call) (giving : call.ticket = .giving true) (thread : WriterThread A) :
    Owned { (system.keepCell call.cell).setCall i { call with ticket := .spent } with thread } := by
  obtain ⟨dropped, emptied⟩ := owned.givingBack found giving
  have live : call.live = true := by
    unfold Call.live
    rw [giving]
    exact Bool.or_true _
  refine owned.release (b := { call with ticket := .spent }) found live (emptied rfl)
    (congrArg (List.set · i _) (keepCell_calls _ _)) (keepCell_cells _ _) rfl (keepCell_allocated _ _)
    (keepCell_answers _ _) ?_ ?_
  · unfold Call.live
    dsimp only
    rw [dropped]
    rfl
  · unfold Call.Fits
    dsimp only
    rw [dropped]
    trivial

end WriterSystem

end IronFix.Store
