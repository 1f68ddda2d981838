import IronFix.Lib.Positions
import IronFix.Lib.Transitions
import Mathlib.Data.List.Nodup

/-!
# The command queue of a session

A ring of commands behind a semaphore with as many permits as it has slots. A
send takes a slot, in the order sends began to wait, and then pushes its
command; the receiver takes commands out, closes the semaphore, and drops what
is left. Each action is one atomic step of a sender or of the receiver.
-/

namespace IronFix.Engine

open Lib.Positions Lib.Transitions

/-- How far a `send` is. -/
inductive SendState where
  | waiting
  /-- The semaphore gave it a slot it has not noticed yet. -/
  | granted
  /-- It has its slot and is about to push. -/
  | holding
  | sent
  /-- The command was handed back. -/
  | refused
  /-- The future was dropped. -/
  | cancelled
  deriving DecidableEq, Repr

namespace SendState

def ownsSlot : SendState → Bool
  | .granted | .holding => true
  | .waiting | .sent | .refused | .cancelled => false

def inFlight : SendState → Bool
  | .waiting | .granted | .holding => true
  | .sent | .refused | .cancelled => false

end SendState

structure Send (T : Type) where
  handle : Nat
  command : T
  state : SendState
  deriving DecidableEq, Repr

/-- A command in the ring, named by its send. -/
structure Queued (T : Type) where
  send : Nat
  command : T
  deriving DecidableEq, Repr

inductive ReceiverState where
  | idle
  /-- `recv` found the ring empty and is about to look for senders. -/
  | looked
  /-- `recv` saw no sender and is about to look once more. -/
  | last
  | dropping
  | dropped
  deriving DecidableEq, Repr

structure CommandQueue (T : Type) where
  capacity : Nat
  ring : List (Queued T)
  senders : Nat
  permits : Nat
  closed : Bool
  /-- The sends that wait for a slot, oldest first. -/
  waiters : List Nat
  /-- Every `send` made so far, with the handle it borrows. -/
  sends : List (Send T)
  /-- The sender handles, and which of them are alive. -/
  handles : List Bool
  receiver : ReceiverState
  /-- `recv` has answered that no command will come. -/
  ended : Bool
  pushed : List (Queued T)
  received : List (Queued T)
  /-- What the receiver's drop took out. -/
  removed : List (Queued T)
  deriving Repr

inductive QueueAction (T : Type) where
  | clone (handle : Nat)
  | dropSender (handle : Nat)
  | send (handle : Nat) (command : T)
  /-- A waiting send is polled. -/
  | resume (send : Nat)
  | push (send : Nat)
  | cancel (send : Nat)
  | tryRecv
  /-- `recv` up to its first look into the ring, at the senders, and its second look. -/
  | recvLook
  | recvSenders
  | recvLast
  | close
  | drop
  | dropNext

namespace CommandQueue

variable {T : Type}

def new (capacity : Nat) : CommandQueue T where
  capacity := max capacity 1
  ring := []
  senders := 1
  permits := max capacity 1
  closed := false
  waiters := []
  sends := []
  handles := [true]
  receiver := .idle
  ended := false
  pushed := []
  received := []
  removed := []

def setSend (send : Nat) (state : SendState) (queue : CommandQueue T) : CommandQueue T :=
  { queue with sends := queue.sends.modify send fun was => { was with state } }

/-- A permit goes to the send that has waited longest. -/
def addPermit (queue : CommandQueue T) : CommandQueue T :=
  match queue.waiters with
  | [] => { queue with permits := queue.permits + 1 }
  | send :: waiters => { queue with waiters }.setSend send .granted

/-- Waiting sends find the semaphore closed when they are polled. -/
def closeSlots (queue : CommandQueue T) : CommandQueue T :=
  { queue with
    closed := true
    waiters := [] }

/-- Takes the next command and frees its slot. -/
def takeOut (queue : CommandQueue T) : Option (CommandQueue T) :=
  match queue.ring with
  | [] => none
  | queued :: ring =>
    some ({ queue with
      ring
      received := queue.received ++ [queued] }).addPermit

def alive (handle : Nat) (queue : CommandQueue T) : Bool := queue.handles[handle]? == some true

def stateOf (send : Nat) (queue : CommandQueue T) : Option SendState :=
  queue.sends[send]?.map Send.state

/-- `send` asks for a slot. -/
def acquire (handle : Nat) (command : T) (queue : CommandQueue T) : CommandQueue T :=
  let add (state : SendState) : CommandQueue T :=
    { queue with sends := queue.sends ++ [⟨handle, command, state⟩] }
  if queue.closed then add .refused
  else if 0 < queue.permits ∧ queue.waiters = [] then
    { add .holding with permits := queue.permits - 1 }
  else { add .waiting with waiters := queue.waiters ++ [queue.sends.length] }

/-- The next state, unless the action cannot be taken. -/
def step (queue : CommandQueue T) : QueueAction T → Option (CommandQueue T)
  | .clone handle =>
    if queue.alive handle then
      some { queue with
        senders := queue.senders + 1
        handles := queue.handles ++ [true] }
    else none
  | .dropSender handle =>
    -- a send borrows its handle, so the handle outlives it
    if queue.alive handle ∧
        queue.sends.all (fun send => send.handle != handle || !send.state.inFlight) then
      some { queue with
        senders := queue.senders - 1
        handles := queue.handles.set handle false }
    else none
  | .send handle command =>
    if queue.alive handle then some (queue.acquire handle command) else none
  | .resume send =>
    match queue.stateOf send, queue.closed with
    | some .granted, true => some (queue.setSend send .refused).addPermit
    | some .granted, false => some (queue.setSend send .holding)
    | some .waiting, true => some (queue.setSend send .refused)
    | _, _ => none
  | .push send =>
    match queue.sends[send]? with
    | some ⟨_, command, .holding⟩ =>
      some { queue.setSend send .sent with
        ring := queue.ring ++ [⟨send, command⟩]
        pushed := queue.pushed ++ [⟨send, command⟩] }
    | _ => none
  | .cancel send =>
    match queue.stateOf send with
    | some .waiting =>
      some { queue.setSend send .cancelled with waiters := queue.waiters.erase send }
    | some .granted => some (queue.setSend send .cancelled).addPermit
    | _ => none
  | .tryRecv =>
    match queue.receiver with
    | .idle => some (queue.takeOut.getD queue)
    | _ => none
  | .recvLook =>
    match queue.receiver with
    | .idle => some (queue.takeOut.getD { queue with receiver := .looked })
    | _ => none
  | .recvSenders =>
    match queue.receiver with
    | .looked => some { queue with receiver := if queue.senders = 0 then .last else .idle }
    | _ => none
  | .recvLast =>
    match queue.receiver with
    | .last =>
      some (({ queue with receiver := .idle }).takeOut.getD
        { queue with
          receiver := .idle
          ended := true })
    | _ => none
  | .close =>
    match queue.receiver with
    | .idle => some queue.closeSlots
    | _ => none
  | .drop =>
    match queue.receiver with
    | .idle => some { queue.closeSlots with receiver := .dropping }
    | _ => none
  | .dropNext =>
    match queue.receiver, queue.ring with
    | .dropping, queued :: ring =>
      some { queue with
        ring
        removed := queue.removed ++ [queued] }
    | .dropping, [] => some { queue with receiver := .dropped }
    | _, _ => none

/-! ## Frames -/

section Frames

variable (queue : CommandQueue T) (send : Nat) (state : SendState)

@[simp] theorem setSend_capacity : (queue.setSend send state).capacity = queue.capacity := rfl
@[simp] theorem setSend_ring : (queue.setSend send state).ring = queue.ring := rfl
@[simp] theorem setSend_permits : (queue.setSend send state).permits = queue.permits := rfl
@[simp] theorem setSend_waiters : (queue.setSend send state).waiters = queue.waiters := rfl
@[simp] theorem setSend_receiver : (queue.setSend send state).receiver = queue.receiver := rfl
@[simp] theorem setSend_pushed : (queue.setSend send state).pushed = queue.pushed := rfl

@[simp] theorem addPermit_capacity : queue.addPermit.capacity = queue.capacity := by
  unfold addPermit
  split <;> rfl

@[simp] theorem addPermit_ring : queue.addPermit.ring = queue.ring := by
  unfold addPermit
  split <;> rfl

@[simp] theorem addPermit_receiver : queue.addPermit.receiver = queue.receiver := by
  unfold addPermit
  split <;> rfl

@[simp] theorem addPermit_pushed : queue.addPermit.pushed = queue.pushed := by
  unfold addPermit
  split <;> rfl

@[simp] theorem addPermit_ended : queue.addPermit.ended = queue.ended := by
  unfold addPermit
  split <;> rfl

end Frames

/-! ## Slots -/

/-- What a send holds of the semaphore's permits. -/
def slot (state : SendState) : Nat := if state.ownsSlot then 1 else 0

/-- Permits that are free, in the ring, or with a send. -/
def used (queue : CommandQueue T) : Nat :=
  queue.permits + queue.ring.length + (queue.sends.map fun send => slot send.state).sum

theorem used_setSend {queue : CommandQueue T} {i : Nat} {send : Send T} (state : SendState)
    (made : queue.sends[i]? = some send) :
    (queue.setSend i state).used + slot send.state = queue.used + slot state := by
  have moved := sum_map_modify (fun send : Send T => slot send.state)
    (fun was => { was with state }) made
  show queue.permits + queue.ring.length
      + ((queue.sends.modify i fun was => { was with state }).map fun send => slot send.state).sum
      + slot send.state = _
  unfold used
  dsimp only at moved
  omega

/-! ## What every step keeps -/

/-- Permits aside, what holds of every queue reached. -/
structure Sound (queue : CommandQueue T) : Prop where
  order : queue.pushed = queue.received ++ queue.removed ++ queue.ring
  unremoved : queue.removed = [] ∨ queue.receiver = .dropping ∨ queue.receiver = .dropped
  once : (queue.pushed.map Queued.send).Nodup
  sent : ∀ (i : Nat) (send : Send T), queue.sends[i]? = some send → send.state = .sent →
    ⟨i, send.command⟩ ∈ queue.pushed
  owned : ∀ queued ∈ queue.pushed, ∃ send, queue.sends[queued.send]? = some send ∧
    send.state = .sent ∧ send.command = queued.command
  waits : ∀ i ∈ queue.waiters, ∃ send, queue.sends[i]? = some send ∧ send.state = .waiting
  fair : queue.waiters.Nodup
  shut : queue.closed = true → queue.waiters = []
  /-- A send in flight borrows a handle that is alive. -/
  held : ∀ (i : Nat) (send : Send T), queue.sends[i]? = some send → send.state.inFlight = true →
    queue.alive send.handle = true
  counted : queue.senders = queue.handles.count true
  last : queue.receiver = .last → queue.senders = 0
  finished : queue.ended = true → queue.senders = 0 ∧ queue.ring = []

theorem new_sound (capacity : Nat) : (new capacity : CommandQueue T).Sound where
  order := rfl
  unremoved := .inl rfl
  once := List.nodup_nil
  sent := by simp [new]
  owned := by simp [new]
  waits := by simp [new]
  fair := List.nodup_nil
  shut _ := rfl
  held := by simp [new]
  counted := by simp [new]
  last := by simp [new]
  finished := by simp [new]

theorem getElem?_setSend {queue : CommandQueue T} {i j : Nat} {send after : Send T} {state : SendState}
    (made : queue.sends[i]? = some send) (found : (queue.setSend i state).sends[j]? = some after) :
    (j = i ∧ after = { send with state }) ∨ (j ≠ i ∧ queue.sends[j]? = some after) := by
  have found : (queue.sends.modify i fun was => { was with state })[j]? = some after := found
  by_cases same : i = j
  · subst same
    rw [List.getElem?_modify_eq, made] at found
    exact .inl ⟨rfl, (Option.some.inj found).symm⟩
  · rw [List.getElem?_modify_ne _ _ same] at found
    exact .inr ⟨fun h => same h.symm, found⟩

theorem getElem?_setSend_ne {queue : CommandQueue T} {i j : Nat} (state : SendState) (other : j ≠ i) :
    (queue.setSend i state).sends[j]? = queue.sends[j]? :=
  List.getElem?_modify_ne _ _ fun h => other h.symm

/-- A send that has not pushed moves to a state in which it has not pushed either. -/
theorem Sound.setSend {queue : CommandQueue T} (sound : queue.Sound) {i : Nat} {send : Send T}
    {state : SendState} (made : queue.sends[i]? = some send) (unsent : send.state ≠ .sent)
    (stays : state ≠ .sent) (gone : i ∉ queue.waiters)
    (flies : state.inFlight = true → send.state.inFlight = true) :
    (queue.setSend i state).Sound where
  order := sound.order
  unremoved := sound.unremoved
  once := sound.once
  sent j after found isSent := by
    rcases getElem?_setSend made found with ⟨rfl, rfl⟩ | ⟨_, found⟩
    · exact absurd isSent stays
    · exact sound.sent j after found isSent
  owned queued inside := by
    obtain ⟨owner, found, isSent, same⟩ := sound.owned queued inside
    refine ⟨owner, ?_, isSent, same⟩
    rw [getElem?_setSend_ne]
    · exact found
    · rintro rfl
      exact unsent (Option.some.inj (made.symm.trans found) ▸ isSent)
  waits j inside := by
    rw [getElem?_setSend_ne]
    · exact sound.waits j inside
    · rintro rfl
      exact gone inside
  fair := sound.fair
  shut := sound.shut
  held j after found flying := by
    rcases getElem?_setSend made found with ⟨rfl, rfl⟩ | ⟨_, found⟩
    · exact sound.held j send made (flies flying)
    · exact sound.held j after found flying
  counted := sound.counted
  last := sound.last
  finished := sound.finished

theorem Sound.addPermit {queue : CommandQueue T} (sound : queue.Sound) : queue.addPermit.Sound := by
  unfold CommandQueue.addPermit
  split
  · exact { sound with }
  · rename_i i waiters waiting
    have fair := sound.fair
    rw [waiting, List.nodup_cons] at fair
    obtain ⟨send, made, isWaiting⟩ := sound.waits i (by simp [waiting])
    have popped : Sound { queue with waiters } :=
      { sound with
        waits := fun j inside => sound.waits j (by simp [waiting, inside])
        fair := fair.2
        shut := fun closed => absurd (sound.shut closed) (by simp [waiting]) }
    exact popped.setSend made (by simp [isWaiting]) (by simp) fair.1 (by simp [isWaiting, SendState.inFlight])

theorem Sound.used_addPermit {queue : CommandQueue T} (sound : queue.Sound) :
    queue.addPermit.used = queue.used + 1 := by
  unfold CommandQueue.addPermit
  split
  · unfold used
    dsimp only
    omega
  · rename_i i waiters waiting
    obtain ⟨send, made, isWaiting⟩ := sound.waits i (by simp [waiting])
    have granted := @used_setSend _ { queue with waiters } _ _ .granted made
    rw [isWaiting] at granted
    exact granted

/-- With no sender left, nothing is in flight. -/
theorem Sound.grounded {queue : CommandQueue T} (sound : queue.Sound) (none : queue.senders = 0) {i : Nat}
    {send : Send T} (made : queue.sends[i]? = some send) : send.state.inFlight = false := by
  have noHandle : queue.handles.count true = 0 := sound.counted ▸ none
  have notIn : true ∉ queue.handles := List.count_eq_zero.mp noHandle
  cases flying : send.state.inFlight with
  | false => rfl
  | true =>
      have isAlive := sound.held i send made flying
      unfold alive at isAlive
      exact absurd (List.mem_of_getElem? (eq_of_beq isAlive)) notIn

theorem Sound.dead {queue : CommandQueue T} (sound : queue.Sound) (none : queue.senders = 0)
    (handle : Nat) : queue.alive handle = false := by
  have noHandle : queue.handles.count true = 0 := sound.counted ▸ none
  have notIn : true ∉ queue.handles := List.count_eq_zero.mp noHandle
  cases isAlive : queue.alive handle with
  | false => rfl
  | true => exact absurd (List.mem_of_getElem? (eq_of_beq isAlive)) notIn

theorem Sound.takeOut {queue after : CommandQueue T} (sound : queue.Sound) (kept : queue.removed = [])
    (taken : queue.takeOut = some after) : after.Sound ∧ after.used = queue.used := by
  unfold CommandQueue.takeOut at taken
  cases rest : queue.ring with
  | nil => simp [rest] at taken
  | cons queued ring =>
      rw [rest] at taken
      dsimp only at taken
      have popped : Sound { queue with
          ring
          received := queue.received ++ [queued] } :=
        { sound with
          order := by rw [sound.order, kept, rest]; simp
          finished := fun ended => absurd (sound.finished ended).2 (by simp [rest]) }
      obtain rfl := Option.some.inj taken
      refine ⟨popped.addPermit, ?_⟩
      rw [popped.used_addPermit]
      unfold used
      simp only [rest, List.length_cons]
      omega

theorem Sound.clone {queue : CommandQueue T} (sound : queue.Sound) {handle : Nat}
    (isAlive : queue.alive handle = true) :
    Sound { queue with
      senders := queue.senders + 1
      handles := queue.handles ++ [true] } :=
  { sound with
    held := by
      intro i send made flying
      have was := sound.held i send made flying
      unfold alive at was ⊢
      rw [List.getElem?_append_left (List.getElem?_eq_some_iff.mp (eq_of_beq was)).1]
      exact was
    counted := by
      rw [List.count_append, List.count_singleton_self, sound.counted]
    last := fun isLast => by
      rw [sound.dead (sound.last isLast)] at isAlive
      cases isAlive
    finished := fun ended => by
      rw [sound.dead (sound.finished ended).1] at isAlive
      cases isAlive }

theorem Sound.dropSender {queue : CommandQueue T} (sound : queue.Sound) {handle : Nat}
    (isAlive : queue.alive handle = true)
    (unborrowed : queue.sends.all (fun send => send.handle != handle || !send.state.inFlight) = true) :
    Sound { queue with
      senders := queue.senders - 1
      handles := queue.handles.set handle false } :=
  { sound with
    held := by
      intro i send made flying
      have other : send.handle ≠ handle := by
        have free := List.all_eq_true.mp unborrowed send (List.mem_of_getElem? made)
        rw [flying] at free
        simpa using free
      have was := sound.held i send made flying
      unfold alive at was ⊢
      rw [List.getElem?_set_ne other.symm]
      exact was
    counted := by
      have found : queue.handles[handle]? = some true := eq_of_beq isAlive
      obtain ⟨inside, isTrue⟩ := List.getElem?_eq_some_iff.mp found
      rw [List.count_set inside, isTrue, sound.counted]
      rfl
    last := fun isLast => by rw [sound.last isLast]
    finished := fun ended => by rw [(sound.finished ended).1]; exact ⟨rfl, (sound.finished ended).2⟩ }

/-- A send begins, in any state but one that pushed. -/
theorem Sound.begin {queue : CommandQueue T} (sound : queue.Sound) {handle : Nat}
    (isAlive : queue.alive handle = true) (command : T) {state : SendState} (unsent : state ≠ .sent) :
    Sound { queue with sends := queue.sends ++ [⟨handle, command, state⟩] } :=
  have kept {i : Nat} {send : Send T} (made : queue.sends[i]? = some send) :
      (queue.sends ++ [⟨handle, command, state⟩])[i]? = some send := by
    rw [List.getElem?_append_left (List.getElem?_eq_some_iff.mp made).1]
    exact made
  have cases {i : Nat} {send : Send T}
      (found : (queue.sends ++ [⟨handle, command, state⟩])[i]? = some send) :
      queue.sends[i]? = some send ∨ send = ⟨handle, command, state⟩ := by
    rw [List.getElem?_append] at found
    split at found
    · exact .inl found
    · exact .inr (List.mem_singleton.mp (List.mem_of_getElem? found))
  { sound with
    sent := by
      intro i send found isSent
      rcases cases found with made | rfl
      · exact sound.sent i send made isSent
      · exact absurd isSent unsent
    owned := by
      intro queued inside
      obtain ⟨send, made, facts⟩ := sound.owned queued inside
      exact ⟨send, kept made, facts⟩
    waits := by
      intro i inside
      obtain ⟨send, made, isWaiting⟩ := sound.waits i inside
      exact ⟨send, kept made, isWaiting⟩
    held := by
      intro i send found flying
      rcases cases found with made | rfl
      · exact sound.held i send made flying
      · exact isAlive }

theorem Sound.acquire {queue : CommandQueue T} (sound : queue.Sound) {handle : Nat}
    (isAlive : queue.alive handle = true) (command : T) :
    (queue.acquire handle command).Sound ∧ (queue.acquire handle command).used = queue.used := by
  have begun (state : SendState) (permits : Nat) (waiters : List Nat) :
      used { queue with
        permits
        waiters
        sends := queue.sends ++ [⟨handle, command, state⟩] } + queue.permits
        = queue.used + permits + slot state := by
    simp only [used, List.map_append, List.map_singleton, List.sum_append, List.sum_singleton]
    omega
  unfold CommandQueue.acquire
  split
  · refine ⟨sound.begin isAlive command (by simp), ?_⟩
    exact Nat.add_right_cancel (begun .refused queue.permits queue.waiters)
  · rename_i isOpen
    split
    · rename_i free
      refine ⟨{ sound.begin isAlive command (by simp : SendState.holding ≠ .sent) with }, ?_⟩
      have all := begun .holding (queue.permits - 1) queue.waiters
      have one : slot .holding = 1 := rfl
      dsimp only at all ⊢
      omega
    · have fresh : queue.sends.length ∉ queue.waiters := by
        intro inside
        obtain ⟨send, made, _⟩ := sound.waits _ inside
        rw [List.getElem?_eq_none (Nat.le_refl _)] at made
        cases made
      have added := sound.begin isAlive command (by simp : SendState.waiting ≠ .sent)
      refine ⟨{ added with
        waits := ?_
        fair := ?_
        shut := fun closed => absurd closed isOpen }, ?_⟩
      · intro i inside
        rcases List.mem_append.mp inside with old | new
        · exact added.waits i old
        · obtain rfl := List.mem_singleton.mp new
          exact ⟨_, List.getElem?_concat_length, rfl⟩
      · refine List.nodup_append.mpr ⟨sound.fair, List.nodup_singleton _, ?_⟩
        intro i inside j new same
        obtain rfl := List.mem_singleton.mp new
        exact fresh (same ▸ inside)
      · exact Nat.add_right_cancel (begun .waiting queue.permits _)

/-- The push of a send that holds its slot. -/
theorem Sound.push {queue : CommandQueue T} (sound : queue.Sound) {i handle : Nat} {command : T}
    (made : queue.sends[i]? = some ⟨handle, command, .holding⟩) :
    Sound { queue.setSend i .sent with
      ring := queue.ring ++ [⟨i, command⟩]
      pushed := queue.pushed ++ [⟨i, command⟩] } where
  order := by
    show queue.pushed ++ [_] = queue.received ++ queue.removed ++ (queue.ring ++ [_])
    rw [sound.order, List.append_assoc]
  unremoved := sound.unremoved
  once := by
    rw [List.map_append]
    refine List.nodup_append.mpr ⟨sound.once, List.nodup_singleton _, ?_⟩
    intro j inside k new same
    obtain rfl := List.mem_singleton.mp new
    obtain ⟨queued, before, rfl⟩ := List.mem_map.mp inside
    obtain ⟨send, found, isSent, _⟩ := sound.owned queued before
    rw [same, made] at found
    cases found
    cases isSent
  sent j after found isSent := by
    rcases getElem?_setSend made found with ⟨rfl, rfl⟩ | ⟨_, found⟩
    · exact List.mem_append_right _ (List.mem_singleton_self _)
    · exact List.mem_append_left _ (sound.sent j after found isSent)
  owned queued inside := by
    rcases List.mem_append.mp inside with before | new
    · obtain ⟨send, found, isSent, same⟩ := sound.owned queued before
      refine ⟨send, ?_, isSent, same⟩
      refine (getElem?_setSend_ne .sent ?_).trans found
      rintro rfl
      rw [made] at found
      cases found
      cases isSent
    · obtain rfl := List.mem_singleton.mp new
      refine ⟨⟨handle, command, .sent⟩, ?_, rfl, rfl⟩
      show (queue.sends.modify i fun was => { was with state := .sent })[i]? = _
      rw [List.getElem?_modify_eq, made]
      rfl
  waits j inside := by
    obtain ⟨send, found, isWaiting⟩ := sound.waits j inside
    refine ⟨send, (getElem?_setSend_ne .sent ?_).trans found, isWaiting⟩
    rintro rfl
    rw [made] at found
    cases found
    cases isWaiting
  fair := sound.fair
  shut := sound.shut
  held j after found flying := by
    rcases getElem?_setSend made found with ⟨rfl, rfl⟩ | ⟨_, found⟩
    · cases flying
    · exact sound.held j after found flying
  counted := sound.counted
  last := sound.last
  finished ended := absurd (sound.grounded (sound.finished ended).1 made) (by simp [SendState.inFlight])

theorem used_push {queue : CommandQueue T} {i handle : Nat} {command : T}
    (made : queue.sends[i]? = some ⟨handle, command, .holding⟩) :
    used { queue.setSend i .sent with
      ring := queue.ring ++ [⟨i, command⟩]
      pushed := queue.pushed ++ [⟨i, command⟩] } = queue.used := by
  have moved := used_setSend .sent made
  have one : slot .holding = 1 := rfl
  have zero : slot .sent = 0 := rfl
  unfold used at moved ⊢
  simp only [setSend_permits, setSend_ring, List.length_append, List.length_singleton] at moved ⊢
  omega

theorem stateOf_eq {queue : CommandQueue T} {i : Nat} {state : SendState} (found : queue.stateOf i = some state) :
    ∃ send, queue.sends[i]? = some send ∧ send.state = state :=
  Option.map_eq_some_iff.mp found

/-- A send that is not waiting is not among the waiters. -/
theorem Sound.notWaiting {queue : CommandQueue T} (sound : queue.Sound) {i : Nat} {send : Send T}
    (made : queue.sends[i]? = some send) (moved : send.state ≠ .waiting) : i ∉ queue.waiters := by
  intro inside
  obtain ⟨waiter, found, isWaiting⟩ := sound.waits i inside
  obtain rfl := Option.some.inj (made.symm.trans found)
  exact moved isWaiting

theorem Sound.unremoved_of {queue : CommandQueue T} (sound : queue.Sound) (notDropping : queue.receiver ≠ .dropping)
    (notDropped : queue.receiver ≠ .dropped) : queue.removed = [] := by
  rcases sound.unremoved with none | dropping | dropped
  · exact none
  · exact absurd dropping notDropping
  · exact absurd dropped notDropped

theorem Sound.closeSlots {queue : CommandQueue T} (sound : queue.Sound) : queue.closeSlots.Sound :=
  { sound with
    waits := by simp [CommandQueue.closeSlots]
    fair := List.nodup_nil
    shut := fun _ => rfl }

/-- A step keeps the queue sound, and the slots it counts. -/
def Keeps (queue after : CommandQueue T) : Prop := after.Sound ∧ after.used ≤ queue.used

theorem Sound.resume {queue after : CommandQueue T} (sound : queue.Sound) {i : Nat}
    (taken : queue.step (.resume i) = some after) : queue.Keeps after := by
  simp only [step] at taken
  split at taken
  · rename_i found _
    obtain ⟨send, made, granted⟩ := stateOf_eq found
    have free := sound.notWaiting made (by simp [granted])
    have refused := sound.setSend made (by simp [granted]) (by simp : SendState.refused ≠ .sent) free
      (by simp [SendState.inFlight])
    obtain rfl := Option.some.inj taken
    refine ⟨refused.addPermit, ?_⟩
    have moved := used_setSend .refused made
    rw [granted] at moved
    rw [refused.used_addPermit]
    exact Nat.le_of_eq moved
  · rename_i found _
    obtain ⟨send, made, granted⟩ := stateOf_eq found
    have free := sound.notWaiting made (by simp [granted])
    obtain rfl := Option.some.inj taken
    refine ⟨sound.setSend made (by simp [granted]) (by simp) free (by simp [granted, SendState.inFlight]), ?_⟩
    have moved := used_setSend .holding made
    rw [granted] at moved
    exact Nat.le_of_eq (Nat.add_right_cancel moved)
  · rename_i found closed
    obtain ⟨send, made, waiting⟩ := stateOf_eq found
    have free : i ∉ queue.waiters := by
      rw [sound.shut closed]
      exact List.not_mem_nil
    obtain rfl := Option.some.inj taken
    refine ⟨sound.setSend made (by simp [waiting]) (by simp) free (by simp [SendState.inFlight]), ?_⟩
    have moved := used_setSend .refused made
    rw [waiting] at moved
    exact Nat.le_of_eq moved
  · cases taken

theorem Sound.cancel {queue after : CommandQueue T} (sound : queue.Sound) {i : Nat}
    (taken : queue.step (.cancel i) = some after) : queue.Keeps after := by
  simp only [step] at taken
  split at taken
  · rename_i found
    obtain ⟨send, made, waiting⟩ := stateOf_eq found
    have erased : Sound { queue with waiters := queue.waiters.erase i } :=
      { sound with
        waits := fun j inside => sound.waits j (List.mem_of_mem_erase inside)
        fair := sound.fair.erase i
        shut := fun closed => by rw [sound.shut closed]; rfl }
    have moved := used_setSend .cancelled made
    rw [waiting] at moved
    obtain rfl := Option.some.inj taken
    exact ⟨erased.setSend made (by simp [waiting]) (by simp) sound.fair.not_mem_erase
      (by simp [SendState.inFlight]), Nat.le_of_eq moved⟩
  · rename_i found
    obtain ⟨send, made, granted⟩ := stateOf_eq found
    have free := sound.notWaiting made (by simp [granted])
    have cancelled := sound.setSend made (by simp [granted]) (by simp : SendState.cancelled ≠ .sent) free
      (by simp [SendState.inFlight])
    obtain rfl := Option.some.inj taken
    refine ⟨cancelled.addPermit, ?_⟩
    have moved := used_setSend .cancelled made
    rw [granted] at moved
    rw [cancelled.used_addPermit]
    exact Nat.le_of_eq moved
  · cases taken

theorem takeOut_eq_none {queue : CommandQueue T} (taken : queue.takeOut = none) : queue.ring = [] := by
  unfold CommandQueue.takeOut at taken
  cases rest : queue.ring with
  | nil => rfl
  | cons queued ring => simp [rest] at taken

/-- The receiver's look into the ring, which may find nothing. -/
theorem Sound.look {queue otherwise after : CommandQueue T} (sound : queue.Sound) (kept : queue.removed = [])
    (nothing : queue.ring = [] → queue.Keeps otherwise) (taken : some (queue.takeOut.getD otherwise) = some after) :
    queue.Keeps after := by
  obtain rfl := Option.some.inj taken
  cases took : queue.takeOut with
  | none => exact nothing (takeOut_eq_none took)
  | some next =>
      obtain ⟨isSound, same⟩ := sound.takeOut kept took
      exact ⟨isSound, Nat.le_of_eq same⟩

theorem Sound.keeps {queue after : CommandQueue T} (sound : queue.Sound) (action : QueueAction T)
    (taken : queue.step action = some after) : queue.Keeps after := by
  cases action with
  | clone handle =>
      obtain ⟨isAlive, ran⟩ := Option.ite_none_right_eq_some.mp taken
      obtain rfl := Option.some.inj ran
      exact ⟨sound.clone isAlive, Nat.le_refl _⟩
  | dropSender handle =>
      obtain ⟨⟨isAlive, unborrowed⟩, ran⟩ := Option.ite_none_right_eq_some.mp taken
      obtain rfl := Option.some.inj ran
      exact ⟨sound.dropSender isAlive unborrowed, Nat.le_refl _⟩
  | send handle command =>
      obtain ⟨isAlive, ran⟩ := Option.ite_none_right_eq_some.mp taken
      obtain rfl := Option.some.inj ran
      exact (sound.acquire isAlive command).imp id Nat.le_of_eq
  | resume i => exact sound.resume taken
  | push i =>
      simp only [step] at taken
      split at taken
      · rename_i made
        obtain rfl := Option.some.inj taken
        exact ⟨sound.push made, Nat.le_of_eq (used_push made)⟩
      · cases taken
  | cancel i => exact sound.cancel taken
  | tryRecv =>
      simp only [step] at taken
      split at taken
      · rename_i idle
        have kept := sound.unremoved_of (by simp [idle]) (by simp [idle])
        exact sound.look kept (fun _ => ⟨sound, Nat.le_refl _⟩) taken
      · cases taken
  | recvLook =>
      simp only [step] at taken
      split at taken
      · rename_i idle
        have kept := sound.unremoved_of (by simp [idle]) (by simp [idle])
        refine sound.look kept ?_ taken
        intro _
        exact ⟨{ sound with
          unremoved := .inl kept
          last := fun isLast => by cases isLast }, Nat.le_refl _⟩
      · cases taken
  | recvSenders =>
      simp only [step] at taken
      split at taken
      · rename_i looked
        have kept := sound.unremoved_of (by simp [looked]) (by simp [looked])
        obtain rfl := Option.some.inj taken
        refine ⟨{ sound with
          unremoved := .inl kept
          last := fun isLast => ?_ }, Nat.le_refl _⟩
        dsimp only at isLast
        split at isLast
        · assumption
        · cases isLast
      · cases taken
  | recvLast =>
      simp only [step] at taken
      split at taken
      · rename_i isLast
        have kept := sound.unremoved_of (by simp [isLast]) (by simp [isLast])
        have woken : Sound { queue with receiver := .idle } :=
          { sound with
            unremoved := .inl kept
            last := fun isLast => by cases isLast }
        refine woken.look kept ?_ taken
        intro isEmpty
        exact ⟨{ woken with finished := fun _ => ⟨sound.last isLast, isEmpty⟩ }, Nat.le_refl _⟩
      · cases taken
  | close =>
      simp only [step] at taken
      split at taken
      · obtain rfl := Option.some.inj taken
        exact ⟨sound.closeSlots, Nat.le_refl _⟩
      · cases taken
  | drop =>
      simp only [step] at taken
      split at taken
      · obtain rfl := Option.some.inj taken
        exact ⟨{ sound.closeSlots with
          unremoved := .inr (.inl rfl)
          last := fun isLast => by cases isLast }, Nat.le_refl _⟩
      · cases taken
  | dropNext =>
      simp only [step] at taken
      split at taken
      · rename_i queued ring dropping rest
        obtain rfl := Option.some.inj taken
        refine ⟨{ sound with
          order := ?_
          unremoved := .inr (.inl dropping)
          finished := fun ended => absurd (sound.finished ended).2 (by simp [rest]) }, ?_⟩
        · rw [sound.order, rest]
          simp
        · unfold used
          simp only [rest, List.length_cons]
          omega
      · obtain rfl := Option.some.inj taken
        exact ⟨{ sound with
          unremoved := .inr (.inr rfl)
          last := fun isLast => by cases isLast }, Nat.le_refl _⟩
      · cases taken

/-! ## The end of the queue -/

@[simp] theorem addPermit_senders (queue : CommandQueue T) : queue.addPermit.senders = queue.senders := by
  unfold addPermit
  split <;> rfl

@[simp] theorem addPermit_removed (queue : CommandQueue T) : queue.addPermit.removed = queue.removed := by
  unfold addPermit
  split <;> rfl

/-- A look into the ring leaves the senders and what was pushed. -/
theorem look_frame {queue otherwise after : CommandQueue T}
    (taken : some (queue.takeOut.getD otherwise) = some after)
    (senders : otherwise.senders = queue.senders) (pushed : otherwise.pushed = queue.pushed) :
    after.senders = queue.senders ∧ after.pushed = queue.pushed := by
  obtain rfl := Option.some.inj taken
  unfold takeOut
  split
  · exact ⟨senders, pushed⟩
  · exact ⟨addPermit_senders _, addPermit_pushed _⟩

/-- Without senders nothing is pushed, and no sender comes back. -/
theorem Sound.quiet {queue after : CommandQueue T} (sound : queue.Sound) (none : queue.senders = 0)
    {action : QueueAction T} (taken : queue.step action = some after) :
    after.senders = queue.senders ∧ after.pushed = queue.pushed := by
  cases action with
  | clone handle | dropSender handle | send handle command =>
      simp [step, sound.dead none] at taken
  | resume i =>
      simp only [step] at taken
      split at taken
      · obtain rfl := Option.some.inj taken
        exact ⟨addPermit_senders _, addPermit_pushed _⟩
      · obtain rfl := Option.some.inj taken
        exact ⟨rfl, rfl⟩
      · obtain rfl := Option.some.inj taken
        exact ⟨rfl, rfl⟩
      · cases taken
  | push i =>
      simp only [step] at taken
      split at taken
      · rename_i made
        cases sound.grounded none made
      · cases taken
  | cancel i =>
      simp only [step] at taken
      split at taken
      · obtain rfl := Option.some.inj taken
        exact ⟨rfl, rfl⟩
      · obtain rfl := Option.some.inj taken
        exact ⟨addPermit_senders _, addPermit_pushed _⟩
      · cases taken
  | tryRecv | recvLook =>
      simp only [step] at taken
      split at taken
      · exact look_frame taken rfl rfl
      · cases taken
  | recvLast =>
      simp only [step] at taken
      split at taken
      · exact @look_frame _ { queue with receiver := .idle } _ _ taken rfl rfl
      · cases taken
  | recvSenders | close | drop =>
      simp only [step] at taken
      split at taken
      · obtain rfl := Option.some.inj taken
        exact ⟨rfl, rfl⟩
      · cases taken
  | dropNext =>
      simp only [step] at taken
      split at taken
      · obtain rfl := Option.some.inj taken
        exact ⟨rfl, rfl⟩
      · obtain rfl := Option.some.inj taken
        exact ⟨rfl, rfl⟩
      · cases taken

/-- Once the senders are gone, no run pushes again. -/
theorem Sound.ends {queue later : CommandQueue T} (sound : queue.Sound) (none : queue.senders = 0)
    (reached : Reaches step anyStep queue later) : later.pushed = queue.pushed := by
  have quiet : later.Sound ∧ later.senders = 0 ∧ later.pushed = queue.pushed := by
    refine Reaches.invariant (P := fun now => now.Sound ∧ now.senders = 0 ∧ now.pushed = queue.pushed)
      ?_ ⟨sound, none, rfl⟩ reached
    intro now action next was _ taken
    obtain ⟨isSound, gone, same⟩ := was
    obtain ⟨senders, pushed⟩ := isSound.quiet gone taken
    exact ⟨(isSound.keeps action taken).1, senders.trans gone, pushed.trans same⟩
  exact quiet.2.2

/-! ## What the queue promises -/

/-- The queue loses and duplicates nothing. -/
structure Kept (queue : CommandQueue T) : Prop where
  /-- Commands leave in the order they were pushed. -/
  order : queue.pushed = queue.received ++ queue.removed ++ queue.ring
  room : queue.permits + queue.ring.length ≤ queue.capacity
  once : (queue.pushed.map Queued.send).Nodup
  /-- A send that answered `Ok` pushed its command; any other did not. -/
  answered : ∀ (i : Nat) (send : Send T), queue.sends[i]? = some send →
    if send.state = .sent then ⟨i, send.command⟩ ∈ queue.pushed
    else ∀ queued ∈ queue.pushed, queued.send ≠ i
  /-- `recv` answers that no command will come only when none can. -/
  finished : queue.ended = true → queue.ring = [] ∧
    ∀ later, Reaches step anyStep queue later → later.pushed = queue.pushed
  /-- Nothing is left in the ring of a receiver that is gone. -/
  settled : queue.receiver = .dropped → ∀ (i : Nat) (send : Send T),
    queue.sends[i]? = some send → send.state = .sent →
    ⟨i, send.command⟩ ∈ queue.received ∨ ⟨i, send.command⟩ ∈ queue.removed

/-- A send pushes only while the receiver still looks into the ring. -/
def PushesInTime (queue : CommandQueue T) : QueueAction T → Prop
  | .push _ => queue.receiver ≠ .dropped
  | _ => True

/-- The ring of a receiver that is gone. -/
def Discarded (queue : CommandQueue T) : Prop := queue.receiver = .dropped → queue.ring = []

theorem look_keeps {queue otherwise after : CommandQueue T}
    (taken : some (queue.takeOut.getD otherwise) = some after)
    (capacity : otherwise.capacity = queue.capacity) (still : queue.receiver ≠ .dropped)
    (present : otherwise.receiver ≠ .dropped) :
    after.capacity = queue.capacity ∧ after.Discarded := by
  obtain rfl := Option.some.inj taken
  unfold takeOut
  split
  · exact ⟨capacity, fun dropped => absurd dropped present⟩
  · refine ⟨addPermit_capacity _, fun dropped => ?_⟩
    rw [Option.getD_some, addPermit_receiver] at dropped
    exact absurd dropped still

/-- A step leaves the capacity, and a dropped receiver's ring empty unless it pushes there. -/
theorem step_discarded {queue after : CommandQueue T} (discarded : queue.Discarded) {action : QueueAction T}
    (inTime : queue.PushesInTime action) (taken : queue.step action = some after) :
    after.capacity = queue.capacity ∧ after.Discarded := by
  cases action with
  | clone handle | dropSender handle =>
      obtain ⟨_, ran⟩ := Option.ite_none_right_eq_some.mp taken
      obtain rfl := Option.some.inj ran
      exact ⟨rfl, discarded⟩
  | send handle command =>
      obtain ⟨_, ran⟩ := Option.ite_none_right_eq_some.mp taken
      obtain rfl := Option.some.inj ran
      unfold acquire
      split
      · exact ⟨rfl, discarded⟩
      · split <;> exact ⟨rfl, discarded⟩
  | resume i =>
      simp only [step] at taken
      split at taken
      · obtain rfl := Option.some.inj taken
        refine ⟨addPermit_capacity _, ?_⟩
        intro dropped
        rw [addPermit_receiver] at dropped
        rw [addPermit_ring]
        exact discarded dropped
      · obtain rfl := Option.some.inj taken
        exact ⟨rfl, discarded⟩
      · obtain rfl := Option.some.inj taken
        exact ⟨rfl, discarded⟩
      · cases taken
  | push i =>
      simp only [step] at taken
      split at taken
      · obtain rfl := Option.some.inj taken
        exact ⟨rfl, fun dropped => absurd dropped inTime⟩
      · cases taken
  | cancel i =>
      simp only [step] at taken
      split at taken
      · obtain rfl := Option.some.inj taken
        exact ⟨rfl, discarded⟩
      · obtain rfl := Option.some.inj taken
        refine ⟨addPermit_capacity _, ?_⟩
        intro dropped
        rw [addPermit_receiver] at dropped
        rw [addPermit_ring]
        exact discarded dropped
      · cases taken
  | tryRecv | recvLook =>
      simp only [step] at taken
      split at taken
      · rename_i idle
        exact look_keeps taken rfl (by simp [idle]) (by simp [idle])
      · cases taken
  | recvLast =>
      simp only [step] at taken
      split at taken
      · exact @look_keeps _ { queue with receiver := .idle } _ _ taken rfl (by simp) (by simp)
      · cases taken
  | recvSenders =>
      simp only [step] at taken
      split at taken
      · obtain rfl := Option.some.inj taken
        refine ⟨rfl, fun dropped => ?_⟩
        dsimp only at dropped
        split at dropped <;> cases dropped
      · cases taken
  | close =>
      simp only [step] at taken
      split at taken
      · obtain rfl := Option.some.inj taken
        exact ⟨rfl, discarded⟩
      · cases taken
  | drop =>
      simp only [step] at taken
      split at taken
      · obtain rfl := Option.some.inj taken
        exact ⟨rfl, fun dropped => by cases dropped⟩
      · cases taken
  | dropNext =>
      simp only [step] at taken
      split at taken
      · rename_i dropping _
        obtain rfl := Option.some.inj taken
        refine ⟨rfl, fun dropped => ?_⟩
        rw [show queue.receiver = .dropped from dropped] at dropping
        cases dropping
      · rename_i isEmpty
        obtain rfl := Option.some.inj taken
        exact ⟨rfl, fun _ => isEmpty⟩
      · cases taken

theorem Sound.kept {queue : CommandQueue T} (sound : queue.Sound) (room : queue.used ≤ queue.capacity)
    (discarded : queue.Discarded) : queue.Kept where
  order := sound.order
  room := by
    unfold used at room
    omega
  once := sound.once
  answered i send made := by
    split
    · rename_i isSent
      exact sound.sent i send made isSent
    · rename_i unsent
      intro queued inside same
      obtain ⟨owner, found, isSent, _⟩ := sound.owned queued inside
      rw [same, made] at found
      obtain rfl := Option.some.inj found
      exact unsent isSent
  finished ended := by
    obtain ⟨none, isEmpty⟩ := sound.finished ended
    exact ⟨isEmpty, fun later reached => sound.ends none reached⟩
  settled dropped i send made isSent := by
    have inside := sound.sent i send made isSent
    rw [sound.order, discarded dropped, List.append_nil] at inside
    exact List.mem_append.mp inside

/-- A push into a ring that nothing reads any more is never taken out. -/
theorem Sound.stranded {queue after : CommandQueue T} (sound : queue.Sound) {i : Nat}
    (dropped : queue.receiver = .dropped) (taken : queue.step (.push i) = some after) :
    ¬ after.Kept := by
  intro kept
  simp only [step] at taken
  split at taken
  · rename_i handle command made
    obtain rfl := Option.some.inj taken
    have unowned : ∀ queued ∈ queue.pushed, queued.send ≠ i := by
      intro queued inside same
      obtain ⟨owner, found, isSent, _⟩ := sound.owned queued inside
      rw [same, made] at found
      cases found
      cases isSent
    have inside : (⟨i, command⟩ : Queued T) ∈ queue.received ++ queue.removed := by
      refine List.mem_append.mpr (kept.settled dropped i ⟨handle, command, .sent⟩ ?_ rfl)
      show (queue.sends.modify i fun was => { was with state := .sent })[i]? = _
      rw [List.getElem?_modify_eq, made]
      rfl
    refine unowned ⟨i, command⟩ ?_ rfl
    rw [sound.order]
    exact List.mem_append_left _ inside
  · cases taken

/-- In a run whose pushes all come in time, every queue is kept; and the step that breaks it is
a push that comes late. -/
theorem kept_while_pushes_in_time (capacity : Nat) (queue : CommandQueue T)
    (reached : Reaches step PushesInTime (new capacity) queue) :
    queue.Kept ∧ ∀ action after, queue.step action = some after →
      (after.Kept ↔ queue.PushesInTime action) := by
  have invariant : queue.Sound ∧ queue.used ≤ queue.capacity ∧ queue.Discarded := by
    refine Reaches.invariant (P := fun now => now.Sound ∧ now.used ≤ now.capacity ∧ now.Discarded)
      ?_ ⟨new_sound capacity, by simp [new, used], fun dropped => by cases dropped⟩ reached
    intro now action next was inTime taken
    obtain ⟨sound, room, discarded⟩ := was
    obtain ⟨isSound, less⟩ := sound.keeps action taken
    obtain ⟨same, still⟩ := step_discarded discarded inTime taken
    exact ⟨isSound, same ▸ Nat.le_trans less room, still⟩
  obtain ⟨sound, room, discarded⟩ := invariant
  refine ⟨sound.kept room discarded, ?_⟩
  intro action after taken
  constructor
  · intro kept
    cases action with
    | push i =>
        intro dropped
        exact sound.stranded dropped taken kept
    | _ => trivial
  · intro inTime
    obtain ⟨isSound, less⟩ := sound.keeps action taken
    obtain ⟨same, still⟩ := step_discarded discarded inTime taken
    exact isSound.kept (same ▸ Nat.le_trans less room) still

/-- A session: a send, its command received, the handle dropped, and the end read. -/
def oneCommand : List (QueueAction Nat) :=
  [.send 0 7, .push 0, .recvLook, .dropSender 0, .recvLook, .recvSenders, .recvLast, .drop, .dropNext]

theorem oneCommand_kept : ∃ queue, run step (new 4 : CommandQueue Nat) oneCommand = some queue ∧
    queue.ended = true ∧ queue.Kept := by
  refine ⟨_, rfl, rfl, (kept_while_pushes_in_time 4 _ ?_).1⟩
  refine .next (.next (.next (.next (.next (.next (.next (.next (.next .refl (.send 0 7) ?_ rfl)
    (.push 0) ?_ rfl) .recvLook ?_ rfl) (.dropSender 0) ?_ rfl) .recvLook ?_ rfl) .recvSenders ?_ rfl)
    .recvLast ?_ rfl) .drop ?_ rfl) .dropNext ?_ rfl
  all_goals simp [PushesInTime, new, acquire]

/-- The receiver goes between a send's slot and its push. -/
def latePush : List (QueueAction Nat) := [.send 0 7, .drop, .dropNext, .push 0]

theorem latePush_strands : ∃ queue, Reaches step anyStep (new 4 : CommandQueue Nat) queue ∧
    queue.receiver = .dropped ∧ queue.stateOf 0 = some .sent ∧ queue.ring = [⟨0, 7⟩] ∧ ¬ queue.Kept := by
  have reached (queue : CommandQueue Nat) (ran : run step (new 4) latePush = some queue) :
      Reaches step anyStep (new 4) queue := reaches_of_run ran
  refine ⟨_, reached _ rfl, rfl, rfl, rfl, ?_⟩
  intro kept
  rcases kept.settled rfl 0 ⟨0, 7, .sent⟩ rfl rfl with inside | inside <;> cases inside

end CommandQueue

end IronFix.Engine
