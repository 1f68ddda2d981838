import IronFix.Lib.Effects
import IronFix.Store.Memory
import IronFix.Session.Logon

/-!
# The engine and the store it calls

What the engine holds, the store beside it, and one store call between them.
A call answers, fails with its effect unknown, or is cut: the caller is gone
before the answer. A failed or cut mutation has taken effect, is lost, or is
still in flight; the store applies mutations in call order, so one in flight
lands before the next mutation or never.
-/

namespace IronFix.Engine

open Lib.Decimal Lib.Effects
open IronFix.Store IronFix.Session

/-- What a failed store write means. -/
inductive StoreFailurePolicy where
  | «continue»
  | closeSession
  deriving DecidableEq, Repr

def StoreFailurePolicy.closesSession : StoreFailurePolicy → Bool
  | .closeSession => true
  | .continue => false

inductive EngineError where
  | store (error : StoreError)
  | sequenceExhausted (counter : SequenceCounter)
  | initialSequenceBelowStore (seeded stored : Nat)
  | invalidInitialSequence (counter : SequenceCounter)
  /-- The sender sequence moved while a frame was being built. -/
  | sequenceMoved (seq allocated : Nat)
  | encode
  | messageTooLarge (size maxSize : Nat)
  | transport
  deriving DecidableEq, Repr

/-- Why a program stopped: its caller is gone, or it answered an error. -/
inductive Stop where
  | cut
  | failed (error : EngineError)
  deriving DecidableEq, Repr

/-! ## Mutations -/

/-- A call that changes the store. -/
inductive Mutation where
  | fileOutbound (seq : Nat) (msgType : MsgType) (frame : Bytes) (nextSender : Nat)
  | setNextSenderSeq (seq : Nat)
  | setNextTargetSeq (seq : Nat)
  | setAppWatermark (watermark : Nat)
  | setResetOwed (owed : Bool)
  | reset
  | resetTo (nextSender nextTarget : Nat)

namespace Mutation

def apply : Mutation → MemoryStore → MemoryStore
  | fileOutbound seq msgType frame nextSender, store =>
      store.fileOutbound seq msgType frame nextSender
  | setNextSenderSeq seq, store => store.setNextSenderSeq seq
  | setNextTargetSeq seq, store => store.setNextTargetSeq seq
  | setAppWatermark watermark, store => store.setAppWatermark watermark
  | setResetOwed owed, store => store.setResetOwed owed
  | reset, store => store.reset
  | resetTo nextSender nextTarget, store => store.resetTo nextSender nextTarget

/-- The mutation is a sequence reset. -/
def resets : Mutation → Bool
  | reset => true
  | resetTo _ _ => true
  | _ => false

/-- The next sender number the mutation sets. -/
def nextSender : Mutation → Option Nat
  | fileOutbound _ _ _ nextSender => some nextSender
  | setNextSenderSeq seq => some seq
  | reset => some 1
  | resetTo nextSender _ => some nextSender
  | _ => none

theorem apply_nextSenderSeq (mutation : Mutation) (store : MemoryStore) :
    (mutation.apply store).nextSenderSeq = mutation.nextSender.getD store.nextSenderSeq := by
  cases mutation <;> rfl

end Mutation

/-! ## What becomes of a call -/

/-- What a mutation that did not answer did. -/
inductive Landing where
  | applied
  | lost
  | late
  deriving DecidableEq, Repr

inductive Fate where
  | done
  | failed (error : StoreError) (landing : Landing)
  | cut (landing : Landing)
  deriving DecidableEq, Repr

/-- What became of the mutation in flight since the last call. -/
inductive Earlier where
  | landed
  | lost
  | waiting
  deriving DecidableEq, Repr

/-- The environment's part in one call. -/
structure Turn where
  earlier : Earlier
  fate : Fate
  deriving DecidableEq, Repr

/-! ## The engine's state -/

/-- The resets an engine owes, numbered in the order they were recorded. -/
structure OwedReset where
  recorded : Nat
  settled : Nat
  deriving DecidableEq, Repr

namespace OwedReset

def new : OwedReset := ⟨0, 0⟩

/-- Records an obligation: its number, and the record with it. -/
def owe (owed : OwedReset) : Nat × OwedReset :=
  match checkedAdd u64Max owed.recorded 1 with
  | none => (owed.recorded, owed)
  | some next => (next, { owed with recorded := next })

def isOwed (owed : OwedReset) : Bool := owed.recorded > owed.settled

/-- Settles the obligation and every earlier one. -/
def pay (owed : OwedReset) (ticket : Nat) : OwedReset :=
  { owed with settled := max owed.settled ticket }

/-- Takes over an obligation the store's marker carries. -/
def recover (owed : OwedReset) : OwedReset := if owed.isOwed then owed else owed.owe.2

end OwedReset

/-- The counter values last written to the store. -/
structure PersistedCounters where
  sender : Option Nat
  target : Option Nat
  deriving DecidableEq, Repr

namespace PersistedCounters

def new : PersistedCounters := ⟨none, none⟩

def senderToWrite (persisted : PersistedCounters) (current : Nat) : Option Nat :=
  if persisted.sender ≠ some current then some current else none

def targetToWrite (persisted : PersistedCounters) (current : Nat) : Option Nat :=
  if persisted.target ≠ some current then some current else none

def recordSender (persisted : PersistedCounters) (value : Nat) : PersistedCounters :=
  { persisted with sender := some value }

def recordTarget (persisted : PersistedCounters) (value : Nat) : PersistedCounters :=
  { persisted with target := some value }

end PersistedCounters

/-- A frame handed to the transport under a number it spends, and how many
sequence resets had taken effect by then. -/
structure Sent where
  resets : Nat
  seq : Nat
  frame : Bytes
  deriving DecidableEq, Repr

/-- The number a frame was handed over under, within its sequence stream. -/
def Sent.number (sent : Sent) : Nat × Nat := (sent.resets, sent.seq)

structure World where
  /-- What the store holds. -/
  store : MemoryStore
  /-- A mutation that may still land. -/
  inFlight : Option Mutation
  /-- The sequence resets that have taken effect. -/
  resets : Nat
  /-- What becomes of the calls to come. -/
  turns : List Turn
  storeAttached : Bool
  policy : StoreFailurePolicy
  maxMessageSize : Nat
  owed : OwedReset
  /-- A session runs: its counters are `sequences`. -/
  live : Bool
  sequences : SequenceManager
  persisted : PersistedCounters
  /-- The reset the session's Logon declares. -/
  resetTicket : Option Nat
  /-- The frames handed to the transport, oldest first. -/
  transport : List Sent

abbrev Program := EStateM Stop World

namespace World

/-- The mutation takes effect. -/
def land (world : World) (call : Mutation) : World :=
  { world with
    store := call.apply world.store
    resets := if call.resets then world.resets + 1 else world.resets }

/-- What a mutation that did not answer leaves. -/
def leave (world : World) (call : Mutation) : Landing → World
  | .applied => world.land call
  | .lost => world
  | .late => { world with inFlight := some call }

def settleEarlier (world : World) : Earlier → World
  | .waiting => world
  | .lost => { world with inFlight := none }
  | .landed =>
      match world.inFlight with
      | none => world
      | some call => { world.land call with inFlight := none }

/-- The mutation in flight lands before the next one or not at all. -/
def settleFlight (world : World) (earlier : Earlier) : World :=
  { world.settleEarlier earlier with inFlight := none }

/-- The frame reaches the transport. -/
def hand (world : World) (seq : Nat) (frame : Bytes) : World :=
  { world with transport := world.transport ++ [⟨world.resets, seq, frame⟩] }

/-- The session and what it knew are gone. -/
def gone (world : World) : World := { world with live := false }

end World

/-! ## Store calls -/

/-- The next turn of the environment; without one the run ends here. -/
def nextTurn : Program Turn := do
  let world ← get
  match world.turns with
  | [] => throw .cut
  | turn :: turns =>
      set { world with turns := turns }
      return turn

/-- One mutation, bounded by the store timeout. -/
def timed (call : Mutation) : Program (Except StoreError Unit) := do
  let turn ← nextTurn
  modify fun world => world.settleFlight turn.earlier
  match turn.fate with
  | .done =>
      modify fun world => world.land call
      return .ok ()
  | .failed error landing =>
      modify fun world => world.leave call landing
      return .error error
  | .cut landing =>
      modify fun world => world.leave call landing
      throw .cut

/-- `?` on the answer of a store call. -/
def answer {α : Type} : Except StoreError α → Program α
  | .ok a => pure a
  | .error error => throw (.failed (.store error))

/-- Refreshes the store from its medium; it changes nothing the store holds. -/
def refresh : Program Unit := do
  let turn ← nextTurn
  modify fun world => world.settleEarlier turn.earlier
  match turn.fate with
  | .done => return ()
  | .failed error _ => throw (.failed (.store error))
  | .cut _ => throw .cut

/-- Hands a frame to the transport: one that fails may have been handed over. -/
def feedFrame (seq : Nat) (frame : Bytes) : Program Unit := do
  let turn ← nextTurn
  match turn.fate with
  | .done => modify fun world => world.hand seq frame
  | .failed _ landing =>
      if landing ≠ .lost then modify fun world => world.hand seq frame
      throw (.failed .transport)
  | .cut landing =>
      if landing ≠ .lost then modify fun world => world.hand seq frame
      throw .cut

end IronFix.Engine
