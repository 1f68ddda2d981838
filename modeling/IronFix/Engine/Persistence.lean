import IronFix.Engine.StoreCalls

/-!
# The persistence steps of the engine

Every write of a session follows one order: an outbound frame is filed and
the next number persisted before the number is spent and before the frame is
handed over; a reset is owed, durably, before it is made.
-/

namespace IronFix.Engine

open Lib.Decimal
open IronFix.Store IronFix.Session

/-! ## Owed resets -/

def oweReset : Program Nat :=
  modifyGet fun world => (world.owed.owe.1, { world with owed := world.owed.owe.2 })

def resetPaid (ticket : Nat) : Program Unit :=
  modify fun world => { world with owed := world.owed.pay ticket }

/-- Brings the store's marker in line with the record. -/
def syncMarker : Program (Except StoreError Unit) := do
  let world ← get
  let desired := world.owed.isOwed
  if world.store.resetOwed = desired then return .ok ()
  else
    let result ← timed (.setResetOwed desired)
    match result with
    | .ok _ => return .ok ()
    | .error error =>
        -- a failed clear may have left the marker set
        if desired then return .error error
        else
          let _ ← oweReset
          return .error error

/-- Takes a marker an earlier process left into the record. -/
def resetIsOwed : Program Bool := do
  let world ← get
  if world.storeAttached then
    let owed := if world.store.resetOwed then world.owed.recover else world.owed
    set { world with owed := owed }
    return owed.isOwed
  else return false

/-- Owes a reset, its intent in the store before it is attempted. -/
def oweDurably : Program Nat := do
  let ticket ← oweReset
  let result ← syncMarker
  answer result
  return ticket

/-- Records the reset of `ticket` as made and declared. -/
def settle (ticket : Option Nat) : Program Unit := do
  match ticket with
  | some ticket => resetPaid ticket
  | none => pure ()
  let world ← get
  if world.storeAttached then
    let result ← syncMarker
    if world.policy.closesSession then answer result else return ()
  else return ()

/-! ## Writes -/

/-- One mutation; a failure leaves the store unknown, so a reset is owed. -/
def mutate (call : Mutation) : Program (Except StoreError Unit) := do
  let result ← timed call
  match result with
  | .ok _ => return .ok ()
  | .error error =>
      let _ ← oweReset
      let _ ← syncMarker
      return .error error

/-- The policy on a failed write: carry on, or close. -/
def onFailure (error : StoreError) : Program (Except StoreError Unit) := do
  let world ← get
  return if world.policy.closesSession then .error error else .ok ()

def persist (call : Mutation) : Program (Except StoreError Unit) := do
  let result ← mutate call
  match result with
  | .ok _ => return .ok ()
  | .error error => onFailure error

def persistSender (next : Nat) : Program (Except StoreError Unit) :=
  persist (.setNextSenderSeq next)

def persistTarget (next : Nat) : Program (Except StoreError Unit) :=
  persist (.setNextTargetSeq next)

def persistAppWatermark (watermark : Nat) : Program (Except StoreError Unit) :=
  persist (.setAppWatermark watermark)

/-- Files a frame and the next sender number; whether the frame was filed. -/
def fileOutbound (seq : Nat) (msgType : MsgType) (frame : Bytes) (nextSender : Nat) :
    Program (Except StoreError Bool) := do
  let filed ← mutate (.fileOutbound seq msgType frame nextSender)
  match filed with
  | .ok _ => return .ok true
  | .error error =>
      let carryOn ← onFailure error
      match carryOn with
      | .error error => return .error error
      | .ok _ =>
          let result ← persistSender nextSender
          return result.map fun _ => false

/-! ## Starting a session -/

/-- What a session starts from. -/
structure Seeded where
  sequences : SequenceManager
  persisted : PersistedCounters
  /-- What the store held before any seed or reset. -/
  stored : Option (Nat × Nat)

/-- The counters the store holds, when one is attached. -/
def World.stored (world : World) : Option (Nat × Nat) :=
  if world.storeAttached then some (world.store.nextSenderSeq, world.store.nextTargetSeq) else none

def seedReset : Program Seeded := do
  let world ← get
  if world.storeAttached then
    let result ← timed (.resetTo 1 1)
    answer result
    return ⟨.new, (PersistedCounters.new.recordSender 1).recordTarget 1, world.stored⟩
  else return ⟨.new, .new, world.stored⟩

def seedInitial (checkStore : Bool) (initial : Nat × Nat) : Program Seeded := do
  match seedFromInitial initial with
  | .error counter => throw (.failed (.invalidInitialSequence counter))
  | .ok sequences =>
      if checkStore then
        refresh
        let world ← get
        if initialBelowStore initial.1 world.store.nextSenderSeq then
          throw (.failed (.initialSequenceBelowStore initial.1 world.store.nextSenderSeq))
        else return ⟨sequences, .new, world.stored⟩
      else
        let world ← get
        return ⟨sequences, .new, world.stored⟩

def seedStore : Program Seeded := do
  refresh
  let world ← get
  let seed := seedFromStore world.store.nextSenderSeq world.store.nextTargetSeq
  let persisted : PersistedCounters :=
    { sender := if seed.senderHeld then some world.store.nextSenderSeq else none
      target := if seed.targetHeld then some world.store.nextTargetSeq else none }
  return ⟨seed.sequences, persisted, world.stored⟩

/-- Decides the numbers a session starts from. -/
def seedSession (reset : Bool) (initial : Option (Nat × Nat)) : Program Seeded := do
  let world ← get
  match decideSeedSource reset initial.isSome world.storeAttached world.policy.closesSession,
      initial with
  | .reset, _ => seedReset
  | .initial checkStore, some initial => seedInitial checkStore initial
  | .store, _ => seedStore
  | _, _ => return ⟨.new, .new, none⟩

/-! ## Numbering a frame -/

/-- Spends `seq`, which must be the next number. -/
def spend (seq : Nat) : Program Unit := do
  let world ← get
  match world.sequences.tryAllocateSenderSeq with
  | .error exhausted => throw (.failed (.sequenceExhausted exhausted.counter))
  | .ok (allocated, sequences) =>
      set { world with sequences := sequences }
      if allocated ≠ seq then throw (.failed (.sequenceMoved seq allocated))

/-- Files a frame, then spends its number; whether the frame was filed. -/
def fileAndSpend (seq : Nat) (msgType : MsgType) (frame : Bytes) : Program Bool := do
  match checkedAdd u64Max seq 1 with
  | none => throw (.failed (.sequenceExhausted .sender))
  | some next =>
      let world ← get
      if world.storeAttached then
        set { world with persisted := world.persisted.recordSender next }
        let result ← fileOutbound seq msgType frame next
        let filed ← answer result
        spend seq
        return filed
      else
        spend seq
        return false

/-- Frames a message under `seq`, spends the number and hands the frame over.
`encode` is what the factory makes of the message under a number. -/
def writeAt (seq : Nat) (msgType : MsgType) (encode : Nat → Option Bytes) : Program Unit := do
  let world ← get
  match encode seq with
  | none => throw (.failed .encode)
  | some frame =>
      if frame.length > world.maxMessageSize then
        throw (.failed (.messageTooLarge frame.length world.maxMessageSize))
      else
        let _ ← fileAndSpend seq msgType frame
        feedFrame seq frame

/-- A frame of the session, under the next sender number. -/
def sendHandshake (msgType : MsgType) (encode : Nat → Option Bytes) : Program Unit := do
  let world ← get
  writeAt world.sequences.nextSenderSeq msgType encode

end IronFix.Engine
