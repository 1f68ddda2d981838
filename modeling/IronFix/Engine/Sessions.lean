import IronFix.Lib.Runs
import IronFix.Engine.Persistence

/-!
# Sessions over one store

What an engine does with its store while sessions open, send, close and are
cut short. Sessions follow one another: a store belongs to one engine, and an
engine runs one session at a time. An action takes the turns its calls meet,
so an action given too few is cut in the middle.
-/

namespace IronFix.Engine

open Lib.Decimal Lib.Runs
open IronFix.Store IronFix.Session

/-- A session starts on its counters. -/
def World.start (world : World) (seeded : Seeded) (ticket : Option Nat) : World :=
  { world with
    live := true
    sequences := seeded.sequences
    persisted := seeded.persisted
    resetTicket := ticket }

/-- Reports what the previous session may not have delivered, once. -/
def reportInboundLoss : Program Unit := do
  let world ← get
  if world.storeAttached then
    match inboundLossSpan world.store.appWatermark world.store.nextTargetSeq with
    | none => return ()
    | some span =>
        let result ← persistAppWatermark span.2
        answer result
  else return ()

/-- Opens a session of either role; `declared` is a reset its configuration or
its counterparty asks for. -/
def openSession (declared : Bool) (initial : Option (Nat × Nat)) : Program Unit := do
  modify World.gone
  reportInboundLoss
  let owed ← resetIsOwed
  let reset := initiatorResets declared owed
  let world ← get
  let ticket ← if owesResetDurably reset world.storeAttached then some <$> oweDurably
    else pure none
  let seeded ← seedSession reset initial
  modify fun world => world.start seeded ticket

/-- Opens the exchange an authenticated peer is refused in: it never resets. -/
def refuseAuthenticated (initial : Option (Nat × Nat)) : Program Unit := do
  modify World.gone
  let seeded ← seedSession false initial
  modify fun world => world.start seeded none

/-- Adopts the reset an acknowledgement declares. -/
def adoptAckReset : Program Unit := do
  let world ← get
  if world.storeAttached then
    let ticket ← oweDurably
    let result ← mutate (.resetTo ADOPTED_RESET_NEXT_SENDER ADOPTED_RESET_STORED_TARGET)
    answer result
    modify fun world => { world with
      persisted := (PersistedCounters.new.recordSender ADOPTED_RESET_NEXT_SENDER).recordTarget
        ADOPTED_RESET_STORED_TARGET }
    resetPaid ticket
  modify fun world => { world with
    sequences := (world.sequences.setTargetSeq ADOPTED_RESET_NEXT_TARGET).setSenderSeq
      ADOPTED_RESET_NEXT_SENDER }

/-- Persists the next target number, unless it is the one last written. -/
def persistTargetWith (next : Nat) : Program (Except StoreError Unit) := do
  let world ← get
  if world.storeAttached then
    match world.persisted.targetToWrite next with
    | none => return .ok ()
    | some next =>
        set { world with persisted := world.persisted.recordTarget next }
        persistTarget next
  else return .ok ()

/-- Accepts the expected inbound message. -/
def acceptInbound : Program Unit := do
  let world ← get
  match world.sequences.tryIncrementTargetSeq with
  | .error exhausted => throw (.failed (.sequenceExhausted exhausted.counter))
  | .ok sequences =>
      let result ← persistTargetWith sequences.nextTargetSeq
      answer result
      modify fun world => { world with sequences := sequences }

def persistChangedSender : Program (Except StoreError Unit) := do
  let world ← get
  match world.persisted.senderToWrite world.sequences.nextSenderSeq with
  | none => return .ok ()
  | some next =>
      set { world with persisted := world.persisted.recordSender next }
      persistSender next

/-- Persists whichever counter changed since it was last written. -/
def persistCounters : Program (Except StoreError Unit) := do
  let world ← get
  if world.storeAttached then
    let result ← persistChangedSender
    match result with
    | .error error => return .error error
    | .ok _ => persistTargetWith world.sequences.nextTargetSeq
  else return .ok ()

/-- The reset of a close; whether the counters may still be written. -/
def closeReset : Program Bool := do
  let world ← get
  set { world with sequences := .new }
  if world.storeAttached then
    let ticket ← oweReset
    -- made even if the marker cannot be written
    let _ ← syncMarker
    let result ← timed .reset
    match result with
    | .ok _ =>
        resetPaid ticket
        let _ ← syncMarker
        return true
    | .error _ => return false
  else return true

/-- Closes the session: nothing is framed any more, a failure closes nothing. -/
def closeSession (resets : Bool) : Program Unit := do
  modify World.gone
  let writeCounters ← if resets then closeReset else pure true
  if writeCounters then
    let _ ← persistCounters
    return ()
  else return ()

/-- What can happen next. -/
inductive Action where
  | openSession (declared : Bool) (initial : Option (Nat × Nat))
  | refuseAuthenticated (initial : Option (Nat × Nat))
  | send (msgType : MsgType) (encode : Nat → Option Bytes)
  | adoptAckReset
  | acceptInbound
  | settle
  | persistCounters
  | markAccounted (watermark : Nat)
  | closeSession (resets : Bool)
  /-- The session's task is dropped. -/
  | drop
  /-- The process ends and starts again: what it owed in memory is forgotten. -/
  | restart
  /-- The mutation in flight lands, or is lost, or waits on. -/
  | wait (earlier : Earlier)

/-- The program of an action on a running session. -/
def Action.running : Action → Program Unit
  | .send msgType encode => sendHandshake msgType encode
  | .adoptAckReset => Engine.adoptAckReset
  | .acceptInbound => Engine.acceptInbound
  | .settle => do
      let world ← get
      Engine.settle world.resetTicket
  | .persistCounters => do
      let result ← Engine.persistCounters
      answer result
  | .markAccounted watermark => do
      let result ← persistAppWatermark watermark
      answer result
  | .closeSession resets => Engine.closeSession resets
  | _ => return ()

def Action.program : Action → Program Unit
  | .openSession declared initial => Engine.openSession declared initial
  | .refuseAuthenticated initial => Engine.refuseAuthenticated initial
  | .drop => modify World.gone
  | .restart => modify fun world => { world.gone with owed := .new }
  | .wait earlier => modify fun world => world.settleEarlier earlier
  | action => do
      let world ← get
      if world.live then action.running else return ()

/-- One action and the turns it meets. A cut leaves no session; a failed step
leaves the session to what happens next. -/
def step (world : World) (input : Action × List Turn) : World :=
  match input.1.program { world with turns := input.2 } with
  | .ok _ world => world
  | .error .cut world => world.gone
  | .error (.failed _) world => world

/-- An engine that closes on a store failure, before its first session. -/
def World.initial (store : MemoryStore) (maxMessageSize : Nat) : World :=
  { store, inFlight := none, resets := 0, turns := [], storeAttached := true,
    policy := .closeSession, maxMessageSize, owed := .new, live := false, sequences := .new,
    persisted := .new, resetTicket := none, transport := [] }

end IronFix.Engine
