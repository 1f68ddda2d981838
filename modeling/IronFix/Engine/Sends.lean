import IronFix.Engine.FrameWriter
import IronFix.Lib.Transitions

/-!
# Tracked sends

A session sends: messages are refused or numbered and filed, frames are fed to
the buffer, the stream takes what it will at each poll, ticks watch it, and the
session closes or its task is dropped. Each step of the reactor between two
awaits is one step here.
-/

namespace IronFix.Engine

open Lib.Decimal

/-- What the session was configured with. -/
structure SendSettings where
  maxMessageSize : Nat
  writeTimeout : Nat
  hasStore : Bool
  /-- `StoreFailurePolicy::CloseSession`. -/
  closesSession : Bool

/-- A frame numbered and being filed. -/
structure Filing where
  seq : Nat
  frame : EncodedFrame
  kind : Option Watched
  sendingTime : Nat
  receipt : Option Receipt

inductive SendPhase where
  | open_
  /-- The loop is over; the last output is flushed. -/
  | closing
  | closed
  deriving DecidableEq, Repr

/-- What happened at the buffer, for the record. -/
inductive WriterEvent where
  | fed
  /-- The stream accepted some bytes. -/
  | accepted
  | flushed
  | ticked (now : Nat)
  deriving DecidableEq, Repr

structure SendSystem where
  writer : Writer
  buffer : Bytes
  /-- What the stream has accepted. -/
  stream : Bytes
  nextSender : Nat
  /-- Queued, held behind a resend or held by the throttle. -/
  unsent : List Receipt
  filing : Option Filing
  phase : SendPhase
  /-- The tracked sends so far. -/
  issued : Nat
  /-- The outcomes, in the order the receipts resolved. -/
  outcomes : List (Nat × SendOutcome)
  /-- Every byte fed. -/
  fed : Bytes
  /-- The tracked frames fed, each with the place of its end among the bytes fed. -/
  ends : List (Nat × Nat)
  /-- The tracked sends whose filing was handed to the store. -/
  attempted : List Nat
  /-- The end of the last frame of each kind fed. -/
  watching : Watched → Option Nat
  /-- The newest event first. -/
  log : List WriterEvent

/-- How a poll of the flush ends. -/
inductive PollResult where
  | waiting
  | flushed
  | failed
  deriving DecidableEq, Repr

inductive SendAction where
  | track
  /-- An unsent message is refused or discarded. -/
  | refuse (i : Nat) (reason : NotSentReason)
  /-- A message is encoded under the next number, its receipt the `i`-th unsent one. -/
  | number (i : Option Nat) (frame : EncodedFrame) (kind : Option Watched) (sendingTime : Nat)
  /-- The store answers, or there is none. -/
  | filed (ok : Bool)
  /-- A gap fill or a replayed frame. -/
  | refeed (frame : EncodedFrame)
  | poll (moved : Nat) (result : PollResult)
  | tick (now : Nat)
  | takeWritten (kind : Watched)
  | close
  /-- The last flush made no progress for the write timeout. -/
  | giveUp
  | finish
  /-- The task is dropped. -/
  | abort

namespace SendSystem

def new (settings : SendSettings) (nextSender : Nat) : SendSystem where
  writer := .new settings.maxMessageSize
  buffer := []
  stream := []
  nextSender
  unsent := []
  filing := none
  phase := .open_
  issued := 0
  outcomes := []
  fed := []
  ends := []
  attempted := []
  watching _ := none
  log := []

def resolve (resolved : List (Nat × SendOutcome)) (system : SendSystem) : SendSystem :=
  { system with outcomes := system.outcomes ++ resolved }

/-- A fatal error ends the loop. -/
def fatal (system : SendSystem) : SendSystem := { system with phase := .closing }

/-- `fail_receipts`. -/
def failReceipts (reason : UnknownReason) (system : SendSystem) : SendSystem :=
  { system.resolve (system.writer.receipts.map (PendingReceipt.unknown reason)) with
    writer := { system.writer with receipts := [] } }

/-- `resolve_sent`. -/
def resolveSent (system : SendSystem) : SendSystem :=
  { system.resolve (system.writer.receipts.map PendingReceipt.sent) with
    writer := { system.writer with receipts := [] } }

/-- `on_flushed`. -/
def onFlushed (system : SendSystem) : SendSystem :=
  { system with
    writer := system.writer.flushed.2
    log := .flushed :: system.log }.resolveSent

/-- `close_on_write_failure`. -/
def closeOnWriteFailure (reason : UnknownReason) (system : SendSystem) : SendSystem :=
  { system with writer := { system.writer with failed := true } }.failReceipts reason |>.fatal

/-- The stream takes bytes from the front of the buffer. -/
def accept (moved : Nat) (system : SendSystem) : SendSystem :=
  if moved = 0 then system
  else
    let (resolved, writer) := system.writer.wrote moved
    { system with
      writer
      buffer := system.buffer.drop moved
      stream := system.stream ++ system.buffer.take moved
      outcomes := system.outcomes ++ resolved.map PendingReceipt.sent
      log := .accepted :: system.log }

/-- `Writer::feed`, with what it appended on record. -/
def feed (frame : EncodedFrame) (system : SendSystem) : Except FrameError SendSystem :=
  match system.writer.feed frame.bytes system.buffer with
  | .error error => .error error
  | .ok (buffer, writer) =>
    .ok { system with
      writer
      buffer
      fed := system.fed ++ frame.bytes
      log := .fed :: system.log }

/-- A receipt is resolved with what stopped its frame. -/
def failFrame (receipt : Option Receipt) (error : FrameError) (system : SendSystem) : SendSystem :=
  (system.resolve (receipt.toList.map fun receipt => (receipt.id, receipt.fail error))).fatal

/-- Queues the receipt of the frame just fed. -/
def queueReceipt (filing : Filing) (filed : Bool) (system : SendSystem) : SendSystem :=
  match filing.receipt with
  | none => system
  | some receipt =>
    { system with
      writer := { system.writer with
        receipts := system.writer.receipts ++
          [⟨filing.seq, filing.sendingTime, filed, system.writer.fedBytes, receipt.writing filing.seq⟩] }
      ends := system.ends ++ [(receipt.id, system.fed.length)] }

/-- Watches the frame just fed. -/
def markFrame (kind : Option Watched) (system : SendSystem) : SendSystem :=
  match kind with
  | none => system
  | some kind =>
    { system with
      writer := system.writer.setMark kind system.buffer.length
      watching := fun other => if other = kind then some system.fed.length else system.watching other }

/-- The end of `write_at`, the frame being filed, and what its sender does then. -/
def writeFrame (filing : Filing) (filed : Bool) (system : SendSystem) : SendSystem :=
  let system := { system with
    nextSender := filing.seq + 1
    filing := none }
  match system.feed filing.frame with
  | .error error => system.failFrame filing.receipt error
  | .ok system =>
    ({ system with writer := system.writer.fedNewSeq filing.seq }.queueReceipt filing filed).markFrame filing.kind

/-- What the dropped task leaves to its receipts. -/
def dropped (system : SendSystem) : List (Nat × SendOutcome) :=
  (system.unsent ++ (system.filing.bind Filing.receipt).toList ++
    system.writer.receipts.map PendingReceipt.receipt).map fun receipt => (receipt.id, receipt.drop)

/-- The next state, unless the action cannot be taken. -/
def step (settings : SendSettings) (system : SendSystem) : SendAction → Option SendSystem
  | .track =>
    if system.phase = .open_ then
      some { system with
        unsent := system.unsent ++ [⟨system.issued, .queued⟩]
        issued := system.issued + 1 }
    else none
  | .refuse i reason =>
    match system.unsent[i]? with
    | some receipt =>
      if system.phase ≠ .closed ∧ system.filing.isNone = true ∧ reason.early = true then
        some ({ system with unsent := system.unsent.eraseIdx i }.resolve [(receipt.id, .notSent reason)])
      else none
    | none => none
  | .number i frame kind sendingTime =>
    if system.phase = .open_ ∧ system.filing.isNone = true ∧ ∀ j ∈ i, j < system.unsent.length then
      let receipt := i.bind fun i => system.unsent[i]?
      let system := { system with unsent := i.elim system.unsent system.unsent.eraseIdx }
      if settings.maxMessageSize < frame.bytes.length then
        -- refused before it is filed
        some (system.resolve (receipt.toList.map fun receipt =>
          (receipt.id, .notSent (oversized frame.bytes.length settings.maxMessageSize))))
      else
        let receipt := receipt.map (.filing system.nextSender)
        match checkedAdd u64Max system.nextSender 1 with
        | none => some (system.failFrame receipt .sequenceExhausted)
        | some _ =>
          some { system with
            filing := some ⟨system.nextSender, frame, kind, sendingTime, receipt⟩
            attempted :=
              if settings.hasStore then receipt.toList.map Receipt.id ++ system.attempted else system.attempted }
    else none
  | .filed ok =>
    match system.filing with
    | some filing =>
      if settings.hasStore = false then some (system.writeFrame filing false)
      else if ok then some (system.writeFrame filing true)
      else if settings.closesSession then
        some ({ system with filing := none }.failFrame filing.receipt .store)
      else some (system.writeFrame filing false)
    | none => none
  | .refeed frame =>
    if system.phase = .open_ ∧ system.filing.isNone = true then
      match system.feed frame with
      | .error _ => some system.fatal
      | .ok system => some system
    else none
  | .poll moved result =>
    if system.phase ≠ .closed ∧ system.filing.isNone = true ∧ system.writer.pending = true ∧
        system.writer.failed = false ∧ moved ≤ system.buffer.length ∧
        -- a flush completes once the buffer is empty
        (result = .flushed → moved = system.buffer.length) then
      match result with
      | .waiting => some (system.accept moved)
      | .flushed => some (system.accept moved).onFlushed
      | .failed => some ((system.accept moved).closeOnWriteFailure .transport)
    else none
  | .tick now =>
    if system.phase = .open_ ∧ system.filing.isNone = true then
      let (check, writer) := system.writer.onTick now settings.writeTimeout
      let system := { system with
        writer
        log := .ticked now :: system.log }
      if check = .stalled then some (system.closeOnWriteFailure .writeTimeout) else some system
    else none
  | .takeWritten kind =>
    if system.phase = .open_ then
      some { system with
        writer := { system.writer with
          marks := fun other => if other = kind then (system.writer.marks kind).takeWritten
            else system.writer.marks other } }
    else none
  | .close =>
    if system.phase = .open_ ∧ system.filing.isNone = true then some system.fatal else none
  | .giveUp =>
    if system.phase = .closing ∧ system.unsent = [] ∧ system.writer.pending = true ∧
        system.writer.failed = false then
      some { system.failReceipts .writeTimeout with phase := .closed }
    else none
  | .finish =>
    if system.phase = .closing ∧ system.unsent = [] then
      some { system.failReceipts .transport with phase := .closed }
    else none
  | .abort =>
    if system.phase ≠ .closed then
      some { system.resolve system.dropped with
        writer := { system.writer with receipts := [] }
        unsent := []
        filing := none
        phase := .closed }
    else none

end SendSystem

end IronFix.Engine
