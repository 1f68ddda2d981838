import IronFix.Engine.Outcome
import IronFix.Lib.Decimal

/-!
# The session's writer

Frames are appended to a buffer, and the stream takes bytes from its front.
The writer keeps, beside the buffer, what waits for the last byte of a frame:
the receipts of tracked frames, and a mark on the last frame of each kind the
session waits for.
-/

namespace IronFix.Engine

open Lib.Decimal

/-- What the factory encodes: a frame is never empty. -/
@[ext]
structure EncodedFrame where
  bytes : Bytes
  nonempty : bytes ≠ []

instance : DecidableEq EncodedFrame := fun frame other =>
  decidable_of_iff (frame.bytes = other.bytes) EncodedFrame.ext_iff.symm

/-! ## Marks -/

/-- Watches one frame until the stream has accepted its last byte. -/
structure WriteMark where
  /-- The bytes the stream must still accept. -/
  ahead : Option Nat
  written : Bool
  deriving DecidableEq, Repr

namespace WriteMark

def new : WriteMark := ⟨none, false⟩

/-- Watches the frame just fed, the last one of the buffer. -/
def mark (waiting : Nat) : WriteMark := ⟨some waiting, false⟩

def unwritten (mark : WriteMark) : Bool := mark.ahead.isSome

def wrote (moved : Nat) (mark : WriteMark) : WriteMark :=
  match mark.ahead with
  | none => mark
  | some ahead => if moved < ahead then { mark with ahead := some (ahead - moved) } else ⟨none, true⟩

def flushed (mark : WriteMark) : WriteMark := if mark.ahead.isSome then ⟨none, true⟩ else mark

def takeWritten (mark : WriteMark) : WriteMark := { mark with written := false }

end WriteMark

/-- The kinds of frame the session waits for. -/
inductive Watched where
  | logout
  | testRequest
  | resendRequest
  deriving DecidableEq, Repr

/-! ## The writer -/

/-- A tracked frame in the buffer. -/
structure PendingReceipt where
  seq : Nat
  sendingTime : Nat
  filed : Bool
  /-- The bytes fed up to its last one, where the count could be kept. -/
  «end» : Option Nat
  receipt : Receipt
  deriving DecidableEq, Repr

def PendingReceipt.sent (pending : PendingReceipt) : Nat × SendOutcome :=
  (pending.receipt.id, .sent pending.seq pending.sendingTime pending.filed)

def PendingReceipt.unknown (reason : UnknownReason) (pending : PendingReceipt) : Nat × SendOutcome :=
  (pending.receipt.id, .unknown pending.seq reason)

structure Writer where
  maxMessageSize : Nat
  /-- Output is waiting. -/
  pending : Bool
  /-- The stream accepted bytes since the last tick. -/
  progressed : Bool
  stalledSince : Option Nat
  failed : Bool
  /-- The first and last new number fed since the last completed flush. -/
  fedNew : Option (Nat × Nat)
  marks : Watched → WriteMark
  /-- The buffer's length after the frame that took it to the high water. -/
  crossedAt : Option Nat
  fedBytes : Option Nat
  acceptedBytes : Option Nat
  receipts : List PendingReceipt

inductive WriteCheck where
  | fine
  | progressed
  | stalled
  deriving DecidableEq, Repr

def WRITE_BUFFER_HIGH_WATER : Nat := 64 * 1024

/-- A running count, where it can be kept. -/
def addBytes (count : Option Nat) (n : Nat) : Option Nat := count.bind fun count => checkedAdd u64Max count n

namespace Writer

def new (maxMessageSize : Nat) : Writer where
  maxMessageSize
  pending := false
  progressed := false
  stalledSince := none
  failed := false
  fedNew := none
  marks _ := .new
  crossedAt := none
  fedBytes := some 0
  acceptedBytes := some 0
  receipts := []

/-- Appends `frame` to the buffer. -/
def feed (frame : Bytes) (buffer : Bytes) (writer : Writer) : Except FrameError (Bytes × Writer) :=
  if writer.maxMessageSize < frame.length then .error (.codec frame.length writer.maxMessageSize)
  else
    let after := buffer ++ frame
    .ok (after, { writer with
      fedBytes := addBytes writer.fedBytes frame.length
      crossedAt :=
        if buffer.length < WRITE_BUFFER_HIGH_WATER ∧ WRITE_BUFFER_HIGH_WATER ≤ after.length then some after.length
        else writer.crossedAt
      pending := true })

/-- Whether the stream has accepted the last byte of a pending frame, as far as it is counted. -/
def reached (accepted : Nat) (pending : PendingReceipt) : Bool := pending.end.any fun «end» => «end» ≤ accepted

/-- Pops the receipts whose frames are accepted whole, front to back. -/
def resolveAccepted (writer : Writer) : List PendingReceipt × Writer :=
  match writer.acceptedBytes with
  | none => ([], writer)
  | some accepted =>
    (writer.receipts.takeWhile (reached accepted),
      { writer with receipts := writer.receipts.dropWhile (reached accepted) })

def fedNewSeq (seq : Nat) (writer : Writer) : Writer :=
  { writer with
    fedNew := some <| match writer.fedNew with
      | some (first, _) => (first, seq)
      | none => (seq, seq) }

/-- Watches the frame just fed. -/
def setMark (kind : Watched) (waiting : Nat) (writer : Writer) : Writer :=
  { writer with marks := fun other => if other = kind then .mark waiting else writer.marks other }

/-- The stream accepted `moved` bytes. -/
def wrote (moved : Nat) (writer : Writer) : List PendingReceipt × Writer :=
  let (resolved, writer) := { writer with
    progressed := true
    acceptedBytes := addBytes writer.acceptedBytes moved }.resolveAccepted
  (resolved, { writer with marks := fun kind => (writer.marks kind).wrote moved })

/-- A completed flush, with the new numbers it covered. -/
def flushed (writer : Writer) : Option (Nat × Nat) × Writer :=
  (writer.fedNew, { writer with
    pending := false
    progressed := false
    stalledSince := none
    crossedAt := none
    marks := fun kind => (writer.marks kind).flushed
    fedNew := none })

/-- Moves the clock of the write timeout. -/
def onTick (now writeTimeout : Nat) (writer : Writer) : WriteCheck × Writer :=
  if writer.pending = false then (.fine, { writer with stalledSince := none })
  else if writer.progressed then
    (.progressed, { writer with
      progressed := false
      stalledSince := some now })
  else
    match writer.stalledSince with
    | some since =>
      if since ≤ now ∧ writeTimeout ≤ now - since then (.stalled, writer) else (.fine, writer)
    | none => (.fine, { writer with stalledSince := some now })

end Writer

end IronFix.Engine
