import IronFix.Lib.OrderedMap
import IronFix.Core.Bytes

/-!
# The gap queue

Messages held above a gap by their number, bounded by count and by bytes.
-/

namespace IronFix.Session

open Lib.Ordered Lib.Decimal

/-- One message held above a gap. -/
inductive GapEntry (F : Type) where
  /-- A frame not yet acted on. -/
  | frame (frame : F)
  /-- An administrative message already acted on: its number is left. -/
  | processed
  deriving DecidableEq, Repr

/-- What offering a message to the queue did. -/
inductive GapAdmission where
  | bypassed
  | queued
  | duplicate
  | overflow
  | firstOverflow
  deriving DecidableEq, Repr

/-- What was found at the expectation. -/
structure GapReady (F : Type) where
  superseded : Nat
  next : Option (GapEntry F)

inductive GapPolicy where
  | queue (maxMessages maxBytes : Nat)
  | discard
  deriving DecidableEq, Repr

inductive Insert where
  | queued
  | duplicate
  | overflow
  deriving DecidableEq, Repr

structure GapQueue (F : Type) where
  entries : OrderedMap Nat (GapEntry F)
  bytes : Nat
  maxMessages : Nat
  maxBytes : Nat
  overflowReported : Bool

namespace GapQueue

variable {F : Type} (gappedBytes : F → Nat)

def forPolicy : GapPolicy → Option (GapQueue F)
  | .queue maxMessages maxBytes => some ⟨.empty, 0, maxMessages, maxBytes, false⟩
  | .discard => none

/-- The bytes an entry counts against the byte bound. -/
def entryBytes : GapEntry F → Nat
  | .frame frame => gappedBytes frame
  | .processed => 0

/-- Holds `entry` under `seq`; the first copy of a number stays. -/
def insert (queue : GapQueue F) (seq : Nat) (entry : GapEntry F) : Insert × GapQueue F :=
  if (queue.entries.get? seq).isSome then (.duplicate, queue)
  else
    match checkedAdd usizeMax queue.bytes (entryBytes gappedBytes entry) with
    | none => (.overflow, queue)
    | some bytes =>
        if queue.entries.entries.length ≥ queue.maxMessages ∨ bytes > queue.maxBytes then
          (.overflow, queue)
        else (.queued, { queue with entries := queue.entries.insert seq entry, bytes := bytes })

/-- Whether this overflow is the first since the queue last emptied. -/
def firstOverflow (queue : GapQueue F) : Bool × GapQueue F :=
  (!queue.overflowReported, { queue with overflowReported := true })

/-- The byte count once `held` is taken out and `left` stays. -/
def bytesWithout (bytes : Nat) (held : GapEntry F) (left : List (Nat × GapEntry F)) : Nat :=
  if entryBytes gappedBytes held ≤ bytes then bytes - entryBytes gappedBytes held
  else
    -- the count restarts from what is still held
    ((left.map fun entry => entryBytes gappedBytes entry.2).foldlM (checkedAdd usizeMax) 0).getD
      usizeMax

/-- Drops the entries below `expected` and takes the one at it: what was found,
the byte count and the entries left. -/
def takeEntries (expected : Nat) : List (Nat × GapEntry F) → Nat → Nat →
    GapReady F × Nat × List (Nat × GapEntry F)
  | [], bytes, superseded => (⟨superseded, none⟩, bytes, [])
  | (seq, held) :: rest, bytes, superseded =>
      if seq > expected then (⟨superseded, none⟩, bytes, (seq, held) :: rest)
      else
        let left := bytesWithout gappedBytes bytes held rest
        if seq = expected then (⟨superseded, some held⟩, left, rest)
        else takeEntries expected rest left (min (superseded + 1) usizeMax)

theorem takeEntries_suffix (expected : Nat) (entries : List (Nat × GapEntry F))
    (bytes superseded : Nat) :
    (takeEntries gappedBytes expected entries bytes superseded).2.2 <:+ entries := by
  induction entries generalizing bytes superseded with
  | nil => exact List.suffix_refl _
  | cons entry rest ih =>
      unfold takeEntries
      split
      · exact List.suffix_refl _
      · dsimp only
        split
        · exact List.suffix_cons _ _
        · exact (ih _ _).trans (List.suffix_cons _ _)

/-- What is taken was held at `expected`. -/
theorem takeEntries_found {expected : Nat} {entries : List (Nat × GapEntry F)}
    {bytes superseded : Nat} {held : GapEntry F}
    (found : (takeEntries gappedBytes expected entries bytes superseded).1.next = some held) :
    (expected, held) ∈ entries := by
  induction entries generalizing bytes superseded with
  | nil => cases found
  | cons entry rest ih =>
      obtain ⟨seq, first⟩ := entry
      unfold takeEntries at found
      split at found
      · cases found
      · dsimp only at found
        split at found
        · rename_i here
          cases found
          rw [here]
          exact List.mem_cons_self
        · exact List.mem_cons_of_mem _ (ih found)

def takeReady (queue : GapQueue F) (expected : Nat) : GapReady F × GapQueue F :=
  let taken := takeEntries gappedBytes expected queue.entries.entries queue.bytes 0
  (taken.1,
    { queue with
      entries := ⟨taken.2.2, queue.entries.ascending.sublist
        (takeEntries_suffix gappedBytes expected _ _ _).sublist⟩
      bytes := taken.2.1
      overflowReported := queue.overflowReported && !taken.2.2.isEmpty })

/-- Drops everything held: how many messages that was, and the empty queue. -/
def clear (queue : GapQueue F) : Nat × GapQueue F :=
  (queue.entries.entries.length,
    { queue with entries := .empty, bytes := 0, overflowReported := false })

def isEmpty (queue : GapQueue F) : Bool := queue.entries.entries.isEmpty

end GapQueue

end IronFix.Session
