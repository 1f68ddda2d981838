import IronFix.Lib.OrderedMap
import IronFix.Core.Error

/-!
# The in-memory message store

Frames by sequence number, the two counters, the owed-reset marker and the
application watermark. What the engine assumes of any store is what this one
does, so the other stores are compared with it.
-/

namespace IronFix.Store

open Lib.Ordered

/-- One filed message, as a read returns it. -/
structure StoredMessage where
  seqNum : Nat
  msgType : MsgType
  payload : Bytes
  deriving DecidableEq

structure MemoryStore where
  messages : OrderedMap Nat (MsgType × Bytes)
  nextSenderSeq : Nat
  nextTargetSeq : Nat
  resetOwed : Bool
  appWatermark : Nat

namespace MemoryStore

def new : MemoryStore := ⟨.empty, 1, 1, false, 0⟩

def withInitialSeqs (sender target : Nat) : MemoryStore := ⟨.empty, sender, target, false, 0⟩

def store (memory : MemoryStore) (seqNum : Nat) (msgType : MsgType) (message : Bytes) :
    MemoryStore :=
  { memory with messages := memory.messages.insert seqNum (msgType, message) }

def setNextSenderSeq (memory : MemoryStore) (seq : Nat) : MemoryStore :=
  { memory with nextSenderSeq := seq }

def setNextTargetSeq (memory : MemoryStore) (seq : Nat) : MemoryStore :=
  { memory with nextTargetSeq := seq }

def setResetOwed (memory : MemoryStore) (owed : Bool) : MemoryStore :=
  { memory with resetOwed := owed }

def setAppWatermark (memory : MemoryStore) (watermark : Nat) : MemoryStore :=
  { memory with appWatermark := watermark }

/-- Clears the frames, the counters and the watermark; the marker stays. -/
def reset (memory : MemoryStore) : MemoryStore :=
  { memory with messages := .empty, nextSenderSeq := 1, nextTargetSeq := 1, appWatermark := 0 }

/-- `MessageStore::file_outbound`, as the trait composes it. -/
def fileOutbound (memory : MemoryStore) (seqNum : Nat) (msgType : MsgType) (message : Bytes)
    (nextSender : Nat) : MemoryStore :=
  (memory.store seqNum msgType message).setNextSenderSeq nextSender

/-- `MessageStore::reset_to`, as the trait composes it. -/
def resetTo (memory : MemoryStore) (nextSender nextTarget : Nat) : MemoryStore :=
  (memory.reset.setNextSenderSeq nextSender).setNextTargetSeq nextTarget

/-- The messages filed between the bounds, both included, ascending. -/
def between (memory : MemoryStore) (first last : Nat) : List StoredMessage :=
  (memory.messages.range first last).map fun entry => ⟨entry.1, entry.2.1, entry.2.2⟩

/-- The messages a ResendRequest (2) names; a `last` of 0 is "to infinity". -/
def getRange (memory : MemoryStore) (first last : Nat) : Except StoreError (List StoredMessage) :=
  let last := if last = 0 then u64Max else last
  if first = 0 ∨ first > last then .error (.invalidRange first last)
  else
    let result := memory.between first last
    if result.isEmpty then .error (.rangeNotAvailable first last) else .ok result

/-- At most `limit` messages; the bounds are absolute, and an empty page is one. -/
def getPage (memory : MemoryStore) (first last limit : Nat) :
    Except StoreError (List StoredMessage) :=
  if first = 0 ∨ first > last then .error (.invalidRange first last)
  else .ok ((memory.between first last).take limit)

end MemoryStore

end IronFix.Store
