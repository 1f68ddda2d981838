import IronFix.Store.Journal
import IronFix.Store.Memory

/-!
# The calls of a file store

A call is checked and encoded before it is queued, run by the writer thread as a
command, and what the command answers is turned into the answer of the call. A
store in memory answers the same calls at once.
-/

namespace IronFix.Store

open Lib.Decimal Lib.FaultyDisk Lib.Ordered Lib.Steps

/-- A call, with its arguments. -/
inductive Request where
  | store (seqNum : UInt64) (msgType : MsgType) (message : Bytes)
  | fileOutbound (seqNum : UInt64) (msgType : MsgType) (message : Bytes) (nextSender : UInt64)
  | setNextSenderSeq (seq : UInt64)
  | setNextTargetSeq (seq : UInt64)
  | setResetOwed (owed : Bool)
  | setAppWatermark (watermark : UInt64)
  /-- `now` is what the clock shows when the call runs. -/
  | resetTo (nextSender nextTarget : UInt64) (now : SystemTime)
  | getRange (first last : UInt64)
  | getPage (first last : UInt64) (limit : Nat)
  | refresh
  | sync
  | compact

namespace FileStore

/-- An `EndSeqNo` of 0 is "to infinity". -/
def endOf (last : UInt64) : UInt64 := if last = 0 then .ofNat u64Max else last

/-- The command a call queues, unless it is refused. -/
def command (config : FileStoreConfig) : Request → Except StoreError Command
  | .store seqNum msgType message => fileFrame config seqNum none msgType message
  | .fileOutbound seqNum msgType message nextSender => fileFrame config seqNum (some nextSender) msgType message
  | .setNextSenderSeq seq => .ok (.setNextSender seq)
  | .setNextTargetSeq seq => .ok (.setNextTarget seq)
  | .setResetOwed owed => .ok (.setResetOwed owed)
  | .setAppWatermark watermark => .ok (.setAppWatermark watermark)
  | .resetTo nextSender nextTarget now => .ok (.resetTo nextSender nextTarget now)
  | .getRange first last => read first (endOf last) usizeMax
  | .getPage first last limit => read first last limit
  | .refresh => .ok .refresh
  | .sync => .ok .sync
  | .compact => .ok .compact

/-- What the call answers once its command did. -/
def reply : Request → Answer → Except StoreError Answer
  | .getRange first last, .page messages =>
      if messages.isEmpty then .error (.rangeNotAvailable first.toNat (endOf last).toNat) else .ok (.page messages)
  | _, answer => .ok answer

/-- A call, run while no other one is. -/
def request (request : Request) : Step Answer := do
  let journal ← get
  let command ← orThrow (command journal.config request)
  let answer ← Journal.run command
  orThrow (reply request answer)

/-- `MessageStore::reset`. -/
def reset (now : SystemTime) : Request := .resetTo 1 1 now

end FileStore

/-- The messages an answer hands out. -/
def Answer.messages : Answer → List StoredMessage
  | .page messages => messages
  | .done | .reclaimed _ => []

namespace Request

/-- Hands messages out, and changes nothing. -/
def isRead : Request → Bool
  | .getRange .. | .getPage .. => true
  | _ => false

/-- Changes what is filed, a counter or the watermark. -/
def isWrite : Request → Bool
  | .store .. | .fileOutbound .. | .setNextSenderSeq _ | .setNextTargetSeq _ | .setAppWatermark _ => true
  | _ => false

/-- The frame a call files, under its number. -/
def filing : Request → List (Nat × MsgType × Bytes)
  | .store seqNum msgType message => [(seqNum.toNat, msgType, message)]
  | .fileOutbound seqNum msgType message _ => [(seqNum.toNat, msgType, message)]
  | _ => []

end Request

namespace MemoryStore

/-- What a store in memory answers. -/
def answer (memory : MemoryStore) : Request → Except StoreError (List StoredMessage)
  | .getRange first last => memory.getRange first.toNat last.toNat
  | .getPage first last limit => memory.getPage first.toNat last.toNat limit
  | _ => .ok []

/-- What a store in memory is after a call. -/
def after (memory : MemoryStore) : Request → MemoryStore
  | .store seqNum msgType message => memory.store seqNum.toNat msgType message
  | .fileOutbound seqNum msgType message nextSender =>
      memory.fileOutbound seqNum.toNat msgType message nextSender.toNat
  | .setNextSenderSeq seq => memory.setNextSenderSeq seq.toNat
  | .setNextTargetSeq seq => memory.setNextTargetSeq seq.toNat
  | .setResetOwed owed => memory.setResetOwed owed
  | .setAppWatermark watermark => memory.setAppWatermark watermark.toNat
  | .resetTo nextSender nextTarget _ => memory.resetTo nextSender.toNat nextTarget.toNat
  | .getRange .. | .getPage .. | .refresh | .sync | .compact => memory

end MemoryStore

end IronFix.Store
