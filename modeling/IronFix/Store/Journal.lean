import IronFix.Lib.FaultyDisk
import IronFix.Store.JournalScan
import IronFix.Store.Writer

/-!
# The journal of a file store

The state the writer thread owns, and every operation on it: appends, counter
slots, flushes, the replacement of the file by a reset or a compaction, and the
reload. Each call of the operating system may fail. The file is what the calls
read back; what is on stable storage is known only as far as it was flushed.
-/

namespace IronFix.Store

open Lib.Decimal Lib.FaultyDisk Lib.Patch Lib.Steps

/-! ## Configuration -/

/-- When the journal is flushed. -/
inductive SyncPolicy where
  | everyWrite
  /-- After every `every`-th write. -/
  | everyN (every : { n : UInt32 // n ≠ 0 })
  | never
  deriving DecidableEq

namespace SyncPolicy

def flushes : SyncPolicy → Bool
  | .everyWrite | .everyN _ => true
  | .never => false

def damageRule : SyncPolicy → DamageRule
  | .everyWrite => .tail 1
  | .everyN every => .tail every.val.toNat
  | .never => .anywhere

end SyncPolicy

def MAX_FRAME_SIZE_LIMIT : Nat := 64 * 1024 * 1024

structure FileStoreConfig where
  directory : String
  name : String
  syncPolicy : SyncPolicy
  maxFrameSize : UInt32
  isFrameSize : 0 < maxFrameSize.toNat ∧ maxFrameSize.toNat ≤ MAX_FRAME_SIZE_LIMIT
  createIfMissing : Bool
  compactionThreshold : Option { n : UInt64 // n ≠ 0 }

namespace FileStoreConfig

def journalPath (config : FileStoreConfig) : String :=
  if config.directory.isEmpty ∨ config.directory.endsWith "/" then
    s!"{config.directory}{config.name}.journal"
  else s!"{config.directory}/{config.name}.journal"

/-- The largest record body the configuration allows. -/
def maxBody (config : FileStoreConfig) : Nat := config.maxFrameSize.toNat + MAX_BODY_OVERHEAD

end FileStoreConfig

/-! ## Calls on the file -/

/-- A step on the file that answers as the store does. -/
abbrev DiskStep (α : Type) := EStateM StoreError (Disk UInt8) α

def ioError (context reason : String) : StoreError := .io s!"{context}: {reason}"

/-- A call, its failure named after what was being done. -/
def named {α : Type} (context : String) (call : EStateM String (Disk UInt8) α) : DiskStep α :=
  mapError (ioError context) call

def openJournalFile (config : FileStoreConfig) : DiskStep Unit :=
  named s!"cannot open {config.journalPath}" look

/-- Flushes the directory, so that a rename in it is durable. -/
def flushDirectory (config : FileStoreConfig) : DiskStep Unit := do
  let directory := if config.directory.isEmpty then "." else config.directory
  named s!"cannot flush the directory {directory}" look
  named s!"cannot flush the directory {directory}" touch

def writeSlot (position : Fin 2) (image : SlotImage) : EStateM String (Disk UInt8) Unit :=
  writeAt 0 image.bytes (slotOffset position)

/-- The position a slot at `position` does not take. -/
def otherSlot (position : Fin 2) : Fin 2 := if position = 0 then 1 else 0

/-- A new counter slot for a journal cut below the boundary of its newest one,
beside it. -/
def restampSlots (found : Scan) : DiskStep Scan := do
  let position := otherSlot found.active
  let generation := found.nextGeneration
  let image := encodeSlot
    ⟨generation, found.nextSender, found.nextTarget, .ofNat found.endOffset, found.appWatermark,
      found.resetOwed⟩
  named "cannot write the journal's counter slot" (writeSlot position image)
  let next ← orFail (checkedSucc generation) generationsExhausted
  return { found with
    slots := found.slots.set position image
    active := position
    nextGeneration := next
    boundary := found.endOffset
    slotsStale := false }

/-- Cuts what the scan cut. -/
def cutFound (found : Scan) : DiskStep Unit :=
  match found.truncation with
  | some cut => named "cannot cut the journal" (setLen 0 cut.offset)
  | none => pure ()

/-- Reads the journal from disk, and cuts what `rule` allows. -/
def load (config : FileStoreConfig) (rule : DamageRule) : DiskStep Scan := do
  openJournalFile config
  named "cannot read the journal's length" look
  named "cannot read the journal" look
  let disk ← get
  let found ← orThrow (scan disk.file config.maxBody rule)
  cutFound found
  if found.slotsStale then restampSlots found else return found

/-- Puts a counter slot back, unless it reads as it should. -/
def undoSlot (position : Fin 2) (image : SlotImage) : DiskStep Unit := do
  let onDisk ← attempt (readAt (slotOffset position) SLOT_LEN)
  if onDisk.toOption = some image.bytes then return
  else named "cannot put a counter slot back" (writeSlot position image)

/-- Cuts the journal back to `offset`, if it is longer. -/
def undoCut (offset : Nat) : DiskStep Unit := do
  named "cannot read the journal's length" look
  let disk ← get
  if disk.file.length > offset then named "cannot cut the journal back" (setLen 0 offset) else return

def undoSlots (images : SlotImages) : DiskStep Unit := do
  undoSlot 0 images.first
  undoSlot 1 images.second

/-- Completes the undo a failed write or flush left pending, and flushes it. -/
def undoOnDisk (config : FileStoreConfig) (offset : Option Nat) (slots : Option SlotImages) :
    DiskStep Unit := do
  openJournalFile config
  offset.forM undoCut
  slots.forM undoSlots
  named "cannot flush the journal's undo" touch

/-- Reads the record of an entry from the file. -/
def readRecord (seq : Nat) (entry : IndexEntry) : DiskStep (Bytes × Nat × MsgType) := do
  named "cannot read a journal record" look
  let disk ← get
  orThrow (readRecordInto disk.file seq entry)

/-- Reads the frames of the entries, each from its record. -/
def readFrames : List (Nat × IndexEntry) → DiskStep (List StoredMessage)
  | [] => return []
  | (seq, entry) :: entries => do
      let (record, frameAt, msgType) ← readRecord seq entry
      let messages ← readFrames entries
      return ⟨seq, msgType, record.drop frameAt⟩ :: messages

/-! ### A replacement journal

It is written to a temporary file, here its bytes, and renamed into place. One
that is not renamed is removed, and nothing of it is left. -/

namespace Replacement

def append (written bytes : Bytes) : DiskStep Bytes := do
  let _ ← orFail (checkedAdd u64Max written.length bytes.length) (.io "new journal offset overflows")
  named "cannot write the new journal" touch
  return written ++ bytes

def create (header : Header) (slots : SlotImages) : DiskStep Bytes := do
  -- a file left over is removed first, then a new one is created
  named "cannot write the new journal" touch
  named "cannot write the new journal" touch
  append [] (encodePrefix header slots)

/-- Writes out the buffer and flushes the temporary file. -/
def finish : DiskStep Unit := do
  named "cannot write the new journal" touch
  named "cannot write the new journal" touch

def renameIntoPlace (written : Bytes) : DiskStep Unit :=
  named "cannot rename the new journal into place" (rename written)

end Replacement

/-- Writes a journal without records, and renames it into place. -/
def writeReplacement (header : Header) (slots : SlotImages) : DiskStep Unit := do
  let written ← Replacement.create header slots
  Replacement.finish
  Replacement.renameIntoPlace written

/-- Copies the records of the entries behind what is written, and indexes the
copies. -/
def copyRecords : List (Nat × IndexEntry) → Bytes → Index → DiskStep (Bytes × Index)
  | [], written, index => return (written, index)
  | (seq, entry) :: entries, written, index => do
      let (record, _) ← readRecord seq entry
      let copied ← Replacement.append written record
      copyRecords entries copied (index.insert seq ⟨written.length, entry.bodyLen⟩).2

/-! ## The journal -/

/-- What a failed write left to do. -/
structure Pending where
  cutBackTo : Option Nat
  restoreSlots : Option SlotImages
  directoryFlush : Bool
  reopen : Bool
  deriving DecidableEq

namespace Pending

def default : Pending := ⟨none, none, false, false⟩

def isClear (pending : Pending) : Bool :=
  pending.cutBackTo.isNone && pending.restoreSlots.isNone && !pending.directoryFlush && !pending.reopen

/-- Keeps the earliest offset to cut back to. -/
def cutBack (pending : Pending) (offset : Nat) : Pending :=
  { pending with cutBackTo := some ((pending.cutBackTo.map (min offset)).getD offset) }

end Pending

/-- What the synchronous getters answer. -/
structure Shared where
  nextSender : UInt64
  nextTarget : UInt64
  resetOwed : Bool
  appWatermark : UInt64
  creationTime : SystemTime
  /-- The last cut since the store was opened. -/
  truncation : Option Truncation
  deriving DecidableEq

namespace Shared

def new : Shared := ⟨1, 1, false, 0, .UNIX_EPOCH, none⟩

def publish (shared : Shared) (creationTime : SystemTime) (nextSender nextTarget : UInt64) : Shared :=
  { shared with nextSender := nextSender, nextTarget := nextTarget, creationTime := creationTime }

/-- Publishes a loaded journal; a clean load keeps the last cut. -/
def install (shared : Shared) (found : Scan) : Shared :=
  { shared.publish found.header.creationTime found.nextSender found.nextTarget with
    resetOwed := found.resetOwed
    appWatermark := found.appWatermark
    truncation := found.truncation.or shared.truncation }

end Shared

structure Journal where
  config : FileStoreConfig
  disk : Disk UInt8
  index : Index
  /-- Just past the last record. -/
  endOffset : Nat
  /-- Up to where the records are known to be on stable storage. -/
  durableEnd : Nat
  /-- Writes since the last flush, when every so many are flushed. -/
  unsynced : Nat
  pending : Pending
  shared : Shared
  creationTime : SystemTime
  nextSender : UInt64
  nextTarget : UInt64
  resetOwed : Bool
  appWatermark : UInt64
  nextGeneration : UInt64
  slots : SlotImages
  /-- Where the newest counters are. -/
  activeSlot : Fin 2
  /-- Where the last checkpoint on stable storage is. -/
  durableSlot : Fin 2
  durableSlots : SlotImages
  deadBytes : Nat
  failedCompactionAt : Option Nat
  /-- The journal as its last flush left it. No operation reads it. -/
  flushed : Bytes

/-- A step of the journal. -/
abbrev Step (α : Type) := EStateM StoreError Journal α

/-- A step on the file of the journal. -/
def onDisk {ε α : Type} (step : EStateM ε (Disk UInt8) α) : EStateM ε Journal α :=
  zoom Journal.disk (fun journal disk => { journal with disk := disk }) step

/-- A call whose failure is dealt with here. -/
def trying {α : Type} (call : EStateM String (Disk UInt8) α) : Step (Except String α) :=
  attempt (onDisk call)

def notUsable : StoreError :=
  .io ("the journal is not usable after a failed write; refresh the store (or reset it) " ++
    "before using it again")

/-- A flush that failed. -/
def flushFailed (reason : String) : StoreError :=
  ioError "cannot flush the journal; the writes since its last flush are cut" reason

/-- A file with both counter slots written over. -/
def withSlots (file : Bytes) (slots : SlotImages) : Bytes :=
  patch (patch file (slotOffset 0) slots.first.bytes) (slotOffset 1) slots.second.bytes

namespace Journal

/-- A journal over a loaded file, of which everything is durable if it was
flushed, and else what its newest slot vouches for. -/
def new (config : FileStoreConfig) (disk : Disk UInt8) (found : Scan) (isFlushed : Bool) : Journal where
  config := config
  disk := disk
  index := found.index
  endOffset := found.endOffset
  durableEnd := if isFlushed then found.endOffset else found.boundary
  unsynced := 0
  pending := .default
  shared := Shared.new.install found
  creationTime := found.header.creationTime
  nextSender := found.nextSender
  nextTarget := found.nextTarget
  resetOwed := found.resetOwed
  appWatermark := found.appWatermark
  nextGeneration := found.nextGeneration
  slots := found.slots
  activeSlot := found.active
  durableSlot := found.active
  durableSlots := found.slots
  deadBytes := found.deadBytes
  failedCompactionAt := none
  flushed := if isFlushed then disk.file else disk.file.take found.boundary

/-- Fails if a failed write left something pending. -/
def usable : Step Unit := do
  let journal ← get
  ensure journal.pending.isClear notUsable

def takeGeneration : Step UInt64 := do
  let journal ← get
  let next ← orFail (checkedSucc journal.nextGeneration) generationsExhausted
  modify fun journal => { journal with nextGeneration := next }
  return journal.nextGeneration

/-! ### Flushes -/

/-- Everything written is on stable storage. -/
def settle (journal : Journal) : Journal :=
  { journal with
    durableEnd := journal.endOffset
    durableSlots := journal.slots
    durableSlot := journal.activeSlot
    unsynced := 0
    flushed := journal.disk.file }

/-- Writes the durable image of a slot that differs from it. -/
def putBackSlot (position : Fin 2) : Step Unit := do
  let journal ← get
  let durable := journal.durableSlots.get position
  if journal.slots.get position = durable then return
  else
    let _ ← trying (writeSlot position durable)

/-- The slots as the last flush left them. -/
def takeDurableSlots (journal : Journal) : Journal :=
  let restored :=
    { journal with
      pending := { journal.pending with restoreSlots := some journal.durableSlots }
      slots := journal.durableSlots }
  match newestSlot journal.durableSlots with
  | .ok (active, _) => { restored with activeSlot := active, durableSlot := active }
  | .error _ => restored

/-- Cuts the journal back to its last flush, as far as it can, and leaves the
rest pending. -/
def undoFlush : Step Unit := do
  let journal ← get
  let _ ← trying (setLen 0 journal.durableEnd)
  modify fun journal => { journal with pending := journal.pending.cutBack journal.durableEnd }
  if journal.slots = journal.durableSlots then return
  else
    putBackSlot 0
    putBackSlot 1
    modify takeDurableSlots

/-- Flushes the journal. What was written since its last flush is cut if that
fails. -/
def flush : Step Unit := do
  match ← trying touch with
  | .ok () => modify settle
  | .error reason => do
      undoFlush
      throw (flushFailed reason)

/-- Flushes as the sync policy requires after a write. -/
def afterWrite : Step Unit := do
  let journal ← get
  match journal.config.syncPolicy with
  | .everyWrite => flush
  | .everyN every => do
      let unsynced ← orFail (checkedAdd u32Max journal.unsynced 1) (.io "unflushed write count overflows")
      modify fun journal => { journal with unsynced := unsynced }
      if unsynced ≥ every.val.toNat then flush else return
  | .never => return

/-! ### Records -/

/-- Cuts a failed append off. -/
def undoAppend (offset : Nat) : Step Unit := do
  match ← trying (setLen 0 offset) with
  | .ok () => return
  | .error _ => modify fun journal => { journal with pending := journal.pending.cutBack offset }

/-- Appends a record and flushes it as the policy requires. Answers with its
offset. -/
def append (record : Bytes) : Step Nat := do
  let journal ← get
  let offset := journal.endOffset
  let newEnd ← orFail (checkedAdd u64Max offset record.length) (.io "journal offset overflows")
  match ← trying (writeAt 0 record offset) with
  | .error reason => do
      undoAppend offset
      throw (ioError "cannot append to the journal" reason)
  | .ok () => do
      modify fun journal => { journal with endOffset := newEnd }
      afterWrite
      return offset

/-- The bytes the records take that a later one replaced. -/
def countDead (journal : Journal) (replaced : Option IndexEntry) : Nat :=
  match replaced with
  | some replaced => (checkedAdd u64Max journal.deadBytes replaced.recordLen).getD journal.deadBytes
  | none => journal.deadBytes

/-- Indexes an appended frame. -/
def indexFrame (seq : UInt64) (entry : IndexEntry) (journal : Journal) : Journal :=
  let (replaced, index) := journal.index.insert seq.toNat entry
  { journal with index := index, deadBytes := journal.countDead replaced }

def publishSender (nextSender : Option UInt64) (journal : Journal) : Journal :=
  match nextSender with
  | some nextSender =>
      { journal with
        nextSender := nextSender
        shared := { journal.shared with nextSender := nextSender } }
  | none => journal

/-- The generation a record takes. -/
def recordGeneration (record : Bytes) : Step UInt64 :=
  if takesGeneration record then takeGeneration else pure 0

/-- Seals and appends a frame record, indexes it and publishes what it carries. -/
def appendFrame (seq : UInt64) (record : Bytes) (nextSender : Option UInt64) : Step Unit := do
  let generation ← recordGeneration record
  let sealedRecord := sealFrameRecord record generation
  let offset ← append sealedRecord
  modify (indexFrame seq ⟨offset, (recordBodyLen sealedRecord).toNat⟩)
  modify (publishSender nextSender)

/-! ### Counter slots -/

/-- Writes a slot again as it was, after a write of it failed. -/
def undoCounters (position : Fin 2) : Step Unit := do
  let journal ← get
  match ← trying (writeSlot position (journal.slots.get position)) with
  | .ok () => return
  | .error _ =>
      modify fun journal =>
        { journal with pending := { journal.pending with restoreSlots := some journal.slots } }

/-- Publishes both counters. -/
def publishCounters (nextSender nextTarget : UInt64) (journal : Journal) : Journal :=
  { journal with
    nextSender := nextSender
    nextTarget := nextTarget
    shared := { journal.shared with nextSender := nextSender, nextTarget := nextTarget } }

/-- Writes both counters into the slot that does not hold the last durable
checkpoint, and flushes as the policy requires. -/
def writeCounters (nextSender nextTarget : UInt64) : Step Unit := do
  let generation ← takeGeneration
  let journal ← get
  let target := otherSlot journal.durableSlot
  let image := encodeSlot
    ⟨generation, nextSender, nextTarget, .ofNat journal.durableEnd, journal.appWatermark,
      journal.resetOwed⟩
  match ← trying (writeSlot target image) with
  | .error reason => do
      undoCounters target
      throw (ioError "cannot write a counter slot" reason)
  | .ok () => do
      modify fun journal => { journal with slots := journal.slots.set target image, activeSlot := target }
      afterWrite
      modify (publishCounters nextSender nextTarget)

/-- Flushes the slot just written, unless the policy did. -/
def flushSlot : Step Unit := do
  let journal ← get
  if journal.durableSlot = journal.activeSlot then return else flush

/-- One write of the marker, flushed. -/
def writeOwed : Step Unit := do
  let journal ← get
  writeCounters journal.nextSender journal.nextTarget
  flushSlot

def setOwed (owed : Bool) (journal : Journal) : Journal :=
  { journal with resetOwed := owed, shared := { journal.shared with resetOwed := owed } }

/-- Sets the watermark and writes it like a counter. A failure puts it back. -/
def setAppWatermark (watermark : UInt64) : Step Unit := do
  usable
  let journal ← get
  if journal.appWatermark = watermark then return
  else
    modify fun journal => { journal with appWatermark := watermark }
    match ← attempt (writeCounters journal.nextSender journal.nextTarget) with
    | .error error => do
        modify fun after => { after with appWatermark := journal.appWatermark }
        throw error
    | .ok () =>
        modify fun journal =>
          { journal with shared := { journal.shared with appWatermark := watermark } }

/-! ### Replacing the file -/

/-- Takes fresh slots, the second one the newest. -/
def installSlots (slots : SlotImages) (journal : Journal) : Journal :=
  { journal with slots := slots, durableSlots := slots, activeSlot := 1, durableSlot := 1 }

/-- Completes a rename: flushes the directory and opens the file again. A
failure leaves the step pending. -/
def afterRename : Step Unit := do
  let journal ← get
  let directory ← attempt (onDisk (flushDirectory journal.config))
  match ← attempt (onDisk (openJournalFile journal.config)) with
  | .error error => do
      modify fun journal =>
        { journal with
          pending := { journal.pending with reopen := true, directoryFlush := !directory.isOk } }
      throw error
  | .ok () =>
      match directory with
      | .ok () => return
      | .error error => do
          modify fun journal => { journal with pending := { journal.pending with directoryFlush := true } }
          throw error

/-- The state of a journal that was replaced by one without records. -/
def installEmpty (now : SystemTime) (nextSender nextTarget : UInt64) (slots : SlotImages)
    (nextGeneration : UInt64) (journal : Journal) : Journal :=
  { journal.installSlots slots with
    pending := .default
    index := .new
    endOffset := DATA_START
    durableEnd := DATA_START
    unsynced := 0
    creationTime := now
    nextSender := nextSender
    nextTarget := nextTarget
    nextGeneration := nextGeneration
    appWatermark := 0
    deadBytes := 0
    failedCompactionAt := none
    shared := { journal.shared with appWatermark := 0 }.publish now nextSender nextTarget
    flushed := journal.disk.file }

/-- Replaces the journal with an empty one that starts from the given counters.
`now` is what the clock shows. -/
def replace (nextSender nextTarget : UInt64) (now : SystemTime) : Step Unit := do
  let journal ← get
  let (slots, nextGeneration) ← orThrow
    (freshSlots 0 nextSender nextTarget (.ofNat DATA_START) 0 journal.resetOwed)
  onDisk (writeReplacement ⟨now, nextSender, nextTarget⟩ slots)
  -- the rename is the commit point
  modify (installEmpty now nextSender nextTarget slots nextGeneration)
  afterRename

/-- Where a journal of the records of the entries ends. -/
def liveEnd (entries : List (Nat × IndexEntry)) : Option Nat := do
  let live ← entries.foldlM (fun total entry => checkedAdd u64Max total entry.2.recordLen) 0
  checkedAdd u64Max live DATA_START

/-- Every filed frame, ascending. -/
def entries (journal : Journal) : List (Nat × IndexEntry) := (journal.index.range 0 u64Max).collect

/-- The state of a journal that was compacted. -/
def installCompacted (index : Index) (endOffset : Nat) (slots : SlotImages) (nextGeneration : UInt64)
    (journal : Journal) : Journal :=
  { journal.installSlots slots with
    index := index
    endOffset := endOffset
    durableEnd := endOffset
    unsynced := 0
    nextGeneration := nextGeneration
    deadBytes := 0
    failedCompactionAt := none
    flushed := journal.disk.file }

/-- Writes the replacement of a compaction, flushed but not renamed. -/
def rewrite (header : Header) (slots : SlotImages) (live : Nat) (entries : List (Nat × IndexEntry)) :
    DiskStep (Bytes × Index) := do
  let begun ← Replacement.create header slots
  let (written, index) ← copyRecords entries begun .new
  Replacement.finish
  let length := written.length
  if length ≠ live then
    throw (.io
      (s!"compaction wrote {length} bytes where its counter slots vouch for {live}; the journal " ++
        "is unchanged"))
  return (written, index)

/-- Rewrites the journal with only its live records, and answers with how many
bytes it shrank by. -/
def compact : Step Nat := do
  usable
  let journal ← get
  let live ← orFail (liveEnd journal.entries) (.io "compacted journal length overflows")
  let (slots, nextGeneration) ← orThrow
    (freshSlots journal.nextGeneration journal.nextSender journal.nextTarget (.ofNat live)
      journal.appWatermark journal.resetOwed)
  let header := ⟨journal.creationTime, journal.nextSender, journal.nextTarget⟩
  let (written, index) ← onDisk (rewrite header slots live journal.entries)
  onDisk (Replacement.renameIntoPlace written)
  modify (installCompacted index written.length slots nextGeneration)
  afterRename
  return journal.endOffset - written.length

/-- The superseded records call for a compaction. -/
def compactionDue (journal : Journal) : Bool :=
  match journal.config.compactionThreshold with
  | none => false
  | some threshold =>
      if !journal.pending.isClear || journal.deadBytes < threshold.val.toNat then false
      else
        let grown :=
          match journal.failedCompactionAt with
          | some failedAt =>
              failedAt ≤ journal.deadBytes && threshold.val.toNat ≤ journal.deadBytes - failedAt
          | none => true
        grown && journal.endOffset - DATA_START - journal.deadBytes ≤ journal.deadBytes

/-- Compacts the journal between two calls. Its failure reaches no caller. -/
def afterCall : Step Unit := do
  match ← attempt compact with
  | .ok _ => return
  | .error _ => modify fun journal => { journal with failedCompactionAt := some journal.deadBytes }

/-! ### Reload -/

/-- The state of a journal read again from disk. -/
def installLoaded (found : Scan) (journal : Journal) : Journal :=
  { journal with
    shared := journal.shared.install found
    index := found.index
    endOffset := found.endOffset
    unsynced := 0
    pending := .default
    creationTime := found.header.creationTime
    nextSender := found.nextSender
    nextTarget := found.nextTarget
    resetOwed := found.resetOwed
    appWatermark := found.appWatermark
    nextGeneration := max journal.nextGeneration found.nextGeneration
    slots := found.slots
    activeSlot := found.active
    durableSlot := found.active
    deadBytes := found.deadBytes
    failedCompactionAt := none }

/-- What an undo put back is on stable storage. -/
def undone (journal : Journal) : Journal :=
  { journal with
    durableEnd := (journal.pending.cutBackTo.map (min journal.durableEnd)).getD journal.durableEnd
    durableSlots := journal.pending.restoreSlots.getD journal.durableSlots
    flushed :=
      let cut := (journal.pending.cutBackTo.map fun offset => journal.flushed.take offset).getD
        journal.flushed
      (journal.pending.restoreSlots.map (withSlots cut)).getD cut }

/-- Flushes the directory a rename left unflushed. -/
def flushRenamed : Step Unit := do
  let journal ← get
  if journal.pending.directoryFlush then
    onDisk (flushDirectory journal.config)
    modify fun journal => { journal with pending := { journal.pending with directoryFlush := false } }

/-- Undoes what a failed write or flush left in the file. -/
def undoPending : Step Unit := do
  let journal ← get
  if journal.pending.cutBackTo.isSome ∨ journal.pending.restoreSlots.isSome then
    onDisk (undoOnDisk journal.config journal.pending.cutBackTo journal.pending.restoreSlots)
    modify undone

/-- What a policy that never flushes knows to be durable once it read a journal. -/
def vouchedOnly (found : Scan) (journal : Journal) : Journal :=
  { journal with
    durableEnd := found.boundary
    durableSlots := found.slots
    flushed := journal.disk.file.take found.boundary }

/-- What was flushed before is durable; a record that was cut is not. -/
def durableBefore (found : Scan) (journal : Journal) : Journal :=
  { journal with
    durableEnd := min journal.durableEnd found.endOffset
    flushed := journal.flushed.take found.endOffset }

/-- Completes what a failed write left pending, reads the journal from disk and
flushes it, unless the policy never does. -/
def reload : Step Unit := do
  flushRenamed
  undoPending
  let journal ← get
  let found ← onDisk (load journal.config journal.config.syncPolicy.damageRule)
  modify (installLoaded found)
  if journal.config.syncPolicy.flushes then
    modify (durableBefore found)
    flush
  else modify (vouchedOnly found)

/-- Both slots carry the marker as `owed`. -/
def carries (journal : Journal) (owed : Bool) : Bool :=
  [journal.slots.first, journal.slots.second].all fun image =>
    match decodeSlot image with
    | some slot => slot.resetOwed == owed
    | none => false

/-- Reads the journal again if something is pending. -/
def reloadIfPending : Step Unit := do
  let journal ← get
  if journal.pending.isClear then return else reload

/-- Writes the marker into both slots, each write flushed. -/
def writeBoth : Step Unit := do
  writeOwed
  writeOwed

/-- Sets or clears the owed-reset marker. A failure leaves it set if it was set
or was being set. -/
def setResetOwed (owed : Bool) : Step Unit := do
  reloadIfPending
  let journal ← get
  if journal.carries owed ∧ journal.resetOwed = owed then modify (setOwed owed)
  else
    modify fun journal => { journal with resetOwed := owed }
    match ← attempt writeBoth with
    | .error error => do
        modify (setOwed (journal.resetOwed || owed))
        throw error
    | .ok () =>
        modify fun journal => { journal with shared := { journal.shared with resetOwed := owed } }

/-- The filed frames in `first..=last`, at most `limit`. -/
def read (first last limit : Nat) : Step (List StoredMessage) := do
  let journal ← get
  onDisk (readFrames ((journal.index.range first last).collect.take limit))

end Journal

/-! ## Commands -/

/-- A call, as the writer thread takes it. -/
inductive Command where
  | store (seq : UInt64) (record : Bytes)
  | fileOutbound (seq : UInt64) (record : Bytes) (nextSender : UInt64)
  | setNextSender (nextSender : UInt64)
  | setNextTarget (nextTarget : UInt64)
  | setResetOwed (owed : Bool)
  | setAppWatermark (watermark : UInt64)
  /-- `now` is what the clock shows when the call runs. -/
  | resetTo (nextSender nextTarget : UInt64) (now : SystemTime)
  | read (first last : UInt64) (limit : Nat)
  | refresh
  | sync
  | compact
  | close

inductive Answer where
  | done
  | page (messages : List StoredMessage)
  /-- The bytes a compaction reclaimed. -/
  | reclaimed (bytes : Nat)

namespace Journal

/-- A step that answers `Done`. -/
def answered (step : Step Unit) : Step Answer := do
  step
  return .done

def closeFlush : Step Unit := do
  let journal ← get
  if journal.unsynced > 0 ∧ journal.pending.isClear then flush else return

/-- Runs a call. -/
def run : Command → Step Answer
  | .store seq record => answered do
      usable
      appendFrame seq record none
  | .fileOutbound seq record nextSender => answered do
      usable
      appendFrame seq record (some nextSender)
  | .setNextSender nextSender => answered do
      usable
      let journal ← get
      writeCounters nextSender journal.nextTarget
  | .setNextTarget nextTarget => answered do
      usable
      let journal ← get
      writeCounters journal.nextSender nextTarget
  | .setResetOwed owed => answered (setResetOwed owed)
  | .setAppWatermark watermark => answered (setAppWatermark watermark)
  | .resetTo nextSender nextTarget now => answered (replace nextSender nextTarget now)
  | .read first last limit => do
      usable
      let messages ← read first.toNat last.toNat limit
      return .page messages
  | .refresh => answered reload
  | .sync => answered do
      usable
      flush
  | .compact => do
      let bytes ← compact
      return .reclaimed bytes
  | .close => answered closeFlush

end Journal

def Command.isClose : Command → Bool
  | .close => true
  | _ => false

/-- The result of a step and the state it leaves. -/
def resultOf {σ α : Type} : EStateM.Result StoreError σ α → Except StoreError α × σ
  | .ok a s => (.ok a, s)
  | .error error s => (.error error, s)

/-- The journal, as the writer thread serves calls on it. -/
def journalServed : Served Journal Command Answer where
  execute journal command := some (resultOf (Journal.run command journal))
  closes := Command.isClose
  afterCallDue := Journal.compactionDue
  afterCall journal := some (resultOf (Journal.afterCall journal)).2

/-! ## Opening -/

def missingStore (config : FileStoreConfig) : StoreError :=
  .io
    (s!"store {config.name} has no journal in {config.directory}; set create_if_missing to create " ++
      "a new store")

/-- Creates an empty journal if none is present. -/
def createMissing (config : FileStoreConfig) (create present : Bool) (now : SystemTime) : DiskStep Unit :=
  if present then pure ()
  else if create then do
    let (slots, _) ← orThrow (freshSlots 0 1 1 (.ofNat DATA_START) 0 false)
    writeReplacement ⟨now, 1, 1⟩ slots
    flushDirectory config
  else throw (missingStore config)

/-- Opens the journal, created if it is missing and `create` is set, and cuts
what `rule` allows. -/
def openJournal (config : FileStoreConfig) (rule : DamageRule) (create present : Bool)
    (now : SystemTime) : DiskStep Journal := do
  createMissing config create present now
  let found ← load config rule
  let isFlushed := config.syncPolicy.flushes || rule == .salvage
  if isFlushed then named "cannot flush the journal" touch
  let disk ← get
  return .new config disk found isFlushed

/-- `FileStore::open`. -/
def FileStore.openStore (config : FileStoreConfig) (present : Bool) (now : SystemTime) : DiskStep Journal :=
  openJournal config config.syncPolicy.damageRule config.createIfMissing present now

/-- The command that files a frame: its record, with or without the next sender
number. -/
def FileStore.fileFrame (config : FileStoreConfig) (seq : UInt64) (nextSender : Option UInt64)
    (msgType : MsgType) (frame : Bytes) : Except StoreError Command := do
  let record ← encodeFrameRecord seq nextSender msgType frame config.maxFrameSize
  match nextSender with
  | some nextSender => return .fileOutbound seq record nextSender
  | none => return .store seq record

/-- A range is read only if it holds a number. -/
def FileStore.read (first last : UInt64) (limit : Nat) : Except StoreError Command :=
  if first = 0 ∨ first > last then .error (.invalidRange first.toNat last.toNat)
  else .ok (.read first last limit)

end IronFix.Store
