import IronFix.Store.IndexMap
import IronFix.Store.JournalFormat

/-!
# The recovery scan

A journal is read from its start, record by record, up to the first one that
cannot be read. A damage rule says which damage may be cut and which refuses
the journal.
-/

namespace IronFix.Store

open Lib.Decimal Lib.Ordered Lib.Patch

/-- Why a journal is cut. -/
inductive TruncationCause where
  /-- The file ends inside a record. -/
  | incomplete
  /-- A record failed its check. -/
  | damaged
  deriving DecidableEq, Repr

structure Truncation where
  offset : Nat
  droppedBytes : Nat
  cause : TruncationCause
  deriving DecidableEq, Repr

/-- Which damage recovery may cut. -/
inductive DamageRule where
  /-- Only what an interrupted write can have left, with up to `records` of
  them unflushed. -/
  | tail (records : Nat)
  | anywhere
  | salvage
  deriving DecidableEq, Repr

def DamageRule.isTail : DamageRule → Bool
  | .tail _ => true
  | .anywhere | .salvage => false

/-- The records replayed so far. -/
structure Replay where
  index : Index
  deadBytes : Nat
  /-- The generation and next sender of the newest kind-5 record. -/
  newestCounter : Option (UInt64 × UInt64)
  highestGeneration : Option UInt64

/-- What a journal holds. -/
structure Scan where
  header : Header
  slots : SlotImages
  active : Fin 2
  index : Index
  nextSender : UInt64
  nextTarget : UInt64
  nextGeneration : UInt64
  /-- Just past the last good record. -/
  endOffset : Nat
  truncation : Option Truncation
  deadBytes : Nat
  slotsStale : Bool
  boundary : Nat
  resetOwed : Bool
  appWatermark : UInt64

namespace Replay

def new : Replay := ⟨.new, 0, none, none⟩

/-- The counter of a body, if it is the newest. -/
def newer (newest : Option (UInt64 × UInt64)) (counter : UInt64 × UInt64) : Option (UInt64 × UInt64) :=
  match newest with
  | some (generation, _) => if counter.1 > generation then some counter else newest
  | none => some counter

/-- Takes the generations of a body. -/
def countGeneration (replay : Replay) : Option (UInt64 × UInt64) → Replay
  | some counter =>
      { replay with
        newestCounter := newer replay.newestCounter counter
        highestGeneration := some
          (match replay.highestGeneration with
          | some highest => max highest counter.1
          | none => counter.1) }
  | none => replay

/-- Takes the body of the record at `offset`. -/
def record (replay : Replay) (offset len : Nat) (body : Bytes) : EStateM.Result String Replay Unit :=
  match decodeBody body with
  | .error reason => .error reason replay
  | .ok body =>
      let replay := replay.countGeneration body.counter
      let (replaced, index) := replay.index.insert body.seq.toNat ⟨offset, len⟩
      let replay := { replay with index := index }
      match replaced with
      | none => .ok () replay
      | some replaced =>
          match checkedAdd u64Max replay.deadBytes replaced.recordLen with
          | some deadBytes => .ok () { replay with deadBytes := deadBytes }
          | none => .error "the count of replaced bytes overflows" replay

end Replay

/-- Every byte is zero. -/
def restIsZero (bytes : Bytes) : Bool := bytes.all fun byte => byte == 0

/-- `remaining` bytes fit in `records` records of the largest size. An
overflowing window is larger than any file. -/
def withinRecords (remaining records maxBody : Nat) : Bool :=
  match checkedMul u64Max records (RECORD_HEADER_LEN + maxBody) with
  | some window => remaining ≤ window
  | none => true

/-- What a scan does at an offset. -/
inductive ScanStep where
  | done
  | cut (cause : TruncationCause)
  | refuse (error : StoreError)
  | take (len : Nat) (body : Bytes)

section Scanning

variable (maxBody : Nat) (rule : DamageRule) (boundary : Nat)

/-- May a damaged record header be cut? -/
def mayCutHeader (rest : Bytes) : Bool :=
  match rule with
  | .anywhere | .salvage => true
  | .tail records =>
      withinRecords rest.length records maxBody ||
        (rest.take RECORD_HEADER_LEN == List.replicate RECORD_HEADER_LEN 0 &&
          restIsZero (rest.drop RECORD_HEADER_LEN))

/-- May a record of `recordLen` bytes that fails its checksum be cut? -/
def mayCutBody (rest : Bytes) (recordLen : Nat) : Bool :=
  match rule with
  | .anywhere | .salvage => true
  | .tail records =>
      decide (rest.length - recordLen = 0) ||
        (decide (records > 1) && withinRecords rest.length records maxBody) ||
        restIsZero (rest.drop recordLen)

/-- A cut that may not be made below the durable boundary. -/
def cutUnlessDurable (offset : Nat) (what : String) (cause : TruncationCause) : ScanStep :=
  if rule.isTail ∧ offset < boundary then .refuse (refusedDurable offset what boundary) else .cut cause

/-- Reads the record at `offset`, where `rest` is what the file has left. -/
def scanStep (rest : Bytes) (offset : Nat) : ScanStep :=
  let remaining := rest.length
  if remaining = 0 then .done
  else
    let durable := rule.isTail ∧ offset < boundary
    if remaining < RECORD_HEADER_LEN then
      cutUnlessDurable rule boundary offset "the journal ends inside a record" .incomplete
    else
      let head := rest.take RECORD_HEADER_LEN
      match readU32 head with
      | none => .refuse fieldPastEnd
      | some (len, head) =>
          match readU32 head with
          | none => .refuse fieldPastEnd
          | some (check, head) =>
              match readU32 head with
              | none => .refuse fieldPastEnd
              | some (crc, _) =>
                  if check ≠ ~~~len then
                    if durable then .refuse (refusedDurable offset "a damaged record header" boundary)
                    else if mayCutHeader maxBody rule rest then .cut .damaged
                    else .refuse (refused offset "has a damaged record header" remaining)
                  else if len.toNat = 0 ∨ len.toNat > maxBody then
                    if rule = .salvage then .cut .damaged
                    else
                      .refuse (.corrupted
                        (s!"record at offset {offset} declares a {len}-byte body; this store " ++
                          s!"reads bodies of 1 to {maxBody} bytes (was the journal written with " ++
                          "a larger max frame size?)"))
                  else
                    let recordLen := RECORD_HEADER_LEN + len.toNat
                    if remaining < recordLen then
                      cutUnlessDurable rule boundary offset "the journal ends inside a record"
                        .incomplete
                    else
                      let body := span rest RECORD_HEADER_LEN len.toNat
                      if crc32 body ≠ crc then
                        if durable then
                          .refuse (refusedDurable offset "a record failing its checksum" boundary)
                        else if mayCutBody maxBody rule rest recordLen then .cut .damaged
                        else .refuse (refused offset "fails its checksum" remaining)
                      else .take len.toNat body

/-- A record that is taken is whole, and has a body. -/
theorem scanStep_take {rest : Bytes} {offset len : Nat} {body : Bytes}
    (taken : scanStep maxBody rule boundary rest offset = .take len body) :
    0 < len ∧ len ≤ maxBody ∧ RECORD_HEADER_LEN + len ≤ rest.length ∧
      body = span rest RECORD_HEADER_LEN len := by
  unfold scanStep cutUnlessDurable at taken
  dsimp only at taken
  repeat' split at taken
  all_goals first
    | cases taken
      refine ⟨by omega, by omega, by omega, rfl⟩
    | cases taken

/-- Reads the records from `offset` on: where the last good one ends, the cut
to make, and the records replayed. -/
def scanRecords (rest : Bytes) (offset : Nat) (replay : Replay) :
    Except StoreError (Nat × Option Truncation × Replay) :=
  match _ : scanStep maxBody rule boundary rest offset with
  | .done => .ok (offset, none, replay)
  | .cut cause => .ok (offset, some ⟨offset, rest.length, cause⟩, replay)
  | .refuse error => .error error
  | .take len body =>
      match replay.record offset len body with
      | .ok () replay =>
          match checkedAdd u64Max offset (RECORD_HEADER_LEN + len) with
          | some next => scanRecords (rest.drop (RECORD_HEADER_LEN + len)) next replay
          | none => .error (.corrupted "journal offset overflows")
      | .error reason replay =>
          if rule = .salvage then .ok (offset, some ⟨offset, rest.length, .damaged⟩, replay)
          else .error (.corrupted s!"record at offset {offset}: {reason}")
termination_by rest.length
decreasing_by
  obtain ⟨positive, -, whole, -⟩ := scanStep_take maxBody rule boundary ‹_›
  rw [List.length_drop]
  omega

end Scanning

/-- The slot of a file at a position. -/
def slotImageAt (file : Bytes) (whole : DATA_START ≤ file.length) (position : Fin 2) : SlotImage where
  bytes := span file (slotOffset position) SLOT_LEN
  full := by
    refine span_length ?_
    have inside : slotOffset position + SLOT_LEN ≤ DATA_START := by
      revert position
      decide
    exact inside.trans whole

/-- The highest generation of the valid slots and the records. -/
def highestGeneration (slots : SlotImages) (active : Slot) (replay : Replay) : UInt64 :=
  let generations := ([slots.first, slots.second].filterMap decodeSlot).map Slot.generation ++
    replay.highestGeneration.toList
  generations.max?.getD active.generation

/-- The two counter slots of a file. -/
def slotImages (file : Bytes) (whole : DATA_START ≤ file.length) : SlotImages :=
  ⟨slotImageAt file whole 0, slotImageAt file whole 1⟩

/-- What was recovered. -/
def Scan.found (header : Header) (slots : SlotImages) (active : Fin 2) (slot : Slot)
    (endOffset : Nat) (truncation : Option Truncation) (replay : Replay) (nextGeneration : UInt64) :
    Scan where
  header := header
  slots := slots
  active := active
  index := replay.index
  nextSender :=
    match replay.newestCounter with
    | some (generation, nextSender) =>
        if generation > slot.generation then nextSender else slot.nextSender
    | none => slot.nextSender
  nextTarget := slot.nextTarget
  nextGeneration := nextGeneration
  endOffset := endOffset
  truncation := truncation
  deadBytes := replay.deadBytes
  slotsStale := endOffset < slot.durableEnd.toNat
  boundary := slot.durableEnd.toNat
  resetOwed := slot.resetOwed
  appWatermark := slot.appWatermark

/-- Reads a journal and recovers what it holds. -/
def scan (file : Bytes) (maxBody : Nat) (rule : DamageRule) : Except StoreError Scan :=
  let fileLen := file.length
  if fileLen < HEADER_LEN then
    .error (.corrupted
      s!"journal is {fileLen} bytes long, shorter than its {HEADER_LEN}-byte header")
  else
    match decodeHeader (file.take HEADER_LEN) with
    | .error error => .error error
    | .ok header =>
        if whole : DATA_START ≤ file.length then
          match newestSlot (slotImages file whole) with
          | .error error => .error error
          | .ok (active, slot) =>
              let boundary := slot.durableEnd.toNat
              match scanRecords maxBody rule boundary (file.drop DATA_START) DATA_START .new with
              | .error error => .error error
              | .ok (endOffset, truncation, replay) =>
                  if endOffset < boundary ∧ rule.isTail then
                    .error (refusedDurable endOffset "the journal ends" boundary)
                  else
                    match checkedSucc (highestGeneration (slotImages file whole) slot replay) with
                    | none => .error (.corrupted "the journal's generation sequence is exhausted")
                    | some nextGeneration =>
                        .ok (.found header (slotImages file whole) active slot endOffset truncation
                          replay nextGeneration)
        else
          .error (.corrupted
            (s!"journal is {fileLen} bytes long, shorter than the {DATA_START} bytes its header " ++
              "and counter slots take"))

/-- What a scan that succeeds went through. -/
structure Scanned (file : Bytes) (maxBody : Nat) (rule : DamageRule) (header : Header)
    (active : Fin 2) (slot : Slot) (endOffset : Nat) (truncation : Option Truncation)
    (replay : Replay) (nextGeneration : UInt64) : Prop where
  whole : DATA_START ≤ file.length
  header : decodeHeader (file.take HEADER_LEN) = .ok header
  newest : newestSlot (slotImages file whole) = .ok (active, slot)
  records : scanRecords maxBody rule slot.durableEnd.toNat (file.drop DATA_START) DATA_START .new =
    .ok (endOffset, truncation, replay)
  durable : ¬(endOffset < slot.durableEnd.toNat ∧ rule.isTail = true)
  generations : checkedSucc (highestGeneration (slotImages file whole) slot replay) =
    some nextGeneration

section Scans

variable {file : Bytes} {maxBody : Nat} {rule : DamageRule} {header : Header} {active : Fin 2}
  {slot : Slot} {endOffset : Nat} {truncation : Option Truncation} {replay : Replay}
  {nextGeneration : UInt64}

theorem Scanned.scan (scanned : Scanned file maxBody rule header active slot endOffset truncation
    replay nextGeneration) : scan file maxBody rule = .ok (.found header
      (slotImages file scanned.whole) active slot endOffset truncation replay nextGeneration) := by
  have short : ¬file.length < HEADER_LEN := by
    have whole := scanned.whole
    unfold DATA_START at whole
    unfold HEADER_LEN
    omega
  unfold Store.scan
  dsimp only
  rw [if_neg short, scanned.header]
  dsimp only
  rw [dif_pos scanned.whole, scanned.newest]
  dsimp only
  rw [scanned.records]
  dsimp only
  rw [if_neg scanned.durable, scanned.generations]

theorem scan_ok {found : Scan} (scanned : Store.scan file maxBody rule = .ok found) :
    ∃ header active slot endOffset truncation replay nextGeneration,
      ∃ went : Scanned file maxBody rule header active slot endOffset truncation replay
        nextGeneration,
      found = .found header (slotImages file went.whole) active slot endOffset truncation replay
        nextGeneration := by
  unfold Store.scan at scanned
  dsimp only at scanned
  split at scanned
  · cases scanned
  · split at scanned
    · cases scanned
    · rename_i header decoded
      split at scanned
      · rename_i whole
        split at scanned
        · cases scanned
        · rename_i active slot newest
          split at scanned
          · cases scanned
          · rename_i endOffset truncation replay records
            split at scanned
            · cases scanned
            · rename_i durable
              split at scanned
              · cases scanned
              · rename_i nextGeneration generations
                cases scanned
                exact ⟨header, active, slot, endOffset, truncation, replay, nextGeneration,
                  ⟨whole, decoded, newest, records, durable, generations⟩, rfl⟩
      · cases scanned

end Scans

end IronFix.Store
