import IronFix.Lib.LittleEndian
import IronFix.Lib.Patch
import IronFix.Store.Crc32
import IronFix.Store.Index
import IronFix.Store.Memory

/-!
# The format of a journal

A header and two counter slots, each alone in a block, and the records behind
them. Counters and generations are machine words; file offsets are naturals
whose sums are checked.
-/

namespace IronFix.Store

open Lib.Decimal Lib.Patch

/-! ## Layout -/

/-- `IRFXJRNL`. -/
def MAGIC : Bytes := ascii "IRFXJRNL"

def VERSION : Nat := 4

def HEADER_LEN : Nat := 44

def RECORD_HEADER_LEN : Nat := 12

def BLOCK_LEN : Nat := 4096

/-- The offset of the first record. -/
def DATA_START : Nat := 12288

def PREFIX_LEN : Nat := 3 * BLOCK_LEN

def SLOT_LEN : Nat := 52

/-- How much of a slot its CRC covers. -/
def SLOT_CHECKED_LEN : Nat := 48

/-- The flag bit of the owed-reset marker. -/
def FLAG_RESET_OWED : UInt64 := 1

/-- The largest part of a record body that is not the frame. -/
def MAX_BODY_OVERHEAD : Nat := 1 + 8 + 8 + 8 + 1 + MSG_TYPE_MAX_LEN

def KIND_FRAME : Nat := 1

def KIND_FRAME_AND_SENDER : Nat := 5

/-- Where the generation is in a kind-5 record. -/
def GENERATION_AT : Nat := RECORD_HEADER_LEN + 1 + 8

def NANOS_PER_SECOND : Nat := 1000000000

scoped instance twoSlots : NeZero 2 := ⟨by decide⟩

/-- The file offset of a counter slot. -/
def slotOffset : Fin 2 → Nat
  | 0 => 4096
  | 1 => 8192

/-! ## Words -/

/-- A word as its little-endian bytes. -/
def putU64 (n : UInt64) : Bytes := Lib.LittleEndian.bytes 8 n.toNat

def putU32 (n : UInt32) : Bytes := Lib.LittleEndian.bytes 4 n.toNat

def putU16 (n : UInt16) : Bytes := Lib.LittleEndian.bytes 2 n.toNat

/-- `Reader::take`: the next `len` bytes, and what is left. -/
def takeBytes (len : Nat) (rest : Bytes) : Option (Bytes × Bytes) :=
  if len ≤ rest.length then some (rest.take len, rest.drop len) else none

def readU8 (rest : Bytes) : Option (UInt8 × Bytes) :=
  match rest with
  | [] => none
  | byte :: rest => some (byte, rest)

def readU16 (rest : Bytes) : Option (UInt16 × Bytes) :=
  (takeBytes 2 rest).map fun taken => (.ofNat (Lib.LittleEndian.value taken.1), taken.2)

def readU32 (rest : Bytes) : Option (UInt32 × Bytes) :=
  (takeBytes 4 rest).map fun taken => (.ofNat (Lib.LittleEndian.value taken.1), taken.2)

def readU64 (rest : Bytes) : Option (UInt64 × Bytes) :=
  (takeBytes 8 rest).map fun taken => (.ofNat (Lib.LittleEndian.value taken.1), taken.2)

theorem takeBytes_append (front rest : Bytes) :
    takeBytes front.length (front ++ rest) = some (front, rest) := by
  unfold takeBytes
  rw [if_pos (by simp), List.take_left, List.drop_left]

@[simp] theorem putU64_length (n : UInt64) : (putU64 n).length = 8 :=
  Lib.LittleEndian.length_bytes 8 n.toNat

@[simp] theorem putU32_length (n : UInt32) : (putU32 n).length = 4 :=
  Lib.LittleEndian.length_bytes 4 n.toNat

@[simp] theorem putU16_length (n : UInt16) : (putU16 n).length = 2 :=
  Lib.LittleEndian.length_bytes 2 n.toNat

@[simp] theorem readU64_put (n : UInt64) (rest : Bytes) : readU64 (putU64 n ++ rest) = some (n, rest) := by
  have taken := takeBytes_append (putU64 n) rest
  rw [putU64_length] at taken
  have value : Lib.LittleEndian.value (putU64 n) = n.toNat := Lib.LittleEndian.value_bytes n.toNat_lt
  rw [readU64, taken, Option.map_some, value, UInt64.ofNat_toNat]

@[simp] theorem readU32_put (n : UInt32) (rest : Bytes) : readU32 (putU32 n ++ rest) = some (n, rest) := by
  have taken := takeBytes_append (putU32 n) rest
  rw [putU32_length] at taken
  have value : Lib.LittleEndian.value (putU32 n) = n.toNat := Lib.LittleEndian.value_bytes n.toNat_lt
  rw [readU32, taken, Option.map_some, value, UInt32.ofNat_toNat]

@[simp] theorem readU16_put (n : UInt16) (rest : Bytes) : readU16 (putU16 n ++ rest) = some (n, rest) := by
  have taken := takeBytes_append (putU16 n) rest
  rw [putU16_length] at taken
  have value : Lib.LittleEndian.value (putU16 n) = n.toNat := Lib.LittleEndian.value_bytes n.toNat_lt
  rw [readU16, taken, Option.map_some, value, UInt16.ofNat_toNat]

/-- A word that is read was put there. -/
theorem readU32_some {bytes rest : Bytes} {n : UInt32} (read : readU32 bytes = some (n, rest)) :
    bytes = putU32 n ++ rest := by
  unfold readU32 takeBytes at read
  split at read
  · rename_i long
    rw [Option.map_some, Option.some.injEq, Prod.mk.injEq] at read
    obtain ⟨rfl, rfl⟩ := read
    have four : (bytes.take 4).length = 4 := List.length_take_of_le long
    have small := Lib.LittleEndian.value_lt (bytes.take 4)
    rw [four] at small
    have again := Lib.LittleEndian.bytes_value (bytes.take 4)
    rw [four] at again
    have kept : (UInt32.ofNat (Lib.LittleEndian.value (bytes.take 4))).toNat =
        Lib.LittleEndian.value (bytes.take 4) := UInt32.toNat_ofNat_of_lt small
    show bytes = Lib.LittleEndian.bytes 4
      (UInt32.ofNat (Lib.LittleEndian.value (bytes.take 4))).toNat ++ bytes.drop 4
    rw [kept, again, List.take_append_drop]
  · cases read

/-! ## Errors -/

/-- What a read past the end of a field answers. -/
def fieldPastEnd : StoreError := .corrupted "field runs past the end of its record"

/-- Damage recovery may not cut. -/
def refused (offset : Nat) (what : String) (remaining : Nat) : StoreError :=
  .corrupted
    (s!"record at offset {offset} {what}, and the {remaining} bytes from there to the end of " ++
      "the journal are more than an interrupted write can leave: this is damage to data " ++
      "already written, so the store refuses to open. FileStore::repair cuts the journal " ++
      "there; the session must then reset its sequence (ResetSeqNumFlag 141=Y)")

/-- Damage below the durable boundary. -/
def refusedDurable (offset : Nat) (what : String) (boundary : Nat) : StoreError :=
  .corrupted
    (s!"{what} at offset {offset}, inside the first {boundary} bytes the counter slots record " ++
      "as durable: this is damage to data already written and acknowledged, so the store " ++
      "refuses to open. FileStore::repair cuts the journal there; the session must then " ++
      "reset its sequence (ResetSeqNumFlag 141=Y)")

/-- A record that no longer matches the index. -/
def recordMismatch (seq offset : Nat) (what : String) : StoreError :=
  .corrupted s!"record for MsgSeqNum {seq} at offset {offset} {what}"

def generationsExhausted : StoreError :=
  .io "the journal's generation sequence is exhausted; reset the store"

/-! ## Header -/

def i64Max : Int := 2 ^ 63 - 1

/-- An instant: whole seconds from the Unix epoch, and nanoseconds. -/
structure SystemTime where
  secs : Int
  nanos : Nat
  isNanos : nanos < NANOS_PER_SECOND
  isI64 : -2 ^ 63 ≤ secs ∧ secs ≤ i64Max
  deriving DecidableEq

namespace SystemTime

def UNIX_EPOCH : SystemTime := ⟨0, 0, by decide, by decide⟩

/-- `duration_since(UNIX_EPOCH)`, the epoch for an instant before it. -/
def sinceEpoch (time : SystemTime) : UInt64 × UInt32 :=
  if 0 ≤ time.secs then (.ofNat time.secs.toNat, .ofNat time.nanos) else (0, 0)

/-- `UNIX_EPOCH.checked_add`. -/
def afterEpoch (secs : UInt64) (nanos : UInt32) (legal : nanos.toNat < NANOS_PER_SECOND) :
    Option SystemTime :=
  if reach : (secs.toNat : Int) ≤ i64Max then
    some ⟨secs.toNat, nanos.toNat, legal, by omega, reach⟩
  else none

end SystemTime

/-- When a journal was created, and the counters it was written with. -/
structure Header where
  creationTime : SystemTime
  nextSender : UInt64
  nextTarget : UInt64
  deriving DecidableEq

/-- What the CRC of a header covers. -/
def checkedHeader (header : Header) : Bytes :=
  MAGIC ++ (putU16 (.ofNat VERSION) ++ (putU16 0 ++ (putU64 header.creationTime.sinceEpoch.1 ++
    (putU32 header.creationTime.sinceEpoch.2 ++ (putU64 header.nextSender ++
      putU64 header.nextTarget)))))

def encodeHeader (header : Header) : Bytes :=
  checkedHeader header ++ putU32 (crc32 (checkedHeader header))

/-- Decodes the first `HEADER_LEN` bytes of a file. -/
def decodeHeader (bytes : Bytes) : Except StoreError Header := do
  let checked := bytes.take (HEADER_LEN - 4)
  let (crc, _) ← okOr (readU32 (bytes.drop (HEADER_LEN - 4))) fieldPastEnd
  if crc32 checked ≠ crc then
    throw (.corrupted "journal header fails its checksum: not a journal, or a damaged one")
  let (magic, rest) ← okOr (takeBytes MAGIC.length checked) fieldPastEnd
  if magic ≠ MAGIC then
    throw (.corrupted "file does not start with the journal magic: not an IronFix journal")
  let (version, rest) ← okOr (readU16 rest) fieldPastEnd
  if version.toNat ≠ VERSION then
    throw (.corrupted
      (s!"journal format version {version} is not supported; this build reads version " ++
        s!"{VERSION} only (versions 1, 2 and 3 were development formats that were never " ++
        "released, and are not migrated)"))
  let (_, rest) ← okOr (readU16 rest) fieldPastEnd
  let (secs, rest) ← okOr (readU64 rest) fieldPastEnd
  let (nanos, rest) ← okOr (readU32 rest) fieldPastEnd
  if legal : nanos.toNat < NANOS_PER_SECOND then
    let creationTime ← okOr (SystemTime.afterEpoch secs nanos legal)
      (.corrupted s!"journal creation time {secs}s is out of range")
    let (nextSender, rest) ← okOr (readU64 rest) fieldPastEnd
    let (nextTarget, _) ← okOr (readU64 rest) fieldPastEnd
    return ⟨creationTime, nextSender, nextTarget⟩
  else throw (.corrupted s!"journal creation time has {nanos} nanoseconds in a second")

/-! ## Counter slots -/

structure Slot where
  /-- Where the slot stands in the journal's generation sequence. -/
  generation : UInt64
  nextSender : UInt64
  nextTarget : UInt64
  /-- Up to where the records were on stable storage when the slot was written. -/
  durableEnd : UInt64
  appWatermark : UInt64
  resetOwed : Bool
  deriving DecidableEq

/-- The bytes of a slot on disk. -/
structure SlotImage where
  bytes : Bytes
  full : bytes.length = SLOT_LEN
  deriving DecidableEq

/-- The two counter slots. -/
structure SlotImages where
  first : SlotImage
  second : SlotImage
  deriving DecidableEq

namespace SlotImages

def get (images : SlotImages) : Fin 2 → SlotImage
  | 0 => images.first
  | 1 => images.second

def set (images : SlotImages) (position : Fin 2) (image : SlotImage) : SlotImages :=
  match position with
  | 0 => { images with first := image }
  | 1 => { images with second := image }

end SlotImages

/-- What the CRC of a slot covers. -/
def checkedSlot (slot : Slot) : Bytes :=
  putU64 slot.generation ++ (putU64 slot.nextSender ++ (putU64 slot.nextTarget ++
    (putU64 slot.durableEnd ++ (putU64 slot.appWatermark ++
      putU64 (if slot.resetOwed then FLAG_RESET_OWED else 0)))))

theorem checkedSlot_length (slot : Slot) : (checkedSlot slot).length = SLOT_CHECKED_LEN := by
  simp [checkedSlot, SLOT_CHECKED_LEN]

def encodeSlot (slot : Slot) : SlotImage where
  bytes := checkedSlot slot ++ putU32 (crc32 (checkedSlot slot))
  full := by simp [checkedSlot_length, SLOT_CHECKED_LEN, SLOT_LEN]

/-- The content of a slot; `none` for a damaged one. -/
def decodeSlot (image : SlotImage) : Option Slot := do
  let checked := image.bytes.take SLOT_CHECKED_LEN
  let (crc, _) ← readU32 (image.bytes.drop SLOT_CHECKED_LEN)
  if crc32 checked ≠ crc then none
  else
    let (generation, rest) ← readU64 checked
    let (nextSender, rest) ← readU64 rest
    let (nextTarget, rest) ← readU64 rest
    let (durableEnd, rest) ← readU64 rest
    let (appWatermark, rest) ← readU64 rest
    let (flags, _) ← readU64 rest
    if flags &&& ~~~FLAG_RESET_OWED ≠ 0 then none
    else
      some ⟨generation, nextSender, nextTarget, durableEnd, appWatermark,
        flags &&& FLAG_RESET_OWED ≠ 0⟩

/-- The newest valid slot, with its position. -/
def newestSlot (images : SlotImages) : Except StoreError (Fin 2 × Slot) :=
  match decodeSlot images.first, decodeSlot images.second with
  | some first, some second =>
      if second.generation > first.generation then .ok (1, second)
      else if first.generation > second.generation ∨ first = second then .ok (0, first)
      else
        let generation := first.generation
        .error (.corrupted
          (s!"both counter slots carry generation {generation} with different counters: the " ++
            "journal is damaged"))
  | some first, none => .ok (0, first)
  | none, some second => .ok (1, second)
  | none, none =>
      .error (.corrupted
        ("both counter slots fail their checksum: no interrupted write damages both, so the " ++
          "journal is damaged and its counters are unknown"))

/-- `u64::checked_add`. -/
def checkedSucc (n : UInt64) : Option UInt64 :=
  if n.toNat + 1 ≤ u64Max then some (n + 1) else none

/-- Two slots of a journal that starts from the given counters, with the next
generation to use. -/
def freshSlots (first nextSender nextTarget durableEnd appWatermark : UInt64) (resetOwed : Bool) :
    Except StoreError (SlotImages × UInt64) := do
  let second ← okOr (checkedSucc first) generationsExhausted
  let next ← okOr (checkedSucc second) generationsExhausted
  let slot := fun generation =>
    encodeSlot ⟨generation, nextSender, nextTarget, durableEnd, appWatermark, resetOwed⟩
  return (⟨slot first, slot second⟩, next)

/-- The header and both slots, in their blocks. -/
def encodePrefix (header : Header) (slots : SlotImages) : Bytes :=
  let zeros := List.replicate PREFIX_LEN 0
  patch (patch (patch zeros 0 (encodeHeader header)) (slotOffset 0) slots.first.bytes)
    (slotOffset 1) slots.second.bytes

/-! ## Records -/

/-- One decoded record body. -/
structure Body where
  seq : UInt64
  /-- The generation and the next sender number, for kind 5. -/
  counter : Option (UInt64 × UInt64)
  msgType : MsgType
  frame : Bytes

/-- `1 + 8 + 16 + 1` for kind 5, `1 + 8 + 1` for kind 1. -/
def fixedLen (nextSender : Option UInt64) : Nat := if nextSender.isSome then 26 else 10

/-- Encodes a frame record, not yet sealed. -/
def encodeFrameRecord (seq : UInt64) (nextSender : Option UInt64) (msgType : MsgType) (frame : Bytes)
    (maxFrameSize : UInt32) : Except StoreError Bytes := do
  let frameLen := frame.length
  if ¬(frameLen ≤ u32Max ∧ frameLen ≤ maxFrameSize.toNat) then
    throw (.storeFailed seq.toNat
      s!"frame of {frameLen} bytes is above the store's {maxFrameSize}-byte limit")
  let code := msgType.code
  if code.length > u8Max then
    let codeLen := code.length
    throw (.storeFailed seq.toNat s!"msg type of {codeLen} bytes cannot be filed")
  let overflow : StoreError := .storeFailed seq.toNat "record length overflows"
  let bodyLen ← okOr
    ((checkedAdd u32Max (fixedLen nextSender) code.length).bind fun len =>
      checkedAdd u32Max len frameLen) overflow
  let _ ← okOr (checkedAdd usizeMax bodyLen RECORD_HEADER_LEN) overflow
  let head := putU32 (.ofNat bodyLen) ++ List.replicate (RECORD_HEADER_LEN - 4) 0
  let fields :=
    match nextSender with
    | some nextSender =>
        [.ofNat KIND_FRAME_AND_SENDER] ++ (putU64 seq ++ (putU64 0 ++ putU64 nextSender))
    | none => [.ofNat KIND_FRAME] ++ putU64 seq
  return head ++ (fields ++ ([.ofNat code.length] ++ (code ++ frame)))

/-- Whether a record carries a counter. -/
def takesGeneration (record : Bytes) : Bool :=
  record[RECORD_HEADER_LEN]? = some (.ofNat KIND_FRAME_AND_SENDER)

/-- The body length of an encoded record. -/
def recordBodyLen (record : Bytes) : UInt32 :=
  match readU32 record with
  | some (len, _) => len
  | none => 0

/-- The record header of a body. -/
def recordHeader (bodyLen : UInt32) (body : Bytes) : Bytes :=
  putU32 bodyLen ++ (putU32 (~~~bodyLen) ++ putU32 (crc32 body))

/-- Fills in the record header. -/
def sealRecord (record : Bytes) (bodyLen : UInt32) : Bytes :=
  if RECORD_HEADER_LEN ≤ record.length then
    patch record 0 (recordHeader bodyLen (record.drop RECORD_HEADER_LEN))
  else record

/-- Writes the generation into a kind-5 record and fills in the record header. -/
def sealFrameRecord (record : Bytes) (generation : UInt64) : Bytes :=
  let record :=
    if takesGeneration record ∧ GENERATION_AT + 8 ≤ record.length then
      patch record GENERATION_AT (putU64 generation)
    else record
  sealRecord record (recordBodyLen record)

/-- Decodes a record body whose CRC has been checked. -/
def decodeBody (body : Bytes) : Except String Body := do
  let (kind, rest) ← okOr (readU8 body) "empty record body"
  let short := s!"record of kind {kind} is shorter than its fields"
  let counterFollows ←
    if kind.toNat = KIND_FRAME then pure false
    else if kind.toNat = KIND_FRAME_AND_SENDER then pure true
    else throw s!"unknown record kind {kind}"
  let (seq, rest) ← okOr (readU64 rest) short
  let (counter, rest) ←
    if counterFollows then do
      let (generation, rest) ← okOr (readU64 rest) short
      let (nextSender, rest) ← okOr (readU64 rest) short
      pure (some (generation, nextSender), rest)
    else pure (none, rest)
  let (codeLen, rest) ← okOr (readU8 rest) short
  let (code, frame) ← okOr (takeBytes codeLen.toNat rest) short
  let msgType ← okOr (if isUtf8 code then (MsgType.new code).toOption else none)
    s!"record for MsgSeqNum {seq} carries an invalid MsgType"
  return ⟨seq, counter, msgType, frame⟩

/-- The length of the record of an entry, its header included. -/
def IndexEntry.recordLen (entry : IndexEntry) : Nat := RECORD_HEADER_LEN + entry.bodyLen

/-- Reads the record of an entry again and checks it: the record, where its
frame begins, and its MsgType. -/
def readRecordInto (file : Bytes) (seq : Nat) (entry : IndexEntry) :
    Except StoreError (Bytes × Nat × MsgType) := do
  let offset := entry.offset
  let recordLen ← okOr (checkedAdd usizeMax entry.bodyLen RECORD_HEADER_LEN)
    (recordMismatch seq offset "is too long to read")
  if file.length < offset + recordLen then
    throw (recordMismatch seq offset
      "is no longer whole in the journal: it was cut after it was indexed")
  let record := span file offset recordLen
  let (head, body) ← okOr (takeBytes RECORD_HEADER_LEN record)
    (recordMismatch seq offset "is shorter than its header")
  let (len, rest) ← okOr (readU32 head) fieldPastEnd
  let (check, rest) ← okOr (readU32 rest) fieldPastEnd
  let (crc, _) ← okOr (readU32 rest) fieldPastEnd
  if len.toNat ≠ entry.bodyLen ∨ check ≠ ~~~len then
    throw (recordMismatch seq offset "no longer matches the index")
  if crc32 body ≠ crc then throw (recordMismatch seq offset "fails its checksum")
  match decodeBody body with
  | .ok decoded =>
      if decoded.seq.toNat = seq then
        if decoded.frame.length ≤ recordLen then
          return (record, recordLen - decoded.frame.length, decoded.msgType)
        else throw (recordMismatch seq offset "has a frame longer than itself")
      else throw (recordMismatch seq offset "is not that message's frame")
  | .error reason => throw (recordMismatch seq offset reason)

/-- Reads the frame filed under `seq`. -/
def readFrame (file : Bytes) (seq : Nat) (entry : IndexEntry) : Except StoreError StoredMessage := do
  let (record, frameAt, msgType) ← readRecordInto file seq entry
  return ⟨seq, msgType, record.drop frameAt⟩

end IronFix.Store
