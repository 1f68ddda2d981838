import IronFix.Store.JournalScan

/-!
# The bytes of a journal read back

Each encoder of the format against its decoder: the header, a counter slot,
the prefix of a file and the body of a record.
-/

namespace IronFix.Store

open Lib.Decimal Lib.Patch

theorem okOr_some_bind {ε α β : Type} (a : α) (error : ε) (f : α → Except ε β) :
    (okOr (some a) error >>= f) = f a := rfl

theorem readU8_cons (byte : UInt8) (rest : Bytes) : readU8 (byte :: rest) = some (byte, rest) := rfl

/-! ## Header -/

/-- The instant a header records: the epoch for one before it. -/
def SystemTime.recorded (time : SystemTime) : SystemTime :=
  if 0 ≤ time.secs then time else UNIX_EPOCH

theorem SystemTime.sinceEpoch_nanos (time : SystemTime) :
    time.sinceEpoch.2.toNat < NANOS_PER_SECOND := by
  have isNanos := time.isNanos
  have small : NANOS_PER_SECOND < UInt32.size := by decide
  unfold sinceEpoch
  split
  · have kept : (UInt32.ofNat time.nanos).toNat = time.nanos :=
      UInt32.toNat_ofNat_of_lt (isNanos.trans small)
    show (UInt32.ofNat time.nanos).toNat < NANOS_PER_SECOND
    rw [kept]
    exact isNanos
  · decide

theorem SystemTime.afterEpoch_sinceEpoch (time : SystemTime) :
    afterEpoch time.sinceEpoch.1 time.sinceEpoch.2 time.sinceEpoch_nanos = some time.recorded := by
  obtain ⟨secs, nanos, isNanos, isI64⟩ := time
  by_cases after : 0 ≤ secs
  · have small : NANOS_PER_SECOND < UInt32.size := by decide
    have high := isI64.2
    unfold i64Max at high
    have nanosKept : (UInt32.ofNat nanos).toNat = nanos := UInt32.toNat_ofNat_of_lt (isNanos.trans small)
    have secsKept : (UInt64.ofNat secs.toNat).toNat = secs.toNat := by
      refine UInt64.toNat_ofNat_of_lt ?_
      show secs.toNat < 2 ^ 64
      omega
    simp only [afterEpoch, sinceEpoch, recorded, if_pos after, nanosKept, secsKept,
      Int.toNat_of_nonneg after]
    rw [dif_pos isI64.2]
  · simp only [afterEpoch, sinceEpoch, recorded, if_neg after]
    rfl

theorem checkedHeader_length (header : Header) : (checkedHeader header).length = HEADER_LEN - 4 := by
  simp [checkedHeader, HEADER_LEN]
  decide

theorem encodeHeader_length (header : Header) : (encodeHeader header).length = HEADER_LEN := by
  rw [encodeHeader, List.length_append, checkedHeader_length, putU32_length]
  rfl

theorem decodeHeader_encode (header : Header) : decodeHeader (encodeHeader header) =
    .ok { header with creationTime := header.creationTime.recorded } := by
  have front : (encodeHeader header).take (HEADER_LEN - 4) = checkedHeader header := by
    rw [encodeHeader, ← checkedHeader_length header, List.take_left]
  have back : (encodeHeader header).drop (HEADER_LEN - 4) = putU32 (crc32 (checkedHeader header)) ++ [] := by
    rw [encodeHeader, ← checkedHeader_length header, List.drop_left, List.append_nil]
  have version : (UInt16.ofNat VERSION).toNat = VERSION := by decide
  have legal := header.creationTime.sinceEpoch_nanos
  unfold decodeHeader
  rw [front, back]
  dsimp only
  rw [readU32_put, okOr_some_bind, if_neg (not_not_intro rfl), checkedHeader, takeBytes_append,
    okOr_some_bind, if_neg (not_not_intro rfl)]
  rw [readU16_put, okOr_some_bind, if_neg (not_not_intro version), readU16_put, okOr_some_bind, readU64_put,
    okOr_some_bind, readU32_put, okOr_some_bind, dif_pos legal, SystemTime.afterEpoch_sinceEpoch,
    okOr_some_bind, readU64_put, okOr_some_bind, ← List.append_nil (putU64 header.nextTarget), readU64_put,
    okOr_some_bind]
  rfl

/-! ## Counter slots -/

theorem flags_known (resetOwed : Bool) :
    (if resetOwed then FLAG_RESET_OWED else 0) &&& ~~~FLAG_RESET_OWED = 0 := by
  cases resetOwed <;> decide

theorem flags_resetOwed (resetOwed : Bool) :
    decide ((if resetOwed then FLAG_RESET_OWED else 0) &&& FLAG_RESET_OWED ≠ 0) = resetOwed := by
  cases resetOwed <;> decide

theorem decodeSlot_encode (slot : Slot) : decodeSlot (encodeSlot slot) = some slot := by
  obtain ⟨generation, nextSender, nextTarget, durableEnd, appWatermark, resetOwed⟩ := slot
  let slot : Slot := ⟨generation, nextSender, nextTarget, durableEnd, appWatermark, resetOwed⟩
  have front : (encodeSlot slot).bytes.take SLOT_CHECKED_LEN = checkedSlot slot := by
    rw [encodeSlot, ← checkedSlot_length slot, List.take_left]
  have back : (encodeSlot slot).bytes.drop SLOT_CHECKED_LEN = putU32 (crc32 (checkedSlot slot)) ++ [] := by
    rw [encodeSlot, ← checkedSlot_length slot, List.drop_left, List.append_nil]
  unfold decodeSlot
  rw [front, back]
  dsimp only
  rw [readU32_put]
  show (if crc32 (checkedSlot slot) ≠ crc32 (checkedSlot slot) then none else _) = some slot
  rw [if_neg (not_not_intro rfl), checkedSlot, readU64_put]
  dsimp only [Option.bind_eq_bind, Option.bind_some]
  rw [readU64_put, Option.bind_some, readU64_put, Option.bind_some, readU64_put, Option.bind_some,
    readU64_put, Option.bind_some]
  dsimp only
  rw [← List.append_nil (putU64 (if slot.resetOwed = true then FLAG_RESET_OWED else 0)), readU64_put,
    Option.bind_some]
  dsimp only
  rw [if_neg (not_not_intro (flags_known slot.resetOwed)), flags_resetOwed]

theorem validSlots (first second : Slot) :
    [encodeSlot first, encodeSlot second].filterMap decodeSlot = [first, second] := by
  rw [List.filterMap_cons_some (decodeSlot_encode first),
    List.filterMap_cons_some (decodeSlot_encode second), List.filterMap_nil]

/-- The highest generation of a journal without records whose second slot is
newer. -/
theorem highestGeneration_new {first second active : Slot}
    (newest : first.generation ≤ second.generation) :
    highestGeneration ⟨encodeSlot first, encodeSlot second⟩ active .new = second.generation := by
  unfold highestGeneration
  dsimp only
  rw [validSlots]
  show (if first.generation ≤ second.generation then second.generation else first.generation) = _
  rw [if_pos newest]

/-- The slots of a journal: the newer one, the first of two that are equal. -/
theorem newestSlot_encode {first second : Slot}
    (apart : first.generation = second.generation → first = second) :
    newestSlot ⟨encodeSlot first, encodeSlot second⟩ =
      .ok (if second.generation > first.generation then (1, second) else (0, first)) := by
  unfold newestSlot
  rw [decodeSlot_encode, decodeSlot_encode]
  dsimp only
  by_cases newer : second.generation > first.generation
  · rw [if_pos newer, if_pos newer]
  · rw [if_neg newer, if_neg newer]
    have older : first.generation > second.generation ∨ first = second := by
      by_cases same : first.generation = second.generation
      · exact .inr (apart same)
      · exact .inl (UInt64.lt_of_le_of_ne (UInt64.not_lt.mp newer) (Ne.symm same))
    rw [if_pos older]

/-- Slots of one generation that differ are refused. -/
theorem newestSlot_apart {first second : Slot} (same : first.generation = second.generation)
    (differ : first ≠ second) :
    ∃ error, newestSlot ⟨encodeSlot first, encodeSlot second⟩ = .error error := by
  have notNewer : ¬second.generation > first.generation := same ▸ UInt64.lt_irrefl _
  have notOlder : ¬(first.generation > second.generation ∨ first = second) :=
    not_or.mpr ⟨same ▸ UInt64.lt_irrefl _, differ⟩
  unfold newestSlot
  rw [decodeSlot_encode, decodeSlot_encode]
  dsimp only
  rw [if_neg notNewer, if_neg notOlder]
  exact ⟨_, rfl⟩

/-! ## Prefix -/

section Prefix

variable (header : Header) (slots : SlotImages)

/-- Where a slot ends. -/
theorem slotOffset_end : slotOffset 0 + SLOT_LEN ≤ slotOffset 1 ∧ slotOffset 1 + SLOT_LEN ≤ PREFIX_LEN :=
  ⟨by decide, by decide⟩

/-- A prefix with only the header written. -/
def headed : Bytes := patch (List.replicate PREFIX_LEN 0) 0 (encodeHeader header)

/-- A prefix without its second slot. -/
def withFirst : Bytes := patch (headed header) (slotOffset 0) slots.first.bytes

theorem headed_length : (headed header).length = PREFIX_LEN := by
  unfold headed
  rw [patch_length, List.length_replicate]
  rw [List.length_replicate, encodeHeader_length]
  decide

theorem withFirst_length : (withFirst header slots).length = PREFIX_LEN := by
  unfold withFirst
  rw [patch_length, headed_length]
  rw [headed_length, slots.first.full]
  decide

theorem encodePrefix_eq :
    encodePrefix header slots = patch (withFirst header slots) (slotOffset 1) slots.second.bytes := rfl

theorem encodePrefix_length : (encodePrefix header slots).length = DATA_START := by
  rw [encodePrefix_eq, patch_length, withFirst_length]
  · rfl
  · rw [withFirst_length, slots.second.full]
    decide

theorem span_header : span (encodePrefix header slots) 0 HEADER_LEN = encodeHeader header := by
  rw [encodePrefix_eq, span_patch_before, withFirst, span_patch_before, headed,
    ← encodeHeader_length header]
  · exact span_patch (Nat.zero_le _)
  · rw [headed_length]
    decide
  · decide
  · rw [withFirst_length]
    decide
  · decide

theorem span_first : span (encodePrefix header slots) (slotOffset 0) SLOT_LEN = slots.first.bytes := by
  rw [encodePrefix_eq, span_patch_before, withFirst, ← slots.first.full]
  · refine span_patch ?_
    rw [headed_length]
    decide
  · rw [withFirst_length]
    decide
  · decide

theorem span_second : span (encodePrefix header slots) (slotOffset 1) SLOT_LEN = slots.second.bytes := by
  rw [encodePrefix_eq, ← slots.second.full]
  refine span_patch ?_
  rw [withFirst_length]
  decide

theorem slotImageAt_eq {file : Bytes} {position : Fin 2} {image : SlotImage}
    (whole : DATA_START ≤ file.length)
    (read : span file (slotOffset position) SLOT_LEN = image.bytes) :
    slotImageAt file whole position = image := by
  obtain ⟨bytes, full⟩ := image
  unfold slotImageAt
  exact (SlotImage.mk.injEq ..).mpr read

variable (records : Bytes)

theorem prefix_whole : DATA_START ≤ (encodePrefix header slots ++ records).length := by
  rw [List.length_append, encodePrefix_length]
  exact Nat.le_add_right _ _

theorem prefix_header : decodeHeader ((encodePrefix header slots ++ records).take HEADER_LEN) =
    .ok { header with creationTime := header.creationTime.recorded } := by
  have front : (encodePrefix header slots ++ records).take HEADER_LEN = encodeHeader header := by
    have whole : span (encodePrefix header slots ++ records) 0 HEADER_LEN =
        span (encodePrefix header slots) 0 HEADER_LEN := by
      refine span_append ?_
      rw [encodePrefix_length]
      decide
    rw [← span_header header slots, ← whole]
    exact rfl
  rw [front, decodeHeader_encode]

theorem prefix_slots :
    slotImages (encodePrefix header slots ++ records) (prefix_whole header slots records) = slots := by
  have whole := prefix_whole header slots records
  have first : slotImageAt (encodePrefix header slots ++ records) whole 0 = slots.first := by
    refine slotImageAt_eq whole ?_
    rw [span_append, span_first]
    rw [encodePrefix_length]
    decide
  have second : slotImageAt (encodePrefix header slots ++ records) whole 1 = slots.second := by
    refine slotImageAt_eq whole ?_
    rw [span_append, span_second]
    rw [encodePrefix_length]
    decide
  unfold slotImages
  rw [first, second]

theorem prefix_records : (encodePrefix header slots ++ records).drop DATA_START = records := by
  rw [← encodePrefix_length header slots, List.drop_left]

end Prefix

/-! ## Records -/

@[simp] theorem recordHeader_length (bodyLen : UInt32) (body : Bytes) :
    (recordHeader bodyLen body).length = RECORD_HEADER_LEN := by
  simp [recordHeader, RECORD_HEADER_LEN]

/-- A frame to file, and the generation its record is sealed with. -/
structure Filing where
  seq : UInt64
  nextSender : Option UInt64
  msgType : MsgType
  frame : Bytes
  generation : UInt64

namespace Filing

def counter (filing : Filing) : Option (UInt64 × UInt64) :=
  filing.nextSender.map fun nextSender => (filing.generation, nextSender)

/-- The body of the record. -/
def body (filing : Filing) : Bytes :=
  let named := [.ofNat filing.msgType.code.length] ++ (filing.msgType.code ++ filing.frame)
  match filing.nextSender with
  | some nextSender =>
      [.ofNat KIND_FRAME_AND_SENDER] ++ (putU64 filing.seq ++ (putU64 filing.generation ++
        (putU64 nextSender ++ named)))
  | none => [.ofNat KIND_FRAME] ++ (putU64 filing.seq ++ named)

def bodyLen (filing : Filing) : UInt32 := .ofNat filing.body.length

/-- What the body decodes to. -/
def decoded (filing : Filing) : Body where
  seq := filing.seq
  counter := filing.counter
  msgType := filing.msgType
  frame := filing.frame

/-- The record as it is written. -/
def record (filing : Filing) : Bytes := recordHeader filing.bodyLen filing.body ++ filing.body

/-- What the store writes for the frame. -/
def sealed (maxFrameSize : UInt32) (filing : Filing) : Except StoreError Bytes :=
  (encodeFrameRecord filing.seq filing.nextSender filing.msgType filing.frame maxFrameSize).map
    fun record => sealFrameRecord record filing.generation

variable {filing : Filing}

theorem body_length : filing.body.length =
    fixedLen filing.nextSender + filing.msgType.code.length + filing.frame.length := by
  unfold body fixedLen
  cases filing.nextSender <;> simp <;> omega

theorem code_isUtf8 (msgType : MsgType) : isUtf8 msgType.code = true :=
  isUtf8_of_ascii msgType.ascii_code

theorem codeLen_toNat (msgType : MsgType) :
    (UInt8.ofNat msgType.code.length).toNat = msgType.code.length := by
  have bounded := msgType.bounded
  unfold MSG_TYPE_MAX_LEN at bounded
  refine UInt8.toNat_ofNat_of_lt ?_
  show msgType.code.length < 2 ^ 8
  omega

/-- Reading the name and the frame behind the fixed fields. -/
theorem takeBytes_named (msgType : MsgType) (frame : Bytes) :
    takeBytes (UInt8.ofNat msgType.code.length).toNat (msgType.code ++ frame) =
      some (msgType.code, frame) := by
  rw [codeLen_toNat, takeBytes_append]

theorem named_again (msgType : MsgType) :
    (if isUtf8 msgType.code then (MsgType.new msgType.code).toOption else none) = some msgType := by
  rw [if_pos (code_isUtf8 msgType), MsgType.new_code]
  rfl

theorem decodeBody_body : decodeBody filing.body = .ok filing.decoded := by
  obtain ⟨seq, nextSender, msgType, frame, generation⟩ := filing
  cases nextSender with
  | none =>
      have kind : (UInt8.ofNat KIND_FRAME).toNat = KIND_FRAME := by decide
      show decodeBody (.ofNat KIND_FRAME :: (putU64 seq ++
        .ofNat msgType.code.length :: (msgType.code ++ frame))) = _
      unfold decodeBody
      rw [readU8_cons, okOr_some_bind]
      dsimp only
      rw [if_pos kind, pure_bind, readU64_put, okOr_some_bind,
        if_neg Bool.false_ne_true, pure_bind, readU8_cons, okOr_some_bind, takeBytes_named,
        okOr_some_bind, named_again, okOr_some_bind]
      rfl
  | some nextSender =>
      have kind : (UInt8.ofNat KIND_FRAME_AND_SENDER).toNat = KIND_FRAME_AND_SENDER := by decide
      have other : ¬KIND_FRAME_AND_SENDER = KIND_FRAME := by decide
      show decodeBody (.ofNat KIND_FRAME_AND_SENDER :: (putU64 seq ++ (putU64 generation ++
        (putU64 nextSender ++ .ofNat msgType.code.length :: (msgType.code ++ frame))))) = _
      unfold decodeBody
      rw [readU8_cons, okOr_some_bind]
      dsimp only
      rw [kind, if_neg other, if_pos rfl, pure_bind, readU64_put,
        okOr_some_bind, if_pos rfl, readU64_put, okOr_some_bind, readU64_put, okOr_some_bind,
        pure_bind, readU8_cons, okOr_some_bind, takeBytes_named, okOr_some_bind, named_again,
        okOr_some_bind]
      rfl

/-- The body before its generation is known. -/
def unsealed (filing : Filing) : Filing := { filing with generation := 0 }

/-- The record before it is sealed. -/
def draft (filing : Filing) : Bytes :=
  putU32 filing.bodyLen ++ (List.replicate (RECORD_HEADER_LEN - 4) 0 ++ filing.unsealed.body)

theorem unsealed_length : filing.unsealed.body.length = filing.body.length := by
  rw [body_length, body_length]
  rfl

/-- Two checked additions are one. -/
theorem checkedAdd_twice (bound a b c : Nat) :
    ((checkedAdd bound a b).bind fun sum => checkedAdd bound sum c) = checkedAdd bound (a + b) c := by
  unfold checkedAdd
  by_cases first : a + b ≤ bound
  · rw [if_pos first]
    rfl
  · rw [if_neg first, if_neg (by omega)]
    rfl

/-- A frame within the limits is encoded. -/
theorem encodeFrameRecord_fits {maxFrameSize : UInt32} (allowed : filing.frame.length ≤ maxFrameSize.toNat)
    (small : filing.body.length ≤ u32Max) :
    encodeFrameRecord filing.seq filing.nextSender filing.msgType filing.frame maxFrameSize =
      .ok filing.draft := by
  have counted : checkedAdd u32Max (fixedLen filing.nextSender + filing.msgType.code.length)
      filing.frame.length = some filing.body.length := by
    rw [body_length] at small ⊢
    exact if_pos small
  have inMemory : checkedAdd usizeMax filing.body.length RECORD_HEADER_LEN =
      some (filing.body.length + RECORD_HEADER_LEN) := by
    refine if_pos ?_
    unfold u32Max at small
    unfold usizeMax RECORD_HEADER_LEN
    omega
  have framed : ¬¬(filing.frame.length ≤ u32Max ∧ filing.frame.length ≤ maxFrameSize.toNat) := by
    rw [body_length] at small
    exact not_not_intro ⟨by omega, allowed⟩
  have named : ¬filing.msgType.code.length > u8Max := by
    have bounded := filing.msgType.bounded
    unfold MSG_TYPE_MAX_LEN at bounded
    unfold u8Max
    omega
  unfold encodeFrameRecord
  dsimp only
  rw [if_neg framed, if_neg named, checkedAdd_twice, counted, okOr_some_bind, inMemory,
    okOr_some_bind, draft, bodyLen, List.append_assoc]
  show Except.ok _ = Except.ok _
  congr 3
  unfold body unsealed
  cases filing.nextSender <;> simp only [List.append_assoc]

theorem encodeFrameRecord_ok {maxFrameSize : UInt32} {record : Bytes}
    (encoded : encodeFrameRecord filing.seq filing.nextSender filing.msgType filing.frame maxFrameSize =
      .ok record) :
    record = filing.draft ∧ filing.body.length ≤ u32Max ∧ filing.frame.length ≤ maxFrameSize.toNat := by
  have limits : filing.body.length ≤ u32Max ∧ filing.frame.length ≤ maxFrameSize.toNat := by
    unfold encodeFrameRecord at encoded
    dsimp only at encoded
    split at encoded
    · cases encoded
    · rename_i allowed
      refine ⟨?_, (not_not.mp allowed).2⟩
      split at encoded
      · cases encoded
      · rw [checkedAdd_twice] at encoded
        by_contra large
        have overflows : checkedAdd u32Max (fixedLen filing.nextSender + filing.msgType.code.length)
            filing.frame.length = none := by
          rw [body_length] at large
          exact if_neg large
        rw [overflows] at encoded
        cases encoded
  rw [encodeFrameRecord_fits limits.2 limits.1] at encoded
  exact ⟨(Except.ok.inj encoded).symm, limits⟩

/-- The header of a record before it is sealed. -/
def blank (filing : Filing) : Bytes :=
  putU32 filing.bodyLen ++ List.replicate (RECORD_HEADER_LEN - 4) 0

theorem blank_length : filing.blank.length = RECORD_HEADER_LEN := by
  simp [blank, RECORD_HEADER_LEN]

theorem draft_eq : filing.draft = filing.blank ++ filing.unsealed.body := by
  unfold draft blank
  rw [List.append_assoc]

/-- Where a record tells its kind. -/
theorem takesGeneration_blank (kind : UInt8) (rest : Bytes) :
    takesGeneration (filing.blank ++ kind :: rest) = decide (kind = .ofNat KIND_FRAME_AND_SENDER) := by
  unfold takesGeneration
  rw [← @blank_length filing, List.getElem?_append_right (le_refl _), Nat.sub_self,
    List.getElem?_cons_zero]
  exact decide_eq_decide.mpr (Option.some_inj)

/-- Sealing writes the header of a record. -/
theorem sealRecord_blank :
    sealRecord (filing.blank ++ filing.body) (recordBodyLen (filing.blank ++ filing.body)) =
      filing.record := by
  have long : RECORD_HEADER_LEN ≤ (filing.blank ++ filing.body).length := by
    rw [List.length_append, blank_length]
    exact Nat.le_add_right _ _
  have declared : recordBodyLen (filing.blank ++ filing.body) = filing.bodyLen := by
    unfold recordBodyLen blank
    rw [List.append_assoc, readU32_put]
  have behind : (filing.blank ++ filing.body).drop RECORD_HEADER_LEN = filing.body := by
    rw [← @blank_length filing, List.drop_left]
  unfold sealRecord
  rw [if_pos long, declared, behind]
  refine patch_front filing.body ?_
  rw [blank_length, recordHeader_length]

/-- Sealing writes the generation of a record that takes one. -/
theorem sealFrameRecord_draft : sealFrameRecord filing.draft filing.generation = filing.record := by
  have sealing := filing.sealRecord_blank
  rw [draft_eq]
  unfold sealFrameRecord
  dsimp only
  obtain ⟨seq, nextSender, msgType, frame, generation⟩ := filing
  let filing : Filing := ⟨seq, nextSender, msgType, frame, generation⟩
  cases nextSender with
  | none =>
      have kind : takesGeneration (filing.blank ++ filing.unsealed.body) = false := by
        refine (takesGeneration_blank (.ofNat KIND_FRAME) _).trans ?_
        decide
      rw [if_neg]
      · exact sealing
      · intro takes
        rw [show takesGeneration _ = false from kind] at takes
        exact Bool.false_ne_true takes.1
  | some nextSender =>
      let named : Bytes := UInt8.ofNat msgType.code.length :: (msgType.code ++ frame)
      let fixed : Bytes := filing.blank ++ (UInt8.ofNat KIND_FRAME_AND_SENDER :: putU64 seq)
      have fixed_length : fixed.length = GENERATION_AT := by
        rw [List.length_append, blank_length]
        simp [GENERATION_AT, RECORD_HEADER_LEN]
      have before : filing.blank ++ filing.unsealed.body =
          fixed ++ (putU64 0 ++ (putU64 nextSender ++ named)) := by
        simp [fixed, named, filing, body, unsealed]
      have after : filing.blank ++ filing.body =
          fixed ++ (putU64 generation ++ (putU64 nextSender ++ named)) := by
        simp [fixed, named, filing, body]
      have kind : takesGeneration (filing.blank ++ filing.unsealed.body) = true := by
        refine (takesGeneration_blank (.ofNat KIND_FRAME_AND_SENDER) _).trans ?_
        decide
      have room : GENERATION_AT + 8 ≤ (filing.blank ++ filing.unsealed.body).length := by
        have count : (fixed ++ (putU64 0 ++ (putU64 nextSender ++ named))).length =
            fixed.length + (8 + (putU64 nextSender ++ named).length) := by
          rw [List.length_append, @List.length_append _ (putU64 0), putU64_length]
        rw [before, count, fixed_length]
        omega
      have patched : patch (filing.blank ++ filing.unsealed.body) GENERATION_AT (putU64 generation) =
          filing.blank ++ filing.body := by
        rw [before, after, ← fixed_length]
        refine patch_middle _ _ ?_
        rw [putU64_length, putU64_length]
      rw [if_pos ⟨kind, room⟩, show patch _ _ _ = _ from patched]
      exact sealing

/-- A frame within the limits is written as its record. -/
theorem sealed_fits {maxFrameSize : UInt32} (allowed : filing.frame.length ≤ maxFrameSize.toNat)
    (small : filing.body.length ≤ u32Max) : filing.sealed maxFrameSize = .ok filing.record := by
  unfold Filing.sealed
  rw [encodeFrameRecord_fits allowed small]
  exact congrArg Except.ok sealFrameRecord_draft

/-- What the store writes for a frame is the record of it. -/
theorem sealed_ok {maxFrameSize : UInt32} {record : Bytes}
    (sealed : filing.sealed maxFrameSize = .ok record) :
    record = filing.record ∧ filing.bodyLen.toNat = filing.body.length ∧
      filing.body.length ≤ maxFrameSize.toNat + MAX_BODY_OVERHEAD := by
  unfold Filing.sealed at sealed
  cases encoded : encodeFrameRecord filing.seq filing.nextSender filing.msgType filing.frame
      maxFrameSize with
  | error error =>
      rw [encoded] at sealed
      cases sealed
  | ok unsealed =>
      rw [encoded] at sealed
      cases sealed
      obtain ⟨rfl, small, allowed⟩ := encodeFrameRecord_ok encoded
      refine ⟨sealFrameRecord_draft, ?_, ?_⟩
      · refine UInt32.toNat_ofNat_of_lt ?_
        exact Nat.lt_succ_of_le small
      · have named := filing.msgType.bounded
        rw [body_length]
        unfold fixedLen MAX_BODY_OVERHEAD
        split <;> omega

@[simp] theorem record_length : filing.record.length = RECORD_HEADER_LEN + filing.body.length := by
  rw [record, List.length_append, recordHeader_length]

/-- The entry of a record at `offset`. -/
def entryAt (offset : Nat) (filing : Filing) : IndexEntry := ⟨offset, filing.bodyLen.toNat⟩

/-- A record that is in the file is read back. -/
theorem readRecordInto_record {file : Bytes} {offset : Nat}
    (fits : filing.bodyLen.toNat = filing.body.length)
    (inside : offset + filing.record.length ≤ file.length)
    (there : span file offset filing.record.length = filing.record) :
    readRecordInto file filing.seq.toNat (filing.entryAt offset) =
      .ok (filing.record, filing.record.length - filing.frame.length, filing.msgType) := by
  have size := filing.bodyLen.toNat_lt
  have counted : checkedAdd usizeMax filing.bodyLen.toNat RECORD_HEADER_LEN =
      some filing.record.length := by
    rw [record_length, ← fits, Nat.add_comm RECORD_HEADER_LEN]
    refine if_pos ?_
    unfold usizeMax RECORD_HEADER_LEN
    omega
  have head : takeBytes RECORD_HEADER_LEN filing.record =
      some (recordHeader filing.bodyLen filing.body, filing.body) := by
    rw [record, ← recordHeader_length filing.bodyLen filing.body, takeBytes_append]
  have crc : readU32 (putU32 (crc32 filing.body)) = some (crc32 filing.body, []) := by
    simpa only [List.append_nil] using readU32_put (crc32 filing.body) []
  have agrees : ¬(filing.bodyLen.toNat ≠ filing.bodyLen.toNat ∨ ~~~filing.bodyLen ≠ ~~~filing.bodyLen) := by
    simp
  have framed : filing.frame.length ≤ filing.record.length := by
    rw [record_length, body_length]
    omega
  unfold readRecordInto entryAt
  dsimp only
  rw [counted, okOr_some_bind, if_neg (Nat.not_lt.mpr inside), there, head, okOr_some_bind,
    recordHeader, readU32_put, okOr_some_bind, readU32_put, okOr_some_bind, crc, okOr_some_bind,
    if_neg agrees, if_neg (not_not_intro rfl), decodeBody_body]
  show (if filing.seq.toNat = filing.seq.toNat then
    if filing.frame.length ≤ filing.record.length then _ else _ else _) = _
  rw [if_pos rfl, if_pos framed]
  rfl

/-- The frame is what a record ends with. -/
theorem record_frame : filing.record.drop (filing.record.length - filing.frame.length) = filing.frame := by
  have ends : ∃ front, filing.body = front ++ filing.frame := by
    unfold body
    cases filing.nextSender with
    | none =>
        refine ⟨[.ofNat KIND_FRAME] ++ (putU64 filing.seq ++
          ([.ofNat filing.msgType.code.length] ++ filing.msgType.code)), ?_⟩
        simp only [List.append_assoc]
    | some nextSender =>
        refine ⟨[.ofNat KIND_FRAME_AND_SENDER] ++ (putU64 filing.seq ++ (putU64 filing.generation ++
          (putU64 nextSender ++ ([.ofNat filing.msgType.code.length] ++ filing.msgType.code)))), ?_⟩
        simp only [List.append_assoc]
  obtain ⟨front, ends⟩ := ends
  rw [record, ends, ← List.append_assoc, List.length_append, Nat.add_sub_cancel, List.drop_left]

theorem readFrame_record {file : Bytes} {offset : Nat}
    (fits : filing.bodyLen.toNat = filing.body.length)
    (inside : offset + filing.record.length ≤ file.length)
    (there : span file offset filing.record.length = filing.record) :
    readFrame file filing.seq.toNat (filing.entryAt offset) =
      .ok ⟨filing.seq.toNat, filing.msgType, filing.frame⟩ := by
  unfold readFrame
  rw [readRecordInto_record fits inside there]
  show Except.ok (StoredMessage.mk _ _ (filing.record.drop _)) = _
  rw [record_frame]

end Filing

end IronFix.Store
