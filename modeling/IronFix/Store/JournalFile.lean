import IronFix.Store.Journal
import IronFix.Store.JournalRoundTrip

/-!
# The file of a journal

What a scan accepts is a header, two slots and the records of some frames, one
behind the other. A file of that shape is scanned to the state those frames and
slots stand for.
-/

namespace IronFix.Store

open Lib.Decimal Lib.FaultyDisk Lib.Ordered Lib.Patch

/-! ## Slots in a file -/

section Slots

variable {file data : Bytes} {slots : SlotImages} {position : Fin 2} {image : SlotImage} {n : Nat}

/-- Where the slots are. -/
theorem slotOffset_inside (position : Fin 2) :
    HEADER_LEN ≤ slotOffset position ∧ slotOffset position + SLOT_LEN ≤ DATA_START := by
  revert position
  decide

theorem slot_within (whole : DATA_START ≤ file.length) (position : Fin 2) :
    slotOffset position + SLOT_LEN ≤ file.length := (slotOffset_inside position).2.trans whole

/-- Writing a part of a slot is a patch inside it. -/
theorem overwrite_slot (whole : DATA_START ≤ file.length) (data : Bytes) :
    overwrite 0 file (slotOffset position) data = patch file (slotOffset position) data := by
  have inside := slot_within whole position
  exact overwrite_inside (by omega)

theorem patch_slot_length (whole : DATA_START ≤ file.length) (small : data.length ≤ SLOT_LEN) :
    (patch file (slotOffset position) data).length = file.length := by
  have inside := slot_within whole position
  exact patch_length (by omega)

theorem drop_patch_slot (whole : DATA_START ≤ file.length) (small : data.length ≤ SLOT_LEN) :
    (patch file (slotOffset position) data).drop DATA_START = file.drop DATA_START := by
  obtain ⟨-, inside⟩ := slotOffset_inside position
  exact drop_patch (by omega) (by omega)

theorem head_patch_slot (whole : DATA_START ≤ file.length) :
    (patch file (slotOffset position) data).take HEADER_LEN = file.take HEADER_LEN := by
  obtain ⟨behind, inside⟩ := slotOffset_inside position
  have kept : List.take HEADER_LEN ((patch file (slotOffset position) data).take _) = _ :=
    congrArg (List.take HEADER_LEN) (patch_take (show slotOffset position ≤ file.length by omega))
  rwa [List.take_take, List.take_take, Nat.min_eq_left behind] at kept

/-- The slots lie apart. -/
theorem slots_apart : slotOffset 0 + SLOT_LEN ≤ slotOffset 1 := by decide

theorem slotImageAt_bytes (whole : DATA_START ≤ file.length) :
    (slotImageAt file whole position).bytes = span file (slotOffset position) SLOT_LEN := rfl

theorem slotImages_get (whole : DATA_START ≤ file.length) (position : Fin 2) :
    (slotImages file whole).get position = slotImageAt file whole position := by
  match position with
  | 0 => rfl
  | 1 => rfl

theorem SlotImages.get_set (slots : SlotImages) (position other : Fin 2) (image : SlotImage) :
    (slots.set position image).get other = if other = position then image else slots.get other := by
  match position, other with
  | 0, 0 => rfl
  | 0, 1 => rfl
  | 1, 0 => rfl
  | 1, 1 => rfl

theorem SlotImages.ext_get {slots slots' : SlotImages} (alike : ∀ position, slots.get position = slots'.get position) :
    slots = slots' := by
  obtain ⟨first, second⟩ := slots
  obtain ⟨first', second'⟩ := slots'
  exact (SlotImages.mk.injEq ..).mpr ⟨alike 0, alike 1⟩

/-- A slot written is the slot read. -/
theorem slotImages_patch (whole : DATA_START ≤ file.length)
    (whole' : DATA_START ≤ (patch file (slotOffset position) image.bytes).length) :
    slotImages (patch file (slotOffset position) image.bytes) whole' =
      (slotImages file whole).set position image := by
  refine SlotImages.ext_get ?_
  intro other
  have size := image.full
  have inside := slot_within whole position
  have apart := slots_apart
  rw [SlotImages.get_set, slotImages_get, slotImages_get]
  match position, other with
  | 0, 0 => exact slotImageAt_eq whole' (size ▸ span_patch (by omega))
  | 1, 1 => exact slotImageAt_eq whole' (size ▸ span_patch (by omega))
  | 0, 1 => exact slotImageAt_eq whole' (span_patch_after (by omega) (by omega))
  | 1, 0 => exact slotImageAt_eq whole' (span_patch_before (by omega) (by omega))

/-- The slots of a file are in its prefix. -/
theorem slotImages_congr {file' : Bytes} (whole : DATA_START ≤ file.length)
    (whole' : DATA_START ≤ file'.length) (alike : file'.take DATA_START = file.take DATA_START) :
    slotImages file' whole' = slotImages file whole := by
  have short : DATA_START ≤ (file.take DATA_START).length := (List.length_take_of_le whole).symm.le
  have short' : DATA_START ≤ (file'.take DATA_START).length := (List.length_take_of_le whole').symm.le
  rw [← slotImages_take whole short, ← slotImages_take whole' short']
  congr 1

/-- What follows the slots is no part of them. -/
theorem slotImages_append {more : Bytes} (whole : DATA_START ≤ file.length)
    (whole' : DATA_START ≤ (file ++ more).length) :
    slotImages (file ++ more) whole' = slotImages file whole := by
  refine SlotImages.ext_get ?_
  intro position
  rw [slotImages_get, slotImages_get]
  exact slotImageAt_eq whole' (span_append (slot_within whole position))

theorem withSlots_length (whole : DATA_START ≤ file.length) :
    (withSlots file slots).length = file.length := by
  have first : slots.first.bytes.length ≤ SLOT_LEN := slots.first.full.le
  have second : slots.second.bytes.length ≤ SLOT_LEN := slots.second.full.le
  unfold withSlots
  rw [patch_slot_length (by rw [patch_slot_length whole first]; exact whole) second,
    patch_slot_length whole first]

theorem withSlots_take (whole : DATA_START ≤ file.length) (long : DATA_START ≤ n) :
    (withSlots file slots).take n = withSlots (file.take n) slots := by
  have first := slot_within whole 0
  have second := slot_within whole 1
  have size := slots.first.full
  have size' := slots.second.full
  have ends := slotOffset_inside 0
  have ends' := slotOffset_inside 1
  unfold withSlots
  rw [take_patch (by omega), take_patch (by omega) (by omega)]
  rw [patch_length (by omega)]
  omega

/-- A part of a slot that is written over again is not seen. -/
theorem withSlots_patch (whole : DATA_START ≤ file.length) (small : data.length ≤ SLOT_LEN) :
    withSlots (patch file (slotOffset position) data) slots = withSlots file slots := by
  have first := slot_within whole 0
  have second := slot_within whole 1
  have size := slots.first.full
  have size' := slots.second.full
  have apart := slots_apart
  unfold withSlots
  match position with
  | 0 => rw [patch_patch (by omega) (by omega)]
  | 1 =>
      rw [← @patch_comm _ file _ _ _ _ (by omega) (by omega), patch_patch (by omega)]
      rw [patch_length (by omega)]
      omega

theorem withSlots_withSlots {slots' : SlotImages} (whole : DATA_START ≤ file.length) :
    withSlots (withSlots file slots') slots = withSlots file slots := by
  have first : slots'.first.bytes.length ≤ SLOT_LEN := slots'.first.full.le
  have second : slots'.second.bytes.length ≤ SLOT_LEN := slots'.second.full.le
  show withSlots (patch (patch file (slotOffset 0) slots'.first.bytes) (slotOffset 1)
    slots'.second.bytes) slots = _
  rw [withSlots_patch (by rw [patch_slot_length whole first]; exact whole) second,
    withSlots_patch whole first]

theorem withSlots_self (whole : DATA_START ≤ file.length) :
    withSlots file (slotImages file whole) = file := by
  have first := slot_within whole 0
  have second := slot_within whole 1
  show patch (patch file (slotOffset 0) (span file (slotOffset 0) SLOT_LEN)) (slotOffset 1)
    (span file (slotOffset 1) SLOT_LEN) = file
  rw [patch_span first, patch_span second]

theorem slotImages_withSlots (whole : DATA_START ≤ file.length)
    (whole' : DATA_START ≤ (withSlots file slots).length) :
    slotImages (withSlots file slots) whole' = slots := by
  have first : slots.first.bytes.length ≤ SLOT_LEN := slots.first.full.le
  have middle : DATA_START ≤ (patch file (slotOffset 0) slots.first.bytes).length := by
    rw [patch_slot_length whole first]
    exact whole
  have written := @slotImages_patch _ 1 slots.second middle whole'
  rw [slotImages_patch whole middle] at written
  refine written.trans ?_
  rfl

theorem drop_withSlots (whole : DATA_START ≤ file.length) :
    (withSlots file slots).drop DATA_START = file.drop DATA_START := by
  have first : slots.first.bytes.length ≤ SLOT_LEN := slots.first.full.le
  have second : slots.second.bytes.length ≤ SLOT_LEN := slots.second.full.le
  unfold withSlots
  rw [drop_patch_slot (by rw [patch_slot_length whole first]; exact whole) second,
    drop_patch_slot whole first]

end Slots

/-! ## Bodies that decode -/

theorem okOr_bind_eq_ok {ε α β : Type} {value : Option α} {error : ε} {f : α → Except ε β} {b : β} :
    (okOr value error >>= f) = .ok b ↔ ∃ a, value = some a ∧ f a = .ok b := by
  cases value with
  | none => exact ⟨nofun, nofun⟩
  | some a =>
      constructor
      · intro answers
        exact ⟨a, rfl, answers⟩
      · rintro ⟨_, ⟨⟩, answers⟩
        exact answers

theorem takeBytes_some {len : Nat} {rest taken left : Bytes} (took : takeBytes len rest = some (taken, left)) :
    rest = taken ++ left ∧ taken.length = len := by
  unfold takeBytes at took
  split at took
  · cases took
    exact ⟨(List.take_append_drop ..).symm, List.length_take_of_le ‹_›⟩
  · cases took

/-- A word that is read was put there. -/
theorem readU64_some {bytes rest : Bytes} {n : UInt64} (read : readU64 bytes = some (n, rest)) :
    bytes = putU64 n ++ rest := by
  unfold readU64 at read
  obtain ⟨⟨taken, left⟩, took, same⟩ := Option.map_eq_some_iff.mp read
  cases same
  obtain ⟨parts, eight⟩ := takeBytes_some took
  have small := Lib.LittleEndian.value_lt taken
  rw [eight] at small
  have again := Lib.LittleEndian.bytes_value taken
  rw [eight] at again
  have kept : (UInt64.ofNat (Lib.LittleEndian.value taken)).toNat = Lib.LittleEndian.value taken :=
    UInt64.toNat_ofNat_of_lt small
  rw [putU64, kept, again]
  exact parts

theorem readU8_some {bytes rest : Bytes} {byte : UInt8} (read : readU8 bytes = some (byte, rest)) :
    bytes = byte :: rest := by
  cases bytes with
  | nil => cases read
  | cons head tail =>
      cases read
      rfl

theorem MsgType.code_of_new {code : Bytes} {msgType : MsgType} (made : MsgType.new code = .ok msgType) :
    msgType.code = code := by
  unfold MsgType.new at made
  split at made
  · cases made
  · split at made
    · split at made
      · cases made
      · cases made
        rfl
    · cases made

/-- What is behind the fixed fields of a body: a name and a frame. -/
theorem named_some {codeLen : UInt8} {rest code frame : Bytes} {msgType : MsgType}
    (took : takeBytes codeLen.toNat rest = some (code, frame))
    (known : (if isUtf8 code then (MsgType.new code).toOption else none) = some msgType) :
    codeLen :: rest = .ofNat msgType.code.length :: (msgType.code ++ frame) := by
  obtain ⟨rfl, length⟩ := takeBytes_some took
  have same : msgType.code = code := by
    split at known
    · cases made : MsgType.new code with
      | error error =>
          rw [made] at known
          cases known
      | ok made' =>
          rw [made] at known
          cases known
          exact MsgType.code_of_new made
    · cases known
  rw [same, length, UInt8.ofNat_toNat]

/-- A body that decodes is the body of a frame. -/
theorem Filing.of_decodeBody {body : Bytes} {decoded : Body} (decodes : decodeBody body = .ok decoded) :
    ∃ filing : Filing, filing.body = body ∧ filing.decoded = decoded := by
  unfold decodeBody at decodes
  obtain ⟨⟨kind, rest⟩, isKind, decodes⟩ := okOr_bind_eq_ok.mp decodes
  have begins := readU8_some isKind
  dsimp only at decodes
  by_cases plain : kind.toNat = KIND_FRAME
  · rw [if_pos plain] at decodes
    obtain ⟨⟨seq, afterSeq⟩, isSeq, decodes⟩ := okOr_bind_eq_ok.mp decodes
    obtain ⟨⟨codeLen, afterLen⟩, isLen, decodes⟩ := okOr_bind_eq_ok.mp decodes
    obtain ⟨⟨code, frame⟩, took, decodes⟩ := okOr_bind_eq_ok.mp decodes
    obtain ⟨msgType, known, decodes⟩ := okOr_bind_eq_ok.mp decodes
    cases decodes
    refine ⟨⟨seq, none, msgType, frame, 0⟩, ?_, rfl⟩
    have same : kind = .ofNat KIND_FRAME := UInt8.toNat_inj.mp plain
    show [.ofNat KIND_FRAME] ++ (putU64 seq ++ (.ofNat msgType.code.length :: (msgType.code ++ frame))) = body
    have codeThere : afterSeq = codeLen :: afterLen := readU8_some isLen
    have nameThere : codeLen :: afterLen = _ := named_some took known
    rw [begins, same, readU64_some isSeq, codeThere, nameThere]
    rfl
  · rw [if_neg plain] at decodes
    by_cases counted : kind.toNat = KIND_FRAME_AND_SENDER
    · rw [if_pos counted] at decodes
      obtain ⟨⟨seq, afterSeq⟩, isSeq, decodes⟩ := okOr_bind_eq_ok.mp decodes
      obtain ⟨⟨generation, afterGeneration⟩, isGeneration, decodes⟩ := okOr_bind_eq_ok.mp decodes
      obtain ⟨⟨nextSender, afterSender⟩, isSender, decodes⟩ := okOr_bind_eq_ok.mp decodes
      obtain ⟨⟨codeLen, afterLen⟩, isLen, decodes⟩ := okOr_bind_eq_ok.mp decodes
      obtain ⟨⟨code, frame⟩, took, decodes⟩ := okOr_bind_eq_ok.mp decodes
      obtain ⟨msgType, known, decodes⟩ := okOr_bind_eq_ok.mp decodes
      cases decodes
      refine ⟨⟨seq, some nextSender, msgType, frame, generation⟩, ?_, rfl⟩
      have same : kind = .ofNat KIND_FRAME_AND_SENDER := UInt8.toNat_inj.mp counted
      have generationThere : afterSeq = putU64 generation ++ afterGeneration := readU64_some isGeneration
      have senderThere : afterGeneration = putU64 nextSender ++ afterSender := readU64_some isSender
      have codeThere : afterSender = codeLen :: afterLen := readU8_some isLen
      have nameThere : codeLen :: afterLen = _ := named_some took known
      show [.ofNat KIND_FRAME_AND_SENDER] ++ (putU64 seq ++ (putU64 generation ++ (putU64 nextSender ++
        (.ofNat msgType.code.length :: (msgType.code ++ frame))))) = body
      rw [begins, same, readU64_some isSeq, generationThere, senderThere, codeThere, nameThere]
      rfl
    · rw [if_neg counted] at decodes
      cases decodes

/-! ## Scans of records -/

section Records

variable {maxBody : Nat} {rule : DamageRule} {boundary offset endOffset : Nat} {rest : Bytes}
  {replay final : Replay} {truncation : Option Truncation}

/-- A record that leads is the record of a frame. -/
theorem Leads.filing {bodyLen : UInt32} {body : Bytes} {decoded : Body}
    (leads : Leads maxBody rest bodyLen body) (decodes : decodeBody body = .ok decoded) :
    ∃ filing : Filing, filing.Fits maxBody ∧ filing.bodyLen = bodyLen ∧ filing.decoded = decoded ∧
      rest.take (RECORD_HEADER_LEN + bodyLen.toNat) = filing.record := by
  obtain ⟨filing, isBody, isDecoded⟩ := Filing.of_decodeBody decodes
  have length : body.length = bodyLen.toNat := by
    rw [leads.body_eq]
    exact span_length leads.whole
  have declared : filing.bodyLen = bodyLen := by
    rw [Filing.bodyLen, isBody, length, UInt32.ofNat_toNat]
  refine ⟨filing, ⟨?_, ?_⟩, declared, isDecoded, ?_⟩
  · rw [declared, isBody, length]
  · rw [isBody, length]
    exact leads.bounded
  · rw [Filing.record, declared, isBody, List.take_add, leads.head]
    congr 1
    exact leads.body_eq.symm

/-- What a scan replayed is the records of some frames, and it ends behind them. -/
theorem Scans.frames (scans : Scans maxBody rule boundary rest offset replay endOffset truncation final)
    {map : OrderedMap Nat IndexEntry} (kept : replay.Kept map offset) (isU64 : offset ≤ u64Max) :
    ∃ filings, (∀ filing ∈ filings, filing.Fits maxBody) ∧
      rest.take (endOffset - offset) = recordsOf filings ∧ final = replay.filedAll offset filings ∧
        endOffset = offset + (recordsOf filings).length := by
  induction scans generalizing map with
  | done nothing => exact ⟨[], by simp, by simp [recordsOf], rfl, rfl⟩
  | cut damage => exact ⟨[], by simp, by simp [recordsOf], rfl, rfl⟩
  | @salvaged rest offset len body replay after reason took fails salvage =>
      cases decoded : decodeBody body with
      | error reason =>
          rw [Replay.record_error replay offset len decoded] at fails
          cases fails
          exact ⟨[], by simp, by simp [recordsOf], rfl, rfl⟩
      | ok decodedBody =>
          have positive := (scanStep_take maxBody rule boundary took).1
          rw [(kept.record isU64 positive decoded).1] at fails
          cases fails
  | @take rest offset len next endOffset body replay after final truncation took files counted later ih =>
      obtain ⟨bodyLen, rfl, leads⟩ := Leads.of_step took
      obtain ⟨rfl, isU64'⟩ := checkedAdd_eq_some.mp counted
      cases decoded : decodeBody body with
      | error reason =>
          rw [Replay.record_error replay offset _ decoded] at files
          cases files
      | ok decodedBody =>
          obtain ⟨recorded, kept'⟩ := kept.record isU64 leads.positive decoded
          rw [recorded] at files
          cases files
          obtain ⟨filing, fits, isLen, isBody, isRecord⟩ := leads.filing decoded
          obtain ⟨filings, allFit, behind, rfl, rfl⟩ := ih kept' isU64'
          have size : filing.record.length = RECORD_HEADER_LEN + bodyLen.toNat := by
            rw [← isRecord]
            exact List.length_take_of_le leads.whole
          refine ⟨filing :: filings, ?_, ?_, ?_, ?_⟩
          · intro other member
            rcases List.mem_cons.mp member with rfl | listed
            · exact fits
            · exact allFit other listed
          · have span : offset + (RECORD_HEADER_LEN + bodyLen.toNat) + (recordsOf filings).length - offset =
                RECORD_HEADER_LEN + bodyLen.toNat + (recordsOf filings).length := by omega
            have left : offset + (RECORD_HEADER_LEN + bodyLen.toNat) + (recordsOf filings).length -
                (offset + (RECORD_HEADER_LEN + bodyLen.toNat)) = (recordsOf filings).length := by omega
            rw [left] at behind
            rw [span, List.take_add, isRecord, behind]
            rfl
          · show _ = (replay.filed offset filing.bodyLen.toNat filing.decoded).filedAll _ filings
            rw [isLen, isBody, size]
          · rw [recordsOf_cons, List.length_append, size]
            omega

end Records

/-! ## Whole files -/

/-- The replay of the frames of a journal. -/
def replayOf (filings : List Filing) : Replay := Replay.new.filedAll DATA_START filings

/-- A file of the slots and of the records of the frames. -/
structure FileOf (maxBody : Nat) (file : Bytes) (slots : SlotImages) (filings : List Filing) : Prop where
  whole : DATA_START ≤ file.length
  slots : slotImages file whole = slots
  records : file.drop DATA_START = recordsOf filings
  fits : ∀ filing ∈ filings, filing.Fits maxBody
  isU64 : file.length ≤ u64Max

section Files

variable {maxBody : Nat} {file : Bytes} {slots : SlotImages} {filings : List Filing} {rule : DamageRule}

theorem FileOf.length (holds : FileOf maxBody file slots filings) :
    file.length = DATA_START + (recordsOf filings).length := by
  have whole := holds.whole
  have count := congrArg List.length holds.records
  rw [List.length_drop] at count
  omega

/-- The index of the frames mirrors a map of the last record of each number. -/
theorem FileOf.kept (holds : FileOf maxBody file slots filings) :
    (replayOf filings).Kept ((OrderedMap.empty).writeAll (placed DATA_START filings)) file.length := by
  rw [holds.length]
  exact Replay.filedAll_kept Replay.kept_new holds.fits (holds.length ▸ holds.isU64)

/-- A file of that shape is scanned to the frames, whatever the rule. -/
theorem FileOf.scanned (holds : FileOf maxBody file slots filings) {header : Header} {active : Fin 2}
    {slot : Slot} {next : UInt64} (opened : decodeHeader (file.take HEADER_LEN) = .ok header)
    (newest : newestSlot slots = .ok (active, slot)) (vouched : slot.durableEnd.toNat ≤ file.length)
    (generations : checkedSucc (highestGeneration slots slot (replayOf filings)) = some next) :
    Scanned file maxBody rule header active slot file.length none (replayOf filings) next := by
  have length := holds.length
  refine ⟨holds.whole, opened, ?_, ?_, ?_, ?_⟩
  · rw [holds.slots]
    exact newest
  · have scans : Scans maxBody rule slot.durableEnd.toNat (recordsOf filings ++ []) DATA_START .new
        file.length none (replayOf filings) := by
      refine Scans.records Replay.kept_new holds.fits (length ▸ holds.isU64) ?_
      rw [length]
      exact .done scanStep_nil
    rw [List.append_nil] at scans
    rw [holds.records]
    exact scans.ok
  · rintro ⟨below, -⟩
    exact absurd vouched (Nat.not_le.mpr below)
  · rw [holds.slots]
    exact generations

/-- What a scan accepts, cut where it ends, is a file of that shape. -/
theorem Scanned.fileOf {header : Header} {active : Fin 2} {slot : Slot} {endOffset : Nat}
    {truncation : Option Truncation} {replay : Replay} {next : UInt64}
    (scanned : Scanned file maxBody rule header active slot endOffset truncation replay next)
    (isU64 : file.length ≤ u64Max) :
    ∃ filings, FileOf maxBody (file.take endOffset) (slotImages file scanned.whole) filings ∧
      replay = replayOf filings ∧ endOffset = (file.take endOffset).length := by
  have whole := scanned.whole
  obtain ⟨filings, fits, records, rfl, rfl⟩ :=
    (scans_of_ok scanned.records).frames Replay.kept_new (by decide)
  obtain ⟨-, inside, -⟩ :=
    (scans_of_ok scanned.records).ends Replay.kept_new (show DATA_START ≤ u64Max by decide)
  rw [List.length_drop] at inside
  have length : (file.take (DATA_START + (recordsOf filings).length)).length =
      DATA_START + (recordsOf filings).length := List.length_take_of_le (by omega)
  have whole' : DATA_START ≤ (file.take (DATA_START + (recordsOf filings).length)).length := by omega
  refine ⟨filings, ⟨whole', slotImages_take whole whole', ?_, fits, by omega⟩, rfl, length.symm⟩
  rw [List.drop_take]
  exact records

end Files

end IronFix.Store
