import IronFix.Store.JournalLive

/-!
# Writes to a journal

Whatever its calls answer, a write leaves the journal with the write done, or as
it was, or closed to further writes: then undoing what is pending leaves the
content before the write, or the content of the last flush.
-/

namespace IronFix.Store

open Journal Lib.Decimal Lib.FaultyDisk Lib.Ordered Lib.Patch Lib.Steps

/-! ## Counters -/

section Counters

variable {journal : Journal} {content lasting : Content} {position : Fin 2} {newer : Slot}

theorem Slot.Vouches.along {filings later : List Filing} (vouches : newer.Vouches filings)
    (follows : filings <+: later) : newer.Vouches later := by
  obtain ⟨more, rfl⟩ := follows
  exact vouches_append vouches

/-- A file with a newer slot. -/
theorem Holds.counting {maxBody : Nat} {file : Bytes} (holds : Holds maxBody file content)
    (below : content.Below newer.generation) (vouches : newer.Vouches content.filings) :
    Holds maxBody (patch file (slotOffset position) (encodeSlot newer).bytes)
      (content.counting position newer) := by
  have whole := holds.shape.whole
  have small : (encodeSlot newer).bytes.length ≤ SLOT_LEN := (encodeSlot newer).full.le
  have length : (patch file (slotOffset position) (encodeSlot newer).bytes).length = file.length :=
    patch_slot_length whole small
  obtain ⟨header, opened, created⟩ := holds.header
  refine ⟨⟨length.symm ▸ whole, ?_, ?_, holds.shape.fits, ?_⟩, ⟨header, ?_, created⟩, ?_, vouches⟩
  · rw [slotImages_patch whole, holds.shape.slots]
    rfl
  · rw [drop_patch_slot whole small]
    exact holds.shape.records
  · rw [length]
    exact holds.shape.isU64
  · rw [head_patch_slot whole]
    exact opened
  · exact newestSlot_set below.slots

/-- The slot a journal writes vouches for what was flushed. -/
theorem Recovers.nextSlot_vouches (recovers : Recovers journal content lasting)
    (nextSender nextTarget : UInt64) : (journal.nextSlot nextSender nextTarget).Vouches lasting.filings := by
  have word : (UInt64.ofNat journal.durableEnd).toNat = journal.durableEnd :=
    UInt64.toNat_ofNat_of_lt (Nat.lt_succ_of_le recovers.lasts.isU64)
  refine ⟨lasting.filings, [], (List.append_nil _).symm, ?_⟩
  show (UInt64.ofNat journal.durableEnd).toNat = _
  rw [word, recovers.lasts.durableEnd]
  rfl

theorem otherSlot_ne (position : Fin 2) : otherSlot position ≠ position := by
  revert position
  decide

theorem checkedSucc_lt {n : UInt64} (left : checkedSucc n = some (n + 1)) : n < n + 1 := by
  have room : n.toNat + 1 ≤ u64Max := by
    by_contra full
    rw [checkedSucc, if_neg full] at left
    cases left
  unfold u64Max at room
  rw [UInt64.lt_iff_toNat_lt, UInt64.toNat_add]
  have one : (1 : UInt64).toNat = 1 := by decide
  rw [one]
  omega

/-- A generation that is skipped changes nothing. -/
theorem Stands.skips (stands : Stands journal content lasting) (disk : Disk UInt8)
    (same : disk.file = journal.disk.file) {generation : UInt64} (le : journal.nextGeneration ≤ generation) :
    Stands { journal with disk := disk, nextGeneration := generation } content lasting := by
  obtain ⟨recovers, live, durable, spared⟩ := stands
  exact ⟨recovers.along ⟨rfl, same, rfl, rfl, rfl, rfl, le⟩, ⟨live.clear, live.slots, live.active,
    live.index, live.deadBytes, live.endOffset, live.nextSender, live.nextTarget, live.creationTime,
    live.unsynced⟩, durable, spared⟩

/-- A part of a slot written to the slot that is not durable. -/
theorem Lasts.overSlot (lasts : Lasts journal lasting) {data : Bytes} (small : data.length ≤ SLOT_LEN) :
    SameBelow journal.durableEnd journal.disk.file (journal.overSlot journal.disk.file data) :=
  .slot lasts.reaches lasts.inside journal.target small

/-- A slot written again is as it was. -/
theorem Stands.overSlot_back (stands : Stands journal content lasting) {data : Bytes}
    (small : data.length ≤ SLOT_LEN) :
    journal.overSlot (journal.overSlot journal.disk.file data) (journal.slots.get journal.target).bytes =
      journal.disk.file := by
  have holds := stands.holds
  have whole := holds.shape.whole
  have size := (journal.slots.get journal.target).full
  have inside := slot_within whole journal.target
  have torn : DATA_START ≤ (patch journal.disk.file (slotOffset journal.target) data).length := by
    rw [patch_slot_length whole small]
    exact whole
  have there : (journal.slots.get journal.target).bytes =
      span journal.disk.file (slotOffset journal.target) SLOT_LEN := by
    rw [stands.live.slots, ← holds.shape.slots, slotImages_get]
    rfl
  unfold Journal.overSlot
  rw [overwrite_slot whole, overwrite_slot torn, patch_patch (by omega) (by omega), there,
    patch_span inside]

/-- A slot that may be torn is put right by the slots in memory. -/
theorem Stands.overSlot_undone (stands : Stands journal content lasting) {data again : Bytes}
    (small : data.length ≤ SLOT_LEN) (small' : again.length ≤ SLOT_LEN) :
    withSlots (journal.overSlot (journal.overSlot journal.disk.file data) again) journal.slots =
      journal.disk.file := by
  have holds := stands.holds
  have whole := holds.shape.whole
  have torn : DATA_START ≤ (patch journal.disk.file (slotOffset journal.target) data).length := by
    rw [patch_slot_length whole small]
    exact whole
  unfold Journal.overSlot
  rw [overwrite_slot whole, overwrite_slot torn, withSlots_patch torn small', withSlots_patch whole small,
    stands.live.slots, ← holds.shape.slots, withSlots_self]

/-- The content of a journal once a counter slot is written. -/
def Content.counted (content : Content) (journal : Journal) (nextSender nextTarget : UInt64) : Content :=
  content.counting journal.target (journal.nextSlot nextSender nextTarget)

/-- A counter slot is written over, and not flushed yet. -/
theorem Stands.slotWritten (stands : Stands journal content lasting) (nextSender nextTarget : UInt64)
    (left : checkedSucc journal.nextGeneration = some (journal.nextGeneration + 1)) (later : List Outcome) :
    Recovers (journal.slotWritten (encodeSlot (journal.nextSlot nextSender nextTarget)) later)
      (content.counted journal nextSender nextTarget) lasting := by
  have recovers := stands.recovers
  have holds := stands.holds
  have above := checkedSucc_lt left
  have vouched := recovers.nextSlot_vouches nextSender nextTarget
  let image := encodeSlot (journal.nextSlot nextSender nextTarget)
  have same := (recovers.lasts.overSlot (show image.bytes.length ≤ SLOT_LEN from image.full.le))
  have kept := recovers.lasts.onto later same
  have clear : journal.pending = .default := Pending.clear_eq stands.live.clear
  refine ⟨⟨kept.holds, kept.generations.mono (UInt64.le_of_lt above), kept.durableEnd, kept.durableSlots,
    kept.inside, kept.image⟩, ?_, ?_, recovers.follows, vouched, ?_⟩
  · show Holds journal.config.maxBody (journal.pending.undo (journal.overSlot journal.disk.file image.bytes)) _
    rw [clear]
    show Holds journal.config.maxBody (overwrite 0 journal.disk.file (slotOffset journal.target) image.bytes) _
    rw [overwrite_slot holds.shape.whole]
    exact holds.counting recovers.generations (vouched.along recovers.follows)
  · exact recovers.generations.counting (UInt64.le_of_lt above) above
  · intro offset cut
    rw [show (journal.slotWritten image later).pending = .default from clear] at cut
    cases cut

/-- Both counters are written, or the call fails. The slot is flushed if the
policy has it so. -/
theorem Stands.counts (stands : Stands journal content lasting) (nextSender nextTarget : UInt64) :
    (∃ after lasting', writeCounters nextSender nextTarget journal = .ok () after ∧
      after.config = journal.config ∧ after.marks = (journal.publishCounters nextSender nextTarget).marks ∧
      Stands after (content.counted journal nextSender nextTarget) lasting' ∧
      (lasting' = content.counted journal nextSender nextTarget ∧ after.durableSlot = after.activeSlot ∨
        lasting' = lasting ∧ after.durableSlot ≠ after.activeSlot ∧
          journal.config.syncPolicy ≠ .everyWrite)) ∨
    ∃ error after, writeCounters nextSender nextTarget journal = .error error after ∧
      Fails journal content lasting after := by
  have recovers := stands.recovers
  have live := stands.live
  have spec := writeCounters_spec journal nextSender nextTarget
  generalize writeCounters nextSender nextTarget journal = result at spec ⊢
  cases spec with
  | exhausted last =>
      exact .inr ⟨_, _, rfl, .unchanged ⟨journal.disk, journal.nextGeneration, rfl⟩ stands⟩
  | @putBack written later reason image left =>
      have part : (image.bytes.take written).length ≤ SLOT_LEN :=
        (List.length_take_le' _ _).trans image.full.le
      refine .inr ⟨_, _, rfl, .unchanged ⟨{ journal.disk with
        file := journal.overSlot (journal.overSlot journal.disk.file (image.bytes.take written))
          (journal.slots.get journal.target).bytes, writes := later }, _, rfl⟩ ?_⟩
      exact stands.skips _ (stands.overSlot_back part) (UInt64.le_of_lt (checkedSucc_lt left))
  | @torn written again later reason image left =>
      have part : (image.bytes.take written).length ≤ SLOT_LEN :=
        (List.length_take_le' _ _).trans image.full.le
      have part' : ((journal.slots.get journal.target).bytes.take again).length ≤ SLOT_LEN :=
        (List.length_take_le' _ _).trans (journal.slots.get journal.target).full.le
      have once := recovers.lasts.overSlot part
      have kept := recovers.lasts.onto later once
      have kept' := kept.onto later (kept.overSlot part')
      have above := UInt64.le_of_lt (checkedSucc_lt left)
      have clear : journal.pending = .default := Pending.clear_eq live.clear
      refine .inr ⟨_, _, rfl, .torn ⟨rfl, rfl, ?_, ⟨kept'.holds, kept'.generations.mono above, kept'.durableEnd,
        kept'.durableSlots, kept'.inside, kept'.image⟩, ?_, recovers.generations.mono above, recovers.follows,
        recovers.vouched, ?_⟩⟩
      · exact .inr rfl
      · show Holds journal.config.maxBody (Pending.undo { journal.pending with
          restoreSlots := some journal.slots } _) content
        rw [clear]
        show Holds journal.config.maxBody (withSlots (journal.overSlot (journal.overSlot journal.disk.file
          (image.bytes.take written)) ((journal.slots.get journal.target).bytes.take again)) journal.slots) content
        rw [stands.overSlot_undone part part']
        exact stands.holds
      · intro offset cut
        exact recovers.cuts offset cut
  | @wrote later after clean left flushes =>
      have written := stands.slotWritten nextSender nextTarget left later
      obtain ⟨rest, lasting', rfl, keeps, advances, unsynced⟩ := written.rests live.clear
        (by show journal.slots.set _ _ = content.slots.set _ _
            rw [live.slots]) live.endOffset live.unsynced flushes
      have settled : rest.durableSlot = lasting'.active ∧ (content.counted journal nextSender nextTarget).slots.get
          lasting'.active = lasting'.slots.get lasting'.active := by
        rcases advances with ⟨rfl, isTarget⟩ | ⟨rfl, isDurable, -⟩
        · exact ⟨isTarget, rfl⟩
        · have apart := otherSlot_ne journal.durableSlot
          have durable := stands.durable
          refine ⟨isDurable.trans durable, ?_⟩
          show (content.slots.set journal.target _).get _ = _
          rw [SlotImages.get_set, if_neg]
          · exact stands.spared
          · rw [← durable]
            exact apart.symm
      refine .inl ⟨_, lasting', rfl, rfl, rfl, ⟨?_, ?_, settled.1, settled.2⟩, ?_⟩
      · exact keeps.along ⟨rfl, rfl, rfl, rfl, rfl, rfl, UInt64.le_refl _⟩
      · refine ⟨live.clear, ?_, rfl, live.index, live.deadBytes, live.endOffset, ?_, rfl, live.creationTime,
          unsynced⟩
        · show journal.slots.set _ _ = content.slots.set _ _
          rw [live.slots]
        · have below : content.Below (journal.nextSlot nextSender nextTarget).generation :=
            recovers.generations
          exact (Content.nextSender_counting below).symm
      · rcases advances with whole | ⟨before, apart, policy⟩
        · exact .inl whole
        · refine .inr ⟨before, ?_, policy⟩
          -- the slot written is not the durable one
          show rest.durableSlot ≠ journal.target
          rw [show rest.durableSlot = journal.durableSlot from apart]
          exact (otherSlot_ne journal.durableSlot).symm
  | @lost later after error left flushes =>
      have written := stands.slotWritten nextSender nextTarget left later
      have closed := written.drops live.clear
        (by show journal.slots.set _ _ = content.slots.set _ _
            rw [live.slots]) live.unsynced flushes
      exact .inr ⟨_, _, rfl, .lost ⟨closed.config, closed.marks, closed.undoes, closed.recovers⟩⟩

end Counters

/-! ## Records -/

section Records

variable {journal after : Journal} {content lasting : Content} {one : Filing}

theorem span_header_eq {file file' : Bytes} (alike : file'.take DATA_START = file.take DATA_START) :
    file'.take HEADER_LEN = file.take HEADER_LEN := by
  have cut := congrArg (List.take HEADER_LEN) alike
  have inside : HEADER_LEN ≤ DATA_START := by decide
  rwa [List.take_take, List.take_take, Nat.min_eq_left inside] at cut

/-- A file with one more record. -/
theorem Holds.filing {maxBody : Nat} {file : Bytes} (holds : Holds maxBody file content)
    (fits : one.Fits maxBody) (room : file.length + one.record.length ≤ u64Max) :
    Holds maxBody (file ++ one.record) (content.filing one) := by
  have whole := holds.shape.whole
  have longer : DATA_START ≤ (file ++ one.record).length := by
    rw [List.length_append]
    omega
  obtain ⟨header, opened, created⟩ := holds.header
  refine ⟨⟨longer, ?_, ?_, ?_, ?_⟩, ⟨header, ?_, created⟩, holds.newest, vouches_append holds.vouches⟩
  · rw [slotImages_append whole]
    exact holds.shape.slots
  · rw [List.drop_append_of_le_length whole, holds.shape.records]
    show _ = recordsOf (content.filings ++ [one])
    rw [recordsOf_append]
    exact congrArg (recordsOf content.filings ++ ·) (List.append_nil _).symm
  · intro other member
    rcases List.mem_append.mp member with before | last
    · exact holds.shape.fits other before
    · rw [List.mem_singleton.mp last]
      exact fits
  · rw [List.length_append]
    exact room
  · rw [List.take_append_of_le_length (le_trans (by decide) whole)]
    exact opened

/-- The draft of a record tells whether it carries a counter. -/
theorem takesGeneration_draft (filing : Filing) :
    takesGeneration filing.draft = filing.nextSender.isSome := by
  obtain ⟨seq, nextSender, msgType, frame, generation⟩ := filing
  rw [Filing.draft_eq]
  cases nextSender with
  | none =>
      refine (Filing.takesGeneration_blank (.ofNat KIND_FRAME) _).trans ?_
      show decide (UInt8.ofNat KIND_FRAME = UInt8.ofNat KIND_FRAME_AND_SENDER) = false
      decide
  | some nextSender =>
      refine (Filing.takesGeneration_blank (.ofNat KIND_FRAME_AND_SENDER) _).trans ?_
      exact decide_eq_true rfl

theorem recordBodyLen_record (filing : Filing) : recordBodyLen filing.record = filing.bodyLen := by
  unfold recordBodyLen Filing.record recordHeader
  rw [List.append_assoc, readU32_put]

theorem Filing.sealed_length (filing : Filing) (generation : UInt64) :
    ({ filing with generation := generation } : Filing).body.length = filing.body.length := by
  rw [Filing.body_length, Filing.body_length]

/-- The generation is no part of a draft. -/
theorem Filing.sealed_draft (filing : Filing) (generation : UInt64) :
    ({ filing with generation := generation } : Filing).draft = filing.draft := by
  unfold Filing.draft Filing.bodyLen
  rw [filing.sealed_length]
  rfl

theorem Filing.Fits.sealed {maxBody : Nat} (fits : one.Fits maxBody) (generation : UInt64) :
    ({ one with generation := generation } : Filing).Fits maxBody := by
  obtain ⟨declared, bounded⟩ := fits
  unfold Filing.bodyLen at declared
  refine ⟨?_, ?_⟩
  · unfold Filing.bodyLen
    rw [one.sealed_length]
    exact declared
  · rw [one.sealed_length]
    exact bounded

/-- A frame counts what it replaces, which no count can overflow. -/
theorem Stands.countDead (stands : Stands journal content lasting) (one : Filing) {entry : IndexEntry} (fits : entry.Fits) :
    journal.countDead (journal.index.insert one.seq.toNat entry).1 =
      (replayOf content.filings).deadBytes +
        (((replayOf content.filings).index.insert one.seq.toNat entry).1.map IndexEntry.recordLen).getD 0 := by
  have shape := stands.holds.shape
  have kept := shape.kept
  have isSeq : one.seq.toNat ≤ u64Max := Nat.le_of_lt_succ one.seq.toNat_lt
  obtain ⟨replaced, -⟩ := kept.mirrors.insert isSeq fits
  unfold Journal.countDead
  rw [stands.live.index, stands.live.deadBytes, replaced]
  cases held : ((OrderedMap.empty).writeAll (placed DATA_START content.filings)).get? one.seq.toNat with
  | none => rfl
  | some before =>
      have within := OrderedMap.le_total _ IndexEntry.recordLen held
      have accounted := kept.accounted
      have size := shape.isU64
      have counted : checkedAdd u64Max (replayOf content.filings).deadBytes before.recordLen =
          some ((replayOf content.filings).deadBytes + before.recordLen) := if_pos (by omega)
      dsimp only
      rw [counted]
      rfl

/-- A frame that is sealed is appended, indexed and published. -/
def fileSealed (one : Filing) : Step Unit := do
  let offset ← append one.record
  modify (indexFrame one.seq ⟨offset, one.bodyLen.toNat⟩)
  modify (publishSender one.nextSender)

/-- A record behind the last one, not flushed yet. -/
theorem Stands.appended (stands : Stands journal content lasting) (fits : one.Fits journal.config.maxBody)
    (below : ∀ counter, one.counter = some counter → counter.1 < journal.nextGeneration)
    (room : journal.endOffset + one.record.length ≤ u64Max) (later : List Outcome) :
    Recovers { journal.onto (overwrite 0 journal.disk.file journal.endOffset one.record) later with
      endOffset := journal.endOffset + one.record.length } (content.filing one) lasting := by
  have recovers := stands.recovers
  have lasts := recovers.lasts
  have holds := stands.holds
  have length : journal.endOffset = journal.disk.file.length := by
    rw [holds.shape.length]
    exact stands.live.endOffset
  have written : overwrite 0 journal.disk.file journal.endOffset one.record =
      journal.disk.file ++ one.record := by
    rw [length, overwrite_end]
  have behind : journal.durableEnd ≤ journal.endOffset := length ▸ lasts.inside
  have kept := lasts.onto later (.overwrite behind lasts.inside one.record)
  have clear : journal.pending = .default := Pending.clear_eq stands.live.clear
  refine ⟨⟨kept.holds, kept.generations, kept.durableEnd, kept.durableSlots, kept.inside, kept.image⟩, ?_,
    recovers.generations.filing (UInt64.le_refl _) below,
    recovers.follows.trans (List.prefix_append _ _), recovers.vouched, recovers.cuts⟩
  show Holds journal.config.maxBody (journal.pending.undo
    (overwrite 0 journal.disk.file journal.endOffset one.record)) _
  rw [clear, written]
  exact holds.filing fits (length ▸ room)

/-- An append that is cut off again leaves the file. -/
theorem Stands.overwrite_cut (stands : Stands journal content lasting) (data : Bytes) :
    (overwrite 0 journal.disk.file journal.endOffset data).take journal.endOffset = journal.disk.file ∧
      resize 0 (overwrite 0 journal.disk.file journal.endOffset data) journal.endOffset = journal.disk.file := by
  have length : journal.endOffset = journal.disk.file.length := by
    rw [stands.holds.shape.length]
    exact stands.live.endOffset
  rw [length]
  refine ⟨?_, ?_⟩
  · rw [overwrite_take (Nat.le_refl _) (Nat.le_refl _), List.take_length]
  · rw [resize_overwrite (Nat.le_refl _), List.take_length]

theorem Recovers.publishes (recovers : Recovers journal content lasting) {nextSender : Option UInt64} :
    Recovers (publishSender nextSender journal) content lasting := by
  cases nextSender with
  | none => exact recovers
  | some nextSender =>
      exact recovers.along ⟨rfl, rfl, rfl, rfl, rfl, rfl, UInt64.le_refl _⟩

/-- The next sender number once a frame is filed. -/
theorem Stands.nextSender_filed (stands : Stands journal content lasting)
    (own : ∀ counter, one.counter = some counter → content.Below counter.1) :
    (content.filing one).nextSender = one.nextSender.getD journal.nextSender := by
  cases sender : one.nextSender with
  | none =>
      have plain : one.counter = none := by
        unfold Filing.counter
        rw [sender]
        rfl
      rw [Content.nextSender_plain plain, ← stands.live.nextSender]
      rfl
  | some nextSender =>
      have counted : one.counter = some (one.generation, nextSender) := by
        unfold Filing.counter
        rw [sender]
        rfl
      have below := own _ counted
      exact Content.nextSender_counted counted below
        (below.slots content.active content.slot (newestSlot_decodes stands.holds.newest))

/-- A sealed frame is filed, or the call fails. Its generation is above those of
the content. -/
theorem Stands.filesSealed (stands : Stands journal content lasting) (one : Filing)
    (fits : one.Fits journal.config.maxBody)
    (own : ∀ counter, one.counter = some counter →
      content.Below counter.1 ∧ counter.1 < journal.nextGeneration) :
    (∃ after lasting', fileSealed one journal = .ok () after ∧ after.config = journal.config ∧
      after.marks = (publishSender one.nextSender journal).marks ∧
      Stands after (content.filing one) lasting' ∧
      Advances journal.config.syncPolicy lasting (content.filing one) lasting') ∨
    ∃ error after, fileSealed one journal = .error error after ∧ Fails journal content lasting after := by
  have recovers := stands.recovers
  have live := stands.live
  have clear : journal.pending = .default := Pending.clear_eq live.clear
  have spec := append_spec journal one.record
  unfold fileSealed
  rw [bind_apply]
  generalize append one.record journal = result at spec ⊢
  cases spec with
  | overflow long =>
      exact .inr ⟨_, _, rfl, .unchanged ⟨journal.disk, journal.nextGeneration, rfl⟩ stands⟩
  | @cutOff written later reason =>
      obtain ⟨-, cut⟩ := stands.overwrite_cut (one.record.take written)
      refine .inr ⟨_, _, rfl, .unchanged ⟨{ journal.disk with
        file := resize 0 (overwrite 0 journal.disk.file journal.endOffset (one.record.take written))
          journal.endOffset, writes := later }, journal.nextGeneration, rfl⟩ ?_⟩
      exact stands.skips _ cut (UInt64.le_refl _)
  | @torn written later reason =>
      obtain ⟨cut, -⟩ := stands.overwrite_cut (one.record.take written)
      have behind : journal.durableEnd ≤ journal.endOffset := by
        rw [live.endOffset, ← show journal.disk.file.length = content.endOffset from stands.holds.shape.length]
        exact recovers.lasts.inside
      have kept := recovers.lasts.onto later
        (.overwrite behind recovers.lasts.inside (one.record.take written))
      refine .inr ⟨_, _, rfl, .torn ⟨rfl, rfl, ?_, ⟨kept.holds, kept.generations, kept.durableEnd,
        kept.durableSlots, kept.inside, kept.image⟩, ?_, recovers.generations, recovers.follows,
        recovers.vouched, ?_⟩⟩
      · exact .inl rfl
      · show Holds journal.config.maxBody ((journal.pending.cutBack journal.endOffset).undo _) content
        rw [clear]
        show Holds journal.config.maxBody ((overwrite 0 journal.disk.file journal.endOffset
          (one.record.take written)).take journal.endOffset) content
        rw [cut]
        exact stands.holds
      · intro offset pending
        have cutBack : journal.pending.cutBack journal.endOffset =
            { Pending.default with cutBackTo := some journal.endOffset } := by
          rw [clear]
          rfl
        rw [show Pending.cutBackTo _ = _ from congrArg Pending.cutBackTo cutBack] at pending
        exact (Option.some.inj pending) ▸ behind
  | @wrote later after clean room flushes =>
      have written := stands.appended fits (fun counter carried => (own counter carried).2) room later
      have ends : journal.endOffset + one.record.length = (content.filing one).endOffset := by
        unfold Content.endOffset Content.filing
        rw [recordsOf_append, List.length_append, live.endOffset, ← Nat.add_assoc]
        show _ = _ + (one.record ++ []).length
        rw [List.append_nil]
        rfl
      obtain ⟨rest, lasting', rfl, keeps, advances, unsynced⟩ :=
        written.rests live.clear live.slots ends live.unsynced flushes
      have settled : rest.durableSlot = lasting'.active ∧
          content.slots.get lasting'.active = lasting'.slots.get lasting'.active := by
        rcases advances with ⟨rfl, isActive⟩ | ⟨rfl, isDurable, -⟩
        · exact ⟨isActive.trans live.active, rfl⟩
        · exact ⟨isDurable.trans stands.durable, stands.spared⟩
      refine .inl ⟨_, lasting', rfl, ?_, ?_, ⟨?_, ?_, ?_, settled.2⟩, ?_⟩
      · cases one.nextSender <;> rfl
      · cases one.nextSender <;> rfl
      · refine Recovers.publishes ?_
        exact keeps.along ⟨rfl, rfl, rfl, rfl, rfl, rfl, UInt64.le_refl _⟩
      · have entryFits : (⟨journal.endOffset, one.bodyLen.toNat⟩ : IndexEntry).Fits :=
          ⟨(Nat.le_add_right _ _).trans room, fits.positive⟩
        have dead := stands.countDead one entryFits
        have sender := stands.nextSender_filed fun counter carried => (own counter carried).1
        have offset := live.endOffset
        have index : (journal.index.insert one.seq.toNat ⟨journal.endOffset, one.bodyLen.toNat⟩).2 =
            (replayOf (content.filing one).filings).index := by
          show _ = (replayOf (content.filings ++ [one])).index
          rw [replayOf_concat, live.index, offset]
          rfl
        have deadBytes : journal.countDead
            (journal.index.insert one.seq.toNat ⟨journal.endOffset, one.bodyLen.toNat⟩).1 =
              (replayOf (content.filing one).filings).deadBytes := by
          show _ = (replayOf (content.filings ++ [one])).deadBytes
          rw [dead, replayOf_concat, offset]
          rfl
        cases isSender : one.nextSender with
        | none =>
            rw [isSender] at sender
            exact ⟨live.clear, live.slots, live.active, index, deadBytes, ends, sender.symm, live.nextTarget,
              live.creationTime, unsynced⟩
        | some nextSender =>
            rw [isSender] at sender
            exact ⟨live.clear, live.slots, live.active, index, deadBytes, ends, sender.symm, live.nextTarget,
              live.creationTime, unsynced⟩
      · cases one.nextSender <;> exact settled.1
      · rcases advances with ⟨whole, -⟩ | ⟨before, -, policy⟩
        · exact .inl whole
        · exact .inr ⟨before, policy⟩
  | @lost later after error room flushes =>
      have written := stands.appended fits (fun counter carried => (own counter carried).2) room later
      have closed := written.drops live.clear live.slots live.unsynced flushes
      exact .inr ⟨_, _, rfl, .lost ⟨closed.config, closed.marks, closed.undoes, closed.recovers⟩⟩

/-- The frame as the journal seals it. -/
def Journal.stamp (journal : Journal) (draft : Filing) : Filing :=
  { draft with generation := if draft.nextSender.isSome then journal.nextGeneration else 0 }

/-- Sealing a draft, once its generation is known. -/
theorem appendFrame_sealed {draft : Filing} {generation : UInt64} {before : Journal}
    (taken : recordGeneration draft.draft journal = .ok generation before) :
    appendFrame draft.seq draft.draft draft.nextSender journal =
      fileSealed { draft with generation := generation } before := by
  have same := Filing.sealed_draft draft generation
  have sealing := ({ draft with generation := generation } : Filing).sealFrameRecord_draft
  unfold appendFrame
  rw [bind_apply, taken]
  dsimp only
  rw [← same, show sealFrameRecord _ generation = _ from sealing, recordBodyLen_record]
  rfl

/-- A frame is filed, or the call fails. -/
theorem Stands.files (stands : Stands journal content lasting) {draft : Filing}
    (fits : draft.Fits journal.config.maxBody) :
    (∃ after lasting', appendFrame draft.seq draft.draft draft.nextSender journal = .ok () after ∧
      after.config = journal.config ∧ after.marks = (publishSender draft.nextSender journal).marks ∧
      Stands after (content.filing (journal.stamp draft)) lasting' ∧
      Advances journal.config.syncPolicy lasting (content.filing (journal.stamp draft)) lasting') ∨
    ∃ error after, appendFrame draft.seq draft.draft draft.nextSender journal = .error error after ∧
      Fails journal content lasting after := by
  have takes := takesGeneration_draft draft
  cases sender : draft.nextSender with
  | none =>
      rw [sender] at takes
      have taken : recordGeneration draft.draft journal = .ok 0 journal := by
        unfold recordGeneration
        rw [takes]
        rfl
      have plain : journal.stamp draft = { draft with generation := 0 } := by
        unfold Journal.stamp
        rw [sender]
        rfl
      have carriesNone : ({ draft with generation := 0 } : Filing).counter = none := by
        unfold Filing.counter
        rw [show Filing.nextSender _ = draft.nextSender from rfl, sender]
        rfl
      have files := stands.filesSealed { draft with generation := 0 } (fits.sealed 0) (by
        intro counter carried
        rw [carriesNone] at carried
        cases carried)
      rw [plain, ← sender, appendFrame_sealed taken]
      exact files
  | some nextSender =>
      rw [sender] at takes
      have counted : journal.stamp draft = { draft with generation := journal.nextGeneration } := by
        unfold Journal.stamp
        rw [sender]
        rfl
      have generation : recordGeneration draft.draft journal = takeGeneration journal := by
        unfold recordGeneration
        rw [takes]
        rfl
      unfold takeGeneration at generation
      rw [bind_apply, get_apply] at generation
      dsimp only at generation
      rw [bind_apply] at generation
      cases left : checkedSucc journal.nextGeneration with
      | none =>
          rw [left, orFail_none] at generation
          have fails : appendFrame draft.seq draft.draft (some nextSender) journal =
              .error generationsExhausted journal := by
            unfold appendFrame
            rw [bind_apply, generation]
          exact .inr ⟨_, _, fails, .unchanged ⟨journal.disk, journal.nextGeneration, rfl⟩ stands⟩
      | some next =>
          obtain rfl := checkedSucc_eq left
          have above := checkedSucc_lt left
          rw [left, orFail_some] at generation
          have skipped := stands.skips journal.disk rfl (UInt64.le_of_lt above)
          have carries : ({ draft with generation := journal.nextGeneration } : Filing).counter =
              some (journal.nextGeneration, nextSender) := by
            unfold Filing.counter
            rw [show Filing.nextSender _ = draft.nextSender from rfl, sender]
            rfl
          have files := skipped.filesSealed { draft with generation := journal.nextGeneration }
            (fits.sealed _) (by
              intro counter carried
              rw [carries] at carried
              cases carried
              exact ⟨stands.recovers.generations, above⟩)
          rw [counted, ← sender, appendFrame_sealed generation]
          rcases files with ⟨after, lasting', done, config, marks, stood, advances⟩ | ⟨error, after, failed, how⟩
          · refine .inl ⟨after, lasting', done, config, marks.trans ?_, stood, advances⟩
            rw [sender]
            rfl
          · refine .inr ⟨error, after, failed, ?_⟩
            cases how with
            | unchanged only stood =>
                obtain ⟨disk, generation, rfl⟩ := only
                exact .unchanged ⟨disk, generation, rfl⟩ stood
            | torn closed =>
                exact .torn ⟨closed.config, closed.marks, closed.undoes, closed.recovers⟩
            | lost closed =>
                exact .lost ⟨closed.config, closed.marks, closed.undoes, closed.recovers⟩

end Records

/-! ## Marks -/

section Marked

variable {journal : Journal} {content lasting : Content}

/-- Everything is flushed, or the journal is closed over what was. -/
theorem Recovers.flushes (recovers : Recovers journal content lasting) (live : Live journal content) :
    (∃ after, flush journal = .ok () after ∧ after.config = journal.config ∧ after.marks = journal.marks ∧
      Stands after content content) ∨
    ∃ error after, flush journal = .error error after ∧ Closed journal lasting lasting after := by
  rcases flush_spec journal with ⟨later, -, done⟩ | ⟨reason, after, failed, lost⟩
  · refine .inl ⟨_, done, rfl, rfl, recovers.settle live.clear live.slots live.endOffset later, ?_, live.active,
      rfl⟩
    exact ⟨live.clear, live.slots, live.active, live.index, live.deadBytes, live.endOffset, live.nextSender,
      live.nextTarget, live.creationTime,
      fun every policy => Nat.lt_of_le_of_lt (Nat.zero_le _) (live.unsynced every policy)⟩
  · exact .inr ⟨_, after, failed, recovers.lost live.clear live.slots lost⟩

/-- The counters written are those the journal has. -/
def Content.recounted (content : Content) (journal : Journal) : Content :=
  content.counted journal journal.nextSender journal.nextTarget

/-- The getters answer with the counters of the journal. -/
def Journal.Counts (journal : Journal) : Prop :=
  journal.shared.nextSender = journal.nextSender ∧ journal.shared.nextTarget = journal.nextTarget

theorem Journal.Counts.marks (counts : journal.Counts) :
    (journal.publishCounters journal.nextSender journal.nextTarget).marks = journal.marks := by
  obtain ⟨sender, target⟩ := counts
  unfold Journal.publishCounters Journal.marks
  dsimp only
  rw [← sender, ← target]

theorem Journal.Counts.along {after : Journal} (counts : journal.Counts) (marks : after.marks = journal.marks) :
    after.Counts := by
  unfold Journal.Counts at *
  rw [show after.shared = journal.shared from congrArg Marks.shared marks,
    show after.nextSender = journal.nextSender from congrArg Marks.nextSender marks,
    show after.nextTarget = journal.nextTarget from congrArg Marks.nextTarget marks]
  exact counts

/-- Whatever a write of the marker does, it is flushed if it is done. -/
theorem Stands.writesOwed (stands : Stands journal content lasting) (counts : journal.Counts) :
    (∃ after, writeOwed journal = .ok () after ∧ after.config = journal.config ∧
      after.marks = journal.marks ∧ Stands after (content.recounted journal) (content.recounted journal)) ∨
    ∃ error after, writeOwed journal = .error error after ∧ Fails journal content lasting after := by
  unfold writeOwed
  rw [bind_apply, get_apply]
  dsimp only
  rw [bind_apply]
  rcases stands.counts journal.nextSender journal.nextTarget with
    ⟨after, lasting', done, config, marks, written, flushed⟩ | ⟨error, after, failed, how⟩
  · rw [done]
    dsimp only
    unfold flushSlot
    rw [bind_apply, get_apply]
    dsimp only
    have same : after.marks = journal.marks := marks.trans counts.marks
    rcases flushed with ⟨rfl, settled⟩ | ⟨rfl, unsettled, -⟩
    · rw [if_pos settled]
      exact .inl ⟨after, rfl, config, same, written⟩
    · rw [if_neg unsettled]
      rcases written.recovers.flushes written.live with ⟨last, done, config', marks', stood⟩ | ⟨error, last, failed, closed⟩
      · exact .inl ⟨last, done, config'.trans config, marks'.trans same, stood⟩
      · exact .inr ⟨error, last, failed, .lost ⟨closed.config.trans config, closed.marks.trans same,
          closed.undoes, closed.recovers⟩⟩
  · rw [failed]
    exact .inr ⟨error, after, rfl, how⟩

/-- What the content is read as once its counters are written. -/
theorem Stands.counted_memory (stands : Stands journal content lasting) (nextSender nextTarget : UInt64) :
    (content.counted journal nextSender nextTarget).memory =
      { content.memory with
        nextSenderSeq := nextSender.toNat
        nextTargetSeq := nextTarget.toNat
        resetOwed := journal.resetOwed
        appWatermark := journal.appWatermark.toNat } := by
  have below : content.Below (journal.nextSlot nextSender nextTarget).generation := stands.recovers.generations
  have sender : (content.counted journal nextSender nextTarget).nextSender = nextSender :=
    Content.nextSender_counting below
  unfold Content.memory
  rw [sender]
  rfl

theorem Stands.recounted_memory (stands : Stands journal content lasting) :
    (content.recounted journal).memory =
      { content.memory with resetOwed := journal.resetOwed, appWatermark := journal.appWatermark.toNat } := by
  unfold Content.recounted
  rw [stands.counted_memory, stands.live.nextSender, stands.live.nextTarget]
  rfl

/-- What the content is read as once a frame is filed. -/
theorem Stands.filing_memory (stands : Stands journal content lasting) (draft : Filing) :
    (content.filing (journal.stamp draft)).memory =
      { content.memory.store draft.seq.toNat draft.msgType draft.frame with
        nextSenderSeq := (draft.nextSender.getD content.nextSender).toNat } := by
  have own : ∀ counter, (journal.stamp draft).counter = some counter → content.Below counter.1 := by
    intro counter carried
    unfold Filing.counter Journal.stamp at carried
    cases sender : draft.nextSender with
    | none =>
        rw [sender] at carried
        cases carried
    | some nextSender =>
        rw [sender] at carried
        cases carried
        exact stands.recovers.generations
  have sender := stands.nextSender_filed own
  have frames : framesOf (content.filings ++ [journal.stamp draft]) =
      (framesOf content.filings).insert draft.seq.toNat (draft.msgType, draft.frame) :=
    framesOf_concat (journal.stamp draft)
  unfold Content.memory
  rw [sender, ← stands.live.nextSender, show framesOf (content.filing (journal.stamp draft)).filings = _ from
    frames]
  rfl

/-- The journal with another watermark, not written yet. -/
def Journal.watermarked (journal : Journal) (watermark : UInt64) : Journal :=
  { journal with appWatermark := watermark }

/-- The marks are written with the next slot only. -/
theorem Stands.marked (stands : Stands journal content lasting) (shared : Shared) (resetOwed : Bool)
    (appWatermark : UInt64) :
    Stands { journal with shared := shared, resetOwed := resetOwed, appWatermark := appWatermark }
      content lasting := by
  obtain ⟨recovers, live, durable, spared⟩ := stands
  exact ⟨recovers.along ⟨rfl, rfl, rfl, rfl, rfl, rfl, UInt64.le_refl _⟩, ⟨live.clear, live.slots, live.active,
    live.index, live.deadBytes, live.endOffset, live.nextSender, live.nextTarget, live.creationTime,
    live.unsynced⟩, durable, spared⟩

/-- A step that fails once the watermark was set puts it back. -/
theorem Fails.unwatermarked {watermark : UInt64} {after : Journal}
    (fails : Fails (journal.watermarked watermark) content lasting after) :
    Fails journal content lasting (after.watermarked journal.appWatermark) := by
  have put : ∀ {undone : Content}, Closed (journal.watermarked watermark) undone lasting after →
      Closed journal undone lasting (after.watermarked journal.appWatermark) := by
    intro undone closed
    refine ⟨closed.config, ?_, closed.undoes,
      closed.recovers.along ⟨rfl, rfl, rfl, rfl, rfl, rfl, UInt64.le_refl _⟩⟩
    have marks := closed.marks
    unfold Journal.marks Journal.watermarked at marks ⊢
    rw [Marks.mk.injEq] at marks ⊢
    exact ⟨marks.1, marks.2.1, marks.2.2.1, marks.2.2.2.1, marks.2.2.2.2.1, rfl⟩
  cases fails with
  | unchanged only stands =>
      obtain ⟨disk, generation, rfl⟩ := only
      exact .unchanged ⟨disk, generation, rfl⟩ (stands.marked _ _ journal.appWatermark)
  | torn closed => exact .torn (put closed)
  | lost closed => exact .lost (put closed)

/-- The watermark is written like a counter, and put back if that fails. -/
theorem Stands.setsAppWatermark (stands : Stands journal content lasting) (counts : journal.Counts)
    (watermark : UInt64) :
    (journal.appWatermark = watermark ∧ setAppWatermark watermark journal = .ok () journal) ∨
    (∃ after lasting', setAppWatermark watermark journal = .ok () after ∧ after.config = journal.config ∧
      after.marks = { journal.marks with
        appWatermark := watermark
        shared := { journal.shared with appWatermark := watermark } } ∧
      Stands after (content.recounted (journal.watermarked watermark)) lasting' ∧
      Advances journal.config.syncPolicy lasting (content.recounted (journal.watermarked watermark)) lasting') ∨
    ∃ error after, setAppWatermark watermark journal = .error error after ∧
      Fails journal content lasting after := by
  unfold setAppWatermark usable
  rw [bind_apply, bind_apply, get_apply]
  dsimp only
  rw [ensure_of _ stands.live.clear]
  dsimp only
  rw [bind_apply, get_apply]
  dsimp only
  by_cases same : journal.appWatermark = watermark
  · rw [if_pos same]
    exact .inl ⟨same, rfl⟩
  · refine .inr ?_
    rw [if_neg same, bind_apply, modify_apply]
    dsimp only
    rw [bind_apply]
    unfold attempt
    rcases (stands.marked journal.shared journal.resetOwed watermark).counts journal.nextSender journal.nextTarget with
      ⟨after, lasting', done, config, marks, written, flushed⟩ | ⟨error, after, failed, how⟩
    · rw [show writeCounters _ _ { journal with appWatermark := watermark } = _ from done]
      refine .inl ⟨_, lasting', rfl, config, ?_, ?_, ?_⟩
      · have counts' : (journal.watermarked watermark).Counts := counts
        have same := marks.trans counts'.marks
        unfold Journal.marks at same ⊢
        rw [Marks.mk.injEq] at same
        obtain ⟨shared, creationTime, sender, target, owed, mark⟩ := same
        dsimp only
        rw [shared, creationTime, sender, target, owed, mark]
        rfl
      · exact written.marked _ _ after.appWatermark
      · rcases flushed with ⟨whole, -⟩ | ⟨before, -, policy⟩
        · exact .inl whole
        · exact .inr ⟨before, policy⟩
    · rw [show writeCounters _ _ { journal with appWatermark := watermark } = _ from failed]
      exact .inr ⟨error, _, rfl, how.unwatermarked⟩

/-- The content with its owed-reset marker written. -/
structure Content.Marked (content : Content) (owed : Bool) (content' : Content) : Prop where
  memory : content'.memory = { content.memory with resetOwed := owed }
  creationTime : content'.creationTime = content.creationTime
  filings : content'.filings = content.filings

theorem Content.Marked.resetOwed {owed : Bool} {content' : Content} (marked : content.Marked owed content') :
    content'.slot.resetOwed = owed := congrArg MemoryStore.resetOwed marked.memory

theorem Content.Marked.trans {owed : Bool} {content' content'' : Content} (one : content.Marked owed content')
    (two : content'.Marked owed content'') : content.Marked owed content'' where
  memory := by
    rw [two.memory, one.memory]
  creationTime := two.creationTime.trans one.creationTime
  filings := two.filings.trans one.filings

/-- Writing the marker in memory keeps everything else. -/
theorem Stands.recounted_marked (stands : Stands journal content lasting)
    (watermark : journal.appWatermark = content.slot.appWatermark) :
    content.Marked journal.resetOwed (content.recounted journal) where
  memory := by
    rw [stands.recounted_memory, watermark]
    rfl
  creationTime := rfl
  filings := rfl

/-- Slots that both carry the marker are slots of contents that do. -/
theorem Stands.carries (stands : Stands journal content lasting) {owed : Bool}
    (carries : journal.carries owed = true) : content.slot.resetOwed = owed ∧ lasting.slot.resetOwed = owed := by
  have each : ∀ position slot, decodeSlot (journal.slots.get position) = some slot → slot.resetOwed = owed := by
    intro position slot decodes
    have listed : journal.slots.get position ∈ [journal.slots.first, journal.slots.second] := by
      match position with
      | 0 => exact List.mem_cons_self
      | 1 => exact List.mem_cons_of_mem _ List.mem_cons_self
    have own := List.all_eq_true.mp carries _ listed
    rw [decodes] at own
    exact eq_of_beq own
  rw [stands.live.slots] at each
  refine ⟨each _ _ (newestSlot_decodes stands.holds.newest), each lasting.active _ ?_⟩
  rw [stands.spared]
  exact newestSlot_decodes stands.recovers.lasts.holds.newest

/-- The marker is set or cleared in every slot, or the call fails. A failure
leaves the marker in memory set, and may leave one slot with it. -/
theorem Stands.setsOwed (stands : Stands journal content lasting) (counts : journal.Counts)
    (watermark : journal.appWatermark = content.slot.appWatermark) (owed : Bool) :
    (∃ after content' lasting', setResetOwed owed journal = .ok () after ∧ after.config = journal.config ∧
      after.marks = (journal.setOwed owed).marks ∧ Stands after content' lasting' ∧
      content.Marked owed content' ∧ lasting'.slot.resetOwed = owed ∧
      (lasting' = content' ∨ content' = content ∧ lasting' = lasting)) ∨
    ∃ error before failed content' lasting',
      setResetOwed owed journal = .error error (failed.setOwed (journal.resetOwed || owed)) ∧
      before.config = journal.config ∧ before.marks = { journal.marks with resetOwed := owed } ∧
      Stands before content' lasting' ∧ Fails before content' lasting' failed ∧
      (content' = content ∧ lasting' = lasting ∨ content.Marked owed content' ∧ lasting' = content') := by
  unfold setResetOwed reloadIfPending
  rw [bind_apply, bind_apply, get_apply]
  dsimp only
  rw [if_pos stands.live.clear]
  dsimp only [pure_apply]
  rw [bind_apply, get_apply]
  dsimp only
  by_cases carried : journal.carries owed = true ∧ journal.resetOwed = owed
  · obtain ⟨slot, slot'⟩ := stands.carries carried.1
    rw [if_pos carried]
    refine .inl ⟨_, content, lasting, rfl, rfl, rfl, stands.marked _ _ journal.appWatermark, ⟨?_, rfl, rfl⟩, slot',
      .inr ⟨rfl, rfl⟩⟩
    rw [← slot]
    rfl
  · rw [if_neg carried, bind_apply, modify_apply]
    dsimp only
    rw [bind_apply]
    unfold attempt writeBoth
    let owing : Journal := { journal with resetOwed := owed }
    have stands' : Stands owing content lasting := stands.marked journal.shared owed journal.appWatermark
    have first := stands'.recounted_marked watermark
    rw [bind_apply]
    rcases stands'.writesOwed counts with ⟨between, done, config, marks, written⟩ | ⟨error, failed, fails, how⟩
    · rw [show writeOwed { journal with resetOwed := owed } = _ from done]
      dsimp only
      have counts' : owing.Counts := counts
      have isOwed : between.resetOwed = owed := congrArg Marks.resetOwed marks
      have isWatermark : between.appWatermark = (content.recounted owing).slot.appWatermark :=
        congrArg Marks.appWatermark marks
      have second := written.recounted_marked isWatermark
      rw [isOwed] at second
      rcases written.writesOwed (counts'.along marks) with
        ⟨last, done, config', marks', stood⟩ | ⟨error, failed, fails, how⟩
      · rw [done]
        have both := first.trans second
        refine .inl ⟨_, _, _, rfl, config'.trans config, ?_, stood.marked _ last.resetOwed last.appWatermark, both,
          both.resetOwed, .inl rfl⟩
        have same := marks'.trans marks
        unfold Journal.marks at same ⊢
        rw [Marks.mk.injEq] at same
        obtain ⟨shared, creationTime, sender, target, mark, watermark⟩ := same
        dsimp only
        rw [shared, creationTime, sender, target, mark, watermark]
        rfl
      · rw [fails]
        exact .inr ⟨error, between, failed, _, _, rfl, config, marks, written, how, .inr ⟨first, rfl⟩⟩
    · rw [show writeOwed { journal with resetOwed := owed } = _ from fails]
      exact .inr ⟨error, owing, failed, content, lasting, rfl, rfl, rfl, stands', how, .inl ⟨rfl, rfl⟩⟩

end Marked

end IronFix.Store
