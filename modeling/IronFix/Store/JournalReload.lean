import IronFix.Store.JournalReplace

/-!
# A journal read again

A reload first completes what a failed write left pending. Wherever that stops,
what is left to undo leads to the same content, so it can be tried again. Then
the journal is read from disk, and is one of that content.
-/

namespace IronFix.Store

open Journal Lib.Decimal Lib.FaultyDisk Lib.Ordered Lib.Patch Lib.Steps

/-! ## Undoing -/

/-- A step of an undo: wherever it stops, undoing leads to the same file, and
what is below `n` is kept. If it is done, it made `made` of the file. -/
def Undoes (pending : Pending) (n : Nat) (step : DiskStep Unit) (made : Bytes → Bytes) : Prop :=
  ∀ disk : Disk UInt8, n ≤ disk.file.length → ∃ file reads writes,
    SameBelow n disk.file file ∧ pending.undo file = pending.undo disk.file ∧
      (step disk = .ok () ⟨file, reads, writes, disk.renames⟩ ∧ file = made disk.file ∨
        ∃ error, step disk = .error error ⟨file, reads, writes, disk.renames⟩)

namespace Undoes

variable {pending : Pending} {n : Nat} {step : DiskStep Unit} {made made' : Bytes → Bytes}

theorem of_leaves (leaves : ∀ disk, Leaves step disk ()) : Undoes pending n step id := by
  intro disk inside
  obtain ⟨reads, writes, done | ⟨error, failed⟩⟩ := leaves disk
  · exact ⟨disk.file, reads, writes, .refl inside, rfl, .inl ⟨done, rfl⟩⟩
  · exact ⟨disk.file, reads, writes, .refl inside, rfl, .inr ⟨error, failed⟩⟩

theorem bind {next : DiskStep Unit} (first : Undoes pending n step made) (rest : Undoes pending n next made') :
    Undoes pending n (do step; next) fun file => made' (made file) := by
  intro disk inside
  obtain ⟨file, reads, writes, same, alike, ⟨done, isMade⟩ | ⟨error, failed⟩⟩ := first disk inside
  · obtain ⟨file', reads', writes', same', alike', ends⟩ := rest ⟨file, reads, writes, disk.renames⟩ same.holds
    refine ⟨file', reads', writes', same.trans same', alike'.trans alike, ?_⟩
    subst isMade
    rw [bind_apply, done]
    exact ends
  · refine ⟨file, reads, writes, same, alike, .inr ⟨error, ?_⟩⟩
    rw [bind_apply, failed]

theorem forM {α : Type} {value : Option α} {each : α → DiskStep Unit} {makes : α → Bytes → Bytes}
    (undoes : ∀ a, value = some a → Undoes pending n (each a) (makes a)) :
    Undoes pending n (value.forM each) fun file => (value.map fun a => makes a file).getD file := by
  cases value with
  | none => exact .of_leaves fun _ => .pure ()
  | some a => exact undoes a rfl

end Undoes

section Undo

variable {pending : Pending} {n offset : Nat} {images : SlotImages} {position : Fin 2} {image : SlotImage}

/-- A part of a file that holds what is cut is cut alike. -/
theorem undo_take {file : Bytes} (cut : pending.cutBackTo = some offset) :
    pending.undo (file.take offset) = pending.undo file := by
  unfold Pending.undo
  rw [cut, Option.map_some, Option.map_some, List.take_take, Nat.min_self]
  rfl

/-- A part of a slot that is put back is not seen. -/
theorem undo_patch {file data : Bytes} (restores : pending.restoreSlots = some images)
    (whole : DATA_START ≤ file.length) (cuts : ∀ offset, pending.cutBackTo = some offset → DATA_START ≤ offset)
    (small : data.length ≤ SLOT_LEN) :
    pending.undo (patch file (slotOffset position) data) = pending.undo file := by
  unfold Pending.undo
  rw [restores]
  cases cut : pending.cutBackTo with
  | none => exact withSlots_patch whole small
  | some offset =>
      have front := cuts offset cut
      have inside := slotOffset_inside position
      have short : DATA_START ≤ (file.take offset).length := by
        rw [List.length_take]
        omega
      show withSlots ((patch file (slotOffset position) data).take offset) images =
        withSlots (file.take offset) images
      rw [take_patch (by omega) (by omega), withSlots_patch short small]

/-- A cut of what is cut anyway. -/
theorem undoCut_undoes (cut : pending.cutBackTo = some offset) (behind : n ≤ offset) :
    Undoes pending n (undoCut offset) (List.take offset) := by
  intro disk inside
  unfold undoCut
  rw [bind_apply]
  obtain ⟨reads, looked | ⟨reason, context, failed⟩⟩ := @Looks.look disk "cannot read the journal's length"
  · rw [looked]
    dsimp only
    rw [bind_apply, get_apply]
    dsimp only
    split
    · rename_i longer
      cases answered : (setLen 0 offset : EStateM String (Disk UInt8) Unit) { disk with reads := reads } with
      | ok done after =>
          obtain ⟨writes, -, rfl⟩ := change_ok answered
          have short : resize 0 disk.file offset = disk.file.take offset := resize_short (Nat.le_of_lt longer)
          refine ⟨disk.file.take offset, reads, writes, ?_, undo_take cut, .inl ⟨?_, rfl⟩⟩
          · rw [← short]
            exact .resize behind inside
          · rw [named_ok answered]
            show _ = EStateM.Result.ok () (Disk.mk (disk.file.take offset) reads writes disk.renames)
            rw [← short]
      | error reason after =>
          obtain ⟨_, writes, rfl⟩ := change_error answered
          exact ⟨disk.file, reads, writes, .refl inside, rfl, .inr ⟨_, named_error answered⟩⟩
    · rename_i short
      have all : disk.file.take offset = disk.file := List.take_of_length_le (Nat.not_lt.mp short)
      exact ⟨disk.file, reads, disk.writes, .refl inside, rfl, .inl ⟨rfl, all.symm⟩⟩
  · rw [failed]
    exact ⟨disk.file, reads, disk.writes, .refl inside, rfl, .inr ⟨_, rfl⟩⟩

/-- What a read that answers has read. -/
theorem attempt_readAt (disk : Disk UInt8) (start len : Nat) : ∃ reads result,
    (attempt (readAt start len) disk : EStateM.Result StoreError (Disk UInt8) (Except String Bytes)) =
      .ok result { disk with reads := reads } ∧
    ∀ bytes, result.toOption = some bytes → bytes = span disk.file start len := by
  unfold attempt readAt
  rw [bind_apply]
  obtain ⟨reads, looked | ⟨reason, failed⟩⟩ := look_eq _ (show Lib.FaultyDisk.look disk = _ from rfl)
  · rw [looked]
    dsimp only
    rw [bind_apply, get_apply]
    dsimp only
    by_cases short : disk.file.length < start + len
    · rw [if_pos short, bind_apply, throw_apply]
      refine ⟨reads, _, rfl, ?_⟩
      rintro bytes ⟨⟩
    · rw [if_neg short, pure_apply]
      refine ⟨reads, _, rfl, ?_⟩
      rintro bytes ⟨⟩
      rfl
  · rw [failed]
    refine ⟨reads, _, rfl, ?_⟩
    rintro bytes ⟨⟩

/-- A slot that is put back anyway. -/
theorem undoSlot_undoes (restores : pending.restoreSlots = some images) (front : DATA_START ≤ n)
    (cuts : ∀ offset, pending.cutBackTo = some offset → DATA_START ≤ offset) (position : Fin 2)
    (image : SlotImage) :
    Undoes pending n (undoSlot position image) fun file => patch file (slotOffset position) image.bytes := by
  intro disk inside
  have whole : DATA_START ≤ disk.file.length := front.trans inside
  have small : image.bytes.length ≤ SLOT_LEN := image.full.le
  obtain ⟨reads, result, readBack, isSpan⟩ := attempt_readAt disk (slotOffset position) SLOT_LEN
  unfold undoSlot
  rw [bind_apply, readBack]
  dsimp only
  by_cases same : result.toOption = some image.bytes
  · rw [if_pos same]
    have there : patch disk.file (slotOffset position) image.bytes = disk.file := by
      rw [isSpan _ same, patch_span (slot_within whole position)]
    exact ⟨disk.file, reads, disk.writes, .refl inside, rfl, .inl ⟨rfl, there.symm⟩⟩
  · rw [if_neg same]
    cases answered : (writeAt 0 image.bytes (slotOffset position) : EStateM String (Disk UInt8) Unit)
        { disk with reads := reads } with
    | ok done after =>
        obtain ⟨writes, -, rfl⟩ := change_ok answered
        have patched : overwrite 0 disk.file (slotOffset position) image.bytes =
            patch disk.file (slotOffset position) image.bytes := overwrite_slot whole _
        refine ⟨patch disk.file (slotOffset position) image.bytes, reads, writes, ?_,
          undo_patch restores whole cuts small, .inl ⟨?_, rfl⟩⟩
        · rw [← patched]
          exact .slot front inside position small
        · rw [named_ok (show writeSlot position image _ = _ from answered), ← patched]
    | error reason after =>
        obtain ⟨written, writes, rfl⟩ := change_error answered
        have part : (image.bytes.take written).length ≤ SLOT_LEN := (List.length_take_le' _ _).trans small
        have patched : overwrite 0 disk.file (slotOffset position) (image.bytes.take written) =
            patch disk.file (slotOffset position) (image.bytes.take written) := overwrite_slot whole _
        refine ⟨patch disk.file (slotOffset position) (image.bytes.take written), reads, writes, ?_,
          undo_patch restores whole cuts part, .inr ⟨ioError "cannot put a counter slot back" reason, ?_⟩⟩
        · rw [← patched]
          exact .slot front inside position part
        · rw [named_error (show writeSlot position image _ = _ from answered), ← patched]

/-- An undo that is done leaves what it leads to. -/
theorem undoOnDisk_undoes {config : FileStoreConfig} (front : DATA_START ≤ n)
    (cuts : ∀ offset, pending.cutBackTo = some offset → n ≤ offset) :
    Undoes pending n (undoOnDisk config pending.cutBackTo pending.restoreSlots) pending.undo := by
  have opened : Undoes pending n (openJournalFile config) id := .of_leaves fun _ => openJournalFile_leaves
  have flushed : Undoes pending n (named "cannot flush the journal's undo" touch) id :=
    .of_leaves fun _ => .touch _
  have cuts' : ∀ offset, pending.cutBackTo = some offset → DATA_START ≤ offset :=
    fun offset cut => front.trans (cuts offset cut)
  have cutBack : Undoes pending n (pending.cutBackTo.forM undoCut) fun file =>
      (pending.cutBackTo.map fun offset => file.take offset).getD file := by
    refine Undoes.forM ?_
    intro offset cut
    exact undoCut_undoes cut (cuts offset cut)
  have slots : Undoes pending n (pending.restoreSlots.forM undoSlots) fun file =>
      (pending.restoreSlots.map fun images => withSlots file images).getD file := by
    refine Undoes.forM ?_
    intro images restores
    exact (undoSlot_undoes restores front cuts' 0 images.first).bind
      (undoSlot_undoes restores front cuts' 1 images.second)
  exact opened.bind (cutBack.bind (slots.bind flushed))

end Undo

/-! ## What an undo makes durable -/

section Undone

variable {journal : Journal} {content lasting : Content}

/-- The frames that were flushed, with the slots put back. -/
def Content.remade (lasting content : Content) : Content :=
  { lasting with slots := content.slots, active := content.active, slot := content.slot }

/-- What an undo leaves flushed: what was, or that with the slots put back. -/
def Remade (lasting content lasting' : Content) : Prop :=
  lasting' = lasting ∨ lasting' = lasting.remade content

/-- Whatever an undo does to the file, undoing leads to the same content. -/
theorem Recovers.onto (recovers : Recovers journal content lasting) (disk : Disk UInt8)
    (same : SameBelow journal.durableEnd journal.disk.file disk.file)
    (alike : journal.pending.undo disk.file = journal.pending.undo journal.disk.file) :
    Recovers { journal with disk := disk } content lasting := by
  obtain ⟨file, reads, writes, renames⟩ := disk
  have kept := recovers.lasts.onto writes same
  refine ⟨⟨kept.holds, kept.generations, kept.durableEnd, kept.durableSlots, kept.inside, kept.image⟩, ?_,
    recovers.generations, recovers.follows, recovers.vouched, recovers.cuts⟩
  show Holds journal.config.maxBody (journal.pending.undo file) content
  rw [show journal.pending.undo file = _ from alike]
  exact recovers.holds

/-- Undoing twice is undoing once. -/
theorem Pending.undo_undo {pending : Pending} {file : Bytes} (whole : DATA_START ≤ file.length)
    (cuts : ∀ offset, pending.cutBackTo = some offset → DATA_START ≤ offset) :
    pending.undo (pending.undo file) = pending.undo file := by
  unfold Pending.undo
  cases cut : pending.cutBackTo with
  | none =>
      cases pending.restoreSlots with
      | none => rfl
      | some images => exact withSlots_withSlots whole
  | some offset =>
      have front := cuts offset cut
      have short : DATA_START ≤ (file.take offset).length := by
        rw [List.length_take]
        omega
      cases pending.restoreSlots with
      | none =>
          show (file.take offset).take offset = file.take offset
          rw [List.take_take, Nat.min_self]
      | some images =>
          show withSlots ((withSlots (file.take offset) images).take offset) images =
            withSlots (file.take offset) images
          rw [withSlots_take short front, List.take_take, Nat.min_self, withSlots_withSlots short]

/-- The flushed frames with the slots put back are a content. -/
theorem Recovers.remade_holds (recovers : Recovers journal content lasting)
    (newest : newestSlot content.slots = .ok (content.active, content.slot)) :
    Holds journal.config.maxBody (withSlots journal.flushed content.slots) (lasting.remade content) := by
  have flushed := recovers.lasts.holds
  have whole := flushed.shape.whole
  have length : (withSlots journal.flushed content.slots).length = journal.flushed.length :=
    withSlots_length whole
  obtain ⟨header, opened, created⟩ := flushed.header
  refine ⟨⟨length.symm ▸ whole, ?_, ?_, flushed.shape.fits, length.symm ▸ flushed.shape.isU64⟩,
    ⟨header, ?_, created⟩, newest, recovers.vouched⟩
  · exact slotImages_withSlots whole _
  · rw [drop_withSlots whole]
    exact flushed.shape.records
  · have first : content.slots.first.bytes.length ≤ SLOT_LEN := content.slots.first.full.le
    unfold withSlots
    rw [head_patch_slot (by rw [patch_slot_length whole first]; exact whole), head_patch_slot whole]
    exact opened

theorem Recovers.undone_eq (recovers : Recovers journal content lasting) : journal.undone =
    { journal with
      durableSlots := journal.pending.restoreSlots.getD journal.durableSlots
      flushed := (journal.pending.restoreSlots.map (withSlots journal.flushed)).getD journal.flushed } := by
  have cut : (journal.pending.cutBackTo.map (min journal.durableEnd)).getD journal.durableEnd =
        journal.durableEnd ∧
      (journal.pending.cutBackTo.map fun offset => journal.flushed.take offset).getD journal.flushed =
        journal.flushed := by
    cases pending : journal.pending.cutBackTo with
    | none => exact ⟨rfl, rfl⟩
    | some offset =>
        have behind := recovers.cuts offset pending
        have length := recovers.lasts.flushed_length
        refine ⟨Nat.min_eq_left behind, ?_⟩
        show journal.flushed.take offset = journal.flushed
        rw [List.take_of_length_le (length ▸ behind)]
  unfold Journal.undone
  rw [cut.1, cut.2]

/-- The slots that are put back are those of the content. -/
theorem Recovers.restores_eq (recovers : Recovers journal content lasting) {images : SlotImages}
    (restores : journal.pending.restoreSlots = some images) : images = content.slots := by
  have holds := recovers.holds
  have whole := recovers.lasts.whole
  have slots := holds.shape.slots
  have front : ∀ offset, journal.pending.cutBackTo = some offset →
      DATA_START ≤ (journal.disk.file.take offset).length := by
    intro offset cut
    have behind := recovers.lasts.reaches.trans (recovers.cuts offset cut)
    rw [List.length_take]
    omega
  unfold Pending.undo at slots
  simp only [restores] at slots
  cases cut : journal.pending.cutBackTo with
  | none =>
      simp only [cut] at slots
      exact (slotImages_withSlots whole _).symm.trans slots
  | some offset =>
      simp only [cut] at slots
      exact (slotImages_withSlots (front offset cut) _).symm.trans slots

/-- What an undo put back is flushed. -/
theorem Recovers.undone (recovers : Recovers journal content lasting) :
    ∃ lasting', Remade lasting content lasting' ∧ Recovers journal.undone content lasting' := by
  rw [recovers.undone_eq]
  cases restores : journal.pending.restoreSlots with
  | none =>
      refine ⟨lasting, .inl rfl, recovers.along ⟨rfl, rfl, rfl, rfl, rfl, rfl, UInt64.le_refl _⟩⟩
  | some images =>
      obtain rfl := recovers.restores_eq restores
      have lasts := recovers.lasts
      have short : DATA_START ≤ (journal.disk.file.take journal.durableEnd).length := by
        have inside := lasts.inside
        have reaches := lasts.reaches
        rw [List.length_take]
        omega
      refine ⟨lasting.remade content, .inr rfl, ⟨?_, ?_, lasts.durableEnd, rfl, lasts.inside, ?_⟩, recovers.holds,
        recovers.generations, recovers.follows, recovers.vouched, recovers.cuts⟩
      · exact recovers.remade_holds recovers.holds.newest
      · exact ⟨lasts.generations.records, recovers.generations.slots⟩
      · show withSlots journal.flushed content.slots =
          withSlots (journal.disk.file.take journal.durableEnd) content.slots
        rw [lasts.image, withSlots_withSlots short]

end Undone

/-! ## Completing what is pending -/

section Pendings

variable {journal : Journal} {content lasting : Content}

/-- What a reload leaves before it reads the journal: if there was nothing to
undo, nothing but what was left to do behind a rename. -/
structure Prepared (journal after : Journal) : Prop where
  config : after.config = journal.config
  marks : after.marks = journal.marks
  cutBackTo : after.pending.cutBackTo = journal.pending.cutBackTo
  restoreSlots : after.pending.restoreSlots = journal.pending.restoreSlots
  clear : journal.pending.isClear = true → after.pending.isClear = true
  settled : journal.pending.cutBackTo = none → journal.pending.restoreSlots = none →
    ∀ content lasting, Stands { journal with pending := .default } content lasting →
      Stands { after with pending := .default } content lasting

theorem Prepared.refl (journal : Journal) : Prepared journal journal :=
  ⟨rfl, rfl, rfl, rfl, id, fun _ _ _ _ stands => stands⟩

theorem Prepared.trans {between after : Journal} (one : Prepared journal between)
    (two : Prepared between after) : Prepared journal after where
  config := two.config.trans one.config
  marks := two.marks.trans one.marks
  cutBackTo := two.cutBackTo.trans one.cutBackTo
  restoreSlots := two.restoreSlots.trans one.restoreSlots
  clear := fun clear => two.clear (one.clear clear)
  settled := by
    intro cut restores content lasting stands
    exact two.settled (one.cutBackTo.trans cut) (one.restoreSlots.trans restores) content lasting
      (one.settled cut restores content lasting stands)

/-- Other calls to come, and another directory flush left, are no other journal. -/
theorem Prepared.renamed (reads writes : List Outcome) {directoryFlush : Bool}
    (left : directoryFlush = true → journal.pending.directoryFlush = true) :
    Prepared journal { journal with
      disk := later journal.disk reads writes
      pending := { journal.pending with directoryFlush := directoryFlush } } where
  config := rfl
  marks := rfl
  cutBackTo := rfl
  restoreSlots := rfl
  clear := by
    intro clear
    rw [Pending.clear_eq clear] at left ⊢
    cases directoryFlush with
    | false => rfl
    | true => cases left rfl
  settled := by
    intro _ _ content lasting stands
    exact stands.skips (later journal.disk reads writes) rfl (UInt64.le_refl _)

theorem Recovers.flushesRenamed (recovers : Recovers journal content lasting) :
    ∃ after, Prepared journal after ∧ Recovers after content lasting ∧
      (flushRenamed journal = .ok () after ∨ ∃ error, flushRenamed journal = .error error after) := by
  unfold flushRenamed
  rw [bind_apply, get_apply]
  dsimp only
  split
  · rw [bind_apply]
    obtain ⟨reads, writes, done | ⟨error, failed⟩⟩ := @flushDirectory_leaves journal.disk journal.config
    · rw [onDisk_ok done]
      refine ⟨{ journal with
        disk := later journal.disk reads writes
        pending := { journal.pending with directoryFlush := false } }, .renamed reads writes (fun left => absurd left Bool.false_ne_true), ?_, .inl rfl⟩
      have lasts := recovers.lasts
      exact ⟨⟨lasts.holds, lasts.generations, lasts.durableEnd, lasts.durableSlots, lasts.inside, lasts.image⟩,
        recovers.holds, recovers.generations, recovers.follows, recovers.vouched, recovers.cuts⟩
    · rw [onDisk_error failed]
      refine ⟨{ journal with disk := later journal.disk reads writes },
        .renamed reads writes id, ?_, .inr ⟨error, rfl⟩⟩
      exact recovers.along ⟨rfl, rfl, rfl, rfl, rfl, rfl, UInt64.le_refl _⟩
  · exact ⟨journal, .refl journal, recovers, .inl rfl⟩

theorem Recovers.undoesPending (recovers : Recovers journal content lasting) :
    ∃ after lasting', Prepared journal after ∧ Recovers after content lasting' ∧
      Remade lasting content lasting' ∧
      (undoPending journal = .ok () after ∧ Holds after.config.maxBody after.disk.file content ∨
        ∃ error, undoPending journal = .error error after) := by
  have lasts := recovers.lasts
  unfold undoPending
  rw [bind_apply, get_apply]
  dsimp only
  by_cases some_left : journal.pending.cutBackTo.isSome = true ∨ journal.pending.restoreSlots.isSome = true
  · have untouched : journal.pending.cutBackTo = none → journal.pending.restoreSlots = none → False := by
      intro cut restores
      rw [cut, restores] at some_left
      exact absurd some_left (by simp)
    rw [if_pos some_left, bind_apply]
    obtain ⟨file, reads, writes, same, alike, ⟨done, isUndone⟩ | ⟨error, failed⟩⟩ :=
      @undoOnDisk_undoes journal.pending journal.durableEnd journal.config lasts.reaches recovers.cuts journal.disk lasts.inside
    · rw [onDisk_ok done]
      have kept := recovers.onto ⟨file, reads, writes, journal.disk.renames⟩ same alike
      obtain ⟨lasting', remade, undone⟩ := kept.undone
      refine ⟨Journal.undone { journal with disk := ⟨file, reads, writes, journal.disk.renames⟩ }, lasting',
        ⟨rfl, rfl, rfl, rfl, id, fun cut restores => (untouched cut restores).elim⟩, undone, remade, .inl ⟨rfl, ?_⟩⟩
      show Holds journal.config.maxBody file content
      rw [isUndone]
      exact recovers.holds
    · rw [onDisk_error failed]
      have kept := recovers.onto ⟨file, reads, writes, journal.disk.renames⟩ same alike
      exact ⟨{ journal with disk := ⟨file, reads, writes, journal.disk.renames⟩ }, lasting,
        ⟨rfl, rfl, rfl, rfl, id, fun cut restores => (untouched cut restores).elim⟩, kept, .inl rfl, .inr ⟨error, rfl⟩⟩
  · rw [if_neg some_left]
    have cut : journal.pending.cutBackTo = none :=
      Option.not_isSome_iff_eq_none.mp fun some => some_left (.inl some)
    have restores : journal.pending.restoreSlots = none :=
      Option.not_isSome_iff_eq_none.mp fun some => some_left (.inr some)
    have holds := recovers.holds
    have whole : journal.pending.undo journal.disk.file = journal.disk.file := by
      unfold Pending.undo
      rw [cut, restores]
      rfl
    rw [whole] at holds
    exact ⟨journal, lasting, .refl journal, recovers, .inl rfl, .inl ⟨rfl, holds⟩⟩

end Pendings

/-! ## Reading the journal -/

section Loads

variable {journal : Journal} {content lasting : Content}

/-- A header that is read was recorded. -/
theorem decodeHeader_recorded {bytes : Bytes} {header : Header} (decodes : decodeHeader bytes = .ok header) :
    header.creationTime.recorded = header.creationTime := by
  unfold decodeHeader at decodes
  obtain ⟨crc, -, decodes⟩ := okOr_bind_eq_ok.mp decodes
  dsimp only at decodes
  split at decodes
  · cases decodes
  · obtain ⟨magic, -, decodes⟩ := okOr_bind_eq_ok.mp decodes
    split at decodes
    · cases decodes
    · obtain ⟨version, -, decodes⟩ := okOr_bind_eq_ok.mp decodes
      split at decodes
      · cases decodes
      · obtain ⟨zero, -, decodes⟩ := okOr_bind_eq_ok.mp decodes
        obtain ⟨secs, -, decodes⟩ := okOr_bind_eq_ok.mp decodes
        obtain ⟨nanos, -, decodes⟩ := okOr_bind_eq_ok.mp decodes
        split at decodes
        · obtain ⟨creationTime, isTime, decodes⟩ := okOr_bind_eq_ok.mp decodes
          obtain ⟨sender, -, decodes⟩ := okOr_bind_eq_ok.mp decodes
          obtain ⟨target, -, decodes⟩ := okOr_bind_eq_ok.mp decodes
          cases decodes
          unfold SystemTime.afterEpoch at isTime
          split at isTime
          · cases isTime
            exact if_pos (Int.natCast_nonneg _)
          · cases isTime
        · cases decodes

theorem Holds.recorded {maxBody : Nat} {file : Bytes} (holds : Holds maxBody file content) :
    content.creationTime.recorded = content.creationTime := by
  obtain ⟨header, opened, created⟩ := holds.header
  rw [← created]
  exact decodeHeader_recorded opened

/-- A journal is loaded as its content, and nothing is cut. -/
theorem Holds.loads {config : FileStoreConfig} {disk : Disk UInt8} {bound : UInt64}
    (holds : Holds config.maxBody disk.file content) (below : content.Below bound) (rule : DamageRule) :
    ∃ header next, header.creationTime = content.creationTime ∧ content.Below next ∧
      Leaves (load config rule) disk (content.found header next) := by
  obtain ⟨header, next, created, counted, scanned⟩ := holds.scan below rule
  refine ⟨header, next, created, Content.below_succ holds.newest counted, ?_⟩
  refine .bind openJournalFile_leaves fun _ _ => .bind (.of_looks (.look _)) fun _ _ =>
    .bind (.of_looks (.look _)) ?_
  intro reads writes
  show Leaves (orThrow (Store.scan disk.file config.maxBody rule) >>= _) _ _
  have fresh : (content.found header next).slotsStale = false := by
    have vouched := holds.vouches.le.2
    exact decide_eq_false (Nat.not_lt.mpr vouched)
  rw [scanned]
  refine .bind (.pure (content.found header next)) ?_
  intro reads writes
  refine .bind (.pure ()) ?_
  intro reads writes
  rw [fresh]
  exact .pure _

/-- What a journal that was read answers its callers with. -/
def Content.marks (content : Content) (truncation : Option Truncation) : Marks where
  shared := ⟨content.nextSender, content.slot.nextTarget, content.slot.resetOwed, content.slot.appWatermark,
    content.creationTime, truncation⟩
  creationTime := content.creationTime
  nextSender := content.nextSender
  nextTarget := content.slot.nextTarget
  resetOwed := content.slot.resetOwed
  appWatermark := content.slot.appWatermark

theorem installLoaded_marks {header : Header} {next : UInt64} (created : header.creationTime = content.creationTime) :
    (Journal.installLoaded (content.found header next) journal).marks = content.marks journal.shared.truncation := by
  unfold Content.marks
  rw [← created]
  rfl

theorem le_max_left (a b : UInt64) : a ≤ max a b := by
  show a ≤ if a ≤ b then b else a
  split
  · assumption
  · exact UInt64.le_refl _

theorem installLoaded_live {header : Header} {next : UInt64} (created : header.creationTime = content.creationTime)
    (recorded : content.creationTime.recorded = content.creationTime) :
    Live (Journal.installLoaded (content.found header next) journal) content := by
  refine ⟨rfl, rfl, rfl, rfl, rfl, rfl, rfl, rfl, ?_, one_unsynced⟩
  show header.creationTime.recorded = content.creationTime
  rw [created, recorded]

/-- What a slot vouches for is a content of its own. -/
theorem Holds.vouchedOnly {maxBody : Nat} {file : Bytes} (holds : Holds maxBody file content) :
    ∃ before, before <+: content.filings ∧
      content.slot.durableEnd.toNat = ({ content with filings := before } : Content).endOffset ∧
      Holds maxBody (file.take content.slot.durableEnd.toNat) { content with filings := before } := by
  obtain ⟨before, after, parts, ends⟩ := holds.vouches
  obtain ⟨front, inside⟩ := holds.vouches.le
  have whole := holds.shape.whole
  have size : file.length = DATA_START + (recordsOf content.filings).length := holds.shape.length
  have length : (file.take content.slot.durableEnd.toNat).length = content.slot.durableEnd.toNat :=
    List.length_take_of_le (by omega)
  have short : DATA_START ≤ (file.take content.slot.durableEnd.toNat).length := length.symm ▸ front
  obtain ⟨header, opened, created⟩ := holds.header
  refine ⟨before, ⟨after, parts.symm⟩, ends, ⟨short, ?_, ?_, ?_, ?_⟩, ⟨header, ?_, created⟩, holds.newest,
    before, [], (List.append_nil _).symm, ends⟩
  · rw [slotImages_take whole short]
    exact holds.shape.slots
  · rw [List.drop_take, holds.shape.records, parts, recordsOf_append, ends, Nat.add_sub_cancel_left,
      List.take_left]
  · intro filing member
    exact holds.shape.fits filing (parts ▸ List.mem_append_left _ member)
  · have isU64 := holds.shape.isU64
    omega
  · have early : HEADER_LEN ≤ content.slot.durableEnd.toNat := le_trans (by decide) front
    rw [List.take_take, Nat.min_eq_left early]
    exact opened

/-- A loaded journal, of which the policy never flushes anything. -/
theorem Recovers.vouchedOnly (recovers : Recovers journal content lasting) (live : Live journal content)
    (active : journal.durableSlot = content.active) {header : Header} {next : UInt64} :
    ∃ before, Stands (Journal.vouchedOnly (content.found header next) journal) content
      { content with filings := before } := by
  have holds := recovers.clear_holds live.clear
  have clear : journal.pending = .default := Pending.clear_eq live.clear
  obtain ⟨before, front, ends, vouched⟩ := holds.vouchedOnly
  have length : journal.disk.file.length = content.endOffset := holds.shape.length
  have whole := vouched.shape.whole
  refine ⟨before, ⟨⟨vouched, ⟨?_, recovers.generations.slots⟩, ends, rfl, ?_, ?_⟩, recovers.holds,
    recovers.generations, front, vouched.vouches, ?_⟩, ⟨live.clear, live.slots, live.active, live.index,
    live.deadBytes, live.endOffset, live.nextSender, live.nextTarget, live.creationTime, live.unsynced⟩,
    active, rfl⟩
  · intro filing member counter carried
    exact recovers.generations.records filing (front.subset member) counter carried
  · show content.slot.durableEnd.toNat ≤ journal.disk.file.length
    rw [length]
    exact holds.vouches.le.2
  · show journal.disk.file.take content.slot.durableEnd.toNat =
      withSlots (journal.disk.file.take content.slot.durableEnd.toNat) content.slots
    exact (withSlots_self whole).symm.trans (congrArg (withSlots _) vouched.shape.slots)
  · intro offset cut
    rw [show (Journal.vouchedOnly (content.found header next) journal).pending = .default from clear] at cut
    cases cut

/-- A loaded journal, of which what was flushed is durable. -/
theorem Recovers.durableBefore (recovers : Recovers journal content lasting) {header : Header} {next : UInt64} :
    Recovers (Journal.durableBefore (content.found header next) journal) content lasting := by
  have lasts := recovers.lasts
  have behind : journal.durableEnd ≤ content.endOffset := by
    rw [lasts.durableEnd]
    unfold Content.endOffset
    obtain ⟨more, same⟩ := recovers.follows
    rw [← same, recordsOf_append, List.length_append]
    omega
  have same : Journal.durableBefore (content.found header next) journal = journal := by
    unfold Journal.durableBefore
    rw [show (content.found header next).endOffset = content.endOffset from rfl, Nat.min_eq_left behind,
      List.take_of_length_le (lasts.flushed_length.trans_le behind)]
  rw [same]
  exact recovers

/-- A journal that was loaded is one of its content, and what was flushed is. -/
theorem Recovers.installLoaded (recovers : Recovers journal content lasting) (reads writes : List Outcome)
    (holds : Holds journal.config.maxBody journal.disk.file content) {header : Header} {next : UInt64} :
    Recovers (Journal.installLoaded (content.found header next)
      { journal with disk := later journal.disk reads writes }) content lasting := by
  have lasts := recovers.lasts
  have above := le_max_left journal.nextGeneration next
  refine ⟨⟨lasts.holds, lasts.generations.mono above, lasts.durableEnd, lasts.durableSlots, lasts.inside,
    lasts.image⟩, holds, recovers.generations.mono above, recovers.follows, recovers.vouched, ?_⟩
  rintro offset ⟨⟩

/-- A reload reads the content back that undoing leads to. If it fails, undoing
leads to the same content still, or, if it was the flush, to what was flushed. -/
theorem Recovers.reloads (recovers : Recovers journal content lasting) :
    (∃ after lasting', reload journal = .ok () after ∧ after.config = journal.config ∧
      after.marks = content.marks journal.shared.truncation ∧ Stands after content lasting' ∧
      lasting'.slot = content.slot ∧ lasting'.creationTime = content.creationTime ∧
      (journal.config.syncPolicy.flushes = true → lasting' = content)) ∨
    ∃ error after lasting', reload journal = .error error after ∧ Remade lasting content lasting' ∧
      (Prepared journal after ∧ Recovers after content lasting' ∨
        after.config = journal.config ∧ after.marks = content.marks journal.shared.truncation ∧
          after.pending.Undoes ∧ Recovers after lasting' lasting') := by
  unfold reload
  rw [bind_apply]
  obtain ⟨renamed, prepared, kept, done | ⟨error, failed⟩⟩ := recovers.flushesRenamed
  · rw [done]
    dsimp only
    rw [bind_apply]
    obtain ⟨undone, lasting', prepared', kept', remade, ⟨done, holds⟩ | ⟨error, failed⟩⟩ := kept.undoesPending
    · rw [done]
      dsimp only
      rw [bind_apply, get_apply]
      dsimp only
      rw [bind_apply]
      have whole := prepared.trans prepared'
      obtain ⟨header, next, created, below, reads, writes, loaded | ⟨error, failed⟩⟩ :=
        holds.loads kept'.generations undone.config.syncPolicy.damageRule
      · rw [onDisk_ok loaded]
        dsimp only
        rw [bind_apply, modify_apply]
        dsimp only
        let read : Journal := { undone with disk := later undone.disk reads writes }
        have same : undone.shared = journal.shared := congrArg Marks.shared whole.marks
        have live : Live (Journal.installLoaded (content.found header next) read) content :=
          installLoaded_live created holds.recorded
        have marks : (Journal.installLoaded (content.found header next) read).marks =
            content.marks journal.shared.truncation := by
          rw [installLoaded_marks created, show read.shared = journal.shared from same]
        have config : (Journal.installLoaded (content.found header next) read).config = journal.config := whole.config
        have loaded := @Recovers.installLoaded _ _ _ kept' reads writes holds header next
        rw [show undone.config.syncPolicy = journal.config.syncPolicy from congrArg _ whole.config]
        split
        · rename_i flushes
          rw [bind_apply, modify_apply]
          dsimp only
          have durable := @Recovers.durableBefore _ _ _ loaded header next
          rcases durable.flushes ⟨live.clear, live.slots, live.active, live.index, live.deadBytes, live.endOffset,
              live.nextSender, live.nextTarget, live.creationTime, live.unsynced⟩ with
            ⟨after, done, config', marks', stood⟩ | ⟨error, after, failed, closed⟩
          · exact .inl ⟨after, content, done, config'.trans config, marks'.trans marks, stood, rfl, rfl, fun _ => rfl⟩
          · exact .inr ⟨error, after, lasting', failed, remade, .inr ⟨closed.config.trans config,
              closed.marks.trans marks, closed.undoes, closed.recovers⟩⟩
        · rename_i never
          obtain ⟨before, stood⟩ := loaded.vouchedOnly live rfl
          exact .inl ⟨_, _, rfl, config, marks, stood, rfl, rfl, fun flushes => absurd flushes never⟩
      · rw [onDisk_error failed]
        refine .inr ⟨error, { undone with disk := later undone.disk reads writes }, lasting', rfl, remade,
          .inl ⟨?_, ?_⟩⟩
        · exact whole.trans (.renamed reads writes id)
        · exact kept'.along ⟨rfl, rfl, rfl, rfl, rfl, rfl, UInt64.le_refl _⟩
    · rw [failed]
      exact .inr ⟨error, undone, lasting', rfl, remade, .inl ⟨prepared.trans prepared', kept'⟩⟩
  · rw [failed]
    exact .inr ⟨error, renamed, lasting, rfl, .inl rfl, .inl ⟨prepared, kept⟩⟩

end Loads

end IronFix.Store
