import IronFix.Store.JournalFile

/-!
# What the journal's steps can do

Each write and flush of the journal, inverted once: the states it can end in,
for every answer of the calls it makes. What holds of the journal along a run
is read off these.
-/

namespace IronFix.Store

open Lib.Decimal Lib.FaultyDisk Lib.Patch Lib.Steps

/-! ## The part that was flushed -/

/-- The files are the same below `n`, but for the counter slots. -/
structure SameBelow (n : Nat) (file file' : Bytes) : Prop where
  holds : n ≤ file'.length
  same : ∀ images, withSlots (file'.take n) images = withSlots (file.take n) images

namespace SameBelow

variable {n : Nat} {file file' file'' : Bytes}

theorem refl (inside : n ≤ file.length) : SameBelow n file file := ⟨inside, fun _ => rfl⟩

theorem trans (one : SameBelow n file file') (two : SameBelow n file' file'') :
    SameBelow n file file'' := ⟨two.holds, fun images => (two.same images).trans (one.same images)⟩

theorem of_take (inside : n ≤ file'.length) (alike : file'.take n = file.take n) :
    SameBelow n file file' := ⟨inside, fun images => congrArg (withSlots · images) alike⟩

/-- A write behind `n`. -/
theorem overwrite {start : Nat} (behind : n ≤ start) (inside : n ≤ file.length) (data : Bytes) :
    SameBelow n file (overwrite 0 file start data) :=
  of_take (inside.trans (overwrite_grows file data start)) (overwrite_take behind inside)

/-- A cut behind `n`. -/
theorem resize {len : Nat} (behind : n ≤ len) (inside : n ≤ file.length) :
    SameBelow n file (resize 0 file len) :=
  of_take (resize_length.symm ▸ behind) (resize_take behind inside)

/-- A write of a slot, or of a part of one. -/
theorem slot {data : Bytes} (front : DATA_START ≤ n) (inside : n ≤ file.length) (position : Fin 2)
    (small : data.length ≤ SLOT_LEN) :
    SameBelow n file (Lib.FaultyDisk.overwrite 0 file (slotOffset position) data) where
  holds := inside.trans (overwrite_grows file data _)
  same := by
    intro images
    have whole := front.trans inside
    have ends := slotOffset_inside position
    have short : DATA_START ≤ (file.take n).length := by
      rw [List.length_take]
      omega
    rw [overwrite_slot whole, take_patch (by omega) (by omega), withSlots_patch short small]

end SameBelow

/-! ## Calls -/

/-- The journal over another file, with the outcomes that are left. -/
def Journal.onto (journal : Journal) (file : Bytes) (later : List Outcome) : Journal :=
  { journal with disk := { journal.disk with file := file, writes := later } }

section Calls

variable (journal : Journal)

/-- A call is done, or it fails and leaves a part of itself. -/
theorem trying_change (made : Disk UInt8 → Disk UInt8) (torn : Nat → Disk UInt8 → Disk UInt8) :
    (∃ later, Clean journal.disk.writes later ∧ trying (change made torn) journal =
      .ok (.ok ()) { journal with disk := made { journal.disk with writes := later } }) ∨
    ∃ written later reason, trying (change made torn) journal =
      .ok (.error reason) { journal with disk := torn written { journal.disk with writes := later } } := by
  unfold trying attempt onDisk zoom
  cases answered : change made torn journal.disk with
  | ok done after =>
      obtain ⟨later, clean, rfl⟩ := change_ok answered
      exact .inl ⟨later, clean, rfl⟩
  | error reason after =>
      obtain ⟨written, later, rfl⟩ := change_error answered
      exact .inr ⟨written, later, reason, rfl⟩

theorem trying_touch :
    (∃ later, Clean journal.disk.writes later ∧
      trying touch journal = .ok (.ok ()) (journal.onto journal.disk.file later)) ∨
    ∃ later reason, trying touch journal = .ok (.error reason) (journal.onto journal.disk.file later) := by
  rcases trying_change journal id (fun _ => id) with ⟨later, clean, done⟩ | ⟨_, later, reason, failed⟩
  · exact .inl ⟨later, clean, done⟩
  · exact .inr ⟨later, reason, failed⟩

theorem trying_writeAt (data : Bytes) (start : Nat) :
    (∃ later, Clean journal.disk.writes later ∧ trying (writeAt 0 data start) journal =
      .ok (.ok ()) (journal.onto (overwrite 0 journal.disk.file start data) later)) ∨
    ∃ written later reason, trying (writeAt 0 data start) journal = .ok (.error reason)
      (journal.onto (overwrite 0 journal.disk.file start (data.take written)) later) := by
  rcases trying_change journal _ _ with ⟨later, clean, done⟩ | ⟨written, later, reason, failed⟩
  · exact .inl ⟨later, clean, done⟩
  · exact .inr ⟨written, later, reason, failed⟩

theorem trying_setLen (len : Nat) :
    (∃ later, Clean journal.disk.writes later ∧ trying (setLen 0 len) journal =
      .ok (.ok ()) (journal.onto (resize 0 journal.disk.file len) later)) ∨
    ∃ later reason, trying (setLen 0 len) journal =
      .ok (.error reason) (journal.onto journal.disk.file later) := by
  rcases trying_change journal _ _ with ⟨later, clean, done⟩ | ⟨_, later, reason, failed⟩
  · exact .inl ⟨later, clean, done⟩
  · exact .inr ⟨later, reason, failed⟩

end Calls

/-! ## Flushes -/

/-- The journal after a flush that failed: its slots are those of the last
flush, and what is not undone in the file waits to be. -/
def Journal.lostTo (journal : Journal) (file : Bytes) (later : List Outcome) (active durable : Fin 2) :
    Journal :=
  { journal.onto file later with
    slots := journal.durableSlots
    activeSlot := active
    durableSlot := durable
    pending :=
      { journal.pending.cutBack journal.durableEnd with
        restoreSlots :=
          if journal.slots = journal.durableSlots then journal.pending.restoreSlots
          else some journal.durableSlots } }

/-- What a failed flush leaves: nothing below the last flush is touched, and
what lies behind it is cut or waits to be. -/
structure FlushLost (journal after : Journal) : Prop where
  rest : ∃ file later active durable, after = journal.lostTo file later active durable
  long : journal.durableEnd ≤ journal.disk.file.length → journal.durableEnd ≤ after.disk.file.length
  below : DATA_START ≤ journal.durableEnd → journal.durableEnd ≤ journal.disk.file.length →
    SameBelow journal.durableEnd journal.disk.file after.disk.file
  slotsRead : journal.slots = journal.durableSlots →
    ∀ whole whole', slotImages after.disk.file whole' = slotImages journal.disk.file whole

namespace Journal

section Flushes

theorem putBackSlot_spec (journal : Journal) (position : Fin 2) :
    ∃ file later, putBackSlot position journal = .ok () (journal.onto file later) ∧
      journal.disk.file.length ≤ file.length ∧
        ∀ n, DATA_START ≤ n → n ≤ journal.disk.file.length → SameBelow n journal.disk.file file := by
  unfold putBackSlot
  rw [bind_apply, get_apply]
  dsimp only
  split
  · exact ⟨journal.disk.file, journal.disk.writes, rfl, Nat.le_refl _, fun _ _ inside => .refl inside⟩
  · have size := (journal.durableSlots.get position).full
    have small : (journal.durableSlots.get position).bytes.length ≤ SLOT_LEN := size.le
    rcases trying_writeAt journal (journal.durableSlots.get position).bytes (slotOffset position) with
      ⟨later, -, done⟩ | ⟨written, later, reason, failed⟩
    · refine ⟨_, later, ?_, overwrite_grows _ _ _, fun n front inside => .slot front inside position small⟩
      rw [bind_apply, writeSlot, done]
      rfl
    · have part : ((journal.durableSlots.get position).bytes.take written).length ≤ SLOT_LEN :=
        (List.length_take_le' _ _).trans small
      refine ⟨_, later, ?_, overwrite_grows _ _ _, fun n front inside => .slot front inside position part⟩
      rw [bind_apply, writeSlot, failed]
      rfl

theorem takeDurableSlots_eq (journal : Journal) : ∃ active durable, takeDurableSlots journal =
    { journal with
      pending := { journal.pending with restoreSlots := some journal.durableSlots }
      slots := journal.durableSlots
      activeSlot := active
      durableSlot := durable } := by
  unfold takeDurableSlots
  dsimp only
  split
  · exact ⟨_, _, rfl⟩
  · exact ⟨_, _, rfl⟩

theorem undoFlush_spec (journal : Journal) :
    ∃ after, undoFlush journal = .ok () after ∧ FlushLost journal after := by
  -- the cut may fail or not: either way the file is as before below the last flush
  have cut : ∃ result file later, trying (setLen 0 journal.durableEnd) journal =
      .ok result (journal.onto file later) ∧
        (journal.durableEnd ≤ journal.disk.file.length → journal.durableEnd ≤ file.length ∧
          file.take journal.durableEnd = journal.disk.file.take journal.durableEnd) ∧
        (DATA_START ≤ journal.disk.file.length → DATA_START ≤ file.length →
          file.take DATA_START = journal.disk.file.take DATA_START) := by
    rcases trying_setLen journal journal.durableEnd with ⟨later, -, done⟩ | ⟨later, reason, failed⟩
    · have length : (resize 0 journal.disk.file journal.durableEnd).length = journal.durableEnd :=
        resize_length
      refine ⟨_, _, later, done, ?_, ?_⟩
      · intro inside
        exact ⟨length.symm.le, resize_take (Nat.le_refl _) inside⟩
      · intro whole whole'
        exact resize_take (length ▸ whole') whole
    · exact ⟨_, _, later, failed, fun inside => ⟨inside, rfl⟩, fun _ _ => rfl⟩
  obtain ⟨result, file, later, tried, alike, prefixed⟩ := cut
  let poisoned : Journal :=
    { journal.onto file later with pending := journal.pending.cutBack journal.durableEnd }
  unfold undoFlush
  rw [bind_apply, get_apply]
  dsimp only
  rw [bind_apply, tried]
  dsimp only
  rw [bind_apply, modify_apply]
  dsimp only
  split
  · rename_i same
    have kept : poisoned = journal.lostTo file later journal.activeSlot journal.durableSlot := by
      unfold Journal.lostTo
      rw [if_pos same, ← same]
      rfl
    refine ⟨poisoned, rfl, ⟨_, _, _, _, kept⟩, fun inside => (alike inside).1, ?_, ?_⟩
    · intro _ inside
      exact .of_take (alike inside).1 (alike inside).2
    · intro _ whole whole'
      exact slotImages_congr whole whole' (prefixed whole whole')
  · rename_i differ
    obtain ⟨file₀, later₀, first, grows₀, below₀⟩ := putBackSlot_spec poisoned 0
    obtain ⟨file₁, later₁, second, grows₁, below₁⟩ := putBackSlot_spec (poisoned.onto file₀ later₀) 1
    obtain ⟨active, durable, taken⟩ := takeDurableSlots_eq ((poisoned.onto file₀ later₀).onto file₁ later₁)
    have restores : (do putBackSlot 0; putBackSlot 1; modify takeDurableSlots : Step Unit) poisoned =
        .ok () ((poisoned.onto file₀ later₀).onto file₁ later₁).takeDurableSlots := by
      rw [bind_apply, first]
      dsimp only
      rw [bind_apply, second]
      rfl
    rw [taken] at restores
    refine ⟨_, restores, ⟨file₁, later₁, active, durable, ?_⟩, ?_, ?_, ?_⟩
    · unfold Journal.lostTo
      rw [if_neg differ]
      rfl
    · intro inside
      exact ((alike inside).1.trans grows₀).trans grows₁
    · intro front inside
      have long := (alike inside).1
      have below : SameBelow journal.durableEnd journal.disk.file file := .of_take long (alike inside).2
      exact (below.trans (below₀ _ front long)).trans (below₁ _ front (long.trans grows₀))
    · intro same
      exact absurd same differ

/-- A flush settles the journal, or what was not flushed is lost. -/
theorem flush_spec (journal : Journal) :
    (∃ later, Clean journal.disk.writes later ∧
      flush journal = .ok () (journal.onto journal.disk.file later).settle) ∨
    ∃ reason after, flush journal = .error (flushFailed reason) after ∧ FlushLost journal after := by
  unfold flush
  rw [bind_apply]
  rcases trying_touch journal with ⟨later, clean, done⟩ | ⟨later, reason, failed⟩
  · rw [done]
    exact .inl ⟨later, clean, rfl⟩
  · obtain ⟨after, undoes, lost⟩ := undoFlush_spec (journal.onto journal.disk.file later)
    rw [failed]
    dsimp only
    rw [bind_apply, undoes]
    exact .inr ⟨reason, after, rfl, lost.rest, lost.long, lost.below, lost.slotsRead⟩

end Flushes

end Journal

/-! ## Writes -/

/-- How the flush after a write can end. -/
inductive AfterWrite (journal : Journal) : EStateM.Result StoreError Journal Unit → Prop
  | never (policy : journal.config.syncPolicy = .never) : AfterWrite journal (.ok () journal)
  | counted {every : { n : UInt32 // n ≠ 0 }} (policy : journal.config.syncPolicy = .everyN every)
      (few : journal.unsynced + 1 < every.val.toNat) :
      AfterWrite journal (.ok () { journal with unsynced := journal.unsynced + 1 })
  | flushed {later : List Outcome} (clean : Clean journal.disk.writes later) :
      AfterWrite journal (.ok () (journal.onto journal.disk.file later).settle)
  | lost {unsynced : Nat} {reason : String} {after : Journal}
      (lost : FlushLost { journal with unsynced := unsynced } after) :
      AfterWrite journal (.error (flushFailed reason) after)
  | overflow {every : { n : UInt32 // n ≠ 0 }} (policy : journal.config.syncPolicy = .everyN every)
      (many : u32Max < journal.unsynced + 1) :
      AfterWrite journal (.error (.io "unflushed write count overflows") journal)

/-- How an append of `record` can end. -/
inductive Append (journal : Journal) (record : Bytes) : EStateM.Result StoreError Journal Nat → Prop
  | overflow (long : u64Max < journal.endOffset + record.length) :
      Append journal record (.error (.io "journal offset overflows") journal)
  /-- The write failed, and its part is cut off again. -/
  | cutOff {written : Nat} {later : List Outcome} {reason : String} :
      Append journal record (.error (ioError "cannot append to the journal" reason)
        (journal.onto (resize 0 (overwrite 0 journal.disk.file journal.endOffset (record.take written))
          journal.endOffset) later))
  /-- The write failed, and so did the cut. -/
  | torn {written : Nat} {later : List Outcome} {reason : String} :
      Append journal record (.error (ioError "cannot append to the journal" reason)
        { journal.onto (overwrite 0 journal.disk.file journal.endOffset (record.take written)) later with
          pending := journal.pending.cutBack journal.endOffset })
  | wrote {later : List Outcome} {after : Journal} (clean : Clean journal.disk.writes later)
      (fits : journal.endOffset + record.length ≤ u64Max)
      (flushes : AfterWrite
        { journal.onto (overwrite 0 journal.disk.file journal.endOffset record) later with
          endOffset := journal.endOffset + record.length } (.ok () after)) :
      Append journal record (.ok journal.endOffset after)
  | lost {later : List Outcome} {after : Journal} {error : StoreError}
      (fits : journal.endOffset + record.length ≤ u64Max)
      (flushes : AfterWrite
        { journal.onto (overwrite 0 journal.disk.file journal.endOffset record) later with
          endOffset := journal.endOffset + record.length } (.error error after)) :
      Append journal record (.error error after)

/-- Where the next counter write goes. -/
def Journal.target (journal : Journal) : Fin 2 := otherSlot journal.durableSlot

/-- A file with `data` written to that slot. -/
def Journal.overSlot (journal : Journal) (file data : Bytes) : Bytes :=
  overwrite 0 file (slotOffset journal.target) data

/-- The journal whose next counter slot is `image`, with a generation taken. -/
def Journal.slotWritten (journal : Journal) (image : SlotImage) (later : List Outcome) : Journal :=
  { journal.onto (journal.overSlot journal.disk.file image.bytes) later with
    nextGeneration := journal.nextGeneration + 1
    slots := journal.slots.set journal.target image
    activeSlot := journal.target }

/-- The slot a counter write writes. -/
def Journal.nextSlot (journal : Journal) (nextSender nextTarget : UInt64) : Slot :=
  ⟨journal.nextGeneration, nextSender, nextTarget, .ofNat journal.durableEnd, journal.appWatermark,
    journal.resetOwed⟩

/-- How a write of both counters can end. -/
inductive WriteCounters (journal : Journal) (nextSender nextTarget : UInt64) :
    EStateM.Result StoreError Journal Unit → Prop
  | exhausted (last : checkedSucc journal.nextGeneration = none) :
      WriteCounters journal nextSender nextTarget (.error generationsExhausted journal)
  /-- The write failed, and the slot is as it was. -/
  | putBack {written : Nat} {later : List Outcome} {reason : String} {image : SlotImage}
      (left : checkedSucc journal.nextGeneration = some (journal.nextGeneration + 1)) :
      WriteCounters journal nextSender nextTarget (.error (ioError "cannot write a counter slot" reason)
        { journal.onto (journal.overSlot (journal.overSlot journal.disk.file (image.bytes.take written))
            (journal.slots.get journal.target).bytes) later with
          nextGeneration := journal.nextGeneration + 1 })
  /-- The write failed, and the slot may be torn. -/
  | torn {written again : Nat} {later : List Outcome} {reason : String} {image : SlotImage}
      (left : checkedSucc journal.nextGeneration = some (journal.nextGeneration + 1)) :
      WriteCounters journal nextSender nextTarget (.error (ioError "cannot write a counter slot" reason)
        { journal.onto (journal.overSlot (journal.overSlot journal.disk.file (image.bytes.take written))
            ((journal.slots.get journal.target).bytes.take again)) later with
          nextGeneration := journal.nextGeneration + 1
          pending := { journal.pending with restoreSlots := some journal.slots } })
  | wrote {later : List Outcome} {after : Journal} (clean : Clean journal.disk.writes later)
      (left : checkedSucc journal.nextGeneration = some (journal.nextGeneration + 1))
      (flushes : AfterWrite (journal.slotWritten (encodeSlot (journal.nextSlot nextSender nextTarget)) later)
        (.ok () after)) :
      WriteCounters journal nextSender nextTarget (.ok () (after.publishCounters nextSender nextTarget))
  | lost {later : List Outcome} {after : Journal} {error : StoreError}
      (left : checkedSucc journal.nextGeneration = some (journal.nextGeneration + 1))
      (flushes : AfterWrite (journal.slotWritten (encodeSlot (journal.nextSlot nextSender nextTarget)) later)
        (.error error after)) :
      WriteCounters journal nextSender nextTarget (.error error after)

theorem checkedSucc_eq {n next : UInt64} (counted : checkedSucc n = some next) : next = n + 1 := by
  unfold checkedSucc at counted
  split at counted
  · cases counted
    rfl
  · cases counted

namespace Journal

section Writes

theorem afterWrite_spec (journal : Journal) : AfterWrite journal (afterWrite journal) := by
  unfold afterWrite
  rw [bind_apply, get_apply]
  dsimp only
  cases policy : journal.config.syncPolicy with
  | everyWrite =>
      dsimp only
      rcases flush_spec journal with ⟨later, clean, done⟩ | ⟨reason, after, failed, lost⟩
      · rw [done]
        exact .flushed clean
      · rw [failed]
        exact .lost (show FlushLost { journal with unsynced := journal.unsynced } after from lost)
  | never => exact .never policy
  | everyN every =>
      dsimp only
      rw [bind_apply]
      by_cases room : journal.unsynced + 1 ≤ u32Max
      · rw [show checkedAdd u32Max journal.unsynced 1 = some (journal.unsynced + 1) from if_pos room,
          orFail_some]
        dsimp only
        rw [bind_apply, modify_apply]
        dsimp only
        by_cases full : journal.unsynced + 1 ≥ every.val.toNat
        · rw [if_pos full]
          rcases flush_spec { journal with unsynced := journal.unsynced + 1 } with
            ⟨later, clean, done⟩ | ⟨reason, after, failed, lost⟩
          · rw [done]
            exact .flushed clean
          · rw [failed]
            exact .lost lost
        · rw [if_neg full]
          exact .counted policy (Nat.not_le.mp full)
      · rw [show checkedAdd u32Max journal.unsynced 1 = none from if_neg room, orFail_none]
        exact .overflow policy (Nat.not_le.mp room)

theorem append_spec (journal : Journal) (record : Bytes) :
    Append journal record (append record journal) := by
  unfold append
  rw [bind_apply, get_apply]
  dsimp only
  rw [bind_apply]
  by_cases fits : journal.endOffset + record.length ≤ u64Max
  · rw [show checkedAdd u64Max journal.endOffset record.length = some _ from if_pos fits, orFail_some]
    dsimp only
    rw [bind_apply]
    rcases trying_writeAt journal record journal.endOffset with
      ⟨later, clean, done⟩ | ⟨written, later, reason, failed⟩
    · let written : Journal :=
        { journal.onto (overwrite 0 journal.disk.file journal.endOffset record) later with
          endOffset := journal.endOffset + record.length }
      have flushes : AfterWrite written (afterWrite written) := afterWrite_spec written
      rw [done]
      dsimp only
      rw [bind_apply, modify_apply]
      dsimp only
      rw [bind_apply]
      split
      · rename_i done after ends
        exact .wrote clean fits (show AfterWrite written _ from ends ▸ flushes)
      · rename_i error after ends
        exact .lost fits (show AfterWrite written _ from ends ▸ flushes)
    · rw [failed]
      dsimp only
      rw [bind_apply, undoAppend, bind_apply]
      let left := journal.onto (overwrite 0 journal.disk.file journal.endOffset (record.take written)) later
      rcases trying_setLen left journal.endOffset with ⟨later', -, cut⟩ | ⟨later', reason', cut⟩
      · rw [cut]
        exact .cutOff
      · rw [cut]
        exact .torn
  · rw [show checkedAdd u64Max journal.endOffset record.length = none from if_neg fits, orFail_none]
    exact .overflow (Nat.not_le.mp fits)

theorem writeCounters_spec (journal : Journal) (nextSender nextTarget : UInt64) :
    WriteCounters journal nextSender nextTarget (writeCounters nextSender nextTarget journal) := by
  unfold writeCounters takeGeneration
  rw [bind_apply, bind_apply, get_apply]
  dsimp only
  rw [bind_apply]
  cases counted : checkedSucc journal.nextGeneration with
  | none =>
      rw [orFail_none]
      exact .exhausted counted
  | some next =>
      have isNext := checkedSucc_eq counted
      subst isNext
      let begun : Journal := { journal with nextGeneration := journal.nextGeneration + 1 }
      let image := encodeSlot (journal.nextSlot nextSender nextTarget)
      rw [orFail_some]
      show WriteCounters journal nextSender nextTarget
        ((trying (writeSlot journal.target image) >>= (_ : Except String Unit → Step Unit)) begun)
      rw [bind_apply, writeSlot]
      rcases trying_writeAt begun image.bytes (slotOffset journal.target) with
        ⟨later, clean, done⟩ | ⟨written, later, reason, failed⟩
      · have flushes : AfterWrite (journal.slotWritten image later)
            (afterWrite (journal.slotWritten image later)) := afterWrite_spec _
        rw [done]
        dsimp only
        rw [bind_apply, modify_apply]
        dsimp only
        rw [bind_apply]
        split
        · rename_i done after ends
          exact .wrote clean counted (show AfterWrite (journal.slotWritten image later) _ from ends ▸ flushes)
        · rename_i error after ends
          exact .lost counted (show AfterWrite (journal.slotWritten image later) _ from ends ▸ flushes)
      · let left := begun.onto (journal.overSlot journal.disk.file (image.bytes.take written)) later
        rw [failed]
        show WriteCounters journal nextSender nextTarget
          ((do undoCounters journal.target; throw (ioError "cannot write a counter slot" reason) : Step Unit)
            left)
        rw [bind_apply, undoCounters, bind_apply, get_apply]
        dsimp only
        rw [bind_apply, writeSlot]
        rcases trying_writeAt left (left.slots.get journal.target).bytes (slotOffset journal.target) with
          ⟨later', -, restored⟩ | ⟨again, later', reason', restored⟩
        · rw [restored]
          exact .putBack counted
        · rw [restored]
          exact .torn counted

end Writes

end Journal

end IronFix.Store
