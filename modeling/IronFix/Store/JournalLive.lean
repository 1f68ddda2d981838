import IronFix.Store.JournalState

/-!
# A journal between its calls

The file of a journal is one of some content once what is pending is undone in
it, and so is what the last flush left. A flush that fails closes the journal
over what was flushed before.
-/

namespace IronFix.Store

open Journal Lib.Decimal Lib.FaultyDisk Lib.Ordered Lib.Patch Lib.Steps

/-- The file, once what is pending is undone in it. -/
def Pending.undo (pending : Pending) (file : Bytes) : Bytes :=
  let cut := (pending.cutBackTo.map fun offset => file.take offset).getD file
  (pending.restoreSlots.map (withSlots cut)).getD cut

theorem Pending.clear_eq {pending : Pending} (clear : pending.isClear = true) : pending = .default := by
  obtain ⟨cutBackTo, restoreSlots, directoryFlush, reopen⟩ := pending
  unfold isClear at clear
  cases cutBackTo <;> cases restoreSlots <;> cases directoryFlush <;> cases reopen <;> first
    | rfl
    | cases clear

/-- Something is left to undo in the file. -/
def Pending.Undoes (pending : Pending) : Prop :=
  pending.cutBackTo.isSome = true ∨ pending.restoreSlots.isSome = true

theorem Pending.Undoes.closed {pending : Pending} (undoes : pending.Undoes) : pending.isClear = false := by
  cases clear : pending.isClear with
  | false => rfl
  | true =>
      rw [Pending.clear_eq clear] at undoes
      rcases undoes with cut | restores
      · cases cut
      · cases restores

/-- The last flush left `lasting`, and what is below it in the file is as the
flush left it. -/
structure Lasts (journal : Journal) (lasting : Content) : Prop where
  holds : Holds journal.config.maxBody journal.flushed lasting
  generations : lasting.Below journal.nextGeneration
  durableEnd : journal.durableEnd = lasting.endOffset
  durableSlots : journal.durableSlots = lasting.slots
  inside : journal.durableEnd ≤ journal.disk.file.length
  image : journal.flushed = withSlots (journal.disk.file.take journal.durableEnd) journal.durableSlots

/-- Undoing what is pending leaves `content`, of which the last flush left
`lasting`. -/
structure Recovers (journal : Journal) (content lasting : Content) : Prop where
  lasts : Lasts journal lasting
  holds : Holds journal.config.maxBody (journal.pending.undo journal.disk.file) content
  generations : content.Below journal.nextGeneration
  follows : lasting.filings <+: content.filings
  vouched : content.slot.Vouches lasting.filings
  cuts : ∀ offset, journal.pending.cutBackTo = some offset → journal.durableEnd ≤ offset

/-- What the journal answers its callers with, and what it writes into its next
slot. -/
structure Marks where
  shared : Shared
  creationTime : SystemTime
  nextSender : UInt64
  nextTarget : UInt64
  resetOwed : Bool
  appWatermark : UInt64

def Journal.marks (journal : Journal) : Marks :=
  ⟨journal.shared, journal.creationTime, journal.nextSender, journal.nextTarget, journal.resetOwed,
    journal.appWatermark⟩

/-- Nothing is pending, and the journal has its content in memory. -/
structure Live (journal : Journal) (content : Content) : Prop where
  clear : journal.pending.isClear = true
  slots : journal.slots = content.slots
  active : journal.activeSlot = content.active
  index : journal.index = (replayOf content.filings).index
  deadBytes : journal.deadBytes = (replayOf content.filings).deadBytes
  endOffset : journal.endOffset = content.endOffset
  nextSender : journal.nextSender = content.nextSender
  nextTarget : journal.nextTarget = content.slot.nextTarget
  creationTime : journal.creationTime.recorded = content.creationTime
  unsynced : ∀ every, journal.config.syncPolicy = .everyN every → journal.unsynced < every.val.toNat

/-- Nothing is pending, and the journal is one of that content. The newest slot
of the last flush is not written over. -/
structure Stands (journal : Journal) (content lasting : Content) : Prop where
  recovers : Recovers journal content lasting
  live : Live journal content
  durable : journal.durableSlot = lasting.active
  spared : content.slots.get lasting.active = lasting.slots.get lasting.active

/-- The journal is closed until it is reset or read again; then what is pending is
undone to `content`. Its callers see what they saw before. -/
structure Closed (journal : Journal) (content lasting : Content) (after : Journal) : Prop where
  config : after.config = journal.config
  marks : after.marks = journal.marks
  undoes : after.pending.Undoes
  recovers : Recovers after content lasting

/-- How a write that failed leaves the journal. -/
inductive Fails (journal : Journal) (content lasting : Content) (after : Journal) : Prop
  /-- As it was, but for a generation that is skipped. -/
  | unchanged (only : ∃ disk generation, after = { journal with disk := disk, nextGeneration := generation })
      (stands : Stands after content lasting)
  /-- The write is torn. -/
  | torn (closed : Closed journal content lasting after)
  /-- What was not flushed is lost. -/
  | lost (closed : Closed journal lasting lasting after)

/-- What is flushed once `written` is: as before, or all of it. -/
def Advances (policy : SyncPolicy) (lasting written lasting' : Content) : Prop :=
  lasting' = written ∨ lasting' = lasting ∧ policy ≠ .everyWrite

section Basics

variable {journal : Journal} {content lasting : Content}

theorem Recovers.clear_holds (recovers : Recovers journal content lasting)
    (clear : journal.pending.isClear = true) : Holds journal.config.maxBody journal.disk.file content := by
  have holds := recovers.holds
  rw [Pending.clear_eq clear] at holds
  exact holds

theorem Stands.holds (stands : Stands journal content lasting) :
    Holds journal.config.maxBody journal.disk.file content :=
  stands.recovers.clear_holds stands.live.clear

theorem Lasts.reaches (lasts : Lasts journal lasting) : DATA_START ≤ journal.durableEnd :=
  lasts.durableEnd ▸ Nat.le_add_right _ _

theorem Lasts.whole (lasts : Lasts journal lasting) : DATA_START ≤ journal.disk.file.length :=
  lasts.reaches.trans lasts.inside

/-- A change above the last flush keeps it. -/
theorem Lasts.onto (lasts : Lasts journal lasting) {file : Bytes} (later : List Outcome)
    (same : SameBelow journal.durableEnd journal.disk.file file) : Lasts (journal.onto file later) lasting where
  holds := lasts.holds
  generations := lasts.generations
  durableEnd := lasts.durableEnd
  durableSlots := lasts.durableSlots
  inside := same.holds
  image := lasts.image.trans (same.same _).symm

/-- The end of the last flush is a word. -/
theorem Lasts.isU64 (lasts : Lasts journal lasting) : journal.durableEnd ≤ u64Max := by
  have size := lasts.holds.shape.isU64
  rw [lasts.holds.shape.length] at size
  rw [lasts.durableEnd]
  exact size

theorem Lasts.flushed_length (lasts : Lasts journal lasting) : journal.flushed.length = journal.durableEnd := by
  rw [lasts.holds.shape.length, lasts.durableEnd]
  rfl

/-- Another journal over the same file, flushed as far and with the same left to
undo. -/
structure SameFile (journal after : Journal) : Prop where
  config : after.config = journal.config
  file : after.disk.file = journal.disk.file
  pending : after.pending = journal.pending
  durableEnd : after.durableEnd = journal.durableEnd
  durableSlots : after.durableSlots = journal.durableSlots
  flushed : after.flushed = journal.flushed
  generation : journal.nextGeneration ≤ after.nextGeneration

theorem Lasts.along (lasts : Lasts journal lasting) {after : Journal} (same : SameFile journal after) :
    Lasts after lasting := by
  obtain ⟨config, file, -, durableEnd, durableSlots, flushed, generation⟩ := same
  refine ⟨?_, lasts.generations.mono generation, ?_, ?_, ?_, ?_⟩
  · rw [config, flushed]
    exact lasts.holds
  · rw [durableEnd]
    exact lasts.durableEnd
  · rw [durableSlots]
    exact lasts.durableSlots
  · rw [durableEnd, file]
    exact lasts.inside
  · rw [flushed, file, durableEnd, durableSlots]
    exact lasts.image

theorem Recovers.along (recovers : Recovers journal content lasting) {after : Journal}
    (same : SameFile journal after) : Recovers after content lasting := by
  refine ⟨recovers.lasts.along same, ?_, recovers.generations.mono same.generation, recovers.follows,
    recovers.vouched, ?_⟩
  · rw [same.config, same.file, same.pending]
    exact recovers.holds
  · rw [same.pending, same.durableEnd]
    exact recovers.cuts

end Basics

/-! ## Flushes -/

section Flushes

variable {journal after : Journal} {content lasting : Content}

/-- A flush makes the content the one of the last flush. -/
theorem Recovers.settle (recovers : Recovers journal content lasting)
    (clear : journal.pending.isClear = true) (slots : journal.slots = content.slots)
    (endOffset : journal.endOffset = content.endOffset) (later : List Outcome) :
    Recovers (journal.onto journal.disk.file later).settle content content := by
  have holds := recovers.clear_holds clear
  have length : journal.disk.file.length = content.endOffset := holds.shape.length
  refine ⟨⟨holds, recovers.generations, endOffset, slots, ?_, ?_⟩, recovers.holds, recovers.generations,
    List.prefix_rfl, holds.vouches, ?_⟩
  · show journal.endOffset ≤ journal.disk.file.length
    rw [endOffset, length]
  · show journal.disk.file = withSlots (journal.disk.file.take journal.endOffset) journal.slots
    rw [endOffset, ← length, List.take_length, slots, ← holds.shape.slots, withSlots_self]
  · intro offset cut
    rw [show (journal.onto journal.disk.file later).settle.pending = .default from
      Pending.clear_eq clear] at cut
    cases cut

/-- A flush that fails leaves the last flush to undo to. -/
theorem Recovers.lost (recovers : Recovers journal content lasting)
    (clear : journal.pending.isClear = true) (slots : journal.slots = content.slots)
    (lost : FlushLost journal after) : Closed journal lasting lasting after := by
  have lasts := recovers.lasts
  have holds := recovers.clear_holds clear
  obtain ⟨file, later, active, durable, rfl⟩ := lost.rest
  have same : SameBelow journal.durableEnd journal.disk.file file := lost.below lasts.reaches lasts.inside
  have kept : Lasts (journal.lostTo file later active durable) lasting :=
    ⟨lasts.holds, lasts.generations, lasts.durableEnd, lasts.durableSlots, same.holds,
      lasts.image.trans (same.same _).symm⟩
  have pending : (journal.lostTo file later active durable).pending =
      { cutBackTo := some journal.durableEnd
        restoreSlots := if journal.slots = journal.durableSlots then none else some journal.durableSlots
        directoryFlush := false
        reopen := false } := by
    unfold Journal.lostTo
    rw [Pending.clear_eq clear]
    rfl
  have undone : (journal.lostTo file later active durable).pending.undo file = journal.flushed := by
    rw [pending]
    refine Eq.trans ?_ kept.image.symm
    by_cases alike : journal.slots = journal.durableSlots
    · rw [if_pos alike]
      -- the slots in the file are still those of the last flush
      have short : DATA_START ≤ (file.take journal.durableEnd).length := by
        have inside := same.holds
        have reaches := lasts.reaches
        rw [List.length_take]
        omega
      have whole : DATA_START ≤ file.length := lasts.reaches.trans same.holds
      have held : slotImages (file.take journal.durableEnd) short = journal.durableSlots := by
        rw [slotImages_take whole short]
        refine (lost.slotsRead alike holds.shape.whole whole).trans ?_
        rw [holds.shape.slots, ← slots, alike]
      show file.take journal.durableEnd = withSlots (file.take journal.durableEnd) journal.durableSlots
      rw [← held, withSlots_self]
    · rw [if_neg alike]
      rfl
  refine ⟨rfl, rfl, ?_, kept, ?_, kept.generations, List.prefix_rfl, kept.holds.vouches, ?_⟩
  · rw [pending]
    exact .inl rfl
  · rw [show (journal.lostTo file later active durable).disk.file = file from rfl, undone]
    exact kept.holds
  · intro offset cut
    rw [pending] at cut
    exact (Option.some.inj cut).le

/-- What the flush after a write may change. -/
structure Rest where
  later : List Outcome
  durableEnd : Nat
  durableSlot : Fin 2
  durableSlots : SlotImages
  unsynced : Nat
  flushed : Bytes

def Journal.resting (journal : Journal) (rest : Rest) : Journal :=
  { journal with
    disk := { journal.disk with writes := rest.later }
    durableEnd := rest.durableEnd
    durableSlot := rest.durableSlot
    durableSlots := rest.durableSlots
    unsynced := rest.unsynced
    flushed := rest.flushed }

/-- A write that is kept is flushed as the policy requires. -/
theorem Recovers.rests (recovers : Recovers journal content lasting)
    (clear : journal.pending.isClear = true) (slots : journal.slots = content.slots)
    (endOffset : journal.endOffset = content.endOffset)
    (unsynced : ∀ every, journal.config.syncPolicy = .everyN every → journal.unsynced < every.val.toNat)
    (ends : AfterWrite journal (.ok () after)) :
    ∃ rest lasting', after = journal.resting rest ∧ Recovers after content lasting' ∧
      (lasting' = content ∧ rest.durableSlot = journal.activeSlot ∨
        lasting' = lasting ∧ rest.durableSlot = journal.durableSlot ∧
          journal.config.syncPolicy ≠ .everyWrite) ∧
        ∀ every, journal.config.syncPolicy = .everyN every → rest.unsynced < every.val.toNat := by
  cases ends with
  | never policy =>
      refine ⟨⟨journal.disk.writes, journal.durableEnd, journal.durableSlot, journal.durableSlots,
        journal.unsynced, journal.flushed⟩, lasting, rfl, recovers, .inr ⟨rfl, rfl, ?_⟩, unsynced⟩
      rw [policy]
      rintro ⟨⟩
  | @counted every policy few =>
      refine ⟨⟨journal.disk.writes, journal.durableEnd, journal.durableSlot, journal.durableSlots,
        journal.unsynced + 1, journal.flushed⟩, lasting, rfl, ?_, .inr ⟨rfl, rfl, ?_⟩, ?_⟩
      · exact recovers.along ⟨rfl, rfl, rfl, rfl, rfl, rfl, UInt64.le_refl _⟩
      · rw [policy]
        rintro ⟨⟩
      · intro other same
        rw [policy] at same
        cases same
        exact few
  | @flushed later clean =>
      refine ⟨⟨later, journal.endOffset, journal.activeSlot, journal.slots, 0, journal.disk.file⟩, content,
        rfl, recovers.settle clear slots endOffset later, .inl ⟨rfl, rfl⟩, ?_⟩
      intro every policy
      exact Nat.lt_of_le_of_lt (Nat.zero_le _) (unsynced every policy)

/-- A flush that fails drops the write with everything since the last one. -/
theorem Recovers.drops {error : StoreError} (recovers : Recovers journal content lasting)
    (clear : journal.pending.isClear = true) (slots : journal.slots = content.slots)
    (unsynced : ∀ every, journal.config.syncPolicy = .everyN every → journal.unsynced < every.val.toNat)
    (ends : AfterWrite journal (.error error after)) : Closed journal lasting lasting after := by
  cases ends with
  | @lost counted _ _ lost =>
      have waiting : Recovers { journal with unsynced := counted } content lasting :=
        recovers.along ⟨rfl, rfl, rfl, rfl, rfl, rfl, UInt64.le_refl _⟩
      have closed := waiting.lost clear slots lost
      exact ⟨closed.config, closed.marks, closed.undoes, closed.recovers⟩
  | @overflow every policy many =>
      have few := unsynced every policy
      have word := every.val.toNat_lt
      unfold u32Max at many
      omega

end Flushes

end IronFix.Store
