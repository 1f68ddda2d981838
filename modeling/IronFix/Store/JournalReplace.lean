import IronFix.Store.JournalWrites

/-!
# Journals renamed into place

A reset and a compaction write another journal and rename it over the old one.
Before the rename nothing is changed; behind it the journal is the new one,
whatever else fails. A compaction keeps the frames filed last, and no other
bytes.
-/

namespace IronFix.Store

open Journal Lib.Decimal Lib.FaultyDisk Lib.Ordered Lib.Patch Lib.Steps

/-! ## Steps that leave the file -/

/-- The disk with other calls to come. -/
def later (disk : Disk UInt8) (reads writes : List Outcome) : Disk UInt8 :=
  { disk with reads := reads, writes := writes }

section Named

variable {α : Type} {call : EStateM String (Disk UInt8) α} {disk after : Disk UInt8} {context : String}

theorem named_ok {a : α} (answered : call disk = .ok a after) : named context call disk = .ok a after := by
  unfold named mapError
  rw [answered]

theorem named_error {reason : String} (failed : call disk = .error reason after) :
    named context call disk = .error (ioError context reason) after := by
  unfold named mapError
  rw [failed]

end Named

/-- A step that leaves the file, and answers with `value` if it does. -/
def Leaves {α : Type} (step : DiskStep α) (disk : Disk UInt8) (value : α) : Prop :=
  ∃ reads writes, step disk = .ok value (later disk reads writes) ∨
    ∃ error, step disk = .error error (later disk reads writes)

namespace Leaves

variable {α β : Type} {step : DiskStep α} {disk : Disk UInt8} {value : α} {other : β}

theorem pure (value : α) : Leaves (pure value) disk value := ⟨disk.reads, disk.writes, .inl rfl⟩

theorem throw (error : StoreError) : Leaves (throw error) disk value :=
  ⟨disk.reads, disk.writes, .inr ⟨error, rfl⟩⟩

theorem touch (context : String) : Leaves (named context touch) disk () := by
  cases answered : (Lib.FaultyDisk.touch : EStateM String (Disk UInt8) Unit) disk with
  | ok done after =>
      obtain ⟨writes, -, rfl⟩ := change_ok answered
      exact ⟨disk.reads, writes, .inl (named_ok answered)⟩
  | error reason after =>
      obtain ⟨_, writes, rfl⟩ := change_error answered
      exact ⟨disk.reads, writes, .inr ⟨_, named_error answered⟩⟩

theorem of_looks (looks : Looks step disk value) : Leaves step disk value := by
  obtain ⟨reads, done | ⟨reason, context, failed⟩⟩ := looks
  · exact ⟨reads, disk.writes, .inl done⟩
  · exact ⟨reads, disk.writes, .inr ⟨_, failed⟩⟩

theorem bind {next : α → DiskStep β} (first : Leaves step disk value)
    (rest : ∀ reads writes, Leaves (next value) (later disk reads writes) other) :
    Leaves (step >>= next) disk other := by
  obtain ⟨reads, writes, done | ⟨error, failed⟩⟩ := first
  · obtain ⟨reads', writes', ends⟩ := rest reads writes
    refine ⟨reads', writes', ?_⟩
    rw [bind_apply, done]
    exact ends
  · refine ⟨reads, writes, .inr ⟨error, ?_⟩⟩
    rw [bind_apply, failed]

theorem orFail {result : Option α} (error : StoreError) (fine : ∀ a, result = some a → a = value) :
    Leaves (orFail result error) disk value := by
  cases result with
  | none => exact .throw error
  | some a =>
      rw [fine a rfl]
      exact .pure value

end Leaves

/-! ## Writing a journal -/

section Writing

variable {disk : Disk UInt8} {header : Header} {slots : SlotImages} {written bytes : Bytes}

theorem Replacement.append_leaves : Leaves (Replacement.append written bytes) disk (written ++ bytes) := by
  unfold Replacement.append
  apply Leaves.bind
  · show Leaves (orFail _ _) disk ((checkedAdd u64Max written.length bytes.length).getD 0)
    refine .orFail _ ?_
    intro sum counted
    rw [counted]
    rfl
  · intro reads writes
    exact .bind (.touch _) fun _ _ => .pure (written ++ bytes)

theorem Replacement.create_leaves :
    Leaves (Replacement.create header slots) disk (encodePrefix header slots) :=
  .bind (.touch _) fun _ _ => .bind (.touch _) fun _ _ => Replacement.append_leaves

theorem Replacement.finish_leaves : Leaves Replacement.finish disk () :=
  .bind (.touch _) fun _ _ => .touch _

/-- The written journal takes the place of the file, or nothing happens. -/
theorem Replacement.rename_spec (written : Bytes) (disk : Disk UInt8) : ∃ writes,
    Replacement.renameIntoPlace written disk =
      .ok () { disk with file := written, writes := writes, renames := disk.renames + 1 } ∨
    ∃ error, Replacement.renameIntoPlace written disk = .error error { disk with writes := writes } := by
  cases answered : rename written disk with
  | ok done after =>
      obtain ⟨writes, -, rfl⟩ := change_ok answered
      exact ⟨writes, .inl (named_ok answered)⟩
  | error reason after =>
      obtain ⟨_, writes, rfl⟩ := change_error answered
      exact ⟨writes, .inr ⟨_, named_error answered⟩⟩

/-- A journal without records takes the place of the file, or nothing happens. -/
theorem writeReplacement_spec (header : Header) (slots : SlotImages) (disk : Disk UInt8) :
    ∃ reads writes, writeReplacement header slots disk =
      .ok () ⟨encodePrefix header slots, reads, writes, disk.renames + 1⟩ ∨
    ∃ error, writeReplacement header slots disk = .error error (later disk reads writes) := by
  unfold writeReplacement
  rw [bind_apply]
  obtain ⟨reads, writes, created | ⟨error, failed⟩⟩ := @Replacement.create_leaves disk header slots
  · rw [created]
    dsimp only
    rw [bind_apply]
    obtain ⟨reads', writes', finished | ⟨error, failed⟩⟩ := @Replacement.finish_leaves (later disk reads writes)
    · rw [finished]
      dsimp only
      obtain ⟨writes'', renamed | ⟨error, failed⟩⟩ :=
        Replacement.rename_spec (encodePrefix header slots) (later (later disk reads writes) reads' writes')
      · exact ⟨reads', writes'', .inl renamed⟩
      · exact ⟨reads', writes'', .inr ⟨error, failed⟩⟩
    · rw [failed]
      exact ⟨reads', writes', .inr ⟨error, rfl⟩⟩
  · rw [failed]
    exact ⟨reads, writes, .inr ⟨error, rfl⟩⟩

theorem openJournalFile_leaves {config : FileStoreConfig} : Leaves (openJournalFile config) disk () :=
  .of_looks (.look _)

theorem flushDirectory_leaves {config : FileStoreConfig} : Leaves (flushDirectory config) disk () := by
  unfold flushDirectory
  exact .bind (.of_looks (.look _)) fun _ _ => .touch _

end Writing

/-! ## Behind a rename -/

/-- The rename is done, and the directory or the file may be left to do. -/
inductive Renamed (journal : Journal) : EStateM.Result StoreError Journal Unit → Prop
  | done (reads writes : List Outcome) :
      Renamed journal (.ok () { journal with disk := later journal.disk reads writes })
  | waits (error : StoreError) (reads writes : List Outcome) (directoryFlush reopen : Bool)
      (some_left : directoryFlush = true ∨ reopen = true) :
      Renamed journal (.error error
        { journal with
          disk := later journal.disk reads writes
          pending := { journal.pending with directoryFlush := directoryFlush, reopen := reopen } })

theorem onDisk_leaves (journal : Journal) {step : DiskStep Unit} (leaves : Leaves step journal.disk ()) :
    ∃ reads writes, attempt (onDisk step) journal =
      (.ok (.ok ()) { journal with disk := later journal.disk reads writes } :
        EStateM.Result StoreError Journal (Except StoreError Unit)) ∨
    ∃ error, attempt (onDisk step) journal =
      (.ok (.error error) { journal with disk := later journal.disk reads writes } :
        EStateM.Result StoreError Journal (Except StoreError Unit)) := by
  obtain ⟨reads, writes, done | ⟨error, failed⟩⟩ := leaves
  · refine ⟨reads, writes, .inl ?_⟩
    unfold attempt onDisk zoom
    rw [done]
  · refine ⟨reads, writes, .inr ⟨error, ?_⟩⟩
    unfold attempt onDisk zoom
    rw [failed]

theorem afterRename_spec (journal : Journal) : Renamed journal (afterRename journal) := by
  unfold afterRename
  rw [bind_apply, get_apply]
  dsimp only
  rw [bind_apply]
  obtain ⟨reads, writes, flushed | ⟨error, failed⟩⟩ :=
    onDisk_leaves journal (@flushDirectory_leaves journal.disk journal.config)
  · rw [flushed]
    dsimp only
    rw [bind_apply]
    obtain ⟨reads', writes', opened | ⟨error', refused⟩⟩ :=
      onDisk_leaves { journal with disk := later journal.disk reads writes }
        (@openJournalFile_leaves _ journal.config)
    · rw [opened]
      exact .done reads' writes'
    · rw [refused]
      exact .waits error' reads' writes' false true (.inr rfl)
  · rw [failed]
    dsimp only
    rw [bind_apply]
    obtain ⟨reads', writes', opened | ⟨error', refused⟩⟩ :=
      onDisk_leaves { journal with disk := later journal.disk reads writes }
        (@openJournalFile_leaves _ journal.config)
    · rw [opened]
      exact .waits error reads' writes' true journal.pending.reopen (.inl rfl)
    · rw [refused]
      exact .waits error' reads' writes' true true (.inr rfl)

/-! ## Fresh journals -/

/-- What a journal of the frames holds once it is written. -/
def Content.fresh (filings : List Filing) (header : Header) (older newer : Slot) : Content where
  filings := filings
  slots := ⟨encodeSlot older, encodeSlot newer⟩
  active := 1
  slot := newer
  creationTime := header.creationTime.recorded

section Fresh

variable {filings : List Filing} {header : Header} {older newer : Slot} {maxBody : Nat}

theorem Holds.fresh (fits : ∀ filing ∈ filings, filing.Fits maxBody)
    (isU64 : DATA_START + (recordsOf filings).length ≤ u64Max)
    (later : older.generation < newer.generation) (vouches : newer.Vouches filings) :
    Holds maxBody (journalOf header older newer filings) (.fresh filings header older newer) := by
  have apart : older.generation = newer.generation → older = newer := by
    intro same
    rw [same] at later
    exact absurd later (UInt64.lt_irrefl _)
  refine ⟨⟨prefix_whole _ _ _, prefix_slots _ _ _, prefix_records _ _ _, fits, ?_⟩, ⟨_, prefix_header _ _ _, rfl⟩,
    ?_, vouches⟩
  · rw [journalOf_length]
    exact isU64
  · show newestSlot ⟨encodeSlot older, encodeSlot newer⟩ = _
    rw [newestSlot_encode apart, if_pos later]
    rfl

/-- The slots of a fresh journal are of two generations in a row. -/
theorem freshSlots_ok {first nextSender nextTarget durableEnd appWatermark next : UInt64} {resetOwed : Bool}
    {slots : SlotImages}
    (fresh : freshSlots first nextSender nextTarget durableEnd appWatermark resetOwed = .ok (slots, next)) :
    first < first + 1 ∧ first + 1 < next ∧
      slots = ⟨encodeSlot ⟨first, nextSender, nextTarget, durableEnd, appWatermark, resetOwed⟩,
        encodeSlot ⟨first + 1, nextSender, nextTarget, durableEnd, appWatermark, resetOwed⟩⟩ := by
  unfold freshSlots at fresh
  obtain ⟨second, counted, fresh⟩ := okOr_bind_eq_ok.mp fresh
  obtain ⟨third, counted', fresh⟩ := okOr_bind_eq_ok.mp fresh
  obtain rfl := checkedSucc_eq counted
  obtain rfl := checkedSucc_eq counted'
  cases fresh
  exact ⟨checkedSucc_lt counted, checkedSucc_lt counted', rfl⟩

end Fresh

/-- Everything in the journal is flushed, and it is one of that content. -/
structure Settled (journal : Journal) (content : Content) : Prop where
  holds : Holds journal.config.maxBody journal.disk.file content
  below : content.Below journal.nextGeneration
  live : Live journal content
  durableEnd : journal.durableEnd = journal.endOffset
  durableSlots : journal.durableSlots = journal.slots
  durableSlot : journal.durableSlot = journal.activeSlot
  flushed : journal.flushed = journal.disk.file

theorem Settled.stands {journal : Journal} {content : Content} (settled : Settled journal content) :
    Stands journal content content := by
  obtain ⟨holds, below, live, durableEnd, durableSlots, durableSlot, flushed⟩ := settled
  have length : journal.disk.file.length = content.endOffset := holds.shape.length
  have clear : journal.pending = .default := Pending.clear_eq live.clear
  refine ⟨⟨⟨?_, below, durableEnd.trans live.endOffset, durableSlots.trans live.slots, ?_, ?_⟩, ?_, below,
    List.prefix_rfl, holds.vouches, ?_⟩, live, durableSlot.trans live.active, rfl⟩
  · rw [flushed]
    exact holds
  · rw [durableEnd, live.endOffset, length]
  · rw [flushed, durableEnd, live.endOffset, ← length, List.take_length, durableSlots, live.slots,
      ← holds.shape.slots, withSlots_self]
  · rw [clear]
    exact holds
  · intro offset cut
    rw [clear] at cut
    cases cut

/-- The generations of a fresh journal. -/
theorem Content.fresh_below {filings : List Filing} {header : Header} {older newer : Slot} {next : UInt64}
    (records : ∀ filing ∈ filings, ∀ counter, filing.counter = some counter → counter.1 < newer.generation)
    (later : older.generation < newer.generation) (last : newer.generation < next) :
    (Content.fresh filings header older newer).Below next := by
  refine ⟨fun filing member counter carried =>
    UInt64.lt_trans (records filing member counter carried) last, ?_⟩
  intro position slot decodes
  match position with
  | 0 =>
      have same := (decodeSlot_encode older).symm.trans decodes
      cases same
      exact UInt64.lt_trans later last
  | 1 =>
      have same := (decodeSlot_encode newer).symm.trans decodes
      cases same
      exact last

theorem one_unsynced {policy : SyncPolicy} : ∀ every, policy = .everyN every → 0 < every.val.toNat := by
  intro every _
  exact Nat.pos_of_ne_zero fun none => every.property (UInt32.toNat_inj.mp none)

/-- A fresh journal stands once it is renamed into place, whatever is left to do
behind the rename. -/
theorem Renamed.stands {installed : Journal} {content : Content}
    {result : EStateM.Result StoreError Journal Unit} (renamed : Renamed installed result)
    (stands : Stands installed content content) :
    (∃ after, result = .ok () after ∧ after.config = installed.config ∧ after.marks = installed.marks ∧
      Stands after content content) ∨
    ∃ error after, result = .error error after ∧ after.config = installed.config ∧
      after.marks = installed.marks ∧ after.pending.isClear = false ∧ after.pending.cutBackTo = none ∧
      after.pending.restoreSlots = none ∧ Stands { after with pending := .default } content content := by
  have clear : installed.pending = .default := Pending.clear_eq stands.live.clear
  cases renamed with
  | done reads writes =>
      have stood := stands.skips (later installed.disk reads writes) rfl (UInt64.le_refl _)
      exact .inl ⟨_, rfl, rfl, rfl, stood⟩
  | waits error reads writes directoryFlush reopen some_left =>
      have stood := stands.skips (later installed.disk reads writes) rfl (UInt64.le_refl _)
      refine .inr ⟨error, _, rfl, rfl, rfl, ?_, ?_, ?_, ?_⟩
      · show ({ installed.pending with directoryFlush := directoryFlush, reopen := reopen } : Pending).isClear = false
        rw [clear]
        rcases some_left with rfl | rfl
        · rfl
        · cases directoryFlush <;> rfl
      · rw [clear]
        rfl
      · rw [clear]
        rfl
      · have same : ({ { installed with
            disk := later installed.disk reads writes
            nextGeneration := installed.nextGeneration } with pending := .default } : Journal) =
            { installed with
              disk := later installed.disk reads writes
              nextGeneration := installed.nextGeneration } := by
          rw [← clear]
        rw [← same] at stood
        exact stood

/-- What is left to do behind a rename, and then to answer. -/
theorem afterRename_answers {α : Type} {installed : Journal} {content : Content}
    (stands : Stands installed content content) (a : α) :
    (∃ after, (do afterRename; return a : Step α) installed = .ok a after ∧ after.config = installed.config ∧
      after.marks = installed.marks ∧ Stands after content content) ∨
    ∃ error after, (do afterRename; return a : Step α) installed = .error error after ∧
      after.config = installed.config ∧ after.marks = installed.marks ∧ after.pending.isClear = false ∧
      after.pending.cutBackTo = none ∧ after.pending.restoreSlots = none ∧
      Stands { after with pending := .default } content content := by
  rw [bind_apply]
  rcases (afterRename_spec installed).stands stands with ⟨after, done, kept⟩ | ⟨error, after, waits, kept⟩
  · rw [done]
    exact .inl ⟨after, rfl, kept⟩
  · rw [waits]
    exact .inr ⟨error, after, rfl, kept⟩

/-! ## Resets -/

section Resets

variable (journal : Journal) (nextSender nextTarget : UInt64) (now : SystemTime)

/-- A slot of a journal without records. -/
def Journal.emptySlotOf (generation : UInt64) : Slot :=
  ⟨generation, nextSender, nextTarget, .ofNat DATA_START, 0, journal.resetOwed⟩

/-- What a reset writes. -/
def Content.reset : Content :=
  .fresh [] ⟨now, nextSender, nextTarget⟩ (journal.emptySlotOf nextSender nextTarget 0)
    (journal.emptySlotOf nextSender nextTarget 1)

variable {journal nextSender nextTarget now}

/-- A step on the file that changes what it reads only. -/
theorem onDisk_ok {α : Type} {step : DiskStep α} {a : α} {after : Disk UInt8}
    (answered : step journal.disk = .ok a after) :
    onDisk step journal = .ok a { journal with disk := after } := by
  unfold onDisk zoom
  rw [answered]

theorem onDisk_error {α : Type} {step : DiskStep α} {error : StoreError} {after : Disk UInt8}
    (failed : step journal.disk = .error error after) :
    onDisk step journal = .error error { journal with disk := after } := by
  unfold onDisk zoom
  rw [failed]

theorem freshSlots_zero : freshSlots 0 nextSender nextTarget (.ofNat DATA_START) 0 journal.resetOwed =
    .ok (⟨encodeSlot (journal.emptySlotOf nextSender nextTarget 0),
      encodeSlot (journal.emptySlotOf nextSender nextTarget 1)⟩, 2) := rfl

theorem Stands.installEmpty {disk : Disk UInt8}
    (file : disk.file = journalOf ⟨now, nextSender, nextTarget⟩ (journal.emptySlotOf nextSender nextTarget 0)
      (journal.emptySlotOf nextSender nextTarget 1) []) :
    Stands (Journal.installEmpty now nextSender nextTarget
        ⟨encodeSlot (journal.emptySlotOf nextSender nextTarget 0),
          encodeSlot (journal.emptySlotOf nextSender nextTarget 1)⟩ 2 { journal with disk := disk })
      (.reset journal nextSender nextTarget now) (.reset journal nextSender nextTarget now) := by
  have holds : Holds journal.config.maxBody disk.file (.reset journal nextSender nextTarget now) := by
    rw [file]
    refine Holds.fresh (fun filing member => absurd member List.not_mem_nil) (by decide) ?_ ⟨[], [], rfl, ?_⟩
    · show (0 : UInt64) < 1
      decide
    · show (UInt64.ofNat DATA_START).toNat = DATA_START + (recordsOf []).length
      decide
  have below : (Content.reset journal nextSender nextTarget now).Below 2 := by
    refine Content.fresh_below (fun filing member => absurd member List.not_mem_nil) ?_ ?_
    · show (0 : UInt64) < 1
      decide
    · show (1 : UInt64) < 2
      decide
  refine Settled.stands ⟨holds, below, ?_, rfl, rfl, rfl, rfl⟩
  exact ⟨rfl, rfl, rfl, rfl, rfl, rfl, rfl, rfl, rfl, one_unsynced⟩

/-- A reset starts an empty journal, whatever is pending, or changes nothing. -/
theorem replace_spec :
    (∃ error reads writes, replace nextSender nextTarget now journal =
      .error error { journal with disk := later journal.disk reads writes }) ∨
    ∃ installed, Renamed installed (replace nextSender nextTarget now journal) ∧
      installed.config = journal.config ∧
      installed.marks =
        { journal.marks with
          shared := { journal.shared with appWatermark := 0 }.publish now nextSender nextTarget
          creationTime := now
          nextSender := nextSender
          nextTarget := nextTarget
          appWatermark := 0 } ∧
      Stands installed (.reset journal nextSender nextTarget now) (.reset journal nextSender nextTarget now) := by
  unfold replace
  rw [bind_apply, get_apply]
  dsimp only
  rw [bind_apply, freshSlots_zero, orThrow_ok]
  dsimp only
  let header : Header := ⟨now, nextSender, nextTarget⟩
  let slots : SlotImages := ⟨encodeSlot (journal.emptySlotOf nextSender nextTarget 0),
    encodeSlot (journal.emptySlotOf nextSender nextTarget 1)⟩
  rw [bind_apply]
  obtain ⟨reads, writes, written | ⟨error, failed⟩⟩ := writeReplacement_spec header slots journal.disk
  · rw [onDisk_ok written]
    dsimp only
    rw [bind_apply, modify_apply]
    dsimp only
    refine .inr ⟨_, afterRename_spec _, rfl, rfl, ?_⟩
    refine Stands.installEmpty ?_
    show encodePrefix header slots = encodePrefix header slots ++ recordsOf []
    exact (List.append_nil _).symm
  · rw [onDisk_error failed]
    exact .inl ⟨error, reads, writes, rfl⟩

end Resets

/-! ## Compactions -/

section Compactions

variable {journal : Journal} {content lasting : Content}

/-- The records of the entries are copied one behind the other, and the copies
indexed. -/
theorem copyRecords_leaves {file : Bytes} {entries : List (Nat × Site)}
    (each : ∀ entry ∈ entries, entry.2.In file ∧ entry.1 = entry.2.filing.seq.toNat)
    (reads writes : List Outcome) (renames : Nat) (written : Bytes) (replay : Replay) :
    Leaves (copyRecords (entries.map fun entry => (entry.1, entry.2.entry)) written replay.index)
      ⟨file, reads, writes, renames⟩
      (written ++ recordsOf (entries.map fun entry => entry.2.filing),
        (replay.filedAll written.length (entries.map fun entry => entry.2.filing)).index) := by
  induction entries generalizing reads writes written replay with
  | nil =>
      show Leaves (pure (written, replay.index)) _ (written ++ [], replay.index)
      rw [List.append_nil]
      exact .pure _
  | cons entry entries ih =>
      obtain ⟨whole, key⟩ := each entry List.mem_cons_self
      have rest := fun other member => each other (List.mem_cons_of_mem _ member)
      rw [List.map_cons, copyRecords, key]
      refine .bind (.of_looks (whole.read reads writes renames)) ?_
      intro reads' writes'
      refine .bind Replacement.append_leaves ?_
      intro reads'' writes''
      have copied := ih rest reads'' writes'' (written ++ entry.2.filing.record)
        (replay.filed written.length entry.2.filing.bodyLen.toNat entry.2.filing.decoded)
      rw [List.map_cons, recordsOf_cons, ← List.append_assoc, Replay.filedAll]
      rw [List.length_append] at copied
      exact copied

theorem liveEnd_eq {entries : List (Nat × IndexEntry)} {live : Nat} (counted : liveEnd entries = some live) :
    live = DATA_START + (entries.map fun entry => entry.2.recordLen).sum ∧ live ≤ u64Max := by
  have totals : ∀ (entries : List (Nat × IndexEntry)) (start total : Nat),
      entries.foldlM (fun total entry => checkedAdd u64Max total entry.2.recordLen) start = some total →
        total = start + (entries.map fun entry => entry.2.recordLen).sum := by
    intro entries
    induction entries with
    | nil =>
        intro start total counted
        cases counted
        rfl
    | cons entry later ih =>
        intro start total counted
        rw [List.foldlM_cons] at counted
        obtain ⟨next, first, rest⟩ := Option.bind_eq_some_iff.mp counted
        obtain ⟨rfl, -⟩ := checkedAdd_eq_some.mp first
        rw [ih _ _ rest, List.map_cons, List.sum_cons, Nat.add_assoc]
  unfold liveEnd at counted
  obtain ⟨total, summed, ends⟩ := Option.bind_eq_some_iff.mp counted
  obtain ⟨rfl, isU64⟩ := checkedAdd_eq_some.mp ends
  have sum := totals _ _ _ summed
  refine ⟨?_, isU64⟩
  rw [sum, Nat.zero_add, Nat.add_comm]

/-- The entries of a journal are those of the frames filed last. -/
theorem Stands.entries_eq (stands : Stands journal content lasting) :
    journal.entries = (filed content.filings).entries.map fun entry => (entry.1, entry.2.entry) := by
  unfold Journal.entries
  rw [stands.live.index, stands.holds.shape.range, filed_all]

/-- The live records take what the counter slots vouch for. -/
theorem Stands.live_length (stands : Stands journal content lasting) :
    (journal.entries.map fun entry => entry.2.recordLen).sum =
      (recordsOf (liveOf content.filings)).length := by
  have holds := stands.holds.shape
  rw [stands.entries_eq, List.map_map]
  unfold recordsOf liveOf
  rw [List.length_flatten, List.map_map, List.map_map]
  congr 1
  refine List.map_congr_left ?_
  intro entry member
  obtain ⟨whole, -, -⟩ := holds.filed_in member
  show entry.2.entry.recordLen = entry.2.filing.record.length
  rw [Filing.record_length, ← whole.declared]
  rfl

/-- A slot of a compacted journal. -/
def Journal.compactedSlot (journal : Journal) (content : Content) (generation : UInt64) : Slot :=
  ⟨generation, journal.nextSender, journal.nextTarget,
    .ofNat (DATA_START + (recordsOf (liveOf content.filings)).length), journal.appWatermark, journal.resetOwed⟩

/-- What a compaction writes. -/
def Content.compacted (content : Content) (journal : Journal) : Content :=
  .fresh (liveOf content.filings) ⟨journal.creationTime, journal.nextSender, journal.nextTarget⟩
    (journal.compactedSlot content journal.nextGeneration)
    (journal.compactedSlot content (journal.nextGeneration + 1))

/-- A compacted file holds the frames filed last. -/
theorem Stands.compacted_settled (stands : Stands journal content lasting)
    (isU64 : DATA_START + (recordsOf (liveOf content.filings)).length ≤ u64Max)
    (first : journal.nextGeneration < journal.nextGeneration + 1) {next : UInt64}
    (second : journal.nextGeneration + 1 < next) (disk : Disk UInt8)
    (file : disk.file = journalOf ⟨journal.creationTime, journal.nextSender, journal.nextTarget⟩
      (journal.compactedSlot content journal.nextGeneration)
      (journal.compactedSlot content (journal.nextGeneration + 1)) (liveOf content.filings)) :
    Settled (Journal.installCompacted (replayOf (liveOf content.filings)).index
      (DATA_START + (recordsOf (liveOf content.filings)).length) (content.compacted journal).slots next
      { journal with disk := disk }) (content.compacted journal) := by
  have fits := liveOf_fits stands.holds.shape.fits
  have records : ∀ filing ∈ liveOf content.filings, ∀ counter, filing.counter = some counter →
      counter.1 < journal.nextGeneration + 1 := by
    intro filing member counter carried
    exact UInt64.lt_trans (stands.recovers.generations.records filing (mem_liveOf member) counter carried) first
  have sender : (content.compacted journal).nextSender = journal.nextSender := Content.nextSender_slot records
  have vouches : (journal.compactedSlot content (journal.nextGeneration + 1)).Vouches
      (liveOf content.filings) := by
    refine ⟨liveOf content.filings, [], (List.append_nil _).symm, ?_⟩
    exact UInt64.toNat_ofNat_of_lt (Nat.lt_succ_of_le isU64)
  have below : (content.compacted journal).Below next := Content.fresh_below records first second
  have holds : Holds journal.config.maxBody disk.file (content.compacted journal) := by
    rw [file]
    exact Holds.fresh fits isU64 first vouches
  refine ⟨holds, below, ?_, rfl, rfl, rfl, rfl⟩
  exact ⟨stands.live.clear, rfl, rfl, rfl, (replayOf_liveOf stands.holds.shape.fits isU64).symm, rfl, sender.symm,
    rfl, rfl, one_unsynced⟩

/-- A compaction writes the records of the frames filed last. -/
theorem Stands.rewrite_leaves (stands : Stands journal content lasting) (header : Header) (slots : SlotImages) :
    Leaves (rewrite header slots (DATA_START + (recordsOf (liveOf content.filings)).length) journal.entries)
      journal.disk (encodePrefix header slots ++ recordsOf (liveOf content.filings),
        (replayOf (liveOf content.filings)).index) := by
  have each : ∀ entry ∈ (filed content.filings).entries, entry.2.In journal.disk.file ∧
      entry.1 = entry.2.filing.seq.toNat := by
    intro entry member
    obtain ⟨whole, key, -⟩ := stands.holds.shape.filed_in member
    exact ⟨whole, key⟩
  unfold rewrite
  refine .bind Replacement.create_leaves ?_
  intro reads writes
  have copies := copyRecords_leaves each reads writes journal.disk.renames (encodePrefix header slots) .new
  rw [encodePrefix_length, ← stands.entries_eq] at copies
  refine .bind copies ?_
  intro reads' writes'
  refine .bind Replacement.finish_leaves ?_
  intro reads'' writes''
  dsimp only
  have length : (encodePrefix header slots ++ recordsOf (liveOf content.filings)).length =
      DATA_START + (recordsOf (liveOf content.filings)).length := by
    rw [List.length_append, encodePrefix_length]
  rw [show (encodePrefix header slots ++
    recordsOf ((filed content.filings).entries.map fun entry => entry.2.filing)).length = _ from length]
  rw [if_neg (not_not_intro rfl)]
  exact .pure _

/-- A compaction keeps what is read, and changes nothing if it fails before the
rename. -/
theorem Stands.compacts (stands : Stands journal content lasting) :
    (∃ error reads writes, compact journal =
      .error error { journal with disk := later journal.disk reads writes }) ∨
    ((∃ after, compact journal = .ok (journal.endOffset - (content.compacted journal).endOffset) after ∧
      after.config = journal.config ∧ after.marks = journal.marks ∧
      Stands after (content.compacted journal) (content.compacted journal)) ∨
    ∃ error after, compact journal = .error error after ∧ after.config = journal.config ∧
      after.marks = journal.marks ∧ after.pending.isClear = false ∧ after.pending.cutBackTo = none ∧
      after.pending.restoreSlots = none ∧ Stands { after with pending := .default }
        (content.compacted journal) (content.compacted journal)) := by
  unfold compact usable
  rw [bind_apply, bind_apply, get_apply]
  dsimp only
  rw [ensure_of _ stands.live.clear]
  dsimp only
  rw [bind_apply, get_apply]
  dsimp only
  rw [bind_apply]
  cases counted : liveEnd journal.entries with
  | none => exact .inl ⟨_, journal.disk.reads, journal.disk.writes, rfl⟩
  | some live =>
      obtain ⟨rfl, isU64⟩ := liveEnd_eq counted
      rw [stands.live_length] at isU64 ⊢
      rw [orFail_some]
      dsimp only
      rw [bind_apply]
      cases fresh : freshSlots journal.nextGeneration journal.nextSender journal.nextTarget
          (.ofNat (DATA_START + (recordsOf (liveOf content.filings)).length)) journal.appWatermark
          journal.resetOwed with
      | error error => exact .inl ⟨_, journal.disk.reads, journal.disk.writes, rfl⟩
      | ok taken =>
          obtain ⟨slots, next⟩ := taken
          obtain ⟨first, second, isSlots⟩ := freshSlots_ok fresh
          obtain rfl : slots = (content.compacted journal).slots := isSlots
          let header : Header := ⟨journal.creationTime, journal.nextSender, journal.nextTarget⟩
          rw [orThrow_ok]
          dsimp only
          rw [bind_apply]
          obtain ⟨reads, writes, written | ⟨error, failed⟩⟩ :=
            stands.rewrite_leaves header (content.compacted journal).slots
          · rw [onDisk_ok written]
            dsimp only
            rw [bind_apply]
            obtain ⟨writes', renamed | ⟨error, failed⟩⟩ := Replacement.rename_spec
              (encodePrefix header (content.compacted journal).slots ++ recordsOf (liveOf content.filings))
              (later journal.disk reads writes)
            · rw [onDisk_ok renamed]
              dsimp only
              rw [bind_apply, modify_apply]
              dsimp only
              have length : (encodePrefix header (content.compacted journal).slots ++
                  recordsOf (liveOf content.filings)).length = (content.compacted journal).endOffset := by
                rw [List.length_append, encodePrefix_length]
                rfl
              rw [length]
              have settled := stands.compacted_settled isU64 first second
                ⟨_, reads, writes', journal.disk.renames + 1⟩ rfl
              exact .inr (afterRename_answers settled.stands _)
            · rw [onDisk_error failed]
              exact .inl ⟨error, reads, writes', rfl⟩
          · rw [onDisk_error failed]
            exact .inl ⟨error, reads, writes, rfl⟩

end Compactions

end IronFix.Store
