import IronFix.Store.JournalSites
import IronFix.Store.JournalSteps

/-!
# What a journal stands for

A file of the right shape holds frames, counters and marks: its content. In
every reachable state, undoing what is pending leaves a file of some content,
and so does the journal's last flush. While nothing is pending, what the
journal has in memory is what a scan of its file finds.
-/

namespace IronFix.Store

open Lib.Decimal Lib.FaultyDisk Lib.Ordered Lib.Patch Lib.Steps

/-! ## Content -/

/-- What the file of a journal holds. -/
structure Content where
  filings : List Filing
  slots : SlotImages
  /-- Where the newest slot is, and what is in it. -/
  active : Fin 2
  slot : Slot
  creationTime : SystemTime

/-- A slot vouches for the first of the frames, and for them whole. -/
def Slot.Vouches (slot : Slot) (filings : List Filing) : Prop :=
  ∃ before after, filings = before ++ after ∧
    slot.durableEnd.toNat = DATA_START + (recordsOf before).length

namespace Content

variable (content : Content)

/-- Where the records end. -/
def endOffset : Nat := DATA_START + (recordsOf content.filings).length

/-- The next sender number: the one of the newest slot or record. -/
def nextSender : UInt64 :=
  match (replayOf content.filings).newestCounter with
  | some (generation, nextSender) =>
      if generation > content.slot.generation then nextSender else content.slot.nextSender
  | none => content.slot.nextSender

/-- Every generation of the content is below `bound`. -/
structure Below (bound : UInt64) : Prop where
  records : ∀ filing ∈ content.filings, ∀ counter, filing.counter = some counter → counter.1 < bound
  slots : ∀ position slot, decodeSlot (content.slots.get position) = some slot → slot.generation < bound

/-- The store it is the content of. -/
def memory : MemoryStore where
  messages := framesOf content.filings
  nextSenderSeq := content.nextSender.toNat
  nextTargetSeq := content.slot.nextTarget.toNat
  resetOwed := content.slot.resetOwed
  appWatermark := content.slot.appWatermark.toNat

/-- The content with one more frame. -/
def filing (one : Filing) : Content := { content with filings := content.filings ++ [one] }

/-- The content with a newer slot. -/
def counting (position : Fin 2) (slot : Slot) : Content :=
  { content with
    slots := content.slots.set position (encodeSlot slot)
    active := position
    slot := slot }

end Content

/-- The file holds the content. -/
structure Holds (maxBody : Nat) (file : Bytes) (content : Content) : Prop where
  shape : FileOf maxBody file content.slots content.filings
  header : ∃ header, decodeHeader (file.take HEADER_LEN) = .ok header ∧
    header.creationTime = content.creationTime
  newest : newestSlot content.slots = .ok (content.active, content.slot)
  vouches : content.slot.Vouches content.filings

/-! ## Slots -/

section Slots

variable {slots : SlotImages} {position active : Fin 2} {slot newer : Slot} {bound : UInt64}

theorem newestSlot_decodes (newest : newestSlot slots = .ok (active, slot)) :
    decodeSlot (slots.get active) = some slot := by
  unfold newestSlot at newest
  split at newest
  · rename_i first second isFirst isSecond
    split at newest
    · cases newest
      exact isSecond
    · split at newest
      · cases newest
        exact isFirst
      · cases newest
  · cases newest
    assumption
  · cases newest
    assumption
  · cases newest

/-- A slot of a generation above every other is the newest. -/
theorem newestSlot_set
    (below : ∀ position slot, decodeSlot (slots.get position) = some slot → slot.generation < newer.generation) :
    newestSlot (slots.set position (encodeSlot newer)) = .ok (position, newer) := by
  match position with
  | 0 =>
      unfold newestSlot SlotImages.set
      dsimp only
      rw [decodeSlot_encode]
      cases second : decodeSlot slots.second with
      | none => rfl
      | some second' =>
          have older := below 1 second' second
          dsimp only
          rw [if_neg (UInt64.lt_asymm older), if_pos (.inl older)]
  | 1 =>
      unfold newestSlot SlotImages.set
      dsimp only
      rw [decodeSlot_encode]
      cases first : decodeSlot slots.first with
      | none => rfl
      | some first' =>
          have older := below 0 first' first
          dsimp only
          rw [if_pos older]

theorem vouches_append {filings later : List Filing} (vouches : slot.Vouches filings) :
    slot.Vouches (filings ++ later) := by
  obtain ⟨before, after, rfl, ends⟩ := vouches
  exact ⟨before, after ++ later, List.append_assoc .., ends⟩

theorem Slot.Vouches.le {filings : List Filing} (vouches : slot.Vouches filings) :
    DATA_START ≤ slot.durableEnd.toNat ∧
      slot.durableEnd.toNat ≤ DATA_START + (recordsOf filings).length := by
  obtain ⟨before, after, rfl, ends⟩ := vouches
  rw [recordsOf_append, List.length_append]
  omega

end Slots

/-! ## Generations and counters of the records -/

section Replays

variable {filings : List Filing} {one : Filing} {bound : UInt64} {offset : Nat} {replay : Replay}

theorem Replay.filedAll_concat : replay.filedAll offset (filings ++ [one]) =
    (replay.filedAll offset filings).filed (offset + (recordsOf filings).length) one.bodyLen.toNat
      one.decoded := by
  induction filings generalizing replay offset with
  | nil => rfl
  | cons filing later ih =>
      rw [List.cons_append, filedAll, ih, filedAll, recordsOf_cons, List.length_append, Nat.add_assoc]

theorem replayOf_concat : replayOf (filings ++ [one]) =
    (replayOf filings).filed (DATA_START + (recordsOf filings).length) one.bodyLen.toNat one.decoded :=
  Replay.filedAll_concat

theorem Replay.newer_below {newest : Option (UInt64 × UInt64)} {counter : UInt64 × UInt64}
    (below : ∀ taken, newest = some taken → taken.1 < bound) (own : counter.1 < bound) :
    ∀ taken, Replay.newer newest counter = some taken → taken.1 < bound := by
  intro taken isNewest
  cases newest with
  | none =>
      cases isNewest
      exact own
  | some held =>
      unfold Replay.newer at isNewest
      dsimp only at isNewest
      split at isNewest
      · cases isNewest
        exact own
      · exact below taken isNewest

/-- The newest counter of the records is of one of their generations. -/
theorem Replay.filedAll_newest (below : ∀ taken, replay.newestCounter = some taken → taken.1 < bound)
    (each : ∀ filing ∈ filings, ∀ counter, filing.counter = some counter → counter.1 < bound) :
    ∀ taken, (replay.filedAll offset filings).newestCounter = some taken → taken.1 < bound := by
  induction filings generalizing replay offset with
  | nil => exact below
  | cons filing later ih =>
      refine ih ?_ fun other member => each other (List.mem_cons_of_mem _ member)
      intro taken isNewest
      have own := each filing List.mem_cons_self
      cases counter : filing.counter with
      | none =>
          have same : (replay.filed offset filing.bodyLen.toNat filing.decoded).newestCounter =
              replay.newestCounter := by
            show (replay.countGeneration filing.counter).newestCounter = _
            rw [counter]
            rfl
          exact below taken (same ▸ isNewest)
      | some counted =>
          have same : (replay.filed offset filing.bodyLen.toNat filing.decoded).newestCounter =
              Replay.newer replay.newestCounter counted := by
            show (replay.countGeneration filing.counter).newestCounter = _
            rw [counter]
            rfl
          rw [same] at isNewest
          exact newer_below below (own counted counter) taken isNewest

theorem replayOf_newest
    (each : ∀ filing ∈ filings, ∀ counter, filing.counter = some counter → counter.1 < bound) :
    ∀ taken, (replayOf filings).newestCounter = some taken → taken.1 < bound := by
  refine Replay.filedAll_newest ?_ each
  intro taken isNewest
  cases isNewest

end Replays

namespace Content

variable {content : Content} {bound : UInt64} {one : Filing} {position : Fin 2} {slot : Slot}

theorem Below.mono (below : content.Below bound) {above : UInt64} (le : bound ≤ above) :
    content.Below above where
  records := fun filing member counter carried =>
    UInt64.lt_of_lt_of_le (below.records filing member counter carried) le
  slots := fun position slot decodes => UInt64.lt_of_lt_of_le (below.slots position slot decodes) le

theorem Below.counting (below : content.Below bound) {above : UInt64} (le : bound ≤ above)
    (own : slot.generation < above) : (content.counting position slot).Below above where
  records := (below.mono le).records
  slots := by
    intro other read decodes
    rw [Content.counting, SlotImages.get_set] at decodes
    split at decodes
    · rw [decodeSlot_encode] at decodes
      cases decodes
      exact own
    · exact (below.mono le).slots other read decodes

theorem Below.filing (below : content.Below bound) {above : UInt64} (le : bound ≤ above)
    (own : ∀ counter, one.counter = some counter → counter.1 < above) : (content.filing one).Below above where
  records := by
    intro other member counter carried
    rcases List.mem_append.mp member with before | last
    · exact (below.mono le).records other before counter carried
    · rw [List.mem_singleton.mp last] at carried
      exact own counter carried
  slots := (below.mono le).slots

/-- A slot newer than every record has the next sender number. -/
theorem nextSender_slot (older : ∀ filing ∈ content.filings, ∀ counter, filing.counter = some counter →
    counter.1 < content.slot.generation) : content.nextSender = content.slot.nextSender := by
  unfold nextSender
  split
  · rename_i generation sender newest
    exact if_neg (UInt64.lt_asymm (replayOf_newest older _ newest))
  · rfl

theorem nextSender_counting (below : content.Below slot.generation) :
    (content.counting position slot).nextSender = slot.nextSender :=
  nextSender_slot below.records

/-- A frame without a counter leaves the next sender number. -/
theorem nextSender_plain (plain : one.counter = none) : (content.filing one).nextSender = content.nextSender := by
  have same : (replayOf (content.filings ++ [one])).newestCounter = (replayOf content.filings).newestCounter := by
    rw [replayOf_concat]
    show ((replayOf content.filings).countGeneration one.counter).newestCounter = _
    rw [plain]
    rfl
  unfold nextSender Content.filing
  dsimp only
  rw [same]

/-- A frame with the newest counter has the next sender number. -/
theorem nextSender_counted {generation sender : UInt64} (counted : one.counter = some (generation, sender))
    (below : content.Below generation) (newer : content.slot.generation < generation) :
    (content.filing one).nextSender = sender := by
  have newest : (replayOf (content.filings ++ [one])).newestCounter = some (generation, sender) := by
    rw [replayOf_concat]
    show ((replayOf content.filings).countGeneration one.counter).newestCounter = _
    rw [counted]
    show Replay.newer (replayOf content.filings).newestCounter (generation, sender) = _
    cases held : (replayOf content.filings).newestCounter with
    | none => rfl
    | some taken =>
        have older := replayOf_newest below.records taken held
        exact if_pos older
  unfold nextSender Content.filing
  dsimp only
  rw [newest]
  exact if_pos newer

end Content

/-! ## Scans -/

instance lawfulOrderSupUInt64 : Std.LawfulOrderSup UInt64 where
  max_le_iff a b c := by
    show (if a ≤ b then b else a) ≤ c ↔ a ≤ c ∧ b ≤ c
    split
    · rename_i le
      exact ⟨fun bounded => ⟨UInt64.le_trans le bounded, bounded⟩, And.right⟩
    · rename_i above
      have le : b ≤ a := UInt64.le_of_lt (UInt64.not_le.mp above)
      exact ⟨fun bounded => ⟨bounded, UInt64.le_trans le bounded⟩, And.left⟩

/-- The generations the records carry. -/
def generationsOf (filings : List Filing) : List UInt64 :=
  filings.filterMap fun filing => filing.counter.map Prod.fst

theorem Replay.filedAll_generations {replay : Replay} {offset : Nat} {filings : List Filing} :
    (replay.filedAll offset filings).highestGeneration =
      (replay.highestGeneration.toList ++ generationsOf filings).max? := by
  induction filings generalizing replay offset with
  | nil =>
      show replay.highestGeneration = (replay.highestGeneration.toList ++ []).max?
      rw [List.append_nil]
      cases replay.highestGeneration <;> rfl
  | cons filing later ih =>
      rw [filedAll, ih]
      show ((replay.countGeneration filing.counter).highestGeneration.toList ++ _).max? = _
      cases carried : filing.counter with
      | none =>
          have behind : generationsOf (filing :: later) = generationsOf later := by
            unfold generationsOf
            rw [List.filterMap_cons, carried]
            rfl
          rw [behind]
          rfl
      | some counter =>
          have behind : generationsOf (filing :: later) = counter.1 :: generationsOf later := by
            unfold generationsOf
            rw [List.filterMap_cons, carried]
            rfl
          rw [behind]
          unfold countGeneration
          cases replay.highestGeneration <;> rfl

namespace Content

variable (content : Content)

/-- The highest generation of the content. -/
def highest : UInt64 := highestGeneration content.slots content.slot (replayOf content.filings)

variable {content}

theorem mem_generations {generation : UInt64} :
    generation ∈ generationsOf content.filings ↔
      ∃ filing ∈ content.filings, ∃ counter, filing.counter = some counter ∧ counter.1 = generation := by
  unfold generationsOf
  rw [List.mem_filterMap]
  constructor
  · rintro ⟨filing, member, carried⟩
    obtain ⟨counter, isCounter, rfl⟩ := Option.map_eq_some_iff.mp carried
    exact ⟨filing, member, counter, isCounter, rfl⟩
  · rintro ⟨filing, member, counter, isCounter, rfl⟩
    exact ⟨filing, member, by rw [isCounter]; rfl⟩

theorem mem_slots {generation : UInt64} :
    generation ∈ ([content.slots.first, content.slots.second].filterMap decodeSlot).map Slot.generation ↔
      ∃ position slot, decodeSlot (content.slots.get position) = some slot ∧ slot.generation = generation := by
  rw [List.mem_map]
  constructor
  · rintro ⟨slot, member, rfl⟩
    obtain ⟨image, listed, decodes⟩ := List.mem_filterMap.mp member
    rcases List.mem_cons.mp listed with rfl | listed
    · exact ⟨0, slot, decodes, rfl⟩
    · rw [List.mem_singleton.mp listed] at decodes
      exact ⟨1, slot, decodes, rfl⟩
  · rintro ⟨position, slot, decodes, rfl⟩
    refine ⟨slot, List.mem_filterMap.mpr ⟨content.slots.get position, ?_, decodes⟩, rfl⟩
    match position with
    | 0 => exact List.mem_cons_self
    | 1 => exact List.mem_cons_of_mem _ List.mem_cons_self

/-- Every generation of the content, the highest of the records for all of them. -/
def generations : List UInt64 :=
  ([content.slots.first, content.slots.second].filterMap decodeSlot).map Slot.generation ++
    (generationsOf content.filings).max?.toList

theorem highest_eq : content.highest = (content.generations.max?).getD content.slot.generation := by
  have counted : (replayOf content.filings).highestGeneration = (generationsOf content.filings).max? :=
    Replay.filedAll_generations
  unfold highest highestGeneration generations
  rw [counted]

theorem highest_max (newest : newestSlot content.slots = .ok (content.active, content.slot)) :
    content.generations.max? = some content.highest := by
  have held : content.slot.generation ∈ content.generations :=
    List.mem_append_left _ (mem_slots.mpr ⟨content.active, content.slot, newestSlot_decodes newest, rfl⟩)
  rw [highest_eq]
  cases isMax : content.generations.max? with
  | none =>
      rw [List.max?_eq_none_iff.mp isMax] at held
      cases held
  | some generation => rfl

/-- No generation is above the highest. -/
theorem le_highest (newest : newestSlot content.slots = .ok (content.active, content.slot))
    {generation : UInt64} (member : generation ∈ content.generations) : generation ≤ content.highest :=
  (List.max?_le_iff (highest_max newest)).mp (UInt64.le_refl _) generation member

theorem Below.highest {bound : UInt64} (below : content.Below bound)
    (newest : newestSlot content.slots = .ok (content.active, content.slot)) : content.highest < bound := by
  have member := List.max?_mem (highest_max newest)
  rcases List.mem_append.mp member with slot | record
  · obtain ⟨position, slot, decodes, same⟩ := mem_slots.mp slot
    exact same ▸ below.slots position slot decodes
  · obtain ⟨filing, listed, counter, carried, same⟩ :=
      mem_generations.mp (List.max?_mem (Option.mem_toList.mp record))
    exact same ▸ below.records filing listed counter carried

/-- Every generation is below the next one. -/
theorem below_succ (newest : newestSlot content.slots = .ok (content.active, content.slot)) {next : UInt64}
    (counted : checkedSucc content.highest = some next) : content.Below next := by
  have above : ∀ generation ≤ content.highest, generation < next := by
    intro generation le
    have isNext := checkedSucc_eq counted
    have room : content.highest.toNat + 1 ≤ u64Max := by
      by_contra full
      rw [checkedSucc, if_neg full] at counted
      cases counted
    have value : next.toNat = content.highest.toNat + 1 := by
      rw [isNext, UInt64.toNat_add]
      unfold u64Max at room
      exact Nat.mod_eq_of_lt (by
        show content.highest.toNat + 1 < 2 ^ 64
        omega)
    rw [UInt64.lt_iff_toNat_lt, value]
    rw [UInt64.le_iff_toNat_le] at le
    omega
  refine ⟨?_, ?_⟩
  · intro filing member counter carried
    have listed : counter.1 ∈ generationsOf content.filings :=
      mem_generations.mpr ⟨filing, member, counter, carried, rfl⟩
    cases isMax : (generationsOf content.filings).max? with
    | none =>
        rw [List.max?_eq_none_iff.mp isMax] at listed
        cases listed
    | some largest =>
        have le : counter.1 ≤ largest :=
          (List.max?_le_iff isMax).mp (UInt64.le_refl _) counter.1 listed
        have held : largest ∈ content.generations := by
          refine List.mem_append_right _ ?_
          rw [isMax]
          exact List.mem_singleton_self _
        exact above _ (UInt64.le_trans le (le_highest newest held))
  · intro position slot decodes
    refine above _ (le_highest newest ?_)
    exact List.mem_append_left _ (mem_slots.mpr ⟨position, slot, decodes, rfl⟩)

theorem Below.succ {bound : UInt64} (below : content.Below bound)
    (newest : newestSlot content.slots = .ok (content.active, content.slot)) :
    ∃ next, checkedSucc content.highest = some next := by
  have less := below.highest newest
  rw [UInt64.lt_iff_toNat_lt] at less
  have word := bound.toNat_lt
  refine ⟨content.highest + 1, if_pos ?_⟩
  unfold u64Max
  omega

/-- What a scan finds of the content. -/
def found (content : Content) (header : Header) (next : UInt64) : Scan :=
  .found header content.slots content.active content.slot content.endOffset none
    (replayOf content.filings) next

end Content

/-- A file is scanned to its content, whatever the damage rule. -/
theorem Holds.scan {maxBody : Nat} {file : Bytes} {content : Content} {bound : UInt64}
    (holds : Holds maxBody file content) (below : content.Below bound) (rule : DamageRule) :
    ∃ header next, header.creationTime = content.creationTime ∧ checkedSucc content.highest = some next ∧
      Store.scan file maxBody rule = .ok (content.found header next) := by
  obtain ⟨header, opened, created⟩ := holds.header
  obtain ⟨next, counted⟩ := below.succ holds.newest
  have length : file.length = content.endOffset := holds.shape.length
  have vouched : content.slot.durableEnd.toNat ≤ file.length := length ▸ holds.vouches.le.2
  have scanned : Scanned file maxBody rule header content.active content.slot file.length none
      (replayOf content.filings) next := holds.shape.scanned opened holds.newest vouched counted
  refine ⟨header, next, created, counted, ?_⟩
  have slots := holds.shape.slots
  rw [scanned.scan, slots, length]
  rfl

end IronFix.Store
