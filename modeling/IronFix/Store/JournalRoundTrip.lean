import IronFix.Lib.Overwrites
import IronFix.Store.ScanRuns

/-!
# A journal read back

A journal is written as its prefix and a record for each frame filed. The scan
of it takes every record, and a frame that was filed again is read as it was
last filed.
-/

namespace IronFix.Store

open Lib.Decimal Lib.Ordered Lib.Patch

/-! ## Records in a row -/

/-- The records of the frames, one behind the other. -/
def recordsOf (filings : List Filing) : Bytes := (filings.map Filing.record).flatten

/-- Where the record of each frame is, from `offset` on. -/
def placed : Nat → List Filing → List (Nat × IndexEntry)
  | _, [] => []
  | offset, filing :: later =>
      (filing.seq.toNat, filing.entryAt offset) :: placed (offset + filing.record.length) later

/-- What a replay is once it took the records. -/
def Replay.filedAll (replay : Replay) : Nat → List Filing → Replay
  | _, [] => replay
  | offset, filing :: later =>
      (replay.filed offset filing.bodyLen.toNat filing.decoded).filedAll
        (offset + filing.record.length) later

/-- A frame whose record a scan reads: its length is a word of the format, and
no body is above the limit. -/
structure Filing.Fits (maxBody : Nat) (filing : Filing) : Prop where
  declared : filing.bodyLen.toNat = filing.body.length
  bounded : filing.body.length ≤ maxBody

section Records

variable {maxBody : Nat} {filing : Filing} {filings : List Filing} {offset : Nat}

theorem recordsOf_cons : recordsOf (filing :: filings) = filing.record ++ recordsOf filings := rfl

theorem recordsOf_append (before after : List Filing) :
    recordsOf (before ++ after) = recordsOf before ++ recordsOf after := by
  unfold recordsOf
  rw [List.map_append, List.flatten_append]

theorem placed_append (before after : List Filing) : placed offset (before ++ after) =
    placed offset before ++ placed (offset + (recordsOf before).length) after := by
  induction before generalizing offset with
  | nil => rfl
  | cons filing before ih =>
      rw [List.cons_append, placed, placed, ih, recordsOf_cons, List.length_append, Nat.add_assoc]
      rfl

theorem placed_seq {write : Nat × IndexEntry} (member : write ∈ placed offset filings) :
    ∃ filing ∈ filings, write.1 = filing.seq.toNat := by
  induction filings generalizing offset with
  | nil => cases member
  | cons filing later ih =>
      rcases List.mem_cons.mp member with rfl | behind
      · exact ⟨filing, List.mem_cons_self, rfl⟩
      · obtain ⟨other, listed, same⟩ := ih behind
        exact ⟨other, List.mem_cons_of_mem _ listed, same⟩

theorem Filing.Fits.positive (fits : filing.Fits maxBody) : 0 < filing.bodyLen.toNat := by
  rw [fits.declared, Filing.body_length]
  unfold fixedLen
  split <;> omega

/-- The record of a frame leads what is behind it. -/
theorem Filing.Fits.leads (fits : filing.Fits maxBody) (rest : Bytes) :
    Leads maxBody (filing.record ++ rest) filing.bodyLen filing.body where
  positive := fits.positive
  bounded := fits.declared ▸ fits.bounded
  whole := by
    rw [List.length_append, Filing.record_length, fits.declared]
    exact Nat.le_add_right _ _
  head := by
    rw [Filing.record, List.append_assoc, ← recordHeader_length filing.bodyLen filing.body,
      List.take_left]
  body_eq := by
    rw [Filing.record, List.append_assoc, fits.declared,
      ← recordHeader_length filing.bodyLen filing.body]
    exact (span_middle _ _ _).symm

/-- The store keeps every frame it took. -/
theorem Replay.filedAll_kept {replay : Replay} {map : OrderedMap Nat IndexEntry}
    (kept : replay.Kept map offset) (fits : ∀ filing ∈ filings, filing.Fits maxBody)
    (isU64 : offset + (recordsOf filings).length ≤ u64Max) :
    (replay.filedAll offset filings).Kept (map.writeAll (placed offset filings))
      (offset + (recordsOf filings).length) := by
  induction filings generalizing replay map offset with
  | nil => exact kept
  | cons filing later ih =>
      have own := fits filing List.mem_cons_self
      have next : offset + (RECORD_HEADER_LEN + filing.bodyLen.toNat) = offset + filing.record.length := by
        rw [Filing.record_length, own.declared]
      rw [recordsOf_cons, List.length_append, ← Nat.add_assoc] at isU64 ⊢
      obtain ⟨-, kept'⟩ := kept.record (by omega) own.positive Filing.decodeBody_body
      rw [next] at kept'
      exact ih kept' (fun other member => fits other (List.mem_cons_of_mem _ member)) isU64

/-- A scan takes the records of the frames, and goes on behind them. -/
theorem Scans.records {rule : DamageRule} {boundary endOffset : Nat} {rest : Bytes}
    {replay final : Replay} {truncation : Option Truncation} {map : OrderedMap Nat IndexEntry}
    (kept : replay.Kept map offset) (fits : ∀ filing ∈ filings, filing.Fits maxBody)
    (isU64 : offset + (recordsOf filings).length ≤ u64Max)
    (later : Scans maxBody rule boundary rest (offset + (recordsOf filings).length)
      (replay.filedAll offset filings) endOffset truncation final) :
    Scans maxBody rule boundary (recordsOf filings ++ rest) offset replay endOffset truncation final := by
  induction filings generalizing replay map offset with
  | nil => exact later
  | cons filing filings ih =>
      have own := fits filing List.mem_cons_self
      have len : RECORD_HEADER_LEN + filing.bodyLen.toNat = filing.record.length := by
        rw [Filing.record_length, own.declared]
      rw [recordsOf_cons, List.length_append, ← Nat.add_assoc] at isU64 later
      rw [recordsOf_cons, List.append_assoc]
      obtain ⟨files, kept'⟩ := kept.record (by omega) own.positive Filing.decodeBody_body
      rw [len] at kept'
      have counted : checkedAdd u64Max offset (RECORD_HEADER_LEN + filing.bodyLen.toNat) =
          some (offset + filing.record.length) := by
        rw [len]
        exact if_pos (by omega)
      refine .take (own.leads _).step files counted ?_
      rw [len, List.drop_left]
      exact ih kept' (fun other member => fits other (List.mem_cons_of_mem _ member)) isU64 later

instance maxEqOrUInt64 : Std.MaxEqOr UInt64 where
  max_eq_or a b := by
    show (if a ≤ b then b else a) = a ∨ (if a ≤ b then b else a) = b
    split
    · exact .inr rfl
    · exact .inl rfl

theorem Replay.countGeneration_highest {replay : Replay} {counter : Option (UInt64 × UInt64)}
    {bound : UInt64}
    (below : ∀ generation, replay.highestGeneration = some generation → generation ≤ bound)
    (own : ∀ taken, counter = some taken → taken.1 ≤ bound) :
    ∀ generation, (replay.countGeneration counter).highestGeneration = some generation →
      generation ≤ bound := by
  intro generation highest
  cases counter with
  | none => exact below generation highest
  | some taken =>
      have small := own taken rfl
      cases before : replay.highestGeneration with
      | none =>
          simp only [countGeneration, before, Option.some.injEq] at highest
          exact highest ▸ small
      | some largest =>
          simp only [countGeneration, before, Option.some.injEq] at highest
          have kept := below largest before
          subst highest
          show max largest taken.1 ≤ bound
          rcases Std.MaxEqOr.max_eq_or largest taken.1 with same | same
          · rw [same]
            exact kept
          · rw [same]
            exact small

/-- No generation of a replay is above a bound its records keep. -/
theorem Replay.filedAll_highest {replay : Replay} {bound : UInt64}
    (below : ∀ generation, replay.highestGeneration = some generation → generation ≤ bound)
    (each : ∀ filing ∈ filings, ∀ counter, filing.counter = some counter → counter.1 ≤ bound) :
    ∀ generation, (replay.filedAll offset filings).highestGeneration = some generation →
      generation ≤ bound := by
  induction filings generalizing replay offset with
  | nil => exact below
  | cons filing later ih =>
      refine ih ?_ fun other member => each other (List.mem_cons_of_mem _ member)
      exact countGeneration_highest below (each filing List.mem_cons_self)

/-- The highest generation of a journal is one of its slots or its records. -/
theorem highestGeneration_le {first second active : Slot} {replay : Replay} {bound : UInt64}
    (firstBelow : first.generation ≤ bound) (secondBelow : second.generation ≤ bound)
    (below : ∀ generation, replay.highestGeneration = some generation → generation ≤ bound) :
    highestGeneration ⟨encodeSlot first, encodeSlot second⟩ active replay ≤ bound := by
  unfold highestGeneration
  dsimp only
  rw [validSlots]
  cases highest : ([first, second].map Slot.generation ++ replay.highestGeneration.toList).max? with
  | none =>
      have impossible := List.max?_eq_none_iff.mp highest
      cases impossible
  | some generation =>
      have member := List.max?_mem highest
      simp only [List.map_cons, List.map_nil, List.cons_append, List.nil_append, List.mem_cons,
        Option.mem_toList] at member
      rcases member with rfl | rfl | counted
      · exact firstBelow
      · exact secondBelow
      · exact below generation counted

end Records

/-! ## Whole journals -/

section Journals

variable {filings : List Filing} {maxFrameSize : UInt32} {records : List Bytes}

/-- What the store wrote is the records, and a scan with its limit reads each. -/
theorem written_records (written : filings.mapM (Filing.sealed maxFrameSize) = .ok records) :
    records.flatten = recordsOf filings ∧
      ∀ filing ∈ filings, filing.Fits (maxFrameSize.toNat + MAX_BODY_OVERHEAD) := by
  induction filings generalizing records with
  | nil =>
      rw [List.mapM_nil] at written
      cases written
      exact ⟨rfl, by simp⟩
  | cons filing later ih =>
      rw [List.mapM_cons] at written
      cases own : filing.sealed maxFrameSize with
      | error error =>
          rw [own] at written
          cases written
      | ok record =>
          cases rest : later.mapM (Filing.sealed maxFrameSize) with
          | error error =>
              rw [own, rest] at written
              cases written
          | ok others =>
              rw [own, rest] at written
              cases written
              obtain ⟨rfl, declared, bounded⟩ := Filing.sealed_ok own
              obtain ⟨same, fits⟩ := ih rest
              refine ⟨?_, ?_⟩
              · rw [List.flatten_cons, same]
                exact recordsOf_cons.symm
              · intro other member
                rcases List.mem_cons.mp member with rfl | behind
                · exact ⟨declared, bounded⟩
                · exact fits other behind

/-- Frames within the limits are written as their records. -/
theorem mapM_sealed (small : ∀ filing ∈ filings, filing.frame.length ≤ maxFrameSize.toNat ∧
    filing.body.length ≤ u32Max) :
    filings.mapM (Filing.sealed maxFrameSize) = .ok (filings.map Filing.record) := by
  induction filings with
  | nil => rfl
  | cons filing later ih =>
      obtain ⟨allowed, declared⟩ := small filing List.mem_cons_self
      rw [List.mapM_cons, Filing.sealed_fits allowed declared,
        ih fun other member => small other (List.mem_cons_of_mem _ member)]
      rfl

/-- A journal of the frames. -/
def journalOf (header : Header) (first second : Slot) (filings : List Filing) : Bytes :=
  encodePrefix header ⟨encodeSlot first, encodeSlot second⟩ ++ recordsOf filings

/-- A frame filed again takes the place of the one filed before. -/
def replaced : List Filing → List Filing
  | [] => []
  | filing :: later =>
      if later.any fun other => other.seq == filing.seq then filing :: replaced later
      else replaced later

/-- Its own record is the last of a number that is not filed again. -/
theorem last_placed {offset : Nat} (seq : UInt64) :
    (last seq.toNat (placed offset filings)).isSome = filings.any fun other => other.seq == seq := by
  induction filings generalizing offset with
  | nil => rfl
  | cons filing later ih =>
      have behind : (last seq.toNat (placed (offset + filing.record.length) later)).isSome =
          later.any fun other => other.seq == seq := ih
      rw [placed, last, List.any_cons, ← behind]
      by_cases same : filing.seq = seq
      · rw [same, if_pos rfl]
        cases last seq.toNat (placed (offset + filing.record.length) later) <;> simp
      · have differ : ¬filing.seq.toNat = seq.toNat := fun alike => same (UInt64.toNat_inj.mp alike)
        rw [if_neg differ, Option.or_none]
        simp [same]

theorem weigh_replaced {maxBody : Nat} (offset : Nat) (fits : ∀ filing ∈ filings, filing.Fits maxBody) :
    weigh IndexEntry.recordLen (overwritten (placed offset filings)) =
      ((replaced filings).map fun filing => filing.record.length).sum := by
  induction filings generalizing offset with
  | nil => rfl
  | cons filing later ih =>
      have own := fits filing List.mem_cons_self
      have rest := ih (offset + filing.record.length) fun other member =>
        fits other (List.mem_cons_of_mem _ member)
      have len : (filing.entryAt offset).recordLen = filing.record.length := by
        rw [Filing.record_length, ← own.declared]
        rfl
      rw [placed, overwritten, replaced, last_placed]
      split
      · rw [List.map_cons, List.sum_cons, ← rest, ← len]
        rfl
      · exact rest

/-- The newer slot of the two, the first of two that are equal. -/
def newer (first second : Slot) : Fin 2 × Slot :=
  if second.generation > first.generation then (1, second) else (0, first)

/-- What a journal is scanned to, and read: a frame is read as it was last
filed, and the records before it count as dead. -/
structure ReadsBack (header : Header) (first second : Slot) (filings : List Filing) (found : Scan) :
    Prop where
  opened : found.header = { header with creationTime := header.creationTime.recorded }
  slots : found.slots = ⟨encodeSlot first, encodeSlot second⟩
  active : found.active = (newer first second).1
  /-- The last record of a number is indexed where it was written, and read. -/
  frames : ∀ before filing after, filings = before ++ filing :: after →
    (∀ later ∈ after, later.seq ≠ filing.seq) →
      let entry := filing.entryAt (DATA_START + (recordsOf before).length)
      found.index.get filing.seq.toNat = some entry ∧
        readRecordInto (journalOf header first second filings) filing.seq.toNat entry =
          .ok (filing.record, filing.record.length - filing.frame.length, filing.msgType) ∧
        readFrame (journalOf header first second filings) filing.seq.toNat entry =
          .ok ⟨filing.seq.toNat, filing.msgType, filing.frame⟩
  /-- No other number is indexed. -/
  others : ∀ seq, (∀ filing ∈ filings, filing.seq.toNat ≠ seq) → found.index.get seq = none
  dead : found.deadBytes = ((replaced filings).map fun filing => filing.record.length).sum
  kept : found.truncation = none

theorem weigh_placed {maxBody : Nat} (offset : Nat) (fits : ∀ filing ∈ filings, filing.Fits maxBody) :
    weigh IndexEntry.recordLen (placed offset filings) = (recordsOf filings).length := by
  induction filings generalizing offset with
  | nil => rfl
  | cons filing later ih =>
      have own := fits filing List.mem_cons_self
      have rest := ih (offset + filing.record.length) fun other member =>
        fits other (List.mem_cons_of_mem _ member)
      have len : (filing.entryAt offset).recordLen = filing.record.length := by
        rw [Filing.record_length, ← own.declared]
        rfl
      rw [recordsOf_cons, List.length_append, ← rest]
      show (filing.entryAt offset).recordLen + weigh IndexEntry.recordLen (placed _ later) = _
      rw [len]

theorem journalOf_length (header : Header) (first second : Slot) (filings : List Filing) :
    (journalOf header first second filings).length = DATA_START + (recordsOf filings).length := by
  rw [journalOf, List.length_append, encodePrefix_length]

/-- A record of a journal is where it was placed. -/
theorem span_journalOf (header : Header) (first second : Slot) (before after : List Filing)
    (filing : Filing) :
    span (journalOf header first second (before ++ filing :: after))
      (DATA_START + (recordsOf before).length) filing.record.length = filing.record := by
  let front := encodePrefix header ⟨encodeSlot first, encodeSlot second⟩ ++ recordsOf before
  have start : front.length = DATA_START + (recordsOf before).length := by
    rw [List.length_append, encodePrefix_length]
  have file : journalOf header first second (before ++ filing :: after) =
      front ++ (filing.record ++ recordsOf after) := by
    rw [journalOf, recordsOf_append, recordsOf_cons, ← List.append_assoc]
  rw [file, ← start, span_middle]

/-- The last generation that leaves one to use. -/
def lastGeneration : UInt64 := .ofNat (u64Max - 1)

theorem le_lastGeneration {generation : UInt64} (left : generation.toNat < u64Max) :
    generation ≤ lastGeneration := by
  have largest : lastGeneration.toNat = u64Max - 1 := by decide
  rw [UInt64.le_iff_toNat_le, largest]
  omega

theorem checkedSucc_some {generation : UInt64} (left : generation ≤ lastGeneration) :
    checkedSucc generation = some (generation + 1) := by
  have largest : lastGeneration.toNat = u64Max - 1 := by decide
  have one : 1 ≤ u64Max := by decide
  rw [UInt64.le_iff_toNat_le, largest] at left
  exact if_pos (by omega)

/-- What scanning a journal goes through, with what was torn off behind it. -/
theorem scanned_journal {header : Header} {first second : Slot} {rule : DamageRule} {maxBody : Nat}
    {endOffset : Nat} {truncation : Option Truncation} {final : Replay} {tail : Bytes}
    {nextGeneration : UInt64} (apart : first.generation = second.generation → first = second)
    (fits : ∀ filing ∈ filings, filing.Fits maxBody)
    (isU64 : DATA_START + (recordsOf filings).length ≤ u64Max)
    (later : Scans maxBody rule (newer first second).2.durableEnd.toNat tail
      (DATA_START + (recordsOf filings).length) (Replay.new.filedAll DATA_START filings) endOffset
        truncation final)
    (durable : rule.isTail → (newer first second).2.durableEnd.toNat ≤ endOffset)
    (generations : checkedSucc (highestGeneration ⟨encodeSlot first, encodeSlot second⟩
      (newer first second).2 final) = some nextGeneration) :
    Scanned (journalOf header first second filings ++ tail) maxBody rule
      { header with creationTime := header.creationTime.recorded } (newer first second).1
        (newer first second).2 endOffset truncation final nextGeneration := by
  unfold journalOf
  rw [List.append_assoc]
  refine ⟨prefix_whole _ _ _, prefix_header _ _ _, ?_, ?_, ?_, ?_⟩
  · rw [prefix_slots]
    exact newestSlot_encode apart
  · rw [prefix_records]
    exact (Scans.records Replay.kept_new fits isU64 later).ok
  · rintro ⟨below, isTail⟩
    exact absurd (durable isTail) (Nat.not_le.mpr below)
  · rw [prefix_slots]
    exact generations

/-- A journal of frames is scanned to what was written: the newer slot, the
last record of each number and the length of the others. -/
theorem scan_written {header : Header} {first second : Slot} {rule : DamageRule}
    (written : filings.mapM (Filing.sealed maxFrameSize) = .ok records)
    (apart : first.generation = second.generation → first = second)
    (firstLeft : first.generation.toNat < u64Max) (secondLeft : second.generation.toNat < u64Max)
    (recordsLeft : ∀ filing ∈ filings, ∀ counter, filing.counter = some counter →
      counter.1.toNat < u64Max)
    (isU64 : DATA_START + records.flatten.length ≤ u64Max)
    (durable : rule.isTail → (newer first second).2.durableEnd.toNat ≤
      DATA_START + records.flatten.length) :
    ∃ found, scan (encodePrefix header ⟨encodeSlot first, encodeSlot second⟩ ++ records.flatten)
        (maxFrameSize.toNat + MAX_BODY_OVERHEAD) rule = .ok found ∧
      ReadsBack header first second filings found := by
  obtain ⟨flat, fits⟩ := written_records written
  rw [flat] at isU64 durable ⊢
  have kept := Replay.filedAll_kept Replay.kept_new fits isU64
  have bounded : highestGeneration ⟨encodeSlot first, encodeSlot second⟩ (newer first second).2
      (Replay.new.filedAll DATA_START filings) ≤ lastGeneration := by
    refine highestGeneration_le (le_lastGeneration firstLeft) (le_lastGeneration secondLeft) ?_
    refine Replay.filedAll_highest ?_ ?_
    · intro generation highest
      cases highest
    · intro filing member counter carried
      exact le_lastGeneration (recordsLeft filing member counter carried)
  have next := checkedSucc_some bounded
  have went : Scanned (journalOf header first second filings ++ [])
      (maxFrameSize.toNat + MAX_BODY_OVERHEAD) rule
        { header with creationTime := header.creationTime.recorded } (newer first second).1
          (newer first second).2 _ none _ _ :=
    scanned_journal apart fits isU64 (.done scanStep_nil) durable next
  rw [List.append_nil] at went
  refine ⟨_, went.scan, rfl, ?_, rfl, ?_, ?_, ?_, rfl⟩
  · have slots := prefix_slots header ⟨encodeSlot first, encodeSlot second⟩ (recordsOf filings)
    exact slots
  · intro before filing after parts notAgain
    have own := fits filing (by rw [parts]; simp)
    have held : last filing.seq.toNat (placed DATA_START filings) =
        some (filing.entryAt (DATA_START + (recordsOf before).length)) := by
      rw [parts, placed_append, placed]
      refine last_append_cons ?_
      intro write member
      obtain ⟨other, listed, same⟩ := placed_seq member
      rw [same]
      exact fun alike => notAgain other listed (UInt64.toNat_inj.mp alike)
    have inside : DATA_START + (recordsOf before).length + filing.record.length ≤
        (journalOf header first second filings).length := by
      rw [journalOf_length, parts, recordsOf_append, recordsOf_cons, List.length_append,
        List.length_append]
      omega
    have there : span (journalOf header first second filings)
        (DATA_START + (recordsOf before).length) filing.record.length = filing.record := by
      rw [parts]
      exact span_journalOf header first second before after filing
    refine ⟨?_, ?_, ?_⟩
    · refine (kept.mirrors.get filing.seq.toNat).trans ?_
      rw [OrderedMap.writeAll_get?, held]
      rfl
    · exact Filing.readRecordInto_record own.declared inside there
    · exact Filing.readFrame_record own.declared inside there
  · intro seq never
    refine (kept.mirrors.get seq).trans ?_
    have unwritten : last seq (placed DATA_START filings) = none := by
      refine last_eq_none ?_
      intro write member
      obtain ⟨filing, listed, same⟩ := placed_seq member
      rw [same]
      exact never filing listed
    rw [OrderedMap.writeAll_get?, unwritten]
    rfl
  · -- what is not dead is what the index holds
    have accounted := kept.accounted
    have total := OrderedMap.total_writeAll IndexEntry.recordLen (placed DATA_START filings)
    rw [weigh_placed DATA_START fits, weigh_replaced DATA_START fits] at total
    show (Replay.new.filedAll DATA_START filings).deadBytes = _
    omega

/-- A number filed twice, with a counter and without one. -/
def twice : List Filing :=
  [⟨7, some 8, ⟨ascii "D", by decide, by decide, by decide⟩, ascii "8=FIX", 3⟩,
    ⟨7, none, ⟨ascii "8", by decide, by decide, by decide⟩, ascii "RXFI", 0⟩]

theorem scan_written_twice : ∃ found,
    scan (encodePrefix (someHeader 1760000000 (by decide)) ⟨encodeSlot (emptySlot 1),
      encodeSlot (emptySlot 2)⟩ ++ (twice.map Filing.record).flatten)
        ((100 : UInt32).toNat + MAX_BODY_OVERHEAD) (.tail 1) = .ok found ∧
      ReadsBack (someHeader 1760000000 (by decide)) (emptySlot 1) (emptySlot 2) twice found := by
  have written : twice.mapM (Filing.sealed 100) = .ok (twice.map Filing.record) := by
    refine mapM_sealed ?_
    intro filing member
    simp only [twice, List.mem_cons, List.not_mem_nil, or_false] at member
    rcases member with rfl | rfl <;> exact ⟨by decide, by decide⟩
  have whole : DATA_START + (twice.map Filing.record).flatten.length ≤ u64Max := by decide
  have durable : (newer (emptySlot 1) (emptySlot 2)).2.durableEnd.toNat ≤
      DATA_START + (twice.map Filing.record).flatten.length := Nat.le_add_right _ _
  refine scan_written written (by decide) (by decide) (by decide) ?_ whole fun _ => durable
  intro filing member counter carried
  simp only [twice, List.mem_cons, List.not_mem_nil, or_false] at member
  rcases member with rfl | rfl
  · cases carried
    decide
  · cases carried

/-- What an empty journal that can be scanned keeps to. -/
theorem scan_empty {header : Header} {first second : Slot} {maxBody : Nat} {rule : DamageRule}
    {found : Scan}
    (scanned : scan (journalOf header first second []) maxBody rule = .ok found) :
    ∃ active slot next, newestSlot ⟨encodeSlot first, encodeSlot second⟩ = .ok (active, slot) ∧
      (rule.isTail → slot.durableEnd.toNat ≤ DATA_START) ∧
        checkedSucc (highestGeneration ⟨encodeSlot first, encodeSlot second⟩ slot .new) = some next := by
  obtain ⟨_, active, slot, endOffset, truncation, replay, next, went, -⟩ := scan_ok scanned
  have records := scans_of_ok went.records
  have newest := went.newest
  have generations := went.generations
  have durable := went.durable
  unfold journalOf at records newest generations
  rw [prefix_records] at records
  rw [prefix_slots] at newest generations
  refine ⟨active, slot, next, newest, ?_, ?_⟩
  · intro isTail
    have ends := (records.ends Replay.kept_new (by decide)).2.1
    exact Nat.not_lt.mp fun beyond => durable ⟨lt_of_le_of_lt ends beyond, isTail⟩
  · cases records with
    | done _ => exact generations
    | cut damage => cases damage
    | salvaged took _ _ => cases took
    | take took _ _ _ => cases took

/-- What is not read back: a creation time before the epoch, slots of one
generation that differ, a durable boundary behind the file, under a tail rule,
and a last generation. -/
theorem scan_unwritten :
    (∃ found, scan (journalOf (someHeader (-1) (by decide)) (emptySlot 1) (emptySlot 2) []) 100
      (.tail 1) = .ok found ∧ found.header ≠ someHeader (-1) (by decide)) ∧
    (∀ found, scan (journalOf (someHeader 0 (by decide)) (emptySlot 1)
      { emptySlot 1 with nextSender := 2 } []) 100 .anywhere ≠ .ok found) ∧
    (∀ found, scan (journalOf (someHeader 0 (by decide)) (emptySlot 1)
      { emptySlot 2 with durableEnd := 12289 } []) 100 (.tail 1) ≠ .ok found) ∧
    ∀ found, scan (journalOf (someHeader 0 (by decide)) (emptySlot 1)
      (emptySlot (.ofNat u64Max)) []) 100 .anywhere ≠ .ok found := by
  refine ⟨?_, ?_, ?_, ?_⟩
  · have left : highestGeneration ⟨encodeSlot (emptySlot 1), encodeSlot (emptySlot 2)⟩
        (newer (emptySlot 1) (emptySlot 2)).2 .new ≤ lastGeneration := by
      rw [highestGeneration_new (by decide)]
      decide
    have whole : DATA_START + (recordsOf []).length ≤ u64Max := by decide
    have durable : (newer (emptySlot 1) (emptySlot 2)).2.durableEnd.toNat ≤
        DATA_START + (recordsOf []).length := Nat.le_refl 12288
    have none_filed : ∀ filing ∈ ([] : List Filing), filing.Fits 100 := fun _ member => nomatch member
    have went : Scanned (journalOf (someHeader (-1) (by decide)) (emptySlot 1) (emptySlot 2) [] ++ [])
        100 (.tail 1) _ _ _ (DATA_START + (recordsOf []).length) none
          (Replay.new.filedAll DATA_START []) _ :=
      scanned_journal (by decide) none_filed whole (.done scanStep_nil) (fun _ => durable)
        (checkedSucc_some left)
    rw [List.append_nil] at went
    refine ⟨_, went.scan, ?_⟩
    show ({ someHeader (-1) (by decide) with creationTime :=
      (someHeader (-1) (by decide)).creationTime.recorded } : Header) ≠ _
    decide
  · intro found scanned
    obtain ⟨active, slot, next, newest, -⟩ := scan_empty scanned
    obtain ⟨error, refuses⟩ := @newestSlot_apart (emptySlot 1)
      { emptySlot 1 with nextSender := 2 } rfl (by decide)
    rw [refuses] at newest
    cases newest
  · intro found scanned
    obtain ⟨active, slot, next, newest, durable, -⟩ := scan_empty scanned
    rw [newestSlot_encode (by decide)] at newest
    cases newest
    exact absurd (durable rfl) (by decide)
  · intro found scanned
    obtain ⟨active, slot, next, -, -, generations⟩ := scan_empty scanned
    rw [highestGeneration_new (by decide)] at generations
    cases generations

end Journals

end IronFix.Store
