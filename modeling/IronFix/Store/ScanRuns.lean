import IronFix.Store.JournalBytes

/-!
# Runs of the recovery scan

What a scan takes it would take again from any prefix that holds it, so a
journal cut where its scan ended is scanned to the same end.
-/

namespace IronFix.Store

open Lib.Decimal Lib.Ordered Lib.Patch

/-! ## One record -/

/-- `rest` begins with a whole record of `body`. -/
structure Leads (maxBody : Nat) (rest : Bytes) (bodyLen : UInt32) (body : Bytes) : Prop where
  positive : 0 < bodyLen.toNat
  bounded : bodyLen.toNat ≤ maxBody
  whole : RECORD_HEADER_LEN + bodyLen.toNat ≤ rest.length
  head : rest.take RECORD_HEADER_LEN = recordHeader bodyLen body
  body_eq : body = span rest RECORD_HEADER_LEN bodyLen.toNat

section Steps

variable {maxBody : Nat} {rule : DamageRule} {boundary : Nat} {rest : Bytes} {offset : Nat}
  {bodyLen : UInt32} {body : Bytes}

/-- A record that leads is taken, whatever follows it and whatever the rule. -/
theorem Leads.step (leads : Leads maxBody rest bodyLen body) :
    scanStep maxBody rule boundary rest offset = .take bodyLen.toNat body := by
  have whole := leads.whole
  have positive := leads.positive
  have bounded := leads.bounded
  have some_left : ¬rest.length = 0 := by omega
  have header_whole : ¬rest.length < RECORD_HEADER_LEN := by omega
  have legal : ¬(bodyLen.toNat = 0 ∨ bodyLen.toNat > maxBody) := by omega
  have inside : ¬rest.length < RECORD_HEADER_LEN + bodyLen.toNat := by omega
  have crc : readU32 (putU32 (crc32 body)) = some (crc32 body, []) := by
    simpa only [List.append_nil] using readU32_put (crc32 body) []
  unfold scanStep
  dsimp only
  rw [if_neg some_left, if_neg header_whole, leads.head, recordHeader, readU32_put]
  dsimp only
  rw [readU32_put]
  dsimp only
  rw [crc]
  dsimp only
  rw [if_neg (not_not_intro rfl), if_neg legal, if_neg inside, ← leads.body_eq,
    if_neg (not_not_intro rfl)]

theorem Leads.of_step {len : Nat} (taken : scanStep maxBody rule boundary rest offset = .take len body) :
    ∃ bodyLen : UInt32, len = bodyLen.toNat ∧ Leads maxBody rest bodyLen body := by
  obtain ⟨positive, bounded, whole, rfl⟩ := scanStep_take maxBody rule boundary taken
  unfold scanStep cutUnlessDurable at taken
  dsimp only at taken
  repeat' split at taken
  all_goals first
    | cases taken
      rename_i bodyLen _ readLen _ check _ readCheck _ crc last readCrc complement _ _ checksum
      refine ⟨bodyLen, rfl, positive, bounded, whole, ?_, rfl⟩
      have words : rest.take RECORD_HEADER_LEN =
          putU32 bodyLen ++ (putU32 check ++ (putU32 crc ++ last)) := by
        rw [readU32_some readLen, readU32_some readCheck, readU32_some readCrc]
      -- three words fill the header
      have none_left : last = [] := by
        have count := congrArg List.length words
        simp only [List.length_append, putU32_length, List.length_take, RECORD_HEADER_LEN] at count
        unfold RECORD_HEADER_LEN at whole
        exact List.length_eq_zero_iff.mp (by omega)
      rw [words, none_left, not_not.mp complement, ← not_not.mp checksum, List.append_nil]
      exact rfl
    | cases taken

/-- A record leads a prefix that holds it. -/
theorem Leads.cut (leads : Leads maxBody rest bodyLen body) {n : Nat}
    (holds : RECORD_HEADER_LEN + bodyLen.toNat ≤ n) : Leads maxBody (rest.take n) bodyLen body where
  positive := leads.positive
  bounded := leads.bounded
  whole := by
    rw [List.length_take]
    exact le_min holds leads.whole
  head := by
    rw [List.take_take, Nat.min_eq_left (by omega)]
    exact leads.head
  body_eq := by
    rw [span_take holds]
    exact leads.body_eq

end Steps

/-! ## The records replayed -/

/-- What a replay is once it took a body. -/
def Replay.filed (replay : Replay) (offset len : Nat) (body : Body) : Replay :=
  { replay.countGeneration body.counter with
    index := (replay.index.insert body.seq.toNat ⟨offset, len⟩).2
    deadBytes := replay.deadBytes +
      ((replay.index.insert body.seq.toNat ⟨offset, len⟩).1.map IndexEntry.recordLen).getD 0 }

/-- The records up to `offset` are in the map or replaced. -/
structure Replay.Kept (replay : Replay) (map : OrderedMap Nat IndexEntry) (offset : Nat) : Prop where
  mirrors : replay.index.Mirrors map
  placed : ∀ seq entry, map.get? seq = some entry →
    DATA_START ≤ entry.offset ∧ entry.offset + entry.recordLen ≤ offset
  accounted : DATA_START + replay.deadBytes + map.total IndexEntry.recordLen = offset

section Records

variable {replay : Replay} {map : OrderedMap Nat IndexEntry} {offset len : Nat} {bytes : Bytes}
  {body : Body}

theorem Replay.kept_new : Replay.new.Kept .empty DATA_START where
  mirrors := Dense.mirrors_default
  placed := by
    intro seq entry filed
    cases filed
  accounted := rfl

theorem Replay.countGeneration_index (counter : Option (UInt64 × UInt64)) :
    (replay.countGeneration counter).index = replay.index := by
  cases counter <;> rfl

theorem Replay.countGeneration_deadBytes (counter : Option (UInt64 × UInt64)) :
    (replay.countGeneration counter).deadBytes = replay.deadBytes := by
  cases counter <;> rfl

/-- A body that decodes is filed: the count of replaced bytes is below the
offset, which is a word. -/
theorem Replay.Kept.record (kept : replay.Kept map offset) (isU64 : offset ≤ u64Max)
    (positive : 0 < len) (decoded : decodeBody bytes = .ok body) :
    replay.record offset len bytes = .ok () (replay.filed offset len body) ∧
      (replay.filed offset len body).Kept (map.insert body.seq.toNat ⟨offset, len⟩)
        (offset + (RECORD_HEADER_LEN + len)) := by
  have fits : (⟨offset, len⟩ : IndexEntry).Fits := ⟨isU64, positive⟩
  have isSeq : body.seq.toNat ≤ u64Max := Nat.le_of_lt_succ body.seq.toNat_lt
  obtain ⟨replaced, mirrors⟩ := kept.mirrors.insert isSeq fits
  have total := map.insert_total IndexEntry.recordLen body.seq.toNat ⟨offset, len⟩
  have accounted := kept.accounted
  have same : (replay.countGeneration body.counter).index = replay.index :=
    replay.countGeneration_index body.counter
  have dead : (replay.countGeneration body.counter).deadBytes = replay.deadBytes :=
    replay.countGeneration_deadBytes body.counter
  refine ⟨?_, mirrors, ?_, ?_⟩
  · unfold Replay.record
    rw [decoded]
    dsimp only
    rw [same, replaced]
    cases held : map.get? body.seq.toNat with
    | none =>
        unfold Replay.filed
        rw [replaced, held, ← dead]
        rfl
    | some entry =>
        have within := map.le_total IndexEntry.recordLen held
        have counted : checkedAdd u64Max replay.deadBytes entry.recordLen =
            some (replay.deadBytes + entry.recordLen) := by
          unfold checkedAdd
          rw [if_pos (by omega)]
        dsimp only
        rw [dead, counted]
        unfold Replay.filed
        rw [replaced, held]
        rfl
  · intro seq entry filed
    rw [OrderedMap.insert_get?] at filed
    split at filed
    · cases filed
      refine ⟨by show DATA_START ≤ offset; omega, ?_⟩
      unfold IndexEntry.recordLen
      exact le_of_eq rfl
    · obtain ⟨above, before⟩ := kept.placed seq entry filed
      exact ⟨above, before.trans (Nat.le_add_right _ _)⟩
  · unfold Replay.filed
    dsimp only
    rw [replaced]
    have own : (⟨offset, len⟩ : IndexEntry).recordLen = RECORD_HEADER_LEN + len := rfl
    rw [own] at total
    omega

/-- What fails in a replay changes nothing. -/
theorem Replay.record_error (replay : Replay) (offset len : Nat) {reason : String}
    (decoded : decodeBody bytes = .error reason) :
    replay.record offset len bytes = .error reason replay := by
  unfold Replay.record
  rw [decoded]

end Records

/-! ## Whole scans -/

section Runs

variable (maxBody : Nat) (rule : DamageRule) (boundary : Nat)

/-- The scans of `rest`, which is at `offset`, that succeed. -/
inductive Scans : Bytes → Nat → Replay → Nat → Option Truncation → Replay → Prop
  | done {rest : Bytes} {offset : Nat} {replay : Replay}
      (nothing : scanStep maxBody rule boundary rest offset = .done) :
      Scans rest offset replay offset none replay
  | cut {rest : Bytes} {offset : Nat} {replay : Replay} {cause : TruncationCause}
      (damage : scanStep maxBody rule boundary rest offset = .cut cause) :
      Scans rest offset replay offset (some ⟨offset, rest.length, cause⟩) replay
  | salvaged {rest : Bytes} {offset len : Nat} {body : Bytes} {replay after : Replay}
      {reason : String} (took : scanStep maxBody rule boundary rest offset = .take len body)
      (fails : replay.record offset len body = .error reason after) (salvage : rule = .salvage) :
      Scans rest offset replay offset (some ⟨offset, rest.length, .damaged⟩) after
  | take {rest : Bytes} {offset len next endOffset : Nat} {body : Bytes}
      {replay after final : Replay} {truncation : Option Truncation}
      (took : scanStep maxBody rule boundary rest offset = .take len body)
      (files : replay.record offset len body = .ok () after)
      (counted : checkedAdd u64Max offset (RECORD_HEADER_LEN + len) = some next)
      (later : Scans (rest.drop (RECORD_HEADER_LEN + len)) next after endOffset truncation final) :
      Scans rest offset replay endOffset truncation final

variable {maxBody : Nat} {rule : DamageRule} {boundary : Nat} {rest : Bytes} {offset endOffset : Nat}
  {replay final : Replay} {truncation : Option Truncation}

theorem scans_of_ok
    (scanned : scanRecords maxBody rule boundary rest offset replay = .ok (endOffset, truncation, final)) :
    Scans maxBody rule boundary rest offset replay endOffset truncation final := by
  fun_induction scanRecords maxBody rule boundary rest offset replay with
  | case1 rest offset replay nothing =>
      cases scanned
      exact .done nothing
  | case2 rest offset replay cause damage =>
      cases scanned
      exact .cut damage
  | case3 => cases scanned
  | case4 rest offset replay len body took after files next counted ih =>
      exact .take took files counted (ih scanned)
  | case5 => cases scanned
  | case6 rest offset replay len body took reason after fails salvage =>
      cases scanned
      exact .salvaged took fails salvage
  | case7 => cases scanned

theorem Scans.ok (scans : Scans maxBody rule boundary rest offset replay endOffset truncation final) :
    scanRecords maxBody rule boundary rest offset replay = .ok (endOffset, truncation, final) := by
  induction scans with
  | done nothing =>
      unfold scanRecords
      split <;> simp_all
  | cut damage =>
      unfold scanRecords
      split <;> simp_all
  | salvaged took fails salvage =>
      unfold scanRecords
      split <;> simp_all
  | take took files counted later ih =>
      unfold scanRecords
      split <;> simp_all

/-- Nothing to read is where the file ends. -/
theorem scanStep_done (nothing : scanStep maxBody rule boundary rest offset = .done) : rest = [] := by
  unfold scanStep cutUnlessDurable at nothing
  dsimp only at nothing
  split at nothing
  · exact List.length_eq_zero_iff.mp ‹_›
  · repeat' split at nothing
    all_goals cases nothing

theorem scanStep_nil : scanStep maxBody rule boundary [] offset = .done := rfl

/-- The cut a scan asks for drops what lies behind its end. -/
def CutsFrom (truncation : Option Truncation) (endOffset fileLen : Nat) : Prop :=
  match truncation with
  | none => endOffset = fileLen
  | some cut => cut.offset = endOffset ∧ cut.offset + cut.droppedBytes = fileLen

/-- A scan ends in its file, with every record it replayed before that end,
and finds them alone in a file cut there. -/
theorem Scans.ends (scans : Scans maxBody rule boundary rest offset replay endOffset truncation final)
    {map : OrderedMap Nat IndexEntry} (kept : replay.Kept map offset) (isU64 : offset ≤ u64Max) :
    offset ≤ endOffset ∧ endOffset ≤ offset + rest.length ∧
      CutsFrom truncation endOffset (offset + rest.length) ∧ (∃ held, final.Kept held endOffset) ∧
      Scans maxBody rule boundary (rest.take (endOffset - offset)) offset replay endOffset none final := by
  induction scans generalizing map with
  | done nothing =>
      have empty := scanStep_done nothing
      subst empty
      exact ⟨le_refl _, le_refl _, rfl, ⟨map, kept⟩, by simpa using .done nothing⟩
  | @cut rest offset replay cause damage =>
      refine ⟨le_refl _, Nat.le_add_right _ _, ⟨rfl, rfl⟩, ⟨map, kept⟩, ?_⟩
      rw [Nat.sub_self, List.take_zero]
      exact .done scanStep_nil
  | @salvaged rest offset len body replay after reason took fails salvage =>
      -- a body that decodes is filed, so the replay is as it was
      have unchanged : after = replay := by
        cases decoded : decodeBody body with
        | error reason =>
            rw [Replay.record_error replay offset len decoded] at fails
            cases fails
            rfl
        | ok decodedBody =>
            have positive := (scanStep_take maxBody rule boundary took).1
            rw [(kept.record isU64 positive decoded).1] at fails
            cases fails
      subst unchanged
      refine ⟨le_refl _, Nat.le_add_right _ _, ⟨rfl, rfl⟩, ⟨map, kept⟩, ?_⟩
      rw [Nat.sub_self, List.take_zero]
      exact .done scanStep_nil
  | @take rest offset len next endOffset body replay after final truncation took files counted later ih =>
      obtain ⟨bodyLen, rfl, leads⟩ := Leads.of_step took
      obtain ⟨rfl, isU64'⟩ := checkedAdd_eq_some.mp counted
      have whole := leads.whole
      have kept' : ∃ held, after.Kept held (offset + (RECORD_HEADER_LEN + bodyLen.toNat)) := by
        cases decoded : decodeBody body with
        | error reason =>
            rw [Replay.record_error replay offset _ decoded] at files
            cases files
        | ok decodedBody =>
            obtain ⟨recorded, kept'⟩ := kept.record isU64 leads.positive decoded
            rw [recorded] at files
            cases files
            exact ⟨_, kept'⟩
      obtain ⟨held, kept'⟩ := kept'
      obtain ⟨reached, inside, cuts, final_kept, again⟩ := ih kept' isU64'
      have left : offset + (RECORD_HEADER_LEN + bodyLen.toNat) +
          (rest.drop (RECORD_HEADER_LEN + bodyLen.toNat)).length = offset + rest.length := by
        rw [List.length_drop]
        omega
      rw [left] at inside cuts
      refine ⟨by omega, inside, cuts, final_kept, ?_⟩
      have first : scanStep maxBody rule boundary (rest.take (endOffset - offset)) offset =
          .take bodyLen.toNat body := (leads.cut (by omega)).step
      refine .take first files counted ?_
      have cutShort : (rest.take (endOffset - offset)).drop (RECORD_HEADER_LEN + bodyLen.toNat) =
          (rest.drop (RECORD_HEADER_LEN + bodyLen.toNat)).take
            (endOffset - (offset + (RECORD_HEADER_LEN + bodyLen.toNat))) := by
        rw [List.drop_take]
        congr 1
        omega
      rw [cutShort]
      exact again

end Runs

/-! ## Robustness -/

/-- The slots of a file cut behind them. -/
theorem slotImages_take {file : Bytes} {n : Nat} (whole : DATA_START ≤ file.length)
    (short : DATA_START ≤ (file.take n).length) :
    slotImages (file.take n) short = slotImages file whole := by
  have long : DATA_START ≤ n := by
    rw [List.length_take] at short
    omega
  have same : ∀ position, slotImageAt (file.take n) short position = slotImageAt file whole position := by
    intro position
    have inside : slotOffset position + SLOT_LEN ≤ DATA_START := by
      revert position
      decide
    unfold slotImageAt
    congr 1
    exact span_take (inside.trans long)
  unfold slotImages
  rw [same 0, same 1]

/-- What a scan finds, whatever the file: its end and its records are inside
the file, nothing below the durable boundary of the newest slot is cut, and a
file cut at the end is scanned to the same state with nothing to cut. -/
theorem scan_robust {file : Bytes} {maxBody : Nat} {rule : DamageRule} {found : Scan}
    (scanned : scan file maxBody rule = .ok found) :
    found.endOffset ≤ file.length ∧
      CutsFrom found.truncation found.endOffset file.length ∧
      (∀ seq entry, found.index.get seq = some entry →
        DATA_START ≤ entry.offset ∧ entry.offset + entry.recordLen ≤ found.endOffset) ∧
      (∃ whole slot, newestSlot (slotImages file whole) = .ok (found.active, slot) ∧
        found.boundary = slot.durableEnd.toNat ∧
          (rule.isTail → slot.durableEnd.toNat ≤ found.endOffset)) ∧
      scan (file.take found.endOffset) maxBody rule = .ok { found with truncation := none } := by
  obtain ⟨header, active, slot, endOffset, truncation, replay, nextGeneration, went, rfl⟩ :=
    scan_ok scanned
  have whole := went.whole
  have scans := scans_of_ok went.records
  obtain ⟨reached, inside, cuts, ⟨held, kept⟩, again⟩ :=
    scans.ends Replay.kept_new (show DATA_START ≤ u64Max by decide)
  have total : DATA_START + (file.drop DATA_START).length = file.length := by
    rw [List.length_drop]
    omega
  rw [total] at inside cuts
  have short : DATA_START ≤ (file.take endOffset).length := by
    rw [List.length_take]
    omega
  refine ⟨inside, cuts, ?_, ⟨whole, slot, went.newest, rfl, ?_⟩, ?_⟩
  · intro seq entry indexed
    refine kept.placed seq entry ?_
    rw [← kept.mirrors.get]
    exact indexed
  · intro isTail
    have durable := went.durable
    exact Nat.not_lt.mp fun below => durable ⟨below, isTail⟩
  · have headed : (file.take endOffset).take HEADER_LEN = file.take HEADER_LEN := by
      have behind : HEADER_LEN ≤ endOffset := le_trans (by decide) reached
      rw [List.take_take, Nat.min_eq_left behind]
    have cutScan : Scanned (file.take endOffset) maxBody rule header active slot endOffset none
        replay nextGeneration := by
      refine ⟨short, ?_, ?_, ?_, went.durable, ?_⟩
      · rw [headed]
        exact went.header
      · rw [slotImages_take whole]
        exact went.newest
      · rw [List.drop_take]
        exact again.ok
      · rw [slotImages_take whole]
        exact went.generations
    rw [show (Scan.found header (slotImages file whole) active slot endOffset truncation replay
      nextGeneration).endOffset = endOffset from rfl, cutScan.scan, slotImages_take whole]
    rfl

/-- A header of a journal created at `secs`. -/
def someHeader (secs : Int) (isI64 : -2 ^ 63 ≤ secs ∧ secs ≤ i64Max) : Header :=
  ⟨⟨secs, 5, by decide, isI64⟩, 1, 1⟩

/-- A slot of a journal without records. -/
def emptySlot (generation : UInt64) : Slot := ⟨generation, 1, 1, 12288, 0, false⟩

/-- A journal without records that ends in a torn one. -/
theorem scan_robust_torn :
    let file := encodePrefix (someHeader 1760000000 (by decide)) ⟨encodeSlot (emptySlot 1),
      encodeSlot (emptySlot 2)⟩ ++ [7]
    ∃ found, scan file 100 (.tail 1) = .ok found ∧
      found.truncation = some ⟨DATA_START, 1, .incomplete⟩ ∧
        scan (file.take found.endOffset) 100 (.tail 1) = .ok { found with truncation := none } := by
  intro file
  have torn : scanStep 100 (.tail 1) 12288 [7] DATA_START = .cut .incomplete := rfl
  have generations : checkedSucc (highestGeneration ⟨encodeSlot (emptySlot 1),
      encodeSlot (emptySlot 2)⟩ (emptySlot 2) .new) = some 3 := by
    rw [highestGeneration_new (by decide)]
    rfl
  let opened : Header := { someHeader 1760000000 (by decide) with
    creationTime := (someHeader 1760000000 (by decide)).creationTime.recorded }
  have went : Scanned file 100 (.tail 1) opened 1 (emptySlot 2) DATA_START
      (some ⟨DATA_START, 1, .incomplete⟩) .new 3 := by
    refine ⟨prefix_whole _ _ _, prefix_header _ _ _, ?_, ?_, ?_, ?_⟩
    · rw [prefix_slots]
      exact newestSlot_encode (by decide)
    · rw [prefix_records]
      exact (Scans.cut torn).ok
    · rintro ⟨below, -⟩
      exact absurd below (by decide)
    · rw [prefix_slots]
      exact generations
  exact ⟨_, went.scan, rfl, (scan_robust went.scan).2.2.2.2⟩

end IronFix.Store
