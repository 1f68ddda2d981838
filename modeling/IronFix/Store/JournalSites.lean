import IronFix.Store.JournalFile

/-!
# The frames of a journal file

Each record of a journal stands at a site: its frame and its offset. The last
site of every number is what the index points to, so what the index leads to is
what was filed last, and a copy of those records alone is a journal of the same
frames.
-/

namespace IronFix.Store

open Lib.Decimal Lib.FaultyDisk Lib.Ordered Lib.Patch Lib.Steps

/-! ## Sites -/

/-- A frame and the offset of its record. -/
structure Site where
  offset : Nat
  filing : Filing

namespace Site

def entry (site : Site) : IndexEntry := site.filing.entryAt site.offset

def frame (site : Site) : MsgType × Bytes := (site.filing.msgType, site.filing.frame)

/-- The message a read answers with. -/
def message (site : Site) : StoredMessage :=
  ⟨site.filing.seq.toNat, site.filing.msgType, site.filing.frame⟩

/-- The record is in the file, whole. -/
structure In (file : Bytes) (site : Site) : Prop where
  declared : site.filing.bodyLen.toNat = site.filing.body.length
  inside : site.offset + site.filing.record.length ≤ file.length
  there : span file site.offset site.filing.record.length = site.filing.record

end Site

/-- The site of each frame, from `offset` on. -/
def sites : Nat → List Filing → List (Nat × Site)
  | _, [] => []
  | offset, filing :: later =>
      (filing.seq.toNat, ⟨offset, filing⟩) :: sites (offset + filing.record.length) later

section Sites

variable {maxBody offset : Nat} {filings : List Filing} {file : Bytes} {site : Nat × Site}

theorem placed_eq : placed offset filings = (sites offset filings).map fun site => (site.1, site.2.entry) := by
  induction filings generalizing offset with
  | nil => rfl
  | cons filing later ih =>
      rw [placed, sites, List.map_cons, ih]
      rfl

theorem sites_append (before after : List Filing) : sites offset (before ++ after) =
    sites offset before ++ sites (offset + (recordsOf before).length) after := by
  induction before generalizing offset with
  | nil => rfl
  | cons filing before ih =>
      rw [List.cons_append, sites, sites, ih, recordsOf_cons, List.length_append, Nat.add_assoc]
      rfl

theorem sites_key (member : site ∈ sites offset filings) :
    site.1 = site.2.filing.seq.toNat ∧ site.2.filing ∈ filings := by
  induction filings generalizing offset with
  | nil => cases member
  | cons filing later ih =>
      rcases List.mem_cons.mp member with rfl | behind
      · exact ⟨rfl, List.mem_cons_self⟩
      · obtain ⟨key, listed⟩ := ih behind
        exact ⟨key, List.mem_cons_of_mem _ listed⟩

/-- Every record is in a file of the records. -/
theorem sites_in (records : file.drop offset = recordsOf filings) (starts : offset ≤ file.length)
    (fits : ∀ filing ∈ filings, filing.Fits maxBody) (member : site ∈ sites offset filings) :
    site.2.In file := by
  induction filings generalizing offset with
  | nil => cases member
  | cons filing later ih =>
      rw [recordsOf_cons] at records
      have length : filing.record.length ≤ (file.drop offset).length := by
        rw [records, List.length_append]
        exact Nat.le_add_right _ _
      rw [List.length_drop] at length
      rcases List.mem_cons.mp member with rfl | behind
      · refine ⟨(fits filing List.mem_cons_self).declared, ?_, ?_⟩
        · show offset + filing.record.length ≤ file.length
          omega
        · show (file.drop offset).take filing.record.length = filing.record
          rw [records, List.take_left]
      · refine ih ?_ ?_ (fun other listed => fits other (List.mem_cons_of_mem _ listed)) behind
        · rw [← List.drop_drop, records, List.drop_left]
        · omega

end Sites

/-! ## What is filed -/

/-- The last site of each number. -/
def filed (filings : List Filing) : OrderedMap Nat Site :=
  (OrderedMap.empty).writeAll (sites DATA_START filings)

/-- The frame filed last under each number. -/
def framesOf (filings : List Filing) : OrderedMap Nat (MsgType × Bytes) :=
  (filed filings).mapValues Site.frame

/-- The frames filed last, ascending. -/
def liveOf (filings : List Filing) : List Filing :=
  (filed filings).entries.map fun entry => entry.2.filing

section Filed

variable {maxBody : Nat} {filings : List Filing} {file : Bytes} {slots : SlotImages}

theorem filed_concat (filing : Filing) : filed (filings ++ [filing]) =
    (filed filings).insert filing.seq.toNat ⟨DATA_START + (recordsOf filings).length, filing⟩ := by
  unfold filed
  rw [sites_append]
  exact OrderedMap.writeAll_concat ..

/-- A frame filed is the one read under its number. -/
theorem framesOf_concat (filing : Filing) : framesOf (filings ++ [filing]) =
    (framesOf filings).insert filing.seq.toNat (filing.msgType, filing.frame) := by
  refine OrderedMap.eq_of_get? ?_
  intro seq
  unfold framesOf
  rw [filed_concat, OrderedMap.mapValues_get?, OrderedMap.insert_get?, OrderedMap.insert_get?,
    OrderedMap.mapValues_get?]
  split <;> rfl

theorem mem_filed {seq : Nat} {site : Site} (member : (seq, site) ∈ (filed filings).entries) :
    (seq, site) ∈ sites DATA_START filings := by
  have held := (OrderedMap.mem_entries _).mp member
  rw [filed, OrderedMap.writeAll_get?] at held
  refine mem_of_last ?_
  cases written : last seq (sites DATA_START filings) with
  | none =>
      rw [written] at held
      cases held
  | some value =>
      rw [written] at held
      exact held

theorem FileOf.filed_in (holds : FileOf maxBody file slots filings) {seq : Nat} {site : Site}
    (member : (seq, site) ∈ (filed filings).entries) :
    site.In file ∧ seq = site.filing.seq.toNat ∧ site.filing ∈ filings := by
  have listed := mem_filed member
  obtain ⟨key, among⟩ := sites_key listed
  exact ⟨sites_in holds.records holds.whole holds.fits listed, key, among⟩

theorem filed_isU64 {seq : Nat} {site : Site} (member : (seq, site) ∈ (filed filings).entries) :
    seq ≤ u64Max := by
  obtain ⟨key, -⟩ := sites_key (mem_filed member)
  rw [show seq = site.filing.seq.toNat from key]
  exact Nat.le_of_lt_succ site.filing.seq.toNat_lt

/-- What the index holds in a range is the entries of the sites. -/
theorem FileOf.range (holds : FileOf maxBody file slots filings) (first last : Nat) :
    ((replayOf filings).index.range first last).collect =
      ((filed filings).range first last).map fun entry => (entry.1, entry.2.entry) := by
  rw [holds.kept.mirrors.range, placed_eq, ← OrderedMap.mapValues_writeAll, OrderedMap.mapValues_range]
  rfl

theorem filed_all : (filed filings).range 0 u64Max = (filed filings).entries := by
  unfold OrderedMap.range
  rw [List.filter_eq_self]
  intro entry member
  exact decide_eq_true ⟨Nat.zero_le _, filed_isU64 member⟩

theorem sites_frames {offset : Nat} : (sites offset filings).map (fun site => (site.1, site.2.frame)) =
    filings.map fun filing => (filing.seq.toNat, filing.msgType, filing.frame) := by
  induction filings generalizing offset with
  | nil => rfl
  | cons filing later ih =>
      rw [sites, List.map_cons, List.map_cons, ih]
      rfl

theorem placed_keys {offset : Nat} :
    (placed offset filings).map Prod.fst = filings.map fun filing => filing.seq.toNat := by
  induction filings generalizing offset with
  | nil => rfl
  | cons filing later ih =>
      rw [placed, List.map_cons, List.map_cons, ih]

/-- Where the frames are does not matter. -/
theorem framesOf_eq : framesOf filings = (OrderedMap.empty).writeAll
    (filings.map fun filing => (filing.seq.toNat, filing.msgType, filing.frame)) := by
  unfold framesOf filed
  rw [OrderedMap.mapValues_writeAll, sites_frames]

theorem filed_key {entry : Nat × Site} (member : entry ∈ (filed filings).entries) :
    entry.1 = entry.2.filing.seq.toNat ∧ entry.2.filing ∈ filings := sites_key (mem_filed member)

/-- What is filed last is filed once. -/
theorem liveOf_keys : (liveOf filings).map (fun filing => filing.seq.toNat) =
    (filed filings).entries.map Prod.fst := by
  unfold liveOf
  rw [List.map_map]
  refine List.map_congr_left ?_
  intro entry member
  exact (filed_key member).1.symm

theorem mem_liveOf {filing : Filing} (member : filing ∈ liveOf filings) : filing ∈ filings := by
  obtain ⟨entry, listed, rfl⟩ := List.mem_map.mp member
  exact (filed_key listed).2

/-- The frames filed last are all there is to read. -/
theorem framesOf_liveOf : framesOf (liveOf filings) = framesOf filings := by
  have same : (liveOf filings).map (fun filing => (filing.seq.toNat, filing.msgType, filing.frame)) =
      (framesOf filings).entries := by
    unfold liveOf framesOf OrderedMap.mapValues
    rw [List.map_map]
    refine List.map_congr_left ?_
    intro entry member
    obtain ⟨key, -⟩ := filed_key member
    rw [key]
    rfl
  rw [framesOf_eq, same, OrderedMap.writeAll_entries]

theorem liveOf_fits (fits : ∀ filing ∈ filings, filing.Fits maxBody) :
    ∀ filing ∈ liveOf filings, filing.Fits maxBody := fun filing member => fits filing (mem_liveOf member)

/-- Frames filed once each replace nothing. -/
theorem replayOf_liveOf (fits : ∀ filing ∈ filings, filing.Fits maxBody)
    (isU64 : DATA_START + (recordsOf (liveOf filings)).length ≤ u64Max) :
    (replayOf (liveOf filings)).deadBytes = 0 := by
  have fits' := liveOf_fits fits
  have kept : (replayOf (liveOf filings)).Kept _ _ := Replay.filedAll_kept Replay.kept_new fits' isU64
  have accounted := kept.accounted
  have total := OrderedMap.total_writeAll IndexEntry.recordLen (placed DATA_START (liveOf filings))
  have distinct : ((placed DATA_START (liveOf filings)).map Prod.fst).Nodup := by
    rw [placed_keys, liveOf_keys]
    have sorted := (filed filings).ascending
    unfold Ascending at sorted
    exact (List.pairwise_map.mpr sorted).imp ne_of_lt
  rw [weigh_placed DATA_START fits', overwritten_distinct distinct] at total
  simp only [weigh, List.map_nil, List.sum_nil] at total
  omega

end Filed

/-! ## Reads -/

section Reads

variable {maxBody : Nat} {filings : List Filing} {file : Bytes} {slots : SlotImages}

/-- A step that changes nothing but what the coming reads answer. -/
def Looks {α : Type} (step : DiskStep α) (disk : Disk UInt8) (value : α) : Prop :=
  ∃ later, step disk = .ok value { disk with reads := later } ∨
    ∃ reason context, step disk = .error (ioError context reason) { disk with reads := later }

namespace Looks

variable {α β : Type} {step : DiskStep α} {disk : Disk UInt8} {value : α} {other : β}

theorem pure (value : α) : Looks (pure value) disk value := ⟨disk.reads, .inl rfl⟩

theorem look (context : String) : Looks (named context look) disk () := by
  obtain ⟨later, done | ⟨reason, failed⟩⟩ := look_eq _ (show Lib.FaultyDisk.look disk = _ from rfl)
  · refine ⟨later, .inl ?_⟩
    unfold named mapError
    rw [done]
  · refine ⟨later, .inr ⟨reason, context, ?_⟩⟩
    unfold named mapError
    rw [failed]

theorem bind {next : α → DiskStep β} (first : Looks step disk value)
    (rest : ∀ reads, Looks (next value) { disk with reads := reads } other) :
    Looks (step >>= next) disk other := by
  obtain ⟨between, answered | ⟨reason, context, failed⟩⟩ := first
  · obtain ⟨later, done⟩ := rest between
    refine ⟨later, ?_⟩
    rw [bind_apply, answered]
    exact done
  · refine ⟨between, .inr ⟨reason, context, ?_⟩⟩
    rw [bind_apply, failed]

end Looks

theorem Site.In.read {site : Site} (whole : site.In file) (reads writes : List Outcome) (renames : Nat) :
    Looks (readRecord site.filing.seq.toNat site.entry) ⟨file, reads, writes, renames⟩
      (site.filing.record, site.filing.record.length - site.filing.frame.length, site.filing.msgType) := by
  refine .bind (.look _) ?_
  intro later
  refine ⟨later, .inl ?_⟩
  rw [bind_apply, get_apply]
  dsimp only
  rw [show readRecordInto file site.filing.seq.toNat site.entry = _ from
    Filing.readRecordInto_record whole.declared whole.inside whole.there]
  rfl

/-- The frames of the sites are read back. -/
theorem readFrames_looks {entries : List (Nat × Site)}
    (each : ∀ entry ∈ entries, entry.2.In file ∧ entry.1 = entry.2.filing.seq.toNat)
    (reads writes : List Outcome) (renames : Nat) :
    Looks (readFrames (entries.map fun entry => (entry.1, entry.2.entry))) ⟨file, reads, writes, renames⟩
      (entries.map fun entry => entry.2.message) := by
  induction entries generalizing reads with
  | nil => exact .pure []
  | cons entry entries ih =>
      obtain ⟨whole, key⟩ := each entry List.mem_cons_self
      rw [List.map_cons, readFrames, key]
      refine .bind (whole.read reads writes renames) ?_
      intro later
      refine .bind (ih (fun other member => each other (List.mem_cons_of_mem _ member)) later) ?_
      intro last
      dsimp only
      rw [Filing.record_frame]
      exact .pure _

end Reads

end IronFix.Store
