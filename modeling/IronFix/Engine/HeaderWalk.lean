import Mathlib.Data.List.Induction
import IronFix.Engine.MalformedHeader

/-!
# What the positional read sees

A scan goes past a run of header fields in their places (`Walk`) and stops. What
it returns is what that run carries, whatever stands behind it.
-/

namespace IronFix.Engine

open Lib.Slice Lib.Decimal IronFix.TagValue IronFix.Session

/-- Header fields in their places, one behind the other. -/
inductive Walk : Nat → Option PendingData → List TagValue.Entry → Nat → Option PendingData → Prop
  | nil (position : Nat) (pending : Option PendingData) : Walk position pending [] position pending
  | cons {position last : Nat} {pending next final : Option PendingData} {entry : TagValue.Entry}
      {entries : List TagValue.Entry}
      (parsed : (parseAsciiU64 entry.tagText 9).bind u32TryFrom = some entry.field.tag)
      (framed : FramedBy (countedBy pending entry.field.tag) entry.field.value)
      (place : inPlace position entry.field.tag = true)
      (counts : scanCount entry.field = some next) (rest : Walk (position + 1) next entries last final) :
      Walk position pending (entry :: entries) last final

theorem inPlace_standard {position tag : Nat} (place : inPlace position tag = true) :
    isStandardHeaderTag tag = true := by
  unfold inPlace at place
  split at place
  · rw [beq_iff_eq.mp place]
    rfl
  · rw [beq_iff_eq.mp place]
    rfl
  · rw [beq_iff_eq.mp place]
    rfl
  · exact (Bool.and_eq_true_iff.mp place).1

theorem TagValue.Entry.bytes_length (entry : TagValue.Entry) :
    entry.bytes.length = entry.tagText.length + entry.field.value.length + 2 :=
  fieldBytes_length _ _

section Walk

variable {position last : Nat} {pending final : Option PendingData} {entries : List TagValue.Entry}

theorem Walk.last_eq (walk : Walk position pending entries last final) :
    last = position + entries.length := by
  induction walk with
  | nil position pending => rfl
  | cons _ _ _ _ _ ih =>
      rw [ih, List.length_cons]
      omega

theorem Walk.standard (walk : Walk position pending entries last final) :
    ∀ entry ∈ entries, isStandardHeaderTag entry.field.tag = true := by
  induction walk with
  | nil position pending => exact nofun
  | cons _ _ place _ _ ih =>
      intro other member
      rcases List.mem_cons.mp member with rfl | later
      · exact inPlace_standard place
      · exact ih other later

/-- Every field takes more than one byte. -/
theorem wireOf_length_ge (entries : List TagValue.Entry) : entries.length ≤ (wireOf entries).length := by
  induction entries with
  | nil => rfl
  | cons entry entries ih =>
      rw [wireOf_cons, List.length_append, List.length_cons, TagValue.Entry.bytes_length]
      omega

end Walk

/-! ## The loop -/

def Notes.read (notes : Notes) (entries : List TagValue.Entry) : Notes :=
  (entries.map TagValue.Entry.field).foldl Notes.note notes

namespace HeaderScan

theorem loop_on {scan next : HeaderScan} (passes : scan.pass = .ok next) (fuel : Nat) :
    scan.loop (fuel + 1) = next.loop fuel := by
  rw [loop, passes]

theorem loop_stops {scan : HeaderScan} (stops : scan.pass = .error scan) (fuel : Nat) :
    scan.loop fuel = scan := by
  cases fuel with
  | zero => rfl
  | succ fuel =>
      rw [loop, stops]

/-- The loop goes past a walk. -/
theorem loop_walk {scan : HeaderScan} {entries : List TagValue.Entry} {last : Nat}
    {final : Option PendingData} (walk : Walk scan.position scan.pendingData entries last final)
    {rest : Bytes} (split : scan.rest = wireOf entries ++ rest)
    (room : scan.position + scan.rest.length ≤ usizeMax) (fuel : Nat) :
    scan.loop (entries.length + fuel) = loop fuel ⟨scan.notes.read entries, final, rest, last⟩ := by
  obtain ⟨notes, pending, bytes, position⟩ := scan
  dsimp only at walk split room
  induction walk generalizing notes bytes with
  | nil position pending =>
      rw [split, List.length_nil, Nat.zero_add]
      rfl
  | @cons position last pending next final entry entries parsed framed place counts walk ih =>
      rw [wireOf_cons, List.append_assoc] at split
      have lengths := congrArg List.length split
      rw [List.length_append, TagValue.Entry.bytes_length] at lengths
      have passes : pass ⟨notes, pending, bytes, position⟩ =
          .ok ⟨notes.note entry.field, next, wireOf entries ++ rest, position + 1⟩ :=
        pass_field room split parsed framed place counts
      rw [List.length_cons, Nat.add_right_comm, loop_on passes]
      exact ih (notes.note entry.field) _ rfl (by omega)

/-- Every run of the loop with enough passes goes past a walk and stops behind it. -/
theorem loop_walks (scan : HeaderScan) (room : scan.position + scan.rest.length ≤ usizeMax)
    {fuel : Nat} (enough : scan.rest.length < fuel) :
    ∃ entries last final rest, Walk scan.position scan.pendingData entries last final ∧
      scan.rest = wireOf entries ++ rest ∧
      scan.loop fuel = ⟨scan.notes.read entries, final, rest, last⟩ ∧
      pass ⟨scan.notes.read entries, final, rest, last⟩ =
        .error ⟨scan.notes.read entries, final, rest, last⟩ := by
  induction fuel generalizing scan with
  | zero => omega
  | succ fuel ih =>
      rcases scan.pass_cases room with stops |
        ⟨tagText, value, tag, rest, pending, split, parsed, framed, place, counts, passes⟩
      · exact ⟨[], scan.position, scan.pendingData, scan.rest, .nil _ _, rfl, loop_stops stops _, stops⟩
      · have lengths := congrArg List.length split
        rw [List.length_append, fieldBytes_length] at lengths
        obtain ⟨entries, last, final, more, walk, same, loops, stops⟩ :=
          ih ⟨scan.notes.note ⟨tag, value⟩, pending, rest, scan.position + 1⟩
            (by dsimp only; omega) (by dsimp only; omega)
        refine ⟨⟨tagText, ⟨tag, value⟩⟩ :: entries, last, final, more,
          .cons parsed framed place counts walk, ?_, ?_, stops⟩
        · dsimp only at same
          rw [split, same, wireOf_cons, List.append_assoc]
          rfl
        · rw [loop_on passes, loops]
          rfl

/-- How many passes are allowed does not matter, once they are enough. -/
theorem loop_terminates (scan : HeaderScan) (room : scan.position + scan.rest.length ≤ usizeMax)
    {fuel more : Nat} (enough : scan.rest.length < fuel) (plenty : scan.rest.length < more) :
    scan.loop more = scan.loop fuel := by
  obtain ⟨entries, last, final, rest, walk, split, loops, stops⟩ := loop_walks scan room enough
  have fewer := wireOf_length_ge entries
  have lengths := congrArg List.length split
  rw [List.length_append] at lengths
  have behind := loop_walk walk split room (more - entries.length)
  rw [show entries.length + (more - entries.length) = more by omega] at behind
  rw [behind, loops, loop_stops stops]

end HeaderScan

/-! ## What is noted -/

/-- The fields of a tag. -/
def ofTag (tag : Nat) (fields : List FieldRef) : List FieldRef :=
  fields.filter fun field => field.tag == tag

/-- The header a run of fields carries: MsgSeqNum if it is there once, the other
two by their last occurrence. -/
def headerOf (fields : List FieldRef) : MalformedHeader where
  seq :=
    match ofTag 34 fields with
    | [field] => parseAsciiU64 field.value 20
    | _ => none
  possDup := (ofTag 43 fields).getLast?.any fun field => field.value == YES
  msgType := (ofTag 35 fields).getLast?.bind fun field => validMsgType field.value

theorem ofTag_snoc_self {tag : Nat} {field : FieldRef} (same : field.tag = tag)
    (fields : List FieldRef) : ofTag tag (fields ++ [field]) = ofTag tag fields ++ [field] := by
  simp [ofTag, same]

theorem ofTag_snoc_other {tag : Nat} {field : FieldRef} (other : field.tag ≠ tag)
    (fields : List FieldRef) : ofTag tag (fields ++ [field]) = ofTag tag fields := by
  simp [ofTag, other]

/-- The notes of a run of fields. -/
structure Notes.Tell (notes : Notes) (fields : List FieldRef) : Prop where
  seq : notes.found.seq = (ofTag 34 fields).getLast?.bind fun field => parseAsciiU64 field.value 20
  seqSeen : notes.seqSeen = true ↔ 1 ≤ (ofTag 34 fields).length
  seqRepeated : notes.seqRepeated = true ↔ 2 ≤ (ofTag 34 fields).length
  possDup : notes.found.possDup = (ofTag 43 fields).getLast?.any fun field => field.value == YES
  msgType : notes.found.msgType = (ofTag 35 fields).getLast?.bind fun field => validMsgType field.value

theorem Notes.Tell.note {notes : Notes} {fields : List FieldRef} (tells : notes.Tell fields)
    (field : FieldRef) : (notes.note field).Tell (fields ++ [field]) := by
  unfold Notes.note
  by_cases msgType : field.tag = 35
  · rw [if_pos msgType]
    have dup : field.tag ≠ 43 := by omega
    have seq : field.tag ≠ 34 := by omega
    refine ⟨?_, ?_, ?_, ?_, ?_⟩
    · rw [ofTag_snoc_other seq]
      exact tells.seq
    · rw [ofTag_snoc_other seq]
      exact tells.seqSeen
    · rw [ofTag_snoc_other seq]
      exact tells.seqRepeated
    · rw [ofTag_snoc_other dup]
      exact tells.possDup
    · rw [ofTag_snoc_self msgType, List.getLast?_concat]
      rfl
  · rw [if_neg msgType]
    by_cases seq : field.tag = 34
    · rw [if_pos seq]
      have dup : field.tag ≠ 43 := by omega
      refine ⟨?_, ?_, ?_, ?_, ?_⟩
      · rw [ofTag_snoc_self seq, List.getLast?_concat]
        rfl
      · rw [ofTag_snoc_self seq, List.length_append, List.length_singleton]
        simp
      · rw [ofTag_snoc_self seq, List.length_append, List.length_singleton]
        have seen := tells.seqSeen
        have repeated := tells.seqRepeated
        simp only [Bool.or_eq_true, seen, repeated]
        omega
      · rw [ofTag_snoc_other dup]
        exact tells.possDup
      · rw [ofTag_snoc_other msgType]
        exact tells.msgType
    · rw [if_neg seq]
      by_cases dup : field.tag = 43
      · rw [if_pos dup]
        refine ⟨?_, ?_, ?_, ?_, ?_⟩
        · rw [ofTag_snoc_other seq]
          exact tells.seq
        · rw [ofTag_snoc_other seq]
          exact tells.seqSeen
        · rw [ofTag_snoc_other seq]
          exact tells.seqRepeated
        · rw [ofTag_snoc_self dup, List.getLast?_concat]
          rfl
        · rw [ofTag_snoc_other msgType]
          exact tells.msgType
      · rw [if_neg dup]
        refine ⟨?_, ?_, ?_, ?_, ?_⟩
        · rw [ofTag_snoc_other seq]
          exact tells.seq
        · rw [ofTag_snoc_other seq]
          exact tells.seqSeen
        · rw [ofTag_snoc_other seq]
          exact tells.seqRepeated
        · rw [ofTag_snoc_other dup]
          exact tells.possDup
        · rw [ofTag_snoc_other msgType]
          exact tells.msgType

theorem Notes.tells (fields : List FieldRef) : (fields.foldl Notes.note .blank).Tell fields := by
  induction fields using List.reverseRecOn with
  | nil => exact ⟨rfl, by simp [blank, ofTag], by simp [blank, ofTag], rfl, rfl⟩
  | append_singleton fields field ih =>
      rw [List.foldl_append]
      exact ih.note field

/-- The scan returns the header of the fields it went past. -/
theorem read_header (entries : List TagValue.Entry) :
    (Notes.blank.read entries).header = headerOf (entries.map TagValue.Entry.field) := by
  have tells := Notes.tells (entries.map TagValue.Entry.field)
  unfold Notes.read Notes.header headerOf
  generalize (entries.map TagValue.Entry.field).foldl Notes.note .blank = notes at *
  obtain ⟨⟨seq, possDup, msgType⟩, seqSeen, seqRepeated⟩ := notes
  obtain ⟨seqEq, -, repeatedIff, dupEq, typeEq⟩ := tells
  dsimp only at seqEq repeatedIff dupEq typeEq
  rw [dupEq, typeEq]
  match listed : ofTag 34 (entries.map TagValue.Entry.field) with
  | [] =>
      rw [listed] at seqEq repeatedIff
      rw [seqEq]
      split <;> rfl
  | [field] =>
      rw [listed] at seqEq repeatedIff
      rw [if_neg (by rw [repeatedIff]; simp), seqEq]
      rfl
  | first :: second :: others =>
      rw [listed] at repeatedIff
      rw [if_pos (repeatedIff.mpr (by simp))]

/-- What a scan returns, by what it went past. -/
theorem scan_walks (frame : Bytes) (room : frame.length ≤ usizeMax) :
    ∃ entries last final rest, Walk 0 none entries last final ∧ frame = wireOf entries ++ rest ∧
      scanMalformedHeader frame = headerOf (entries.map TagValue.Entry.field) ∧
      HeaderScan.pass ⟨Notes.blank.read entries, final, rest, last⟩ =
        .error ⟨Notes.blank.read entries, final, rest, last⟩ := by
  obtain ⟨entries, last, final, rest, walk, split, loops, stops⟩ :=
    (HeaderScan.start frame).loop_walks (by simpa [HeaderScan.start] using room) (Nat.lt_succ_self _)
  refine ⟨entries, last, final, rest, walk, split, ?_, stops⟩
  unfold scanMalformedHeader
  rw [← read_header]
  exact congrArg (fun scan => scan.notes.header) loops

theorem inPlace_not_standard {tag : Nat} (outside : isStandardHeaderTag tag = false) (position : Nat) :
    inPlace position tag = false := by
  cases place : inPlace position tag with
  | false => rfl
  | true =>
      rw [inPlace_standard place] at outside
      cases outside

/-- A walk that ends at a field outside the header decides what the scan returns,
whatever that field carries and whatever follows it. -/
theorem scan_decided {entries : List TagValue.Entry} {last : Nat} {final : Option PendingData}
    (walk : Walk 0 none entries last final) {tagText tail : Bytes}
    (room : (wireOf entries ++ (tagText ++ EQUALS :: tail)).length ≤ usizeMax)
    (clean : EQUALS ∉ tagText)
    (outside : ∀ tag, (parseAsciiU64 tagText 9).bind u32TryFrom = some tag →
      isStandardHeaderTag tag = false) :
    scanMalformedHeader (wireOf entries ++ (tagText ++ EQUALS :: tail)) =
      headerOf (entries.map TagValue.Entry.field) := by
  have fewer := wireOf_length_ge entries
  have stops : HeaderScan.pass ⟨Notes.blank.read entries, final, tagText ++ EQUALS :: tail, last⟩ =
      .error ⟨Notes.blank.read entries, final, tagText ++ EQUALS :: tail, last⟩ :=
    HeaderScan.pass_outside rfl clean fun tag parsed => inPlace_not_standard (outside tag parsed) last
  have passes : entries.length +
      ((wireOf entries ++ (tagText ++ EQUALS :: tail)).length + 1 - entries.length) =
      (wireOf entries ++ (tagText ++ EQUALS :: tail)).length + 1 := by
    rw [List.length_append]
    omega
  have started : Walk (HeaderScan.start (wireOf entries ++ (tagText ++ EQUALS :: tail))).position
      (HeaderScan.start (wireOf entries ++ (tagText ++ EQUALS :: tail))).pendingData entries last
      final := walk
  have behind := (HeaderScan.loop_walk started rfl (by simpa [HeaderScan.start] using room)
    ((wireOf entries ++ (tagText ++ EQUALS :: tail)).length + 1 - entries.length)).trans
      (HeaderScan.loop_stops stops _)
  rw [passes] at behind
  unfold scanMalformedHeader
  rw [behind, ← read_header]

end IronFix.Engine
