import IronFix.Engine.HeaderWalk

/-!
# The positional read and the decoded read

On a frame that decodes, the positional read goes past a leading run of the
decoded header. A MsgSeqNum it returns is the decoded one; on a header that is
written plainly it goes past all of it, and the two reads agree.
-/

namespace IronFix.Engine

open Lib.Slice Lib.Decimal IronFix.TagValue IronFix.Session

/-- The PossDupFlag (43) the session acts on when a frame decodes. -/
def possDupFlag (message : RawMessage) : Bool := getFieldStr message 43 == some YES

/-! ## The two readings of one field -/

theorem headerDataTag_eq {tag : Nat} (standard : isStandardHeaderTag tag = true) :
    pairedDataTag tag = headerDataTag tag := by
  have all : ∀ tag ∈ STANDARD_HEADER_TAGS, pairedDataTag tag = headerDataTag tag := by
    decide +kernel
  exact all tag (List.contains_iff_mem.mp standard)

theorem parseTag_of_scan {tagText : Bytes} {tag : Nat}
    (parsed : (parseAsciiU64 tagText 9).bind u32TryFrom = some tag) : parseTag tagText = some tag := by
  obtain ⟨number, read, small⟩ := Option.bind_eq_some_iff.mp parsed
  unfold u32TryFrom at small
  split at small
  · rename_i bounded
    cases small
    obtain ⟨nonempty, short, digits, value, -⟩ := parseDigits_eq_some.mp read
    exact parseDigits_eq_some.mpr ⟨nonempty, short.trans (by decide), digits, value, bounded⟩
  · cases small

theorem scan_of_parseTag {tagText : Bytes} {tag : Nat} (parsed : parseTag tagText = some tag)
    (short : tagText.length ≤ 9) : (parseAsciiU64 tagText 9).bind u32TryFrom = some tag := by
  obtain ⟨nonempty, -, digits, value, bounded⟩ := parseDigits_eq_some.mp parsed
  have read : parseAsciiU64 tagText 9 = some tag :=
    parseDigits_eq_some.mpr ⟨nonempty, short, digits, value, bounded.trans (by decide)⟩
  rw [read]
  exact if_pos bounded

/-- A count the scan reads is the one the decoder reads. -/
theorem announces_of_scan {field : FieldRef} {next : Option PendingData}
    (standard : isStandardHeaderTag field.tag = true) (counts : scanCount field = some next) :
    announces field = some next := by
  unfold scanCount at counts
  unfold announces
  rw [headerDataTag_eq standard]
  cases paired : headerDataTag field.tag with
  | none =>
      rw [paired] at counts
      exact counts
  | some dataTag =>
      rw [paired] at counts
      obtain ⟨declared, read, same⟩ := Option.map_eq_some_iff.mp counts
      obtain ⟨nonempty, short, digits, value, bounded⟩ := parseDigits_eq_some.mp read
      have parsed : parseLength field.value = some declared :=
        parseDigits_eq_some.mpr ⟨nonempty, short.trans (by decide), digits, value, bounded⟩
      dsimp only
      rw [parsed]
      exact congrArg some same

theorem scan_of_announces {field : FieldRef} {next : Option PendingData}
    (standard : isStandardHeaderTag field.tag = true) (announced : announces field = some next)
    (short : (headerDataTag field.tag).isSome = true → field.value.length ≤ 9) :
    scanCount field = some next := by
  unfold announces at announced
  unfold scanCount
  rw [headerDataTag_eq standard] at announced
  cases paired : headerDataTag field.tag with
  | none =>
      rw [paired] at announced
      exact announced
  | some dataTag =>
      rw [paired] at announced short
      obtain ⟨declared, read, same⟩ := Option.map_eq_some_iff.mp announced
      obtain ⟨nonempty, -, digits, value, bounded⟩ := parseDigits_eq_some.mp read
      have parsed : parseAsciiU64 field.value 9 = some declared :=
        parseDigits_eq_some.mpr ⟨nonempty, short rfl, digits, value, bounded⟩
      dsimp only
      rw [parsed]
      exact congrArg some same

/-- A MsgSeqNum value, by the two parsers: the scan takes 1 to 20 digits, the
decoded read any number of them behind an optional sign. -/
theorem parseU64_of_ascii {value : Bytes} {n : Nat} (parsed : parseAsciiU64 value 20 = some n) :
    isUtf8 value = true ∧ parseU64 value = some n := by
  obtain ⟨nonempty, -, digits, same, bounded⟩ := parseDigits_eq_some.mp parsed
  constructor
  · refine isUtf8_of_ascii fun byte member => ?_
    have digit := digits byte member
    simp only [isAsciiDigit, Bool.and_eq_true, decide_eq_true_eq] at digit
    exact UInt8.lt_of_le_of_lt digit.2 (by decide)
  · unfold parseU64
    split
    · have sign := digits 0x2B List.mem_cons_self
      cases sign
    · exact parseDigits_eq_some.mpr ⟨nonempty, le_refl _, digits, same, bounded⟩

theorem ascii_of_parseU64 {value : Bytes} {n : Nat} (parsed : parseU64 value = some n)
    (short : value.length ≤ 20) (unsigned : value.head? ≠ some 0x2B) :
    parseAsciiU64 value 20 = some n := by
  unfold parseU64 at parsed
  split at parsed
  · exact absurd rfl unsigned
  · obtain ⟨nonempty, -, digits, same, bounded⟩ := parseDigits_eq_some.mp parsed
    exact parseDigits_eq_some.mpr ⟨nonempty, short, digits, same, bounded⟩

/-! ## One run of fields -/

/-- The scan goes past fields the decoder read. -/
theorem Walk.along {position last : Nat} {pending final stop : Option PendingData}
    {one two : List TagValue.Entry} {rest more : Bytes} (walk : Walk position pending one last final)
    (fetches : Fetches pending two stop) (same : wireOf one ++ rest = wireOf two ++ more)
    (ends : ∃ entry ∈ two, isStandardHeaderTag entry.field.tag = false) :
    ∃ others, two = one ++ others ∧ Fetches final others stop ∧ rest = wireOf others ++ more := by
  induction walk generalizing two with
  | nil position pending => exact ⟨two, rfl, fetches, same⟩
  | @cons position last pending next final entry entries parsed framed place counts walk ih =>
      have standard := inPlace_standard place
      cases fetches with
      | nil =>
          obtain ⟨other, member, -⟩ := ends
          cases member
      | @cons _ after _ other others parsed' framed' announced' fetches =>
          rw [wireOf_cons, wireOf_cons, List.append_assoc, List.append_assoc] at same
          simp only [TagValue.Entry.bytes, fieldBytes, List.append_assoc, List.cons_append,
            List.nil_append] at same
          -- the tag texts end at the first `=`, the values as both readers frame them
          have read := parseTag_of_scan parsed
          obtain ⟨texts, behind⟩ := before_unique (notMem_of_digits (parseTag_digits read) rfl)
            (notMem_of_digits (parseTag_digits parsed') rfl) same
          have tags : entry.field.tag = other.field.tag := by
            rw [texts, parsed'] at read
            exact (Option.some.inj read).symm
          rw [tags] at framed
          obtain ⟨values, tails⟩ := framed.unique framed' behind
          have entries_eq : other = entry := by
            obtain ⟨text, tag, value⟩ := entry
            obtain ⟨text', tag', value'⟩ := other
            dsimp only at texts tags values
            rw [texts, tags, values]
          subst entries_eq
          have nexts : next = after := by
            have one := announces_of_scan standard counts
            rw [announced'] at one
            exact (Option.some.inj one).symm
          subst nexts
          have later : ∃ entry ∈ others, isStandardHeaderTag entry.field.tag = false := by
            obtain ⟨found, member, outside⟩ := ends
            rcases List.mem_cons.mp member with rfl | later
            · rw [standard] at outside
              cases outside
            · exact ⟨found, later, outside⟩
          obtain ⟨left, split, fetches, tail⟩ := ih fetches tails later
          exact ⟨left, by rw [split]; rfl, fetches, tail⟩

/-! ## The header of a message -/

/-- A message read as `entries`, whose header the scan goes past as far as it goes. -/
structure Seen (message : RawMessage) (entries walked others : List TagValue.Entry) : Prop where
  split : entries = walked ++ others
  fields : ∃ more, message.fields = walked.map TagValue.Entry.field ++ more ∧
    ∃ checksum : FieldRef, isStandardHeaderTag checksum.tag = false ∧
      others.map TagValue.Entry.field = more ++ [checksum]
  standard : ∀ entry ∈ walked, isStandardHeaderTag entry.field.tag = true

theorem headerOfFields_append {front : List FieldRef}
    (standard : ∀ field ∈ front, isStandardHeaderTag field.tag = true) (more : List FieldRef) :
    headerOfFields (front ++ more) = front ++ headerOfFields more := by
  induction front with
  | nil => rfl
  | cons field front ih =>
      rw [List.cons_append, headerOfFields_cons (standard field List.mem_cons_self),
        ih fun other member => standard other (List.mem_cons_of_mem _ member)]
      rfl

section Seen

variable {message : RawMessage} {entries walked others : List TagValue.Entry}

theorem Seen.header (seen : Seen message entries walked others) :
    ∃ more, headerOfFields message.fields = walked.map TagValue.Entry.field ++ more := by
  obtain ⟨more, fields, -⟩ := seen.fields
  refine ⟨headerOfFields more, ?_⟩
  rw [fields, headerOfFields_append]
  intro field member
  obtain ⟨entry, listed, rfl⟩ := List.mem_map.mp member
  exact seen.standard entry listed

/-- The first field of a tag among those the scan goes past is the first of the message. -/
theorem Seen.getField (seen : Seen message entries walked others) {tag : Nat} {field : FieldRef}
    {later : List FieldRef} (listed : ofTag tag (walked.map TagValue.Entry.field) = field :: later) :
    Session.getField message tag = some field := by
  obtain ⟨more, fields, -⟩ := seen.fields
  have first : (walked.map TagValue.Entry.field).find? (fun field => field.tag == tag) = some field := by
    rw [← List.head?_filter]
    exact congrArg List.head? listed
  unfold Session.getField
  rw [fields, List.find?_append, first]
  rfl

theorem Seen.inHeader (seen : Seen message entries walked others) {tag : Nat} {field : FieldRef}
    {later : List FieldRef} (listed : ofTag tag (walked.map TagValue.Entry.field) = field :: later) :
    inStandardHeader message tag = true := by
  obtain ⟨more, header⟩ := seen.header
  have member : field ∈ ofTag tag (walked.map TagValue.Entry.field) := by
    rw [listed]
    exact List.mem_cons_self
  obtain ⟨carried, same⟩ := List.mem_filter.mp member
  refine (inHeader_iff tag message.fields).mpr ⟨field, ?_, by simpa using same⟩
  rw [header]
  exact List.mem_append_left _ carried

/-- A MsgSeqNum the scan returns is the decoded one. -/
theorem Seen.seq (seen : Seen message entries walked others) {n : Nat}
    (scanned : (headerOf (walked.map TagValue.Entry.field)).seq = some n) :
    headerSeqNum message = some n := by
  unfold headerOf at scanned
  dsimp only at scanned
  split at scanned
  · rename_i field listed
    obtain ⟨utf8, parsed⟩ := parseU64_of_ascii scanned
    unfold headerSeqNum getFieldStr
    rw [if_pos (seen.inHeader listed), seen.getField listed, Option.bind_some, if_pos utf8]
    exact parsed
  · cases scanned

end Seen

/-! ## A header written plainly -/

def headerEntries (entries : List TagValue.Entry) : List TagValue.Entry :=
  entries.takeWhile fun entry => isStandardHeaderTag entry.field.tag

def headerFieldsOf (entries : List TagValue.Entry) : List FieldRef :=
  (headerEntries entries).map TagValue.Entry.field

/-- A header on which the two reads agree: no tag text or count longer than nine
digits, the first three fields not repeated, MsgSeqNum once and in at most twenty
digits without a sign, PossDupFlag once and not in the body alone. -/
structure Plain (entries : List TagValue.Entry) : Prop where
  tags : ∀ entry ∈ headerEntries entries, entry.tagText.length ≤ 9
  places : ∀ entry ∈ (headerEntries entries).drop 3,
    entry.field.tag ≠ 8 ∧ entry.field.tag ≠ 9 ∧ entry.field.tag ≠ 35
  counts : ∀ entry ∈ headerEntries entries,
    (headerDataTag entry.field.tag).isSome = true → entry.field.value.length ≤ 9
  seqOnce : (ofTag 34 (headerFieldsOf entries)).length ≤ 1
  seqPlain : ∀ field ∈ ofTag 34 (headerFieldsOf entries),
    field.value.length ≤ 20 ∧ field.value.head? ≠ some 0x2B
  dupOnce : (ofTag 43 (headerFieldsOf entries)).length ≤ 1
  dupPlaced : ofTag 43 (headerFieldsOf entries) = [] → ofTag 43 (entries.map TagValue.Entry.field) = []

theorem headerEntries_append {front : List TagValue.Entry}
    (standard : ∀ entry ∈ front, isStandardHeaderTag entry.field.tag = true)
    (more : List TagValue.Entry) :
    headerEntries (front ++ more) = front ++ headerEntries more := by
  unfold headerEntries
  rw [List.takeWhile_append_of_pos standard]

/-- The field behind a walk is in its place, if the header is written plainly. -/
theorem Plain.place {entries walked more : List TagValue.Entry} {entry : TagValue.Entry}
    (plain : Plain entries)
    {version digits code : Bytes} {behind : List FieldRef}
    (opens : entries.map TagValue.Entry.field = ⟨8, version⟩ :: ⟨9, digits⟩ :: ⟨35, code⟩ :: behind)
    (split : entries = walked ++ entry :: more)
    (header : headerEntries entries = walked ++ headerEntries (entry :: more))
    (standard : isStandardHeaderTag entry.field.tag = true) :
    inPlace walked.length entry.field.tag = true := by
  rw [split] at opens
  match walked with
  | [] =>
      have first : entry.field = ⟨8, version⟩ := (List.cons.inj opens).1
      rw [first]
      rfl
  | [_] =>
      have second : entry.field = ⟨9, digits⟩ := (List.cons.inj (List.cons.inj opens).2).1
      rw [second]
      rfl
  | [_, _] =>
      have third : entry.field = ⟨35, code⟩ :=
        (List.cons.inj (List.cons.inj (List.cons.inj opens).2).2).1
      rw [third]
      rfl
  | _ :: _ :: _ :: walked =>
      have stands : headerEntries (entry :: more) = entry :: headerEntries more := by
        unfold headerEntries
        rw [List.takeWhile_cons, if_pos standard]
      have member : entry ∈ (headerEntries entries).drop 3 := by
        rw [header, stands]
        exact List.mem_append_right walked List.mem_cons_self
      obtain ⟨eight, nine, thirtyFive⟩ := plain.places entry member
      show (isStandardHeaderTag entry.field.tag && _) = true
      simp [standard, eight, nine, thirtyFive]

/-- The scan goes past the whole of a header written plainly. -/
theorem Plain.walks {entries walked others : List TagValue.Entry} (plain : Plain entries)
    {version digits code : Bytes} {behind : List FieldRef}
    (opens : entries.map TagValue.Entry.field = ⟨8, version⟩ :: ⟨9, digits⟩ :: ⟨35, code⟩ :: behind)
    (split : entries = walked ++ others) {last : Nat} {final stop : Option PendingData}
    (walk : Walk 0 none walked last final) (fetches : Fetches final others stop) {more : Bytes}
    (room : last + (wireOf others ++ more).length ≤ usizeMax)
    (stops : HeaderScan.pass ⟨Notes.blank.read walked, final, wireOf others ++ more, last⟩ =
      .error ⟨Notes.blank.read walked, final, wireOf others ++ more, last⟩) :
    headerEntries entries = walked := by
  have header : headerEntries entries = walked ++ headerEntries others := by
    rw [split, headerEntries_append walk.standard]
  cases fetches with
  | nil => rw [header]; exact List.append_nil _
  | @cons _ next _ entry others parsed framed announced fetches =>
      by_cases standard : isStandardHeaderTag entry.field.tag = true
      · -- it would have been gone past
        exfalso
        have member : entry ∈ headerEntries entries := by
          rw [header]
          refine List.mem_append_right walked ?_
          unfold headerEntries
          rw [List.takeWhile_cons, if_pos standard]
          exact List.mem_cons_self
        have length : last = walked.length := by rw [walk.last_eq, Nat.zero_add]
        have place := plain.place opens split header standard
        rw [← length] at place
        have shape : wireOf (entry :: others) ++ more =
            fieldBytes entry.tagText entry.field.value ++ (wireOf others ++ more) := by
          rw [wireOf_cons, List.append_assoc]
          rfl
        have passes : HeaderScan.pass
            ⟨Notes.blank.read walked, final, wireOf (entry :: others) ++ more, last⟩ =
              .ok ⟨(Notes.blank.read walked).note entry.field, next, wireOf others ++ more, last + 1⟩ :=
          HeaderScan.pass_field room shape (scan_of_parseTag parsed (plain.tags entry member)) framed
            place (scan_of_announces standard announced (plain.counts entry member))
        rw [stops] at passes
        cases passes
      · rw [header]
        unfold headerEntries
        rw [List.takeWhile_cons, if_neg standard, List.append_nil]

section Agreement

variable {message : RawMessage} {entries walked others : List TagValue.Entry}

theorem Seen.header_eq (seen : Seen message entries walked others)
    (whole : headerEntries entries = walked) :
    headerOfFields message.fields = walked.map TagValue.Entry.field := by
  obtain ⟨more, fields, checksum, outside, behind⟩ := seen.fields
  have stops : headerEntries others = [] := by
    have grown := headerEntries_append seen.standard others
    rw [← seen.split, whole] at grown
    exact List.self_eq_append_right.mp grown
  rw [fields, headerOfFields_append fun field member => by
    obtain ⟨entry, listed, rfl⟩ := List.mem_map.mp member
    exact seen.standard entry listed]
  cases more with
  | nil => exact List.append_nil _
  | cons field more =>
      cases others with
      | nil => cases behind
      | cons entry others =>
          have same : entry.field = field := (List.cons.inj behind).1
          have outer : ¬isStandardHeaderTag field.tag = true := by
            intro standard
            unfold headerEntries at stops
            rw [List.takeWhile_cons, if_pos (same ▸ standard)] at stops
            cases stops
          rw [headerOfFields_stop outer, List.append_nil]

/-- On a header the scan goes past, without a repeated or a signed MsgSeqNum, the
two reads of it agree. -/
theorem Seen.seq_eq (seen : Seen message entries walked others) (plain : Plain entries)
    (whole : headerEntries entries = walked) :
    (headerOf (walked.map TagValue.Entry.field)).seq = headerSeqNum message := by
  have once := plain.seqOnce
  have written := plain.seqPlain
  unfold headerFieldsOf at once written
  rw [whole] at once written
  unfold headerOf
  dsimp only
  match listed : ofTag 34 (walked.map TagValue.Entry.field) with
  | [] =>
      have absent : ¬inStandardHeader message 34 = true := by
        intro carried
        obtain ⟨field, member, same⟩ := (inHeader_iff 34 message.fields).mp carried
        rw [seen.header_eq whole] at member
        have found : field ∈ ofTag 34 (walked.map TagValue.Entry.field) :=
          List.mem_filter.mpr ⟨member, by simpa using same⟩
        rw [listed] at found
        cases found
      unfold headerSeqNum
      rw [if_neg absent]
  | [field] =>
      obtain ⟨short, unsigned⟩ := written field (by rw [listed]; exact List.mem_cons_self)
      unfold headerSeqNum getFieldStr
      rw [if_pos (seen.inHeader listed), seen.getField listed, Option.bind_some]
      dsimp only
      cases scanned : parseAsciiU64 field.value 20 with
      | some n =>
          obtain ⟨utf8, parsed⟩ := parseU64_of_ascii scanned
          rw [if_pos utf8, Option.bind_some, parsed]
      | none =>
          cases decoded : (if isUtf8 field.value then some field.value else none).bind parseU64 with
          | none => rfl
          | some n =>
              obtain ⟨value, kept, parsed⟩ := Option.bind_eq_some_iff.mp decoded
              split at kept
              · cases kept
                rw [ascii_of_parseU64 parsed short unsigned] at scanned
                cases scanned
              · cases kept
  | first :: second :: later =>
      rw [listed] at once
      simp at once

/-- So do the two reads of PossDupFlag. -/
theorem Seen.possDup_eq (seen : Seen message entries walked others) (plain : Plain entries)
    (whole : headerEntries entries = walked) :
    (headerOf (walked.map TagValue.Entry.field)).possDup = possDupFlag message := by
  have once := plain.dupOnce
  have placed := plain.dupPlaced
  unfold headerFieldsOf at once placed
  rw [whole] at once placed
  unfold headerOf possDupFlag
  dsimp only
  match listed : ofTag 43 (walked.map TagValue.Entry.field) with
  | [] =>
      obtain ⟨more, fields, checksum, -, behind⟩ := seen.fields
      have nowhere : ofTag 43 message.fields = [] := by
        have all := placed listed
        rw [seen.split, List.map_append, behind] at all
        rw [fields]
        unfold ofTag at all ⊢
        rw [List.filter_append, List.filter_append, List.append_eq_nil_iff, List.append_eq_nil_iff] at all
        rw [List.filter_append, all.1, all.2.1]
        rfl
      have missing : Session.getField message 43 = none := by
        unfold Session.getField
        rw [← List.head?_filter]
        exact congrArg List.head? nowhere
      unfold getFieldStr
      rw [missing]
      rfl
  | [field] =>
      unfold getFieldStr
      rw [seen.getField listed, Option.bind_some]
      show (field.value == YES) = _
      by_cases yes : field.value = YES
      · rw [yes]
        decide
      · have no : (field.value == YES) = false := by simpa using yes
        rw [no]
        split
        · exact (by simpa using yes : (some field.value == some YES) = false).symm
        · rfl
  | first :: second :: later =>
      rw [listed] at once
      simp at once

/-- And of MsgType: the third field, and no other. -/
theorem Seen.msgType_eq (seen : Seen message entries walked others) (plain : Plain entries)
    (whole : headerEntries entries = walked) {version digits code : Bytes} {behind : List FieldRef}
    (opens : message.fields = ⟨8, version⟩ :: ⟨9, digits⟩ :: ⟨35, code⟩ :: behind)
    (utf8 : isUtf8 code = true) (legal : MsgType.new code = .ok message.msgType) :
    (headerOf (walked.map TagValue.Entry.field)).msgType = some message.msgType.code := by
  have header := seen.header_eq whole
  have places := plain.places
  rw [whole] at places
  rw [opens, headerOfFields_cons rfl, headerOfFields_cons rfl, headerOfFields_cons rfl] at header
  have others : ofTag 35 (headerOfFields behind) = [] := by
    have dropped : headerOfFields behind = (walked.drop 3).map TagValue.Entry.field := by
      rw [List.map_drop, ← header]
      rfl
    unfold ofTag
    rw [dropped, List.filter_eq_nil_iff]
    intro field member
    obtain ⟨entry, listed, rfl⟩ := List.mem_map.mp member
    simpa using (places entry listed).2.2
  have listed : ofTag 35 (walked.map TagValue.Entry.field) = [⟨35, code⟩] := by
    rw [← header]
    unfold ofTag at others ⊢
    rw [List.filter_cons_of_neg (by simp), List.filter_cons_of_neg (by simp),
      List.filter_cons_of_pos rfl, others]
  unfold headerOf
  dsimp only
  rw [listed]
  show validMsgType code = _
  unfold validMsgType
  rw [if_pos utf8, legal, MsgType.new_eq_ok legal]

end Agreement

/-! ## The positional read -/

/-- What the scan went past, on a frame that decodes. -/
theorem scan_sees {frame : Bytes} (room : frame.length ≤ usizeMax) {validate : Bool}
    {message : RawMessage} {after : Decoder}
    (decoded : Decoder.decode ⟨frame, 0, validate, none⟩ = .ok message after) :
    ∃ entries walked others checksum tail, frame = wireOf entries ++ tail ∧
      entries.map TagValue.Entry.field = message.fields ++ [checksum] ∧ Seen message entries walked others ∧
      scanMalformedHeader frame = headerOf (walked.map TagValue.Entry.field) ∧
      (Plain entries → headerEntries entries = walked) ∧
      ∃ version digits code behind,
        message.fields = ⟨8, version⟩ :: ⟨9, digits⟩ :: ⟨35, code⟩ :: behind ∧
        isUtf8 code = true ∧ MsgType.new code = .ok message.msgType := by
  obtain ⟨entries, checksum, passes, ten, fields, version, digits, code, behind, opens, utf8, legal⟩ :=
    Decoder.decode_passes (s := ⟨frame, 0, validate, none⟩) room decoded
  obtain ⟨walked, last, final, rest, walk, split, scanned, stops⟩ := scan_walks frame room
  have bytes : frame = wireOf entries ++ frame.drop after.offset := passes.bytes
  have outside : isStandardHeaderTag checksum.tag = false := by
    rw [ten]
    rfl
  have ends : ∃ entry ∈ entries, isStandardHeaderTag entry.field.tag = false := by
    have member : checksum ∈ entries.map TagValue.Entry.field := by
      rw [fields]
      exact List.mem_append_right _ List.mem_cons_self
    obtain ⟨entry, listed, same⟩ := List.mem_map.mp member
    exact ⟨entry, listed, by rw [same]; exact outside⟩
  obtain ⟨others, whole, fetches, tail⟩ := walk.along passes.fetches (split.symm.trans bytes) ends
  have seen : Seen message entries walked others := by
    refine ⟨whole, ⟨(others.map TagValue.Entry.field).dropLast, ?_, checksum, outside, ?_⟩, walk.standard⟩
    all_goals
      have nonempty : others.map TagValue.Entry.field ≠ [] := by
        intro none
        rw [whole, List.map_append, none, List.append_nil] at fields
        have member : checksum ∈ walked.map TagValue.Entry.field := by
          rw [fields]
          exact List.mem_append_right _ List.mem_cons_self
        obtain ⟨entry, listed, same⟩ := List.mem_map.mp member
        rw [← same, walk.standard entry listed] at outside
        cases outside
      rw [whole, List.map_append] at fields
    · have cut := congrArg List.dropLast fields
      rw [List.dropLast_append_of_ne_nil nonempty, List.dropLast_concat] at cut
      exact cut.symm
    · have last := congrArg List.getLast? fields
      rw [List.getLast?_append_of_ne_nil _ nonempty, List.getLast?_concat] at last
      exact (List.dropLast_append_getLast? checksum last).symm
  refine ⟨entries, walked, others, checksum, frame.drop after.offset, bytes, fields, seen, scanned,
    fun plain => ?_, version, digits, code, behind, opens, utf8, legal⟩
  have started : entries.map TagValue.Entry.field =
      ⟨8, version⟩ :: ⟨9, digits⟩ :: ⟨35, code⟩ :: (behind ++ [checksum]) := by
    rw [fields, opens]
    rfl
  rw [tail] at stops
  refine plain.walks started whole walk fetches ?_ stops
  have fewer := wireOf_length_ge walked
  have lengths := congrArg List.length split
  rw [List.length_append, tail] at lengths
  have position := walk.last_eq
  omega

/-- The positional read terminates, goes past header fields in their places only, and
does not depend on what the first field outside the header carries or on what follows
it. On a frame that decodes a MsgSeqNum it returns is the decoded one, and on a header
written plainly it returns what the session acts on. -/
theorem scan_reads_header (frame : Bytes) (room : frame.length ≤ usizeMax) :
    (∀ fuel, frame.length < fuel →
        ((HeaderScan.start frame).loop fuel).notes.header = scanMalformedHeader frame) ∧
      (∃ entries last final rest, Walk 0 none entries last final ∧ frame = wireOf entries ++ rest ∧
        scanMalformedHeader frame = headerOf (entries.map TagValue.Entry.field)) ∧
      (∀ entries last final tagText tail other, Walk 0 none entries last final →
        frame = wireOf entries ++ (tagText ++ EQUALS :: tail) → EQUALS ∉ tagText →
        (∀ tag, (parseAsciiU64 tagText 9).bind u32TryFrom = some tag →
          isStandardHeaderTag tag = false) →
        (wireOf entries ++ (tagText ++ EQUALS :: other)).length ≤ usizeMax →
        scanMalformedHeader (wireOf entries ++ (tagText ++ EQUALS :: other)) =
          scanMalformedHeader frame) ∧
      ∀ validate message after, Decoder.decode ⟨frame, 0, validate, none⟩ = .ok message after →
        (∀ n, (scanMalformedHeader frame).seq = some n → headerSeqNum message = some n) ∧
        ∃ entries checksum tail, frame = wireOf entries ++ tail ∧
          entries.map TagValue.Entry.field = message.fields ++ [checksum] ∧
          (Plain entries →
            (scanMalformedHeader frame).seq = headerSeqNum message ∧
            (scanMalformedHeader frame).msgType = some message.msgType.code ∧
            (scanMalformedHeader frame).possDup = possDupFlag message) := by
  refine ⟨?_, ?_, ?_, ?_⟩
  · intro fuel enough
    have same := HeaderScan.loop_terminates (HeaderScan.start frame)
      (by simpa [HeaderScan.start] using room) (Nat.lt_succ_self frame.length) enough
    rw [same]
    rfl
  · obtain ⟨entries, last, final, rest, walk, split, scanned, -⟩ := scan_walks frame room
    exact ⟨entries, last, final, rest, walk, split, scanned⟩
  · intro entries last final tagText tail other walk split clean outside fits
    rw [scan_decided walk fits clean outside, split,
      scan_decided walk (by rw [← split]; exact room) clean outside]
  · intro validate message after decoded
    obtain ⟨entries, walked, others, checksum, tail, split, fields, seen, scanned, plainly, version,
      digits, code, behind, opens, utf8, legal⟩ := scan_sees room decoded
    rw [scanned]
    refine ⟨fun n => seen.seq, entries, checksum, tail, split, fields, fun plain => ?_⟩
    have whole := plainly plain
    exact ⟨seen.seq_eq plain whole, seen.msgType_eq plain whole opens utf8 legal,
      seen.possDup_eq plain whole⟩

/-- The MsgSeqNum of a frame, if it decodes. -/
def decodedSeqNum (frame : Bytes) : Option (Option Nat) :=
  match Decoder.decode (Decoder.new frame) with
  | .ok message _ => some (headerSeqNum message)
  | .error _ _ => none

/-- `8=A|9=10|35=0|34=7|10=065|`. -/
def numberedFrame : Bytes :=
  [56, 61, 65, 1, 57, 61, 49, 48, 1, 51, 53, 61, 48, 1, 51, 52, 61, 55, 1, 49, 48, 61, 48, 54, 53, 1]

theorem scan_reads_header_seven :
    (scanMalformedHeader numberedFrame).seq = some 7 ∧ decodedSeqNum numberedFrame = some (some 7) := by
  have seven : (scanMalformedHeader numberedFrame).seq = some 7 := by decide +kernel
  refine ⟨seven, ?_⟩
  have decodes : (decodedSeqNum numberedFrame).isSome = true := by decide +kernel
  have agrees := (scan_reads_header numberedFrame (by decide)).2.2.2 true
  unfold decodedSeqNum Decoder.new at decodes ⊢
  cases decoded : Decoder.decode ⟨numberedFrame, 0, true, none⟩ with
  | ok message after => exact congrArg some ((agrees message after decoded).1 7 seven)
  | error error after =>
      rw [decoded] at decodes
      cases decodes

/-- `8=A|9=15|35=0|34=1|34=2|10=023|`: the decoded read takes the first MsgSeqNum,
the positional read none. -/
theorem repeated_seq_disagrees :
    let frame : Bytes := [56, 61, 65, 1, 57, 61, 49, 53, 1, 51, 53, 61, 48, 1, 51, 52, 61, 49, 1, 51, 52,
      61, 50, 1, 49, 48, 61, 48, 50, 51, 1]
    decodedSeqNum frame = some (some 1) ∧ (scanMalformedHeader frame).seq = none := by
  decide +kernel

end IronFix.Engine
