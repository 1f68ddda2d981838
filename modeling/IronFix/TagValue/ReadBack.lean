import IronFix.TagValue.Encoded

/-!
# Reading back what was written

The decoder on the body of accepted writes: a raw field is scanned, since its
value holds no SOH; a DATA field is counted, since its LENGTH field stands
right before it. So the field loop yields the fields that were written, in
order, and stops at the CheckSum.
-/

namespace IronFix.TagValue

open Lib.Slice Lib.Decimal Lib.Steps

namespace Decoder

variable {header body checksum : Bytes} {s : Decoder} {k : Nat}

/-- Past a field of the body the decoder stands in front of what follows it. -/
theorem InBody.past (at_k : InBody header body checksum s k) {tagText value rest : Bytes}
    (split : body.drop k = fieldBytes tagText value ++ rest) (pending : Option PendingData)
    (legal : ∀ data, pending = some data → ∃ tag, pairedDataTag tag = some data.dataTag) :
    InBody header body checksum (s.past (fieldBytes tagText value).length pending)
        (k + (fieldBytes tagText value).length) ∧
      body.drop (k + (fieldBytes tagText value).length) = rest := by
  have len := congrArg List.length split
  rw [List.length_drop, List.length_append] at len
  have pos : 0 < (fieldBytes tagText value).length :=
    List.length_pos_iff.mpr (fieldBytes_ne_nil tagText value)
  have inside := at_k.inside
  refine ⟨⟨at_k.input, ?_, by omega, legal, at_k.validates, fun _ => ?_⟩, ?_⟩
  · show s.offset + _ = _
    rw [at_k.offset, Nat.add_assoc]
  · have taken : body.take (k + (fieldBytes tagText value).length) =
        body.take k ++ (tagText ++ EQUALS :: value) ++ [SOH] := by
      rw [List.take_add, split, List.take_left]
      simp [fieldBytes]
    rw [taken, List.getLast?_append]
    simp
  · rw [← List.drop_drop, split, List.drop_left]

/-- The bytes ahead of the decoder, from a field of the body on. -/
theorem InBody.ahead (at_k : InBody header body checksum s k) {field rest : Bytes}
    (split : body.drop k = field ++ rest) :
    s.input.drop s.offset = field ++ (rest ++ fieldBytes (ascii "10") checksum) := by
  rw [at_k.remaining, split, List.append_assoc]

section Field

variable {tag : Nat} {value rest : Bytes}

/-- A clean field with no count pending is read to its SOH. -/
theorem InBody.scanned (layout : Layout header body checksum)
    (at_k : InBody header body checksum s k) (settled : s.pendingData = none)
    (split : body.drop k = fieldBytes (decimal tag) value ++ rest) (small : tag ≤ u32Max)
    (clean : SOH ∉ value) :
    nextFieldBounded (some (header.length + body.length)) s =
      s.announce (fieldBytes (decimal tag) value).length ⟨tag, value⟩ := by
  have free : s.counted tag = none := by
    unfold counted
    rw [settled]
  exact nextField_scanned (at_k.input ▸ layout.room) at_k.offset_le (at_k.ahead split)
    (parseTag_decimal small) clean free

/-- A field whose count was announced is read to its count. -/
theorem InBody.counted (layout : Layout header body checksum)
    (at_k : InBody header body checksum s k)
    (announced : s.pendingData = some ⟨tag, value.length⟩)
    (split : body.drop k = fieldBytes (decimal tag) value ++ rest) (small : tag ≤ u32Max) :
    nextFieldBounded (some (header.length + body.length)) s =
      s.announce (fieldBytes (decimal tag) value).length ⟨tag, value⟩ := by
  have counts : s.counted tag = some value.length := by
    unfold Decoder.counted
    rw [announced]
    exact if_pos rfl
  have len := congrArg List.length split
  rw [List.length_drop, List.length_append] at len
  have pos : 0 < (fieldBytes (decimal tag) value).length :=
    List.length_pos_iff.mpr (fieldBytes_ne_nil _ _)
  have within : s.offset + (fieldBytes (decimal tag) value).length ≤ header.length + body.length := by
    rw [at_k.offset]
    omega
  exact nextField_counted (at_k.input ▸ layout.room) at_k.offset_le (at_k.ahead split)
    (parseTag_decimal small) counts within

end Field

/-- One field that announces nothing takes one trip of the field loop. -/
theorem collectFields_plain {limit : Option Nat} {fuel n tag start : Nat} {value : Bytes}
    {fields : List FieldRef} (read : nextFieldBounded limit s = s.announce n ⟨tag, value⟩)
    (plain : pairedDataTag tag = none) (other : tag ≠ 10) :
    collectFields limit (fuel + 1) fields start s =
      collectFields limit fuel (fields ++ [⟨tag, value⟩]) start (s.past n none) := by
  rw [announce_plain plain] at read
  simp only [collectFields, bind_apply, get_apply, read, if_neg other]

/-- So does a LENGTH field, which leaves its count pending. -/
theorem collectFields_length {limit : Option Nat} {fuel n tag dataTag declared start : Nat}
    {value : Bytes} {fields : List FieldRef}
    (read : nextFieldBounded limit s = s.announce n ⟨tag, value⟩)
    (paired : pairedDataTag tag = some dataTag) (parsed : parseLength value = some declared) :
    collectFields limit (fuel + 1) fields start s =
      collectFields limit fuel (fields ++ [⟨tag, value⟩]) start
        (s.past n (some ⟨dataTag, declared⟩)) := by
  have other : tag ≠ 10 := by
    rintro rfl
    rw [pairedDataTag_low (by decide)] at paired
    cases paired
  rw [announce_length paired parsed] at read
  simp only [collectFields, bind_apply, get_apply, read, if_neg other]

theorem checkBodyTag_ok {tag : Nat} (legal : checkBodyTag tag = .ok ()) :
    pairedDataTag tag = none ∧ tag ≠ 10 := by
  unfold checkBodyTag at legal
  simp only [bind, Except.bind] at legal
  split at legal
  · cases legal
  · split at legal
    · cases legal
    · rename_i unframed
      split at legal
      · cases legal
      · rename_i unpaired
        simp only [not_or, Bool.not_eq_true, Option.isSome_eq_false_iff, Option.isNone_iff_eq_none] at unpaired
        exact ⟨unpaired.1, by omega⟩

/-- What the field loop yields on the body of accepted writes: their fields,
and the CheckSum behind them. -/
theorem collectFields_writes (layout : Layout header body checksum)
    (countable : body.length < 10 ^ MAX_LENGTH_DIGITS) (writes : List Write)
    (accepted : ∀ write ∈ writes, write.Accepted) (fuel : Nat)
    (at_k : InBody header body checksum s k) (settled : s.pendingData = none)
    (left : body.drop k = bodyOf writes) (enough : body.length - k < fuel) (fields : List FieldRef)
    (start : Nat) :
    ∃ last, collectFields (some (header.length + body.length)) fuel fields start s =
        .ok ⟨fields ++ fieldsOf writes, some ⟨10, checksum⟩, header.length + body.length⟩ last ∧
      last.input = header ++ (body ++ fieldBytes (ascii "10") checksum) ∧
      last.offset = last.input.length := by
  induction writes generalizing s k fuel fields with
  | nil =>
      have whole : k = body.length := by
        have len := congrArg List.length left
        rw [List.length_drop] at len
        have := at_k.inside
        simp only [bodyOf, List.map_nil, List.flatten_nil, List.length_nil] at len
        omega
      subst whole
      obtain ⟨fuel, rfl⟩ := Nat.exists_eq_succ_of_ne_zero (Nat.pos_iff_ne_zero.mp (by omega) : fuel ≠ 0)
      have result := at_k.at_end layout (some (header.length + body.length))
      refine ⟨s.past (fieldBytes (ascii "10") checksum).length none, ?_, at_k.input, ?_⟩
      · simp only [collectFields, bind_apply, get_apply, result, if_true, pure_apply, at_k.offset]
        simp [fieldsOf]
      · simp only [Decoder.past, at_k.input, at_k.offset, List.length_append]
        omega
  | cons write writes ih =>
      have later : ∀ other ∈ writes, other.Accepted :=
        fun other member => accepted other (List.mem_cons_of_mem _ member)
      have ahead : body.drop k = write.bytes ++ bodyOf writes := by
        rw [left]
        simp [bodyOf]
      obtain ⟨fuel, rfl⟩ := Nat.exists_eq_succ_of_ne_zero (Nat.pos_iff_ne_zero.mp (by omega) : fuel ≠ 0)
      cases accepted write List.mem_cons_self with
      | @raw tag value legal nonempty clean msgType =>
          obtain ⟨plain, other⟩ := checkBodyTag_ok legal
          have split : body.drop k = fieldBytes (decimal tag.toNat) value ++ bodyOf writes := by
            rw [ahead]
            simp [Write.bytes, Write.fields, Write.canonical]
          have read := at_k.scanned layout settled split (Nat.le_of_lt_succ tag.toNat_lt) clean
          obtain ⟨next, rest⟩ := at_k.past split none (by simp)
          have len := fieldBytes_length (decimal tag.toNat) value
          have inside := next.inside
          obtain ⟨last, collected, ends⟩ := ih later fuel next rfl rest (by omega)
            (fields ++ [⟨tag.toNat, value⟩])
          refine ⟨last, ?_, ends⟩
          rw [collectFields_plain read plain other]
          refine collected.trans ?_
          simp [fieldsOf, Write.fields]
      | @data lengthTag dataTag value paired nonempty =>
          have split : body.drop k =
              fieldBytes (decimal lengthTag.toNat) (decimal value.length) ++
                (fieldBytes (decimal dataTag.toNat) value ++ bodyOf writes) := by
            rw [ahead]
            simp [Write.bytes, Write.fields, Write.canonical]
          have cleanCount : SOH ∉ decimal value.length :=
            notMem_of_digits (decimal_digits value.length) isAsciiDigit_SOH
          have readCount := at_k.scanned layout settled split (Nat.le_of_lt_succ lengthTag.toNat_lt)
            cleanCount
          have counts : parseLength (decimal value.length) = some value.length := by
            have len := congrArg List.length split
            simp only [List.length_drop, List.length_append, fieldBytes_length] at len
            exact parseLength_decimal (by omega)
          obtain ⟨next, rest⟩ := at_k.past split (some ⟨dataTag.toNat, value.length⟩) (by
            rintro _ ⟨⟩
            exact ⟨lengthTag.toNat, paired⟩)
          have readData := next.counted layout rfl rest (Nat.le_of_lt_succ dataTag.toNat_lt)
          obtain ⟨after, rest⟩ := next.past rest none (by simp)
          have countLen := fieldBytes_length (decimal lengthTag.toNat) (decimal value.length)
          have dataLen := fieldBytes_length (decimal dataTag.toNat) value
          have inside := after.inside
          obtain ⟨fuel, rfl⟩ :=
            Nat.exists_eq_succ_of_ne_zero (Nat.pos_iff_ne_zero.mp (by omega) : fuel ≠ 0)
          obtain ⟨last, collected, ends⟩ := ih later fuel after rfl rest (by omega)
            (fields ++ [⟨lengthTag.toNat, decimal value.length⟩] ++ [⟨dataTag.toNat, value⟩])
          refine ⟨last, ?_, ends⟩
          rw [collectFields_length readCount paired counts,
            collectFields_plain readData (pairedDataTag_data paired) (pairedDataTag_ne_checksum paired)]
          refine collected.trans ?_
          simp [fieldsOf, Write.fields]

/-! ## The message -/

theorem checkMsgType_ok {value : Bytes} (legal : checkMsgType value = .ok ()) :
    isUtf8 value = true ∧ ∃ msgType, MsgType.new value = .ok msgType := by
  unfold checkMsgType at legal
  split at legal
  · rename_i utf8
    split at legal
    · rename_i msgType accepted
      exact ⟨utf8, msgType, accepted⟩
    · cases legal
    · cases legal
  · cases legal

/-- Every write ends in SOH. -/
theorem bytes_ends (write : Write) : ∃ front, write.bytes = front ++ [SOH] := by
  cases write with
  | raw tag value =>
      exact ⟨decimal tag.toNat ++ EQUALS :: value, by
        simp [Write.bytes, Write.fields, Write.canonical, fieldBytes]⟩
  | data lengthTag dataTag value =>
      exact ⟨fieldBytes (decimal lengthTag.toNat) (decimal value.length) ++
        (decimal dataTag.toNat ++ EQUALS :: value), by
          simp [Write.bytes, Write.fields, Write.canonical, fieldBytes]⟩

theorem bodyOf_ends {writes : List Write} (nonempty : writes ≠ []) :
    (bodyOf writes).getLast? = some SOH := by
  obtain ⟨before, last, rfl⟩ := List.eq_nil_or_concat writes |>.resolve_left nonempty
  obtain ⟨front, ends⟩ := bytes_ends last
  simp [bodyOf, ends]

section Message

variable {beginString : Bytes} {writes : List Write} {frame : Bytes}

theorem legal_clean (written : Encoder.Written beginString writes frame) : SOH ∉ beginString := by
  intro found
  exact absurd (written.legal SOH found) (by decide)

theorem written_nonempty (written : Encoder.Written beginString writes frame) : writes ≠ [] := by
  rintro rfl
  exact absurd written.first (by simp)

/-- A finished message is laid out as the decoder reads it. -/
theorem written_layout (written : Encoder.Written beginString writes frame)
    (countable : (bodyOf writes).length < 10 ^ MAX_LENGTH_DIGITS) :
    let header := headerOf beginString (decimal (bodyOf writes).length)
    Layout header (bodyOf writes) (formatChecksum (calculateChecksum (header ++ bodyOf writes))) := by
  intro header
  refine ⟨?_, ?_, notMem_of_digits (formatChecksum_digits _) isAsciiDigit_SOH⟩
  · have digits : (decimal (bodyOf writes).length).length ≤ MAX_LENGTH_DIGITS :=
      (decimal_length_le_iff (by decide)).mpr countable
    have bounded := written.bounded
    have ten : (ascii "10").length = 2 := rfl
    simp only [header, List.length_append, headerOf_length, fieldBytes_length,
      formatChecksum_length, ten]
    simp only [MAX_LENGTH_DIGITS, BEGIN_STRING_MAX_LEN, usizeMax] at *
    omega
  · have ends := bodyOf_ends (written_nonempty written)
    rw [List.getLast?_append, ends]
    rfl

/-- A finished message starts with a raw MsgType write. -/
theorem written_cons (written : Encoder.Written beginString writes frame) :
    ∃ tag value rest, writes = .raw tag value :: rest ∧ tag.toNat = 35 := by
  match writes, written.first, written.accepted with
  | [], first, _ => cases first
  | .raw tag value :: rest, first, _ => exact ⟨tag, value, rest, rfl, Option.some.inj first⟩
  | .data lengthTag dataTag value :: rest, first, accepted =>
      -- a LENGTH tag is never as low as MsgType's
      have low : lengthTag.toNat = 35 := Option.some.inj first
      cases accepted _ List.mem_cons_self with
      | data paired nonempty =>
          rw [low, pairedDataTag_low (by decide)] at paired
          cases paired

/-- The decoder reads a finished message back: the whole frame, its body in
place, and BeginString, BodyLength and the written fields in order. -/
theorem decode_written_at (written : Encoder.Written beginString writes frame)
    (countable : (bodyOf writes).length < 10 ^ MAX_LENGTH_DIGITS) :
    ∃ message after, decode (new frame) = .ok message after ∧ after.offset = frame.length ∧
      message.buffer = frame ∧ message.beginString = ⟨2, 2 + beginString.length⟩ ∧
      message.fields =
        headerFields beginString (decimal (bodyOf writes).length) ++ fieldsOf writes := by
  have layout := written_layout written countable
  have parsed : parseLength (decimal (bodyOf writes).length) = some (bodyOf writes).length :=
    parseLength_decimal countable
  obtain ⟨tag, value, rest, rfl, isMsgType⟩ := written_cons written
  obtain ⟨checksum, sum_eq⟩ : ∃ checksum, checksum = formatChecksum (calculateChecksum
      (headerOf beginString (decimal (bodyOf (.raw tag value :: rest)).length) ++
        bodyOf (.raw tag value :: rest))) := ⟨_, rfl⟩
  have whole : frame = headerOf beginString (decimal (bodyOf (.raw tag value :: rest)).length) ++
      (bodyOf (.raw tag value :: rest) ++ fieldBytes (ascii "10") checksum) := by
    rw [written.frame, Encoder.frameOf, sum_eq]
  simp only [← sum_eq] at layout
  have declared := sum_eq ▸ parseChecksum_formatChecksum (calculateChecksum
      (headerOf beginString (decimal (bodyOf (.raw tag value :: rest)).length) ++
        bodyOf (.raw tag value :: rest)))
  have later : ∀ other ∈ rest, other.Accepted :=
    fun other member => written.accepted other (List.mem_cons_of_mem _ member)
  have at_0 := atBody_inBody beginString (decimal (bodyOf (.raw tag value :: rest)).length)
    (bodyOf (.raw tag value :: rest)) checksum
  have split : (bodyOf (.raw tag value :: rest)).drop 0 =
      fieldBytes (decimal tag.toNat) value ++ bodyOf rest := by
    simp [bodyOf, Write.bytes, Write.fields, Write.canonical]
  cases written.accepted _ List.mem_cons_self with
  | raw legal nonempty clean msgType =>
      obtain ⟨utf8, msgType, accepted⟩ := checkMsgType_ok (msgType isMsgType)
      have read := at_0.scanned layout rfl split (Nat.le_of_lt_succ tag.toNat_lt) clean
      rw [announce_plain (checkBodyTag_ok legal).1] at read
      obtain ⟨next, left⟩ := at_0.past split none (by simp)
      obtain ⟨last, collected, input, offset⟩ := collectFields_writes layout countable rest later
        _ next rfl left (by
          rw [at_0.input, List.length_append, List.length_append]
          omega : _ < (atBody _ _ _ checksum).input.length + 1)
        [⟨8, beginString⟩, ⟨9, decimal (bodyOf (.raw tag value :: rest)).length⟩, ⟨tag.toNat, value⟩]
        _
      have body := decodeBody_reaches ⟨2, 2 + beginString.length⟩ read isMsgType utf8 accepted
        collected input offset declared fun _ => rfl
      obtain ⟨beginInside, bodyInside⟩ := ranges_inside beginString
        (decimal (bodyOf (.raw tag value :: rest)).length) (bodyOf (.raw tag value :: rest)) checksum
      simp only [at_0.input] at beginInside bodyInside
      rw [whole, decode_eq_body layout (legal_clean written) parsed, body]
      simp only [input, beginInside, bodyInside]
      refine ⟨_, last, rfl, by rw [offset, input], rfl, rfl, ?_⟩
      simp [headerFields, fieldsOf, Write.fields]

theorem decode_written (written : Encoder.Written beginString writes frame)
    (countable : (bodyOf writes).length < 10 ^ MAX_LENGTH_DIGITS) :
    ∃ message after, decode (new frame) = .ok message after ∧ after.offset = frame.length ∧
      message.buffer = frame ∧
      message.fields =
        headerFields beginString (decimal (bodyOf writes).length) ++ fieldsOf writes := by
  obtain ⟨message, after, decoded, offset, buffer, -, fields⟩ := decode_written_at written countable
  exact ⟨message, after, decoded, offset, buffer, fields⟩

/-- A body of 10^10 bytes or more has a BodyLength the decoder does not read. -/
theorem decode_uncounted_as (validate : Bool) (written : Encoder.Written beginString writes frame)
    (long : 10 ^ MAX_LENGTH_DIGITS ≤ (bodyOf writes).length) (room : frame.length ≤ usizeMax) :
    ∃ last, decode ((new frame).withChecksumValidation validate) = .error .invalidBodyLength last := by
  have unread : parseLength (decimal (bodyOf writes).length) = none := by
    cases parsed : parseLength (decimal (bodyOf writes).length) with
    | none => rfl
    | some n =>
        have digits := (parseDigits_eq_some.mp parsed).2.1
        exact absurd ((decimal_length_le_iff (by decide)).mp digits) (Nat.not_lt_of_le long)
  have shape : frame = fieldBytes (ascii "8") beginString ++
      (fieldBytes (ascii "9") (decimal (bodyOf writes).length) ++ (bodyOf writes ++
        fieldBytes (ascii "10") (formatChecksum (calculateChecksum
          (headerOf beginString (decimal (bodyOf writes).length) ++ bodyOf writes))))) := by
    rw [written.frame, Encoder.frameOf, headerOf, List.append_assoc]
  have refused := decodeHeader_uncounted validate (legal_clean written)
    (notMem_of_digits (decimal_digits (bodyOf writes).length) isAsciiDigit_SOH) unread
    (shape ▸ room)
  rw [← shape] at refused
  dsimp only at refused
  refine ⟨⟨frame, beginString.length + (decimal (bodyOf writes).length).length + 6, validate, none⟩, ?_⟩
  simp only [decode, decodeFrame, bind_apply, get_apply, modify_apply, new, withChecksumValidation, refused]

theorem decode_uncounted (written : Encoder.Written beginString writes frame)
    (long : 10 ^ MAX_LENGTH_DIGITS ≤ (bodyOf writes).length) (room : frame.length ≤ usizeMax) :
    ∃ last, decode (new frame) = .error .invalidBodyLength last :=
  decode_uncounted_as true written long room

/-! ## Without checksum validation -/

/-- A decoder that leaves the checksum to its caller. -/
def unvalidated (s : Decoder) : Decoder := s.withChecksumValidation false

theorem nextField_unvalidated (limit : Option Nat) :
    Mirrors unvalidated (nextFieldBounded limit) (nextFieldBounded limit) := by
  refine .get_bind fun s => ?_
  have there : sliceFrom? (unvalidated s).input (unvalidated s).offset = sliceFrom? s.input s.offset := rfl
  rw [there]
  cases sliceFrom? s.input s.offset with
  | none => exact .pure none
  | some remaining =>
      dsimp only
      split
      · exact .pure none
      · refine .bind (.orFail _ _) fun eqPos => .bind (.orFail _ _) fun tagBytes =>
          .bind (.orFail _ _) fun tag => .bind (.orFail _ _) fun valueStart =>
          .bind (.orFail _ _) fun valueBytes => .bind (.set _) fun _ =>
          .bind (.orThrow fun _ => id) fun valueLen => .bind (.orFail _ _) fun value =>
          .bind (.orFail _ _) fun consumed => .bind (.orFail _ _) fun offset =>
          .bind (.set _) fun _ => ?_
        cases pairedDataTag tag with
        | none => exact .pure _
        | some dataTag => exact .bind (.orFail _ _) fun declared => .bind (.set _) fun _ => .pure _

theorem collectFields_unvalidated (limit : Option Nat) (fuel : Nat) (fields : List FieldRef)
    (start : Nat) :
    Mirrors unvalidated (collectFields limit fuel fields start)
      (collectFields limit fuel fields start) := by
  induction fuel generalizing fields with
  | zero => exact .pure _
  | succ fuel ih =>
      refine .get_bind fun s => .bind (nextField_unvalidated limit) fun found => ?_
      cases found with
      | none => exact .pure _
      | some field =>
          dsimp only
          split
          · exact .pure _
          · exact ih _

theorem decodeHeader_unvalidated (start : Nat) :
    Mirrors unvalidated (decodeHeader start) (decodeHeader start) :=
  .bind (nextField_unvalidated none) fun _ => .bind (.orFail _ _) fun _ => .bind (.ensure _ _) fun _ =>
    .get_bind fun _ => .bind (.orThrow fun _ => id) fun _ => .bind (nextField_unvalidated none) fun _ =>
    .bind (.orFail _ _) fun _ => .bind (.ensure _ _) fun _ => .bind (.orFail _ _) fun _ =>
    .get_bind fun _ => .bind (.orThrow fun _ => id) fun _ => .get_bind fun _ =>
    .bind (.orFail _ _) fun _ => .pure _

theorem decodeBody_unvalidated (start : Nat) (header : Header) :
    Mirrors unvalidated (decodeBody start header) (decodeBody start header) := by
  refine .bind (nextField_unvalidated _) fun _ => .bind (.orFail _ _) fun _ =>
    .bind (.ensure _ _) fun _ => .bind (.ensure _ _) fun _ => .bind (.orThrow fun _ => id) fun _ =>
    .get_bind fun _ => .bind (collectFields_unvalidated _ _ _ _) fun collected =>
    .bind (.orFail _ _) fun _ => .bind (.ensure _ _) fun _ => .get_bind fun _ =>
    .bind (.orThrow fun _ _ => ?_) fun _ => .bind (.orThrow fun _ => id) fun _ =>
    .bind (.orFail _ _) fun _ => .pure _
  -- the checksum is not looked at
  exact if_neg Bool.false_ne_true

/-- What a decode reads does not depend on the checksum being validated. -/
theorem decode_unvalidated : Mirrors unvalidated decode decode := by
  have frame : Mirrors unvalidated decodeFrame decodeFrame :=
    .get_bind fun _ => .bind (.modify fun _ => rfl) fun _ =>
      .bind (decodeHeader_unvalidated _) fun _ => decodeBody_unvalidated _ _
  exact .bind frame fun _ => .bind (.orThrow fun _ => id) fun _ => .bind (.orThrow fun _ => id)
    fun _ => .pure _

end Message

end Decoder

end IronFix.TagValue
