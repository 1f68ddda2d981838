import IronFix.TagValue.Fields

/-!
# Reading a message

The decoder on a frame that is laid out as a header declares: the header is
read, the field loop walks the body, and it stops at the CheckSum field behind
the body unless it meets a CheckSum inside it.
-/

namespace IronFix.TagValue

open Lib.Slice Lib.Decimal Lib.Steps

/-- `bytes` is the wire form of `fields`: tag texts that parse to the tags. -/
inductive Wire : List FieldRef → Bytes → Prop
  | nil : Wire [] []
  | cons {tagText value bytes : Bytes} {tag : Nat} {fields : List FieldRef}
      (parsed : parseTag tagText = some tag) (rest : Wire fields bytes) :
      Wire (⟨tag, value⟩ :: fields) (fieldBytes tagText value ++ bytes)

theorem Wire.append {f₁ f₂ : List FieldRef} {b₁ b₂ : Bytes} (one : Wire f₁ b₁) (two : Wire f₂ b₂) :
    Wire (f₁ ++ f₂) (b₁ ++ b₂) := by
  induction one with
  | nil => exact two
  | cons parsed _ ih =>
      rw [List.append_assoc]
      exact .cons parsed ih

/-- A CheckSum (10) field starts inside the body, behind another field. -/
def EmbeddedChecksum (body : Bytes) : Prop :=
  ∃ front tagText rest, body = front ++ tagText ++ EQUALS :: rest ∧
    parseTag tagText = some 10 ∧ front.getLast? = some SOH

/-- Bytes without SOH end before the first SOH. -/
theorem clean_length_le {p r w t : Bytes} (clean : SOH ∉ p) (same : p ++ r = w ++ SOH :: t) :
    p.length ≤ w.length := by
  rcases List.append_eq_append_iff.mp same with ⟨more, hw, _⟩ | ⟨more, hp, htail⟩
  · rw [hw, List.length_append]
    exact Nat.le_add_right _ _
  · cases more with
    | nil => rw [hp, List.append_nil]
    | cons x more =>
        rw [List.cons_append, List.cons.injEq] at htail
        refine absurd ?_ clean
        rw [hp, ← htail.1]
        simp

/-- The first two fields of a message. -/
def headerFields (version digits : Bytes) : List FieldRef := [⟨8, version⟩, ⟨9, digits⟩]

def headerOf (version digits : Bytes) : Bytes :=
  fieldBytes (ascii "8") version ++ fieldBytes (ascii "9") digits

theorem headerOf_length (version digits : Bytes) :
    (headerOf version digits).length = version.length + digits.length + 6 := by
  simp [headerOf, fieldBytes_length, ascii]
  omega

namespace Decoder

/-! ## The header -/

section Header

variable {s : Decoder} {limit : Option Nat}

theorem valueRange_eq {start len : Nat} (ends : s.offset = start + len + 1) :
    s.valueRange 0 len = .ok ⟨start, start + len⟩ := by
  unfold valueRange rebase
  rw [ends]
  simp only [Nat.add_sub_cancel, Nat.not_lt_zero, if_false, Nat.sub_zero]
  rw [if_neg (by omega), if_neg (by omega)]

/-- The two fields of a header in front of `rest`. -/
theorem header_fields {version digits rest : Bytes} (validate : Bool) (cleanVersion : SOH ∉ version)
    (cleanDigits : SOH ∉ digits)
    (room : (fieldBytes (ascii "8") version ++ (fieldBytes (ascii "9") digits ++ rest)).length ≤
      usizeMax) :
    let bytes := fieldBytes (ascii "8") version ++ (fieldBytes (ascii "9") digits ++ rest)
    nextField ⟨bytes, 0, validate, none⟩ =
        .ok (some ⟨8, version⟩) ⟨bytes, version.length + 3, validate, none⟩ ∧
      nextField ⟨bytes, version.length + 3, validate, none⟩ =
        .ok (some ⟨9, digits⟩) ⟨bytes, version.length + digits.length + 6, validate, none⟩ := by
  intro bytes
  have len8 : (fieldBytes (ascii "8") version).length = version.length + 3 := by
    rw [fieldBytes_length]
    simp [ascii]
    omega
  have len9 : (fieldBytes (ascii "9") digits).length = digits.length + 3 := by
    rw [fieldBytes_length]
    simp [ascii]
    omega
  have total : bytes.length = version.length + digits.length + 6 + rest.length := by
    simp only [bytes, List.length_append, len8, len9]
    omega
  constructor
  · have read : nextFieldBounded none ⟨bytes, 0, validate, none⟩ =
        announce ⟨bytes, 0, validate, none⟩ (fieldBytes (ascii "8") version).length ⟨8, version⟩ :=
      nextField_scanned room (Nat.zero_le _) rfl (by decide) cleanVersion rfl
    rw [nextField, read, announce_plain (pairedDataTag_low (by decide)), len8]
    simp [past]
  · have behind : bytes.drop (version.length + 3) = fieldBytes (ascii "9") digits ++ rest := by
      rw [← len8]
      exact List.drop_left
    have read : nextFieldBounded none ⟨bytes, version.length + 3, validate, none⟩ =
        announce ⟨bytes, version.length + 3, validate, none⟩
          (fieldBytes (ascii "9") digits).length ⟨9, digits⟩ :=
      nextField_scanned room (by simp only; omega) behind (by decide) cleanDigits rfl
    rw [nextField, read, announce_plain (pairedDataTag_low (by decide)), len9]
    simp only [past, EStateM.Result.ok.injEq, Decoder.mk.injEq, true_and, and_true]
    omega

/-- The range of the BodyLength value. -/
theorem digitsRange (bytes version digits : Bytes) (validate : Bool) :
    valueRange ⟨bytes, version.length + digits.length + 6, validate, none⟩ 0 digits.length =
      .ok ⟨version.length + 5, version.length + 5 + digits.length⟩ := by
  refine valueRange_eq ?_
  simp only
  omega

theorem versionRange (bytes version : Bytes) (validate : Bool) :
    valueRange ⟨bytes, version.length + 3, validate, none⟩ 0 version.length =
      .ok ⟨2, 2 + version.length⟩ := by
  refine valueRange_eq ?_
  simp only
  omega

/-- A header in front of `rest`, as the decoder reads it. -/
theorem decodeHeader_eq {version digits rest : Bytes} {n : Nat} (validate : Bool)
    (cleanVersion : SOH ∉ version) (parsed : parseLength digits = some n)
    (room : (fieldBytes (ascii "8") version ++ (fieldBytes (ascii "9") digits ++ rest)).length ≤
      usizeMax)
    (fits : version.length + digits.length + 6 + n ≤ usizeMax) :
    let bytes := fieldBytes (ascii "8") version ++ (fieldBytes (ascii "9") digits ++ rest)
    decodeHeader 0 ⟨bytes, 0, validate, none⟩ =
      .ok ⟨⟨8, version⟩, ⟨2, 2 + version.length⟩, ⟨9, digits⟩,
          version.length + digits.length + 6, version.length + digits.length + 6 + n⟩
        ⟨bytes, version.length + digits.length + 6, validate, none⟩ := by
  intro bytes
  have cleanDigits : SOH ∉ digits := notMem_of_digits (parseDigits_eq_some.mp parsed).2.2.1 rfl
  obtain ⟨first, second⟩ := header_fields validate cleanVersion cleanDigits room
  have ending : checkedAdd usizeMax (version.length + digits.length + 6) n =
      some (version.length + digits.length + 6 + n) := checkedAdd_eq_some.mpr ⟨rfl, fits⟩
  simp only [decodeHeader, bind_apply, get_apply, pure_apply, bytes, first, second, orFail_some,
    ensure_of, versionRange, digitsRange, orThrow_ok, parsed, ending]

/-- A BodyLength that is no count. -/
theorem decodeHeader_uncounted {version digits rest : Bytes} (validate : Bool)
    (cleanVersion : SOH ∉ version) (cleanDigits : SOH ∉ digits) (unread : parseLength digits = none)
    (room : (fieldBytes (ascii "8") version ++ (fieldBytes (ascii "9") digits ++ rest)).length ≤
      usizeMax) :
    let bytes := fieldBytes (ascii "8") version ++ (fieldBytes (ascii "9") digits ++ rest)
    decodeHeader 0 ⟨bytes, 0, validate, none⟩ =
      .error .invalidBodyLength ⟨bytes, version.length + digits.length + 6, validate, none⟩ := by
  intro bytes
  obtain ⟨first, second⟩ := header_fields validate cleanVersion cleanDigits room
  simp only [decodeHeader, bind_apply, get_apply, bytes, first, second, orFail_some, ensure_of,
    versionRange, orThrow_ok, unread, orFail_none]

end Header

/-! ## The body -/

/-- A message behind its header: a body that ends in SOH, then the CheckSum. -/
structure Layout (header body checksum : Bytes) : Prop where
  room : (header ++ (body ++ fieldBytes (ascii "10") checksum)).length ≤ usizeMax
  ends : (header ++ body).getLast? = some SOH
  clean : SOH ∉ checksum

/-- The decoder is `k` bytes into the body, behind a field. -/
structure InBody (header body checksum : Bytes) (s : Decoder) (k : Nat) : Prop where
  input : s.input = header ++ (body ++ fieldBytes (ascii "10") checksum)
  offset : s.offset = header.length + k
  inside : k ≤ body.length
  pending : s.PendingLegal
  validates : s.validateChecksum = true
  behind : k ≠ 0 → (body.take k).getLast? = some SOH

section Body

variable {header body checksum : Bytes} {s : Decoder} {k : Nat}

theorem InBody.remaining (at_k : InBody header body checksum s k) :
    s.input.drop s.offset = body.drop k ++ fieldBytes (ascii "10") checksum := by
  rw [at_k.input, at_k.offset, ← List.drop_drop, List.drop_left,
    List.drop_append_of_le_length at_k.inside]

theorem InBody.offset_le (at_k : InBody header body checksum s k) : s.offset ≤ s.input.length := by
  rw [at_k.input, at_k.offset, List.length_append, List.length_append]
  have := at_k.inside
  omega

/-- At the end of the body stands the CheckSum. -/
theorem InBody.at_end (layout : Layout header body checksum)
    (at_k : InBody header body checksum s body.length) (limit : Option Nat) :
    nextFieldBounded limit s =
      .ok (some ⟨10, checksum⟩) (s.past (fieldBytes (ascii "10") checksum).length none) := by
  have remaining := at_k.remaining
  rw [List.drop_length, List.nil_append] at remaining
  rw [nextField_scanned (at_k.input ▸ layout.room) at_k.offset_le
    (remaining.trans (List.append_nil _).symm) (by decide) layout.clean
    at_k.pending.counted_checksum, announce_plain (pairedDataTag_low (by decide))]

/-- What is left of the body ends in SOH. -/
theorem Layout.drop_ends (layout : Layout header body checksum) (short : k < body.length) :
    ∃ front, body.drop k = front ++ [SOH] := by
  have nonempty : body ≠ [] := List.length_pos_iff.mp (by omega)
  have last : (body.drop k).getLast? = some SOH := by
    rw [List.getLast?_drop, if_neg (by omega), ← layout.ends, List.getLast?_append_of_ne_nil _ nonempty]
  exact ⟨_, (List.dropLast_append_getLast? SOH last).symm⟩

/-- Inside the body a field is read that ends inside it, or the read fails with
an error that is neither of the trailer's. -/
theorem InBody.read (layout : Layout header body checksum)
    (at_k : InBody header body checksum s k) (short : k < body.length) :
    (∃ error after, nextFieldBounded (some (header.length + body.length)) s = .error error after ∧
      (∀ c d, error ≠ .checksumMismatch c d) ∧ error ≠ .invalidBodyLength) ∨
    ∃ tagText value tag after n,
      nextFieldBounded (some (header.length + body.length)) s = .ok (some ⟨tag, value⟩) after ∧
      parseTag tagText = some tag ∧ n = (fieldBytes tagText value).length ∧
      body.drop k = fieldBytes tagText value ++ body.drop (k + n) ∧
      InBody header body checksum after (k + n) := by
  obtain ⟨front, hfront⟩ := layout.drop_ends short
  have remaining := at_k.remaining
  have len := congrArg List.length hfront
  rw [List.length_drop, List.length_append, List.length_singleton] at len
  rcases reads (at_k.input ▸ layout.room) at_k.offset_le (some (header.length + body.length)) with
    ⟨exhausted, _⟩ | ⟨error, after, result, unchecked, outside⟩ | ⟨tagText, value, rest, tag, after, split, parsed, result, moved, legal, bounded⟩
  · rw [remaining, hfront] at exhausted
    simp at exhausted
  · refine .inl ⟨error, after, result, unchecked, fun same => ?_⟩
    obtain ⟨tagText, bytes, tag, stop, split, parsed, limited, past⟩ := outside same
    -- the tag's digits hold no SOH, so the value starts before the body ends
    have cleanTag : SOH ∉ tagText ++ [EQUALS] := by
      have := notMem_of_digits (parseTag_digits parsed) isAsciiDigit_SOH
      simpa [SOH, EQUALS] using this
    have early : (tagText ++ [EQUALS]).length ≤ front.length := by
      refine clean_length_le cleanTag (r := bytes) (t := fieldBytes (ascii "10") checksum) ?_
      rw [List.append_assoc, List.singleton_append, ← split, remaining, hfront]
      simp
    rw [List.length_append, List.length_singleton] at early
    have := at_k.offset
    cases limited
    omega
  · have whole : fieldBytes tagText value ++ rest =
        front ++ SOH :: fieldBytes (ascii "10") checksum := by
      rw [← split, remaining, hfront]
      simp
    -- scanned, the value ends at the first SOH; counted, inside the limit
    have fits : (fieldBytes tagText value).length ≤ (body.drop k).length := by
      rcases bounded with clean | within
      · have cleanField : SOH ∉ tagText ++ EQUALS :: value := by
          have := notMem_of_digits (parseTag_digits parsed) isAsciiDigit_SOH
          simp only [List.mem_append, List.mem_cons, not_or]
          exact ⟨this, by decide, clean⟩
        have early : (tagText ++ EQUALS :: value).length ≤ front.length := by
          refine clean_length_le cleanField (r := SOH :: rest) ?_
            (t := fieldBytes (ascii "10") checksum)
          rw [← whole]
          simp [fieldBytes]
        rw [hfront, fieldBytes_length, List.length_append, List.length_singleton]
        rw [List.length_append, List.length_cons] at early
        omega
      · have := within _ rfl
        rw [at_k.offset] at this
        rw [List.length_drop]
        omega
    have prefixed : fieldBytes tagText value <+: body.drop k :=
      List.prefix_of_prefix_length_le ⟨rest, split.symm.trans remaining ▸ rfl⟩
        ⟨fieldBytes (ascii "10") checksum, rfl⟩ fits
    obtain ⟨later, hlater⟩ := prefixed
    have following : later = body.drop (k + (fieldBytes tagText value).length) := by
      rw [← List.drop_drop, ← hlater, List.drop_left]
    obtain ⟨pending, rfl⟩ := moved
    have within : k + (fieldBytes tagText value).length ≤ body.length := by
      rw [List.length_drop] at fits
      omega
    refine .inr ⟨tagText, value, tag, _, _, result, parsed, rfl, by rw [← following, hlater], ?_⟩
    refine ⟨at_k.input, ?_, within, legal, at_k.validates, fun _ => ?_⟩
    · show s.offset + _ = _
      rw [at_k.offset]
      omega
    · have taken : body.take (k + (fieldBytes tagText value).length) =
          body.take k ++ (tagText ++ EQUALS :: value) ++ [SOH] := by
        rw [List.take_add, ← hlater, List.take_left]
        simp [fieldBytes]
      rw [taken, List.getLast?_append]
      simp

/-- What the field loop can do from inside the body: fail, reach the CheckSum
behind it with all its fields, or meet a CheckSum on the way. -/
inductive Collects (header body checksum : Bytes) (k : Nat) (fields : List FieldRef) :
    EStateM.Result DecodeError Decoder Collected → Prop
  | fails (error : DecodeError) (after : Decoder) (unchecked : ∀ c d, error ≠ .checksumMismatch c d)
      (agrees : error ≠ .invalidBodyLength) : Collects header body checksum k fields (.error error after)
  | reaches (more : List FieldRef) (after : Decoder) (wire : Wire more (body.drop k))
      (input : after.input = header ++ (body ++ fieldBytes (ascii "10") checksum))
      (offset : after.offset = after.input.length) (validates : after.validateChecksum = true) :
      Collects header body checksum k fields
        (.ok ⟨fields ++ more, some ⟨10, checksum⟩, header.length + body.length⟩ after)
  | meets (collected : Collected) (after : Decoder) (field : FieldRef)
      (found : collected.checksum = some field)
      (early : header.length + body.length ≠ collected.checksumStart)
      (embedded : EmbeddedChecksum body) : Collects header body checksum k fields (.ok collected after)

/-- The field loop from inside the body, behind its first field. -/
theorem collectFields_body (layout : Layout header body checksum) (fuel : Nat)
    (at_k : InBody header body checksum s k) (started : k ≠ 0) (enough : body.length - k < fuel)
    (fields : List FieldRef) (start : Nat) :
    Collects header body checksum k fields
      (collectFields (some (header.length + body.length)) fuel fields start s) := by
  induction fuel generalizing s k fields with
  | zero => omega
  | succ fuel ih =>
      rcases Nat.lt_or_ge k body.length with short | long
      · rcases at_k.read layout short with ⟨error, after, result, unchecked, agrees⟩ |
          ⟨tagText, value, tag, after, n, result, parsed, len, split, next⟩
        · simp only [collectFields, bind_apply, get_apply, result]
          exact .fails error after unchecked agrees
        · simp only [collectFields, bind_apply, get_apply, result]
          by_cases checksumTag : tag = 10
          · subst checksumTag
            rw [if_pos rfl]
            refine .meets _ after ⟨10, value⟩ rfl ?_ ⟨body.take k, tagText, value ++ SOH :: body.drop (k + n),
              ?_, parsed, at_k.behind started⟩
            · simp only [at_k.offset]
              omega
            · conv_lhs => rw [← List.take_append_drop k body, split]
              simp [fieldBytes]
          · rw [if_neg checksumTag]
            have pos : 2 ≤ n := by
              rw [len, fieldBytes_length]
              omega
            have later := ih next (by omega) (by omega) (fields ++ [⟨tag, value⟩])
            generalize collectFields (some (header.length + body.length)) fuel
              (fields ++ [⟨tag, value⟩]) start after = outcome at later ⊢
            cases later with
            | fails error after unchecked agrees => exact .fails error after unchecked agrees
            | meets collected after field found early embedded =>
                exact .meets collected after field found early embedded
            | reaches more after wire input offset validates =>
                rw [List.append_assoc, List.singleton_append]
                refine .reaches (⟨tag, value⟩ :: more) after ?_ input offset validates
                rw [split]
                exact .cons parsed wire
      · have whole : k = body.length := Nat.le_antisymm at_k.inside long
        subst whole
        have result := at_k.at_end layout (some (header.length + body.length))
        simp only [collectFields, bind_apply, get_apply, result, if_true, pure_apply, at_k.offset]
        have none : Wire [] (body.drop body.length) := by
          rw [List.drop_length]
          exact .nil
        have last : (s.past (fieldBytes (ascii "10") checksum).length Option.none).offset =
            s.input.length := by
          simp only [past, at_k.input, at_k.offset, List.length_append]
          omega
        have reached : Collects header body checksum body.length fields
            (.ok ⟨fields ++ [], some ⟨10, checksum⟩, header.length + body.length⟩
              (s.past (fieldBytes (ascii "10") checksum).length Option.none)) :=
          .reaches [] _ none at_k.input last at_k.validates
        rwa [List.append_nil] at reached

end Body

/-! ## The message -/

/-- What a decode of a laid-out message gives: an error that is neither a
checksum mismatch nor, unless a CheckSum stands inside the body, a body-length
mismatch; or the whole message, with its body in place and its fields those of
the body. -/
inductive Decodes (header body checksum : Bytes) (first : List FieldRef) :
    EStateM.Result DecodeError Decoder RawMessage → Prop
  | fails (error : DecodeError) (after : Decoder) (unchecked : ∀ c d, error ≠ .checksumMismatch c d)
      (outside : error = .invalidBodyLength → EmbeddedChecksum body) :
      Decodes header body checksum first (.error error after)
  | reads (message : RawMessage) (after : Decoder) (more : List FieldRef)
      (buffer : message.buffer = header ++ (body ++ fieldBytes (ascii "10") checksum))
      (consumed : after.offset = message.buffer.length)
      (bodySpan : message.body = ⟨header.length, header.length + body.length⟩)
      (fields : message.fields = first ++ more) (wire : Wire more body) :
      Decodes header body checksum first (.ok message after)

section Message

variable {header body checksum : Bytes} {s : Decoder} {sum : UInt8}

/-- The CheckSum of a laid-out message against what it covers. -/
theorem verifyChecksum_eq (input : s.input = header ++ (body ++ fieldBytes (ascii "10") checksum))
    (declared : parseChecksum checksum = some sum)
    (agrees : calculateChecksum (header ++ body) = sum) :
    s.verifyChecksum 0 (header.length + body.length) ⟨10, checksum⟩ = .ok () := by
  have covered : slice? s.input 0 (header.length + body.length) = some (header ++ body) :=
    slice?_eq_some_iff.mpr ⟨[], fieldBytes (ascii "10") checksum, by simp [input], rfl, by simp⟩
  simp only [verifyChecksum, declared, covered, okOr_some, bind, Except.bind, agrees]
  rw [if_neg (not_not_intro rfl)]

/-- The end of a decode whose field loop has reached the CheckSum. -/
theorem decodeBody_reaches (beginString : Span) {beginStringField bodyLengthField msgTypeField : FieldRef}
    {after last : Decoder} {msgType : MsgType} {more : List FieldRef}
    (read : nextFieldBounded (some (header.length + body.length)) s = .ok (some msgTypeField) after)
    (tag : msgTypeField.tag = 35) (utf8 : isUtf8 msgTypeField.value = true)
    (legal : MsgType.new msgTypeField.value = .ok msgType)
    (collected : collectFields (some (header.length + body.length)) (after.input.length + 1)
      [beginStringField, bodyLengthField, msgTypeField] after.offset after =
      .ok ⟨[beginStringField, bodyLengthField, msgTypeField] ++ more, some ⟨10, checksum⟩,
        header.length + body.length⟩ last)
    (input : last.input = header ++ (body ++ fieldBytes (ascii "10") checksum))
    (offset : last.offset = last.input.length)
    (declared : parseChecksum checksum = some sum)
    (agrees : last.validateChecksum = true → calculateChecksum (header ++ body) = sum) :
    decodeBody 0 ⟨beginStringField, beginString, bodyLengthField, header.length,
        header.length + body.length⟩ s =
      .ok (⟨last.input, beginString, ⟨header.length, header.length + body.length⟩, msgType⟩,
        [beginStringField, bodyLengthField, msgTypeField] ++ more) last := by
  have whole : slice? last.input 0 last.offset = some last.input :=
    slice?_eq_some_iff.mpr ⟨[], [], by simp, rfl, by simp [offset]⟩
  have rebased : rebase ⟨header.length, header.length + body.length⟩ 0 last.input.length =
      .ok ⟨header.length, header.length + body.length⟩ := by
    simp [rebase]
  have verified : (if last.validateChecksum = true then
      last.verifyChecksum 0 (header.length + body.length) ⟨10, checksum⟩ else .ok ()) = .ok () := by
    split
    · rename_i validates
      exact verifyChecksum_eq input declared (agrees validates)
    · rfl
  simp only [decodeBody, bind_apply, get_apply, read, orFail_some, ensure_of _ tag, ensure_of _ utf8,
    legal, Except.mapError, orThrow_ok, collected, ensure_of, verified, rebased, whole, pure_apply]

/-- The decoder behind the header. -/
def atBody (version digits body checksum : Bytes) : Decoder where
  input := headerOf version digits ++ (body ++ fieldBytes (ascii "10") checksum)
  offset := (headerOf version digits).length
  validateChecksum := true
  pendingData := none

theorem atBody_inBody (version digits body checksum : Bytes) :
    InBody (headerOf version digits) body checksum (atBody version digits body checksum) 0 :=
  ⟨rfl, rfl, Nat.zero_le _, by simp [PendingLegal, atBody], rfl, fun h => absurd rfl h⟩

/-- A decode is the decode of its body, once the header is read. -/
theorem decode_eq_body {version digits : Bytes}
    (layout : Layout (headerOf version digits) body checksum) (cleanVersion : SOH ∉ version)
    (parsed : parseLength digits = some body.length) :
    decode (new (headerOf version digits ++ (body ++ fieldBytes (ascii "10") checksum))) =
      match decodeBody 0 ⟨⟨8, version⟩, ⟨2, 2 + version.length⟩, ⟨9, digits⟩,
          (headerOf version digits).length, (headerOf version digits).length + body.length⟩
          (atBody version digits body checksum) with
      | .error error after => .error error after
      | .ok (frame, fields) after =>
          match checkRange frame.beginString frame.buffer.length with
          | .error error => .error error after
          | .ok () =>
              match checkRange frame.body frame.buffer.length with
              | .error error => .error error after
              | .ok () =>
                  .ok ⟨frame.buffer, frame.beginString, frame.body, frame.msgType, fields⟩ after := by
  have room := layout.room
  have fits : version.length + digits.length + 6 + body.length ≤ usizeMax := by
    rw [List.length_append, List.length_append, headerOf_length] at room
    omega
  have shape : headerOf version digits ++ (body ++ fieldBytes (ascii "10") checksum) =
      fieldBytes (ascii "8") version ++
        (fieldBytes (ascii "9") digits ++ (body ++ fieldBytes (ascii "10") checksum)) := by
    rw [headerOf, List.append_assoc]
  have header := decodeHeader_eq true cleanVersion parsed (shape ▸ room) fits
  simp only [← shape, ← headerOf_length] at header
  simp only [decode, decodeFrame, bind_apply, get_apply, modify_apply, new, header]
  have place : (⟨headerOf version digits ++ (body ++ fieldBytes (ascii "10") checksum),
      (headerOf version digits).length, true, none⟩ : Decoder) =
      atBody version digits body checksum := rfl
  rw [place]
  cases decodeBody 0 ⟨⟨8, version⟩, ⟨2, 2 + version.length⟩, ⟨9, digits⟩,
    (headerOf version digits).length, (headerOf version digits).length + body.length⟩
    (atBody version digits body checksum) with
  | error error after => rfl
  | ok result after =>
      simp only
      cases checkRange result.1.beginString result.1.buffer.length with
      | error error => rfl
      | ok =>
          simp only [orThrow_ok]
          cases checkRange result.1.body result.1.buffer.length <;> rfl

/-- The ranges of a laid-out message lie inside it. -/
theorem ranges_inside (version digits body checksum : Bytes) :
    let input := (atBody version digits body checksum).input
    checkRange ⟨2, 2 + version.length⟩ input.length = .ok () ∧
      checkRange ⟨(headerOf version digits).length,
        (headerOf version digits).length + body.length⟩ input.length = .ok () := by
  intro input
  have len : input.length = version.length + digits.length + 6 + (body.length +
      (fieldBytes (ascii "10") checksum).length) := by
    simp only [input, atBody, List.length_append, headerOf_length]
  constructor
  · exact if_neg (by simp only; omega)
  · refine if_neg ?_
    rw [headerOf_length]
    simp only
    omega

/-- Every message that is laid out as its header declares and whose checksum
agrees. -/
theorem decode_decodes {version digits : Bytes}
    (layout : Layout (headerOf version digits) body checksum) (cleanVersion : SOH ∉ version)
    (parsed : parseLength digits = some body.length) (declared : parseChecksum checksum = some sum)
    (agrees : calculateChecksum (headerOf version digits ++ body) = sum) :
    Decodes (headerOf version digits) body checksum (headerFields version digits)
      (decode (new (headerOf version digits ++ (body ++ fieldBytes (ascii "10") checksum)))) := by
  rw [decode_eq_body layout cleanVersion parsed]
  have at_0 := atBody_inBody version digits body checksum
  obtain ⟨beginInside, bodyInside⟩ := ranges_inside version digits body checksum
  have input : (atBody version digits body checksum).input =
      headerOf version digits ++ (body ++ fieldBytes (ascii "10") checksum) := rfl
  rw [input] at beginInside bodyInside
  generalize atBody version digits body checksum = s at at_0
  rcases Nat.lt_or_ge 0 body.length with short | empty
  · rcases at_0.read layout short with ⟨error, after, result, unchecked, agrees⟩ |
      ⟨tagText, value, tag, after, n, result, parsedTag, len, split, next⟩
    · simp only [decodeBody, bind_apply, result]
      exact .fails error after unchecked fun same => absurd same agrees
    · by_cases msgTypeTag : tag = 35
      case neg =>
        simp only [decodeBody, bind_apply, result, orFail_some, ensure_not _ msgTypeTag]
        exact .fails _ _ (by simp) (by simp)
      cases utf8 : isUtf8 value with
      | false =>
          have bad : ¬isUtf8 value = true := by simp [utf8]
          simp only [decodeBody, bind_apply, result, orFail_some, ensure_of _ msgTypeTag,
            ensure_not _ bad]
          exact .fails _ _ (by simp) (by simp)
      | true =>
          cases legal : MsgType.new value with
          | error error =>
              simp only [decodeBody, bind_apply, result, orFail_some, ensure_of _ msgTypeTag,
                ensure_of _ utf8, legal, Except.mapError, orThrow_error]
              exact .fails _ _ (by simp) (by simp)
          | ok msgType =>
              have pos : 0 + n ≠ 0 := by
                rw [len, fieldBytes_length]
                omega
              have collects := collectFields_body layout (after.input.length + 1) next pos (by
                rw [next.input, List.length_append, List.length_append]
                omega) [⟨8, version⟩, ⟨9, digits⟩, ⟨tag, value⟩] after.offset
              generalize loop : collectFields (some ((headerOf version digits).length + body.length))
                (after.input.length + 1) [⟨8, version⟩, ⟨9, digits⟩, ⟨tag, value⟩] after.offset
                after = outcome at collects
              cases collects with
              | fails error last unchecked agrees =>
                  simp only [decodeBody, bind_apply, get_apply, result, orFail_some,
                    ensure_of _ msgTypeTag, ensure_of _ utf8, legal, Except.mapError, orThrow_ok, loop]
                  exact .fails error last unchecked fun same => absurd same agrees
              | meets collected last field found early embedded =>
                  simp only [decodeBody, bind_apply, get_apply, result, orFail_some,
                    ensure_of _ msgTypeTag, ensure_of _ utf8, legal, Except.mapError, orThrow_ok, loop,
                    found, ensure_not _ early]
                  exact .fails _ _ (by simp) fun _ => embedded
              | reaches more last wire lastInput offset validates =>
                  have tail := decodeBody_reaches ⟨2, 2 + version.length⟩ result msgTypeTag
                    utf8 legal loop lastInput offset declared fun _ => agrees
                  rw [tail]
                  simp only [lastInput, beginInside, bodyInside]
                  refine .reads _ last (⟨tag, value⟩ :: more) rfl ?_ rfl ?_ ?_
                  · rw [offset, lastInput]
                  · simp [headerFields]
                  · rw [show body = fieldBytes tagText value ++ body.drop (0 + n) from split]
                    exact .cons parsedTag wire
  · have at_end : InBody (headerOf version digits) body checksum s body.length := by
      rwa [Nat.le_zero.mp empty]
    simp only [decodeBody, bind_apply, at_end.at_end layout, orFail_some]
    rw [ensure_not _ (by simp)]
    exact .fails _ _ (by simp) (by simp)

end Message

end Decoder

end IronFix.TagValue
