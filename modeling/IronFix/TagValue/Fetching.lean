import IronFix.TagValue.DecodeInto

/-!
# What a decode read

The fields of a decoded message stand one behind the other in its bytes, each
delimited by its SOH or by the count that was pending for its tag.
-/

namespace IronFix.TagValue

open Lib.Slice Lib.Decimal Lib.Steps

/-- A field as it was read: the text of its tag, and the field. -/
structure Entry where
  tagText : Bytes
  field : FieldRef
  deriving DecidableEq

namespace Entry

def bytes (entry : Entry) : Bytes := fieldBytes entry.tagText entry.field.value

end Entry

def wireOf (entries : List Entry) : Bytes := (entries.map Entry.bytes).flatten

@[simp] theorem wireOf_nil : wireOf [] = [] := rfl

@[simp] theorem wireOf_cons (entry : Entry) (entries : List Entry) :
    wireOf (entry :: entries) = entry.bytes ++ wireOf entries := rfl

@[simp] theorem wireOf_append (first second : List Entry) :
    wireOf (first ++ second) = wireOf first ++ wireOf second := by
  simp [wireOf]

/-- The count that is pending for a tag. -/
def countedBy (pending : Option PendingData) (tag : Nat) : Option Nat :=
  match pending with
  | some pending => if pending.dataTag = tag then some pending.declared else none
  | none => none

/-- A value that ends where it is said to: at its count, else at its first SOH. -/
def FramedBy (counted : Option Nat) (value : Bytes) : Prop :=
  match counted with
  | some declared => value.length = declared
  | none => SOH ∉ value

/-- Two values so delimited in front of the same bytes are one. -/
theorem FramedBy.unique {counted : Option Nat} {value other rest more : Bytes}
    (framed : FramedBy counted value) (alike : FramedBy counted other)
    (same : value ++ SOH :: rest = other ++ SOH :: more) : value = other ∧ rest = more := by
  cases counted with
  | some declared =>
      have length : value.length = other.length := Eq.trans framed alike.symm
      obtain ⟨values, tails⟩ := List.append_inj same length
      exact ⟨values, (List.cons.inj tails).2⟩
  | none => exact before_unique framed alike same

/-- What a field leaves pending, if its value can be read as a count where it is one. -/
def announces (field : FieldRef) : Option (Option PendingData) :=
  match pairedDataTag field.tag with
  | none => some none
  | some dataTag => (parseLength field.value).map fun declared => some ⟨dataTag, declared⟩

/-- Fields read one behind the other, each as the field before it left it. -/
inductive Fetches : Option PendingData → List Entry → Option PendingData → Prop
  | nil (pending : Option PendingData) : Fetches pending [] pending
  | cons {pending next last : Option PendingData} {entry : Entry} {entries : List Entry}
      (parsed : parseTag entry.tagText = some entry.field.tag)
      (framed : FramedBy (countedBy pending entry.field.tag) entry.field.value)
      (announced : announces entry.field = some next) (rest : Fetches next entries last) :
      Fetches pending (entry :: entries) last

theorem Fetches.append {pending next last : Option PendingData} {first second : List Entry}
    (one : Fetches pending first next) (two : Fetches next second last) :
    Fetches pending (first ++ second) last := by
  induction one with
  | nil pending => exact two
  | cons parsed framed announced _ ih => exact .cons parsed framed announced (ih two)

namespace Decoder

variable {s t u : Decoder} {limit : Option Nat}

/-- The decoder went past `entries`. -/
structure Passes (s : Decoder) (entries : List Entry) (t : Decoder) : Prop where
  input : t.input = s.input
  inside : t.offset ≤ s.input.length
  bytes : s.input.drop s.offset = wireOf entries ++ s.input.drop t.offset
  fetches : Fetches s.pendingData entries t.pendingData

theorem Passes.refl (inside : s.offset ≤ s.input.length) : Passes s [] s :=
  ⟨rfl, inside, rfl, .nil _⟩

theorem Passes.trans {first second : List Entry} (one : Passes s first t) (two : Passes t second u) :
    Passes s (first ++ second) u := by
  refine ⟨two.input.trans one.input, ?_, ?_, one.fetches.append two.fetches⟩
  · rw [← one.input]
    exact two.inside
  · have rest := two.bytes
    rw [one.input] at rest
    rw [one.bytes, rest, wireOf_append, List.append_assoc]

/-- A read is one entry. -/
theorem nextField_passes {field : FieldRef} (room : s.input.length ≤ usizeMax)
    (read : nextFieldBounded limit s = .ok (some field) t) :
    ∃ tagText, Passes s [⟨tagText, field⟩] t := by
  have inside := nextField_inside read
  rcases fieldShape (s.input.drop s.offset) with nothing | ⟨nonempty, absent⟩ |
    ⟨tagText, bytes, split, clean, bad⟩ | ⟨tagText, bytes, tag, split, parsed⟩
  · rw [nextField_empty inside nothing] at read
    cases read
  · rw [nextField_noTag inside nonempty absent] at read
    cases read
  · rw [nextField_badTag inside split clean bad] at read
    cases read
  · rw [nextField_field room inside split parsed] at read
    cases framed : valueLength s.offset tag (tagText.length + 1) bytes (s.counted tag) limit with
    | error error =>
        rw [framed] at read
        cases read
    | ok n =>
        rw [framed] at read
        obtain ⟨value, rest, rfl, rfl, -⟩ := valueLength_ok framed
        -- a scanned value has no SOH, a counted one has its count
        have delimited : FramedBy (countedBy s.pendingData tag) value := by
          show FramedBy (s.counted tag) value
          cases counts : s.counted tag with
          | none =>
              rw [counts] at framed
              obtain ⟨_, _, same, length, clean⟩ := memchr_eq_some_iff.mp (okOr_eq_ok.mp framed)
              obtain ⟨rfl, -⟩ := List.append_inj same length.symm
              exact clean
          | some declared =>
              rw [counts] at framed
              exact valueLength_declared framed
        simp only [List.take_left'] at read
        have shape : s.input.drop s.offset = fieldBytes tagText value ++ rest := by
          rw [split]
          simp [fieldBytes]
        have behind : s.input.drop (s.offset + (tagText.length + value.length + 2)) = rest := by
          rw [← List.drop_drop, shape, ← fieldBytes_length, List.drop_left]
        have lengths := congrArg List.length shape
        rw [List.length_drop, List.length_append, fieldBytes_length] at lengths
        unfold announce at read
        refine ⟨tagText, ?_⟩
        cases paired : pairedDataTag tag with
        | none =>
            simp only [paired] at read
            cases read
            refine ⟨rfl, by simp only [past]; omega, ?_, .cons parsed delimited ?_ (.nil _)⟩
            · simp only [wireOf_cons, wireOf_nil, List.append_nil, Entry.bytes, past, behind, shape]
            · unfold announces
              rw [paired]
              rfl
        | some dataTag =>
            simp only [paired] at read
            cases counts : parseLength value with
            | none =>
                rw [counts] at read
                cases read
            | some declared =>
                rw [counts] at read
                cases read
                refine ⟨rfl, by simp only [past]; omega, ?_, .cons parsed delimited ?_ (.nil _)⟩
                · simp only [wireOf_cons, wireOf_nil, List.append_nil, Entry.bytes, past, behind, shape]
                · unfold announces
                  rw [paired]
                  dsimp only
                  rw [counts]
                  rfl

/-- The loop reads its fields, and the CheckSum last. -/
theorem collectFields_passes (room : s.input.length ≤ usizeMax) {fuel start : Nat}
    {fields : List FieldRef} {collected : Collected} {checksum : FieldRef}
    (ends : collectFields limit fuel fields start s = .ok collected t)
    (checked : collected.checksum = some checksum) :
    ∃ entries others, Passes s entries t ∧ checksum.tag = 10 ∧
      collected.fields = fields ++ others ∧ entries.map Entry.field = others ++ [checksum] := by
  induction fuel generalizing s fields with
  | zero =>
      cases ends
      cases checked
  | succ fuel ih =>
      rw [collectFields_succ] at ends
      split at ends
      · cases ends
        cases checked
      · rename_i field after read
        obtain ⟨tagText, passes⟩ := nextField_passes room read
        split at ends
        · rename_i last
          cases ends
          cases checked
          exact ⟨_, [], passes, last, (List.append_nil _).symm, rfl⟩
        · obtain ⟨entries, others, rest, last, grown, same⟩ :=
            ih (by rw [passes.input]; exact room) ends
          refine ⟨⟨tagText, field⟩ :: entries, field :: others, passes.trans rest, last, ?_, ?_⟩
          · rw [grown, List.append_assoc]
            rfl
          · rw [List.map_cons, same]
            rfl
      · cases ends

/-- A decoded message is what was read: BeginString, BodyLength and MsgType, the
other fields, and the CheckSum behind them. -/
theorem decode_passes {message : RawMessage} (room : s.input.length ≤ usizeMax)
    (decoded : decode s = .ok message t) :
    ∃ entries checksum, Passes { s with pendingData := none } entries t ∧ checksum.tag = 10 ∧
      entries.map Entry.field = message.fields ++ [checksum] ∧
      ∃ version digits code more,
        message.fields = ⟨8, version⟩ :: ⟨9, digits⟩ :: ⟨35, code⟩ :: more ∧
        isUtf8 code = true ∧ MsgType.new code = .ok message.msgType := by
  obtain ⟨⟨frame, fields⟩, reached, framed, rest⟩ := bind_eq_ok.mp decoded
  obtain ⟨-, -, rest⟩ := orThrow_bind_eq_ok.mp rest
  obtain ⟨-, -, rest⟩ := orThrow_bind_eq_ok.mp rest
  cases rest
  rw [decodeFrame_eq] at framed
  split at framed
  · cases framed
  · rename_i header msgTypeField msgType opened opens
    obtain ⟨headed, readHeader, readType⟩ := openBody_ok opens
    -- BeginString and BodyLength
    obtain ⟨found, first, readFirst, rest⟩ := bind_eq_ok.mp readHeader
    obtain ⟨begins, rfl, rest⟩ := orFail_bind_eq_ok.mp rest
    obtain ⟨eight, rest⟩ := ensure_bind_eq_ok.mp rest
    obtain ⟨beginString, -, rest⟩ := orThrow_bind_eq_ok.mp (get_bind_eq_ok.mp rest)
    obtain ⟨found, second, readSecond, rest⟩ := bind_eq_ok.mp rest
    obtain ⟨counts, rfl, rest⟩ := orFail_bind_eq_ok.mp rest
    obtain ⟨nine, rest⟩ := ensure_bind_eq_ok.mp rest
    obtain ⟨bodyLength, -, rest⟩ := orFail_bind_eq_ok.mp rest
    obtain ⟨-, -, rest⟩ := orThrow_bind_eq_ok.mp (get_bind_eq_ok.mp rest)
    obtain ⟨bodyEnd, -, rest⟩ := orFail_bind_eq_ok.mp (get_bind_eq_ok.mp rest)
    cases rest
    obtain ⟨firstText, one⟩ := nextField_passes (s := { s with pendingData := none }) room readFirst
    obtain ⟨secondText, two⟩ := nextField_passes (by rw [one.input]; exact room) readSecond
    -- MsgType
    obtain ⟨found, third, readThird, rest⟩ := bind_eq_ok.mp readType
    obtain ⟨types, rfl, rest⟩ := orFail_bind_eq_ok.mp rest
    obtain ⟨thirtyFive, rest⟩ := ensure_bind_eq_ok.mp rest
    obtain ⟨utf8, rest⟩ := ensure_bind_eq_ok.mp rest
    obtain ⟨code, legal, rest⟩ := orThrow_bind_eq_ok.mp rest
    cases rest
    obtain ⟨thirdText, three⟩ := nextField_passes
      (by rw [two.input, one.input]; exact room) readThird
    -- the rest
    obtain ⟨collected, last, collects, rest⟩ := bind_eq_ok.mp (get_bind_eq_ok.mp framed)
    obtain ⟨_, _, finishes, rest⟩ := bind_eq_ok.mp rest
    cases rest
    obtain ⟨rfl, checked, -, -, -, -, sameType⟩ := finishFrame_ok finishes
    obtain ⟨checksum, found⟩ := Option.ne_none_iff_exists'.mp checked
    obtain ⟨entries, others, four, ten, grown, same⟩ := collectFields_passes
      (by rw [three.input, two.input, one.input]; exact room) collects found
    refine ⟨_, checksum, ((one.trans two).trans three).trans four, ten, ?_,
      begins.value, counts.value, msgTypeField.value, others, ?_, utf8, ?_⟩
    · rw [List.map_append, same]
      show _ = collected.fields ++ [checksum]
      rw [grown, List.append_assoc]
      rfl
    · show collected.fields = _
      rw [grown, ← eight, ← nine, ← thirtyFive]
      rfl
    · rw [sameType]
      cases made : MsgType.new msgTypeField.value with
      | error error =>
          rw [made] at legal
          cases legal
      | ok code =>
          rw [made] at legal
          cases legal
          rfl

end Decoder

end IronFix.TagValue
