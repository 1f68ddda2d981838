import IronFix.TagValue.Decoder

/-!
# Reading one field

`nextFieldBounded` on every shape the remaining bytes can have: nothing left,
no readable tag, or a tag text and what follows its `=`. From there the value
is either counted or scanned, and the field ends at an SOH (`valueLength_ok`).
-/

namespace IronFix.TagValue

open Lib.Slice Lib.Decimal Lib.Steps

/-- A field as it is on the wire. -/
def fieldBytes (tagText value : Bytes) : Bytes :=
  tagText ++ EQUALS :: (value ++ [SOH])

theorem fieldBytes_length (tagText value : Bytes) :
    (fieldBytes tagText value).length = tagText.length + value.length + 2 := by
  simp [fieldBytes]
  omega

theorem fieldBytes_ne_nil (tagText value : Bytes) : fieldBytes tagText value ≠ [] := by
  simp [fieldBytes]

theorem parseTag_digits {tagText : Bytes} {tag : Nat} (h : parseTag tagText = some tag) :
    ∀ b ∈ tagText, isAsciiDigit b = true :=
  (parseDigits_eq_some.mp h).2.2.1

theorem parseTag_decimal {tag : Nat} (h : tag ≤ u32Max) : parseTag (decimal tag) = some tag := by
  refine parseDigits_decimal (by decide) ?_ h
  exact lt_of_le_of_lt h (by decide)

theorem parseLength_decimal {n : Nat} (h : n < 10 ^ MAX_LENGTH_DIGITS) :
    parseLength (decimal n) = some n := by
  refine parseDigits_decimal (by decide) h ?_
  exact le_of_lt (lt_of_lt_of_le h (by decide))

/-- The shapes of the bytes from which a field is read. -/
inductive FieldShape (remaining : Bytes) : Prop
  | empty (nothing : remaining = [])
  | noTag (nonempty : remaining ≠ []) (absent : EQUALS ∉ remaining)
  | badTag (tagText bytes : Bytes) (split : remaining = tagText ++ EQUALS :: bytes)
      (clean : EQUALS ∉ tagText) (bad : parseTag tagText = none)
  | field (tagText bytes : Bytes) (tag : Nat) (split : remaining = tagText ++ EQUALS :: bytes)
      (parsed : parseTag tagText = some tag)

theorem fieldShape (remaining : Bytes) : FieldShape remaining := by
  by_cases nothing : remaining = []
  · exact .empty nothing
  cases found : memchr EQUALS remaining with
  | none => exact .noTag nothing (memchr_eq_none_iff.mp found)
  | some position =>
      obtain ⟨tagText, bytes, split, _, clean⟩ := memchr_eq_some_iff.mp found
      cases parsed : parseTag tagText with
      | none => exact .badTag tagText bytes split clean parsed
      | some tag => exact .field tagText bytes tag split parsed

/-! ## The value -/

section Value

variable {offset tag valueStart n : Nat} {bytes : Bytes} {counted limit : Option Nat}

/-- A value ends at an SOH. -/
theorem valueLength_ok
    (h : Decoder.valueLength offset tag valueStart bytes counted limit = .ok n) :
    ∃ value rest, bytes = value ++ SOH :: rest ∧ value.length = n ∧
      (SOH ∉ value ∨ ∀ stop, limit = some stop → offset + valueStart + n + 1 ≤ stop) := by
  unfold Decoder.valueLength at h
  cases counted with
  | none =>
      simp only [okOr_eq_ok] at h
      obtain ⟨value, rest, split, len, clean⟩ := memchr_eq_some_iff.mp h
      exact ⟨value, rest, split, len, .inl clean⟩
  | some declared =>
      cases start : checkedAdd usizeMax offset valueStart with
      | none => simp [start, bind, Except.bind] at h
      | some valueOffset =>
          obtain ⟨sum, _⟩ := checkedAdd_eq_some.mp start
          simp only [start, okOr_some, bind, Except.bind] at h
          have ends : ∀ available, available ≤ bytes.length →
              (if declared ≥ available ∨ bytes[declared]? ≠ some SOH then
                Except.error (DecodeError.invalidDataLength tag declared available)
                else .ok declared) = .ok n →
              ∃ value rest, bytes = value ++ SOH :: rest ∧ value.length = n ∧ n < available := by
            intro available inside counts
            split at counts
            · cases counts
            · rename_i terminated
              obtain rfl : declared = n := Except.ok.inj counts
              simp only [ge_iff_le, not_or, not_le, ne_eq, not_not] at terminated
              refine ⟨bytes.take declared, bytes.drop (declared + 1), ?_, ?_, terminated.1⟩
              · have here : declared < bytes.length := by omega
                have soh : bytes[declared] = SOH := by
                  have := terminated.2
                  rwa [List.getElem?_eq_getElem here, Option.some.injEq] at this
                rw [← soh, ← List.drop_eq_getElem_cons here, List.take_append_drop]
              · rw [List.length_take]
                omega
          cases limit with
          | none =>
              obtain ⟨value, rest, split, len, _⟩ := ends _ (le_refl _) h
              exact ⟨value, rest, split, len, .inr (by simp)⟩
          | some stop =>
              simp only at h
              split at h
              · cases h
              · obtain ⟨value, rest, split, len, short⟩ := ends _ (min_le_right _ _) h
                refine ⟨value, rest, split, len, .inr ?_⟩
                rintro _ ⟨⟩
                omega

/-- A value that cannot be framed is no checksum error, and disagrees with the
BodyLength only when it starts past the body. -/
theorem valueLength_error {error : DecodeError}
    (h : Decoder.valueLength offset tag valueStart bytes counted limit = .error error) :
    (∀ c d, error ≠ .checksumMismatch c d) ∧
      (error = .invalidBodyLength → ∃ stop, limit = some stop ∧ stop < offset + valueStart) := by
  unfold Decoder.valueLength at h
  cases counted with
  | none =>
      simp only [okOr_eq_error] at h
      obtain ⟨_, rfl⟩ := h
      exact ⟨by simp, by simp⟩
  | some declared =>
      cases start : checkedAdd usizeMax offset valueStart with
      | none =>
          simp only [start, okOr_none, bind, Except.bind, Except.error.injEq] at h
          subst h
          exact ⟨by simp, by simp⟩
      | some valueOffset =>
          obtain ⟨sum, _⟩ := checkedAdd_eq_some.mp start
          simp only [start, okOr_some, bind, Except.bind] at h
          cases limit with
          | none =>
              simp only at h
              split at h
              · cases h
                exact ⟨by simp, by simp⟩
              · cases h
          | some stop =>
              simp only at h
              by_cases past : stop < valueOffset
              · rw [if_pos past] at h
                cases h
                exact ⟨by simp, fun _ => ⟨stop, rfl, by omega⟩⟩
              · rw [if_neg past] at h
                split at h
                · cases h
                  exact ⟨by simp, by simp⟩
                · cases h

/-- A counted value takes its count. -/
theorem valueLength_declared {declared : Nat}
    (h : Decoder.valueLength offset tag valueStart bytes (some declared) limit = .ok n) :
    n = declared := by
  unfold Decoder.valueLength at h
  dsimp only at h
  cases start : checkedAdd usizeMax offset valueStart with
  | none =>
      simp only [start, okOr_none, bind, Except.bind] at h
      cases h
  | some valueOffset =>
      simp only [start, okOr_some, bind, Except.bind] at h
      cases limit with
      | none =>
          dsimp only at h
          split_ifs at h
          cases h
          rfl
      | some stop =>
          dsimp only at h
          split_ifs at h
          cases h
          rfl

/-- A scanned value. -/
theorem valueLength_scan {value rest : Bytes} (clean : SOH ∉ value) :
    Decoder.valueLength offset tag valueStart (value ++ SOH :: rest) none limit =
      .ok value.length := by
  simp only [Decoder.valueLength, memchr_append_cons clean, okOr_some]

/-- A counted value that is terminated inside the body. -/
theorem valueLength_counted {value rest : Bytes} {stop : Nat}
    (room : offset + valueStart ≤ usizeMax)
    (inside : offset + valueStart + value.length + 1 ≤ stop) :
    Decoder.valueLength offset tag valueStart (value ++ SOH :: rest) (some value.length)
      (some stop) = .ok value.length := by
  have start : checkedAdd usizeMax offset valueStart = some (offset + valueStart) :=
    checkedAdd_eq_some.mpr ⟨rfl, room⟩
  have terminated : (value ++ SOH :: rest)[value.length]? = some SOH := by simp
  simp only [Decoder.valueLength, start, okOr_some, bind, Except.bind]
  rw [if_neg (by omega)]
  simp only [terminated]
  rw [if_neg]
  simp only [List.length_append, List.length_cons, ne_eq, not_true_eq_false, or_false]
  omega

end Value

/-! ## The field -/

namespace Decoder

variable {s : Decoder} {limit : Option Nat}

/-- The decoder past `n` more bytes. -/
def past (s : Decoder) (n : Nat) (pending : Option PendingData) : Decoder :=
  { s with offset := s.offset + n, pendingData := pending }

/-- What a field that was read announces. -/
def announce (s : Decoder) (n : Nat) (field : FieldRef) :
    EStateM.Result DecodeError Decoder (Option FieldRef) :=
  match pairedDataTag field.tag with
  | none => .ok (some field) (s.past n none)
  | some dataTag =>
      match parseLength field.value with
      | none => .error (invalidLength field.tag) (s.past n none)
      | some declared => .ok (some field) (s.past n (some ⟨dataTag, declared⟩))

theorem announce_plain {tag : Nat} (plain : pairedDataTag tag = none) (n : Nat) (value : Bytes) :
    s.announce n ⟨tag, value⟩ = .ok (some ⟨tag, value⟩) (s.past n none) := by
  simp only [announce, plain]

theorem announce_length {tag dataTag declared : Nat} {value : Bytes}
    (paired : pairedDataTag tag = some dataTag) (parsed : parseLength value = some declared)
    (n : Nat) :
    s.announce n ⟨tag, value⟩ = .ok (some ⟨tag, value⟩) (s.past n (some ⟨dataTag, declared⟩)) := by
  simp only [announce, paired, parsed]

theorem sliceFrom?_drop (inside : s.offset ≤ s.input.length) :
    sliceFrom? s.input s.offset = some (s.input.drop s.offset) := if_pos inside

theorem nextField_empty (inside : s.offset ≤ s.input.length)
    (nothing : s.input.drop s.offset = []) : nextFieldBounded limit s = .ok none s := by
  simp only [nextFieldBounded, bind_apply, get_apply, sliceFrom?_drop inside, nothing,
    List.isEmpty_nil, if_true, pure_apply]

theorem nextField_noTag (inside : s.offset ≤ s.input.length)
    (nonempty : s.input.drop s.offset ≠ []) (absent : EQUALS ∉ s.input.drop s.offset) :
    nextFieldBounded limit s = .error (invalidTag (s.input.drop s.offset)) s := by
  have isNonempty : (s.input.drop s.offset).isEmpty = false := by simpa using nonempty
  simp only [nextFieldBounded, bind_apply, get_apply, sliceFrom?_drop inside, isNonempty,
    Bool.false_eq_true, if_false, memchr_eq_none_iff.mpr absent, orFail_none]

theorem nextField_badTag {tagText bytes : Bytes} (inside : s.offset ≤ s.input.length)
    (split : s.input.drop s.offset = tagText ++ EQUALS :: bytes) (clean : EQUALS ∉ tagText)
    (bad : parseTag tagText = none) :
    nextFieldBounded limit s = .error (invalidTag tagText) s := by
  have isNonempty : (tagText ++ EQUALS :: bytes).isEmpty = false := by simp
  simp only [nextFieldBounded, bind_apply, get_apply, sliceFrom?_drop inside, split, isNonempty,
    Bool.false_eq_true, if_false, memchr_append_cons clean, orFail_some, sliceTo?_append, bad,
    orFail_none]

/-- A readable tag: the value is framed, then the field is announced. -/
theorem nextField_field {tagText bytes : Bytes} {tag : Nat}
    (room : s.input.length ≤ usizeMax) (inside : s.offset ≤ s.input.length)
    (split : s.input.drop s.offset = tagText ++ EQUALS :: bytes)
    (parsed : parseTag tagText = some tag) :
    nextFieldBounded limit s =
      match valueLength s.offset tag (tagText.length + 1) bytes (s.counted tag) limit with
      | .error error => .error error (s.past 0 none)
      | .ok n => s.announce (tagText.length + n + 2) ⟨tag, bytes.take n⟩ := by
  have clean : EQUALS ∉ tagText := notMem_of_digits (parseTag_digits parsed) rfl
  have isNonempty : (tagText ++ EQUALS :: bytes).isEmpty = false := by simp
  have lengths : s.input.length = s.offset + tagText.length + bytes.length + 1 := by
    have := congrArg List.length split
    simp only [List.length_drop, List.length_append, List.length_cons] at this
    omega
  have valueFrom : sliceFrom? (tagText ++ EQUALS :: bytes) (tagText.length + 1) = some bytes :=
    sliceFrom?_eq_some_iff.mpr ⟨tagText ++ [EQUALS], by simp, by simp⟩
  have start : checkedAdd usizeMax tagText.length 1 = some (tagText.length + 1) :=
    checkedAdd_eq_some.mpr ⟨rfl, by omega⟩
  simp only [nextFieldBounded, bind_apply, get_apply, sliceFrom?_drop inside, split, isNonempty,
    Bool.false_eq_true, if_false, memchr_append_cons clean, orFail_some, sliceTo?_append, parsed,
    start, valueFrom, set_apply]
  cases framed : valueLength s.offset tag (tagText.length + 1) bytes (s.counted tag) limit with
  | error error => rfl
  | ok n =>
      obtain ⟨value, rest, rfl, rfl, _⟩ := valueLength_ok framed
      have len : value.length + rest.length + 1 = (value ++ SOH :: rest).length := by
        simp
        omega
      have ends : (checkedAdd usizeMax (tagText.length + 1) value.length).bind
          (checkedAdd usizeMax · 1) = some (tagText.length + value.length + 2) := by
        rw [checkedAdd_eq_some.mpr ⟨rfl, by omega⟩, Option.bind_some]
        exact checkedAdd_eq_some.mpr ⟨by omega, by omega⟩
      have lands : checkedAdd usizeMax s.offset (tagText.length + value.length + 2) =
          some (s.offset + (tagText.length + value.length + 2)) :=
        checkedAdd_eq_some.mpr ⟨rfl, by omega⟩
      simp only [orThrow_ok, sliceTo?_append, orFail_some, ends, lands, List.take_left', announce]
      cases pairedDataTag tag with
      | none => rfl
      | some dataTag =>
          simp only [bind_apply]
          cases parseLength value <;> rfl

/-- A field whose value is scanned. -/
theorem nextField_scanned {tagText value rest : Bytes} {tag : Nat}
    (room : s.input.length ≤ usizeMax) (inside : s.offset ≤ s.input.length)
    (split : s.input.drop s.offset = fieldBytes tagText value ++ rest)
    (parsed : parseTag tagText = some tag) (clean : SOH ∉ value) (free : s.counted tag = none) :
    nextFieldBounded limit s = s.announce (fieldBytes tagText value).length ⟨tag, value⟩ := by
  have shape : s.input.drop s.offset = tagText ++ EQUALS :: (value ++ SOH :: rest) := by
    rw [split]
    simp [fieldBytes]
  rw [nextField_field room inside shape parsed, free, valueLength_scan clean, fieldBytes_length]
  simp only [List.take_left']

/-- The DATA field that was announced, terminated inside the body. -/
theorem nextField_counted {tagText value rest : Bytes} {tag stop : Nat}
    (room : s.input.length ≤ usizeMax) (inside : s.offset ≤ s.input.length)
    (split : s.input.drop s.offset = fieldBytes tagText value ++ rest)
    (parsed : parseTag tagText = some tag) (declared : s.counted tag = some value.length)
    (within : s.offset + (fieldBytes tagText value).length ≤ stop) :
    nextFieldBounded (some stop) s =
      s.announce (fieldBytes tagText value).length ⟨tag, value⟩ := by
  have shape : s.input.drop s.offset = tagText ++ EQUALS :: (value ++ SOH :: rest) := by
    rw [split]
    simp [fieldBytes]
  have lengths := congrArg List.length shape
  simp only [List.length_drop, List.length_append, List.length_cons] at lengths
  rw [fieldBytes_length] at within
  rw [nextField_field room inside shape parsed, declared,
    valueLength_counted (by omega) (by omega), fieldBytes_length]
  simp only [List.take_left']

/-- A pending DATA field is one that some LENGTH field announces. -/
def PendingLegal (s : Decoder) : Prop :=
  ∀ pending, s.pendingData = some pending → ∃ tag, pairedDataTag tag = some pending.dataTag

/-- What reading a field can do. -/
inductive Reads (s : Decoder) (limit : Option Nat) : Prop
  | nothing (exhausted : s.input.drop s.offset = []) (result : nextFieldBounded limit s = .ok none s)
  | fails (error : DecodeError) (after : Decoder)
      (result : nextFieldBounded limit s = .error error after)
      (unchecked : ∀ c d, error ≠ .checksumMismatch c d)
      (outside : error = .invalidBodyLength → ∃ tagText bytes tag stop,
        s.input.drop s.offset = tagText ++ EQUALS :: bytes ∧ parseTag tagText = some tag ∧
        limit = some stop ∧ stop < s.offset + tagText.length + 1)
  | field (tagText value rest : Bytes) (tag : Nat) (after : Decoder)
      (split : s.input.drop s.offset = fieldBytes tagText value ++ rest)
      (parsed : parseTag tagText = some tag)
      (result : nextFieldBounded limit s = .ok (some ⟨tag, value⟩) after)
      (moved : ∃ pending, after = s.past (fieldBytes tagText value).length pending)
      (legal : after.PendingLegal)
      (bounded : SOH ∉ value ∨ ∀ stop, limit = some stop →
        s.offset + (fieldBytes tagText value).length ≤ stop)

theorem reads (room : s.input.length ≤ usizeMax) (inside : s.offset ≤ s.input.length)
    (limit : Option Nat) : Reads s limit := by
  rcases fieldShape (s.input.drop s.offset) with nothing | ⟨nonempty, absent⟩ |
    ⟨tagText, bytes, split, clean, bad⟩ | ⟨tagText, bytes, tag, split, parsed⟩
  · exact .nothing nothing (nextField_empty inside nothing)
  · exact .fails _ _ (nextField_noTag inside nonempty absent) (by simp [invalidTag])
      (by simp [invalidTag])
  · exact .fails _ _ (nextField_badTag inside split clean bad) (by simp [invalidTag])
      (by simp [invalidTag])
  · have read : nextFieldBounded limit s = _ := nextField_field room inside split parsed
    cases framed : valueLength s.offset tag (tagText.length + 1) bytes (s.counted tag) limit with
    | error error =>
        rw [framed] at read
        obtain ⟨unchecked, outside⟩ := valueLength_error framed
        refine .fails _ _ read unchecked fun same => ?_
        obtain ⟨stop, limited, short⟩ := outside same
        exact ⟨tagText, bytes, tag, stop, split, parsed, limited, by omega⟩
    | ok n =>
        obtain ⟨value, rest, rfl, rfl, bounded⟩ := valueLength_ok framed
        rw [framed] at read
        simp only [List.take_left'] at read
        have shape : s.input.drop s.offset = fieldBytes tagText value ++ rest := by
          rw [split]
          simp [fieldBytes]
        have reach : SOH ∉ value ∨ ∀ stop, limit = some stop →
            s.offset + (fieldBytes tagText value).length ≤ stop := by
          rcases bounded with clean | within
          · exact .inl clean
          · refine .inr fun stop limited => ?_
            have := within stop limited
            rw [fieldBytes_length]
            omega
        unfold announce at read
        rw [← fieldBytes_length] at read
        cases paired : pairedDataTag tag with
        | none =>
            simp only [paired] at read
            exact .field tagText value rest tag _ shape parsed read ⟨none, rfl⟩
              (by simp [PendingLegal, past]) reach
        | some dataTag =>
            simp only [paired] at read
            cases counts : parseLength value with
            | none =>
                rw [counts] at read
                exact .fails _ _ read (by simp [invalidLength]) (by simp [invalidLength])
            | some declared =>
                rw [counts] at read
                refine .field tagText value rest tag _ shape parsed read ⟨_, rfl⟩ ?_ reach
                rintro pending ⟨⟩
                exact ⟨tag, paired⟩

/-- The CheckSum is never the announced DATA field. -/
theorem PendingLegal.counted_checksum (legal : s.PendingLegal) : s.counted 10 = none := by
  unfold counted
  cases pending : s.pendingData with
  | none => rfl
  | some data =>
      obtain ⟨tag, paired⟩ := legal data pending
      exact if_neg (pairedDataTag_ne_checksum paired)

end Decoder

end IronFix.TagValue
