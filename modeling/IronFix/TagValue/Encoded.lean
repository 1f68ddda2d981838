import IronFix.TagValue.Encoder
import IronFix.TagValue.Message

/-!
# What an encoder has written

While no rejection is recorded the buffer is the reserved prefix and the wire
form of the accepted writes, and `finish` yields the header for that body, the
body, and its CheckSum.
-/

namespace IronFix.TagValue

open Lib.Slice Lib.Decimal Lib.Steps

/-- One `put_*` call. -/
inductive Write where
  | raw (tag : UInt32) (value : Bytes)
  | data (lengthTag dataTag : UInt32) (value : Bytes)

namespace Write

/-- The fields a write stands for. -/
def fields : Write → List FieldRef
  | .raw tag value => [⟨tag.toNat, value⟩]
  | .data lengthTag dataTag value =>
      [⟨lengthTag.toNat, decimal value.length⟩, ⟨dataTag.toNat, value⟩]

/-- The wire form of a field with a canonical tag text. -/
def canonical (field : FieldRef) : Bytes := fieldBytes (decimal field.tag) field.value

def bytes (write : Write) : Bytes := (write.fields.map canonical).flatten

/-- What the encoder accepts. -/
inductive Accepted : Write → Prop
  | raw {tag : UInt32} {value : Bytes} (legal : checkBodyTag tag.toNat = .ok ())
      (nonempty : value ≠ []) (clean : SOH ∉ value)
      (msgType : tag.toNat = 35 → checkMsgType value = .ok ()) : Accepted (.raw tag value)
  | data {lengthTag dataTag : UInt32} {value : Bytes}
      (paired : pairedDataTag lengthTag.toNat = some dataTag.toNat) (nonempty : value ≠ []) :
      Accepted (.data lengthTag dataTag value)

def firstTag (write : Write) : Nat :=
  match write with
  | .raw tag _ => tag.toNat
  | .data lengthTag _ _ => lengthTag.toNat

end Write

/-- The body of a sequence of writes. -/
def bodyOf (writes : List Write) : Bytes := (writes.map Write.bytes).flatten

/-- The fields of a sequence of writes. -/
def fieldsOf (writes : List Write) : List FieldRef := (writes.map Write.fields).flatten

namespace Encoder

def put (encoder : Encoder) : Write → Encoder
  | .raw tag value => encoder.putRaw tag value
  | .data lengthTag dataTag value => encoder.putData lengthTag dataTag value

/-- A message from a fresh encoder. -/
def encode (beginString : Bytes) (writes : List Write) : Except EncodeError Bytes :=
  match finish (writes.foldl put (new beginString)) with
  | .ok frame _ => .ok frame
  | .error error _ => .error error

/-- The encoder is open and holds `body`. -/
structure Holds (encoder : Encoder) (body : Bytes) (firstTag : Option Nat) : Prop where
  buf : encoder.buf = List.replicate HEADER_RESERVE 0 ++ body
  bodyLen : encoder.bodyLen = body.length
  firstTag : encoder.firstTag = firstTag
  opened : encoder.frameStart = none
  clean : encoder.error = none
  room : body.length ≤ usizeMax

/-- What writing keeps. -/
structure Keeps (before after : Encoder) : Prop where
  beginString : after.beginString = before.beginString
  beginStringError : after.beginStringError = before.beginStringError
  failed : after.error = none → before.error = none

theorem Keeps.trans {a b c : Encoder} (one : Keeps a b) (two : Keeps b c) : Keeps a c :=
  ⟨two.1.trans one.1, two.2.trans one.2, fun clean => one.3 (two.3 clean)⟩

theorem Keeps.refl (a : Encoder) : Keeps a a := ⟨rfl, rfl, id⟩

theorem record_error (encoder : Encoder) (error : EncodeError) :
    (encoder.record error).error ≠ none := by
  unfold record
  split
  · simp
  · rename_i found
    simp [found]

theorem record_keeps (encoder : Encoder) (error : EncodeError) :
    Keeps encoder (encoder.record error) := by
  refine ⟨?_, ?_, fun clean => absurd clean (record_error encoder error)⟩ <;>
    (unfold record; split <;> rfl)

variable {encoder : Encoder} {body : Bytes} {first : Option Nat}

theorem writeField_keeps (tag : Nat) (value : Bytes) (encoder : Encoder) :
    Keeps encoder (writeField tag value encoder) := by
  unfold writeField
  simp only
  split
  · exact record_keeps encoder _
  · exact ⟨rfl, rfl, id⟩

/-- A field is appended unless the body overflows. -/
theorem writeField_holds (holds : Holds encoder body first) (tag : Nat) (value : Bytes)
    (clean : (writeField tag value encoder).error = none) :
    Holds (writeField tag value encoder) (body ++ Write.canonical ⟨tag, value⟩)
      (first.or (some tag)) := by
  unfold writeField at clean ⊢
  simp only at clean ⊢
  cases sum : ((checkedAdd usizeMax (decimal tag).length value.length).bind
      (checkedAdd usizeMax · 2)).bind (checkedAdd usizeMax encoder.bodyLen) with
  | none =>
      simp only [sum] at clean
      exact absurd clean (record_error encoder _)
  | some bodyLen =>
      simp only [Option.bind_eq_some_iff, checkedAdd_eq_some] at sum
      obtain ⟨_, ⟨_, ⟨rfl, _⟩, rfl, _⟩, total, room⟩ := sum
      have len : bodyLen = (body ++ Write.canonical ⟨tag, value⟩).length := by
        rw [List.length_append, Write.canonical, fieldBytes_length, ← total, holds.bodyLen]
      refine ⟨?_, len, ?_, holds.opened, holds.clean, len ▸ room⟩
      · simp only [holds.buf, Write.canonical, fieldBytes]
        simp
      · simp only [holds.firstTag]

/-- A field that fits is no rejection. -/
theorem writeField_fits (holds : Holds encoder body first) (tag : Nat) (value : Bytes)
    (room : (body ++ Write.canonical ⟨tag, value⟩).length ≤ usizeMax) :
    (writeField tag value encoder).error = none := by
  rw [List.length_append, Write.canonical, fieldBytes_length] at room
  simp only at room
  have sum : ((checkedAdd usizeMax (decimal tag).length value.length).bind
      (checkedAdd usizeMax · 2)).bind (checkedAdd usizeMax encoder.bodyLen) =
      some (encoder.bodyLen + ((decimal tag).length + value.length + 2)) := by
    simp only [Option.bind_eq_some_iff, checkedAdd_eq_some]
    exact ⟨_, ⟨_, ⟨rfl, by omega⟩, rfl, by omega⟩, rfl, by rw [holds.bodyLen]; omega⟩
  unfold writeField
  simp only [sum]
  exact holds.clean

theorem recording_keeps {write : Encode Unit} (h : ∀ encoder, match write encoder with
    | .ok _ after => Keeps encoder after
    | .error _ after => Keeps encoder after) (encoder : Encoder) :
    Keeps encoder (recording write encoder) := by
  have one := h encoder
  unfold recording
  cases written : write encoder with
  | ok _ after =>
      rw [written] at one
      exact one
  | error error after =>
      rw [written] at one
      exact one.trans (record_keeps after error)

/-- The outcome of a write: rejected without an effect, or accepted. An open
encoder rejects only what is not acceptable. -/
theorem tryPutRaw_cases (tag : UInt32) (value : Bytes) (encoder : Encoder) :
    (∃ error, tryPutRaw tag value encoder = .error error encoder ∧
      (encoder.frameStart = none → ¬Write.Accepted (.raw tag value))) ∨
    (tryPutRaw tag value encoder = .ok () (writeField tag.toNat value encoder) ∧
      Write.Accepted (.raw tag value)) := by
  unfold tryPutRaw
  simp only [bind_apply, get_apply]
  cases opened : encoder.checkOpen tag.toNat with
  | error error =>
      refine .inl ⟨error, rfl, fun fresh => ?_⟩
      simp [checkOpen, fresh] at opened
  | ok =>
    cases legal : checkBodyTag tag.toNat with
    | error error =>
        refine .inl ⟨error, rfl, ?_⟩
        rintro _ ⟨accepts⟩
        simp [legal] at accepts
    | ok =>
      by_cases nonempty : value = []
      · refine .inl ⟨emptyValue tag.toNat, ?_, ?_⟩
        · simp only [orThrow_ok, ensure_not _ (not_not_intro nonempty)]
        · rintro _ ⟨_, filled⟩
          exact filled nonempty
      · cases found : memchr SOH value with
        | some position =>
            refine .inl ⟨sohInValue tag.toNat position, ?_, ?_⟩
            · simp only [orThrow_ok, ensure_of _ nonempty, orThrow_error]
            · rintro _ ⟨_, _, clean⟩
              rw [memchr_eq_none_iff.mpr clean] at found
              cases found
        | none =>
            have clean := memchr_eq_none_iff.mp found
            cases checked : (if tag.toNat = 35 then checkMsgType value else .ok () :
                Except EncodeError Unit) with
            | error error =>
                refine .inl ⟨error, ?_, ?_⟩
                · simp only [orThrow_ok, ensure_of _ nonempty, orThrow_error]
                · rintro _ ⟨_, _, _, msgType⟩
                  by_cases isMsgType : tag.toNat = 35
                  · simp [isMsgType, msgType isMsgType] at checked
                  · simp [isMsgType] at checked
            | ok =>
                refine .inr ⟨?_, .raw legal nonempty clean fun isMsgType => ?_⟩
                · simp only [orThrow_ok, ensure_of _ nonempty, modify_apply]
                · rwa [if_pos isMsgType] at checked

theorem checkTag_ok {tag : Nat} (positive : tag ≠ 0) : checkTag tag = .ok () := if_neg positive

theorem tryPutData_cases (lengthTag dataTag : UInt32) (value : Bytes) (encoder : Encoder) :
    (∃ error, tryPutData lengthTag dataTag value encoder = .error error encoder ∧
      (encoder.frameStart = none → ¬Write.Accepted (.data lengthTag dataTag value))) ∨
    (tryPutData lengthTag dataTag value encoder =
        .ok () (writeField dataTag.toNat value
          (writeField lengthTag.toNat (decimal value.length) encoder)) ∧
      Write.Accepted (.data lengthTag dataTag value)) := by
  have positive : pairedDataTag lengthTag.toNat = some dataTag.toNat →
      checkTag lengthTag.toNat = .ok () ∧ checkTag dataTag.toNat = .ok () := by
    intro paired
    have legal := pairedDataTag_legal paired
    simp only [pairLegal, Bool.and_eq_true, bne_iff_ne] at legal
    have low : 90 ≤ lengthTag.toNat := of_decide_eq_true legal.1.1.1.1
    exact ⟨checkTag_ok (by omega), checkTag_ok legal.1.1.1.2⟩
  unfold tryPutData
  simp only [bind_apply, get_apply]
  cases opened : encoder.checkOpen dataTag.toNat with
  | error error =>
      refine .inl ⟨error, rfl, fun fresh => ?_⟩
      simp [checkOpen, fresh] at opened
  | ok =>
    cases first : checkTag lengthTag.toNat with
    | error error =>
        refine .inl ⟨error, rfl, ?_⟩
        rintro _ ⟨⟩
        rename_i paired _
        simp [(positive paired).1] at first
    | ok =>
      cases second : checkTag dataTag.toNat with
      | error error =>
          refine .inl ⟨error, rfl, ?_⟩
          rintro _ ⟨⟩
          rename_i paired _
          simp [(positive paired).2] at second
      | ok =>
        by_cases paired : pairedDataTag lengthTag.toNat = some dataTag.toNat
        · by_cases nonempty : value = []
          · refine .inl ⟨emptyValue dataTag.toNat, ?_, ?_⟩
            · simp only [orThrow_ok, ensure_of _ paired, ensure_not _ (not_not_intro nonempty)]
            · rintro _ ⟨⟩
              contradiction
          · refine .inr ⟨?_, .data paired nonempty⟩
            simp only [orThrow_ok, ensure_of _ paired, ensure_of _ nonempty, modify_apply]
        · refine .inl ⟨unpairedDataTag lengthTag.toNat dataTag.toNat, ?_, ?_⟩
          · simp only [orThrow_ok, ensure_not _ paired]
          · rintro _ ⟨⟩
            contradiction

theorem put_keeps (encoder : Encoder) (write : Write) : Keeps encoder (encoder.put write) := by
  cases write with
  | raw tag value =>
      refine recording_keeps (fun encoder => ?_) encoder
      rcases tryPutRaw_cases tag value encoder with ⟨error, rejected, _⟩ | ⟨accepted, _⟩
      · rw [rejected]
        exact .refl encoder
      · rw [accepted]
        exact writeField_keeps _ _ encoder
  | data lengthTag dataTag value =>
      refine recording_keeps (fun encoder => ?_) encoder
      rcases tryPutData_cases lengthTag dataTag value encoder with ⟨error, rejected, _⟩ | ⟨accepted, _⟩
      · rw [rejected]
        exact .refl encoder
      · rw [accepted]
        exact (writeField_keeps _ _ encoder).trans (writeField_keeps _ _ _)

/-- A write that leaves no rejection is accepted and appended. -/
theorem put_holds (holds : Holds encoder body first) (write : Write)
    (clean : (encoder.put write).error = none) :
    write.Accepted ∧
      Holds (encoder.put write) (body ++ write.bytes) (first.or (some write.firstTag)) := by
  cases write with
  | raw tag value =>
      simp only [put, putRaw, recording] at clean ⊢
      rcases tryPutRaw_cases tag value encoder with ⟨error, rejected, _⟩ | ⟨accepted, legal⟩
      · rw [rejected] at clean
        exact absurd clean (record_error encoder error)
      · rw [accepted] at clean ⊢
        refine ⟨legal, ?_⟩
        have written := writeField_holds holds tag.toNat value clean
        simpa [Write.bytes, Write.fields, Write.firstTag] using written
  | data lengthTag dataTag value =>
      simp only [put, putData, recording] at clean ⊢
      rcases tryPutData_cases lengthTag dataTag value encoder with ⟨error, rejected, _⟩ | ⟨accepted, legal⟩
      · rw [rejected] at clean
        exact absurd clean (record_error encoder error)
      · rw [accepted] at clean ⊢
        refine ⟨legal, ?_⟩
        have counted := writeField_holds holds lengthTag.toNat (decimal value.length)
          ((writeField_keeps _ _ _).failed clean)
        have written := writeField_holds counted dataTag.toNat value clean
        have same : (first.or (some lengthTag.toNat)).or (some dataTag.toNat) =
            first.or (some lengthTag.toNat) := by cases first <;> rfl
        rw [same] at written
        simpa [Write.bytes, Write.fields, Write.firstTag] using written

/-- An accepted write that fits leaves no rejection. -/
theorem put_accepts (holds : Holds encoder body first) {write : Write} (accepted : write.Accepted)
    (room : (body ++ write.bytes).length ≤ usizeMax) : (encoder.put write).error = none := by
  cases write with
  | raw tag value =>
      simp only [put, putRaw, recording]
      rcases tryPutRaw_cases tag value encoder with ⟨_, _, unacceptable⟩ | ⟨result, _⟩
      · exact absurd accepted (unacceptable holds.opened)
      · rw [result]
        refine writeField_fits holds tag.toNat value ?_
        simpa [Write.bytes, Write.fields] using room
  | data lengthTag dataTag value =>
      simp only [put, putData, recording]
      rcases tryPutData_cases lengthTag dataTag value encoder with ⟨_, _, unacceptable⟩ | ⟨result, _⟩
      · exact absurd accepted (unacceptable holds.opened)
      · rw [result]
        have whole : (body ++ Write.canonical ⟨lengthTag.toNat, decimal value.length⟩ ++
            Write.canonical ⟨dataTag.toNat, value⟩).length ≤ usizeMax := by
          simpa [Write.bytes, Write.fields] using room
        have counted := writeField_fits holds lengthTag.toNat (decimal value.length)
          (le_trans (List.prefix_append _ _).length_le whole)
        exact writeField_fits (writeField_holds holds _ _ counted) dataTag.toNat value whole

theorem puts_keep (writes : List Write) (encoder : Encoder) :
    Keeps encoder (writes.foldl put encoder) := by
  induction writes generalizing encoder with
  | nil => exact .refl encoder
  | cons write writes ih => exact (put_keeps encoder write).trans (ih (encoder.put write))

/-- A run of writes that leaves no rejection. -/
theorem puts_holds (writes : List Write) (holds : Holds encoder body first)
    (clean : (writes.foldl put encoder).error = none) :
    (∀ write ∈ writes, write.Accepted) ∧
      Holds (writes.foldl put encoder) (body ++ bodyOf writes)
        (first.or (writes.head?.map Write.firstTag)) := by
  induction writes generalizing encoder body first with
  | nil => exact ⟨by simp, by simpa [bodyOf] using holds⟩
  | cons write writes ih =>
      simp only [List.foldl_cons] at clean ⊢
      -- the first rejection is kept, so none was recorded on the way
      obtain ⟨accepted, held⟩ := put_holds holds write ((puts_keep writes _).failed clean)
      obtain ⟨rest, final⟩ := ih held clean
      refine ⟨?_, ?_⟩
      · intro other member
        rcases List.mem_cons.mp member with rfl | member
        · exact accepted
        · exact rest other member
      · have tag : (first.or (some write.firstTag)).or (writes.head?.map Write.firstTag) =
            first.or ((write :: writes).head?.map Write.firstTag) := by cases first <;> rfl
        rw [tag] at final
        simpa [bodyOf] using final

/-! ## The stamp -/

/-- The frame of a body: its header, the body, and the CheckSum of both. -/
def frameOf (beginString body : Bytes) : Bytes :=
  let header := headerOf beginString (decimal body.length)
  header ++ (body ++ fieldBytes (ascii "10") (formatChecksum (calculateChecksum (header ++ body))))

theorem frameOf_length (beginString body : Bytes) :
    (frameOf beginString body).length =
      beginString.length + (decimal body.length).length + body.length + 13 := by
  have ten : (ascii "10").length = 2 := rfl
  rw [frameOf]
  simp only [List.length_append, headerOf_length, fieldBytes_length, formatChecksum_length, ten]
  omega

theorem pushBytes_append {front gap src : Bytes} (fits : src.length ≤ gap.length)
    (room : front.length + gap.length ≤ usizeMax) :
    pushBytes (front ++ gap, front.length) src =
      some ((front ++ src) ++ gap.drop src.length, (front ++ src).length) := by
  have stop : checkedAdd usizeMax front.length src.length = some (front.length + src.length) :=
    checkedAdd_eq_some.mpr ⟨rfl, by omega⟩
  have inside : slice? (front ++ gap) front.length (front.length + src.length) =
      some (gap.take src.length) := by
    refine slice?_eq_some_iff.mpr ⟨front, gap.drop src.length, by simp, rfl, ?_⟩
    rw [List.length_take_of_le fits]
  simp only [pushBytes, Option.bind_eq_bind, stop, Option.bind_some, inside, List.take_left,
    ← List.drop_drop, List.drop_left, List.length_append]

/-- Parts written one after the other fill the slot from its start. -/
theorem pushBytes_parts (parts : List Bytes) (front gap : Bytes)
    (fits : parts.flatten.length ≤ gap.length) (room : front.length + gap.length ≤ usizeMax) :
    parts.foldlM pushBytes (front ++ gap, front.length) =
      some ((front ++ parts.flatten) ++ gap.drop parts.flatten.length,
        (front ++ parts.flatten).length) := by
  induction parts generalizing front gap with
  | nil => simp
  | cons part parts ih =>
      rw [List.flatten_cons, List.length_append] at fits
      rw [List.foldlM_cons, pushBytes_append (by omega) room]
      have rest := ih (front ++ part) (gap.drop part.length)
        (by rw [List.length_drop]; omega) (by rw [List.length_append, List.length_drop]; omega)
      refine rest.trans ?_
      simp only [List.flatten_cons, List.drop_drop, List.append_assoc, List.length_append]

/-- The header fits the reserved prefix. -/
theorem header_fits (encoder : Encoder) {n : Nat} (room : n ≤ usizeMax) :
    (headerOf encoder.beginString (decimal n)).length ≤ HEADER_RESERVE := by
  have digits : (decimal n).length ≤ 20 :=
    (decimal_length_le_iff (by decide)).mpr (lt_of_le_of_lt room (by decide))
  have bounded := encoder.bounded
  rw [headerOf_length]
  simp only [HEADER_RESERVE, BEGIN_STRING_MAX_LEN, MAX_BODY_LENGTH_DIGITS] at bounded ⊢
  omega

theorem headerParts_flatten (beginString digits : Bytes) :
    [ascii "8=", beginString, [SOH], ascii "9=", digits, [SOH]].flatten =
      headerOf beginString digits := by
  have eight : ascii "8=" = ascii "8" ++ [EQUALS] := rfl
  have nine : ascii "9=" = ascii "9" ++ [EQUALS] := rfl
  simp [headerOf, fieldBytes, eight, nine]

/-- What `stamp` leaves: the frame at the end of the buffer. -/
theorem stamp_holds (holds : Holds encoder body (some 35)) :
    ∃ gap, stamp encoder = .ok () { encoder with
      buf := gap ++ frameOf encoder.beginString body
      frameStart := some gap.length } := by
  have fits := header_fits encoder holds.room
  have parts := headerParts_flatten encoder.beginString (decimal body.length)
  generalize header_eq : headerOf encoder.beginString (decimal body.length) = header at fits parts
  have total : [2, encoder.beginString.length, 1, 2, (decimal body.length).length, 1].foldlM
      (checkedAdd usizeMax) 0 = some header.length := by
    have sum : 0 + [2, encoder.beginString.length, 1, 2, (decimal body.length).length, 1].sum =
        header.length := by
      rw [← header_eq, headerOf_length]
      simp
      omega
    rw [foldlM_checkedAdd _ _ (sum ▸ le_trans fits (by decide)), sum]
  -- the reserved prefix is a gap and the slot the header fills
  have reserve : List.replicate HEADER_RESERVE 0 =
      List.replicate (HEADER_RESERVE - header.length) 0 ++
        (List.replicate header.length 0 : Bytes) := by
    rw [List.replicate_append_replicate]
    congr 1
    omega
  have buf : encoder.buf = List.replicate (HEADER_RESERVE - header.length) 0 ++
      List.replicate header.length 0 ++ body := by rw [holds.buf, reserve]
  generalize gap_eq : (List.replicate (HEADER_RESERVE - header.length) 0 : Bytes) = gap at buf
  have gapLen : HEADER_RESERVE - header.length = gap.length := by rw [← gap_eq, List.length_replicate]
  have reached : HEADER_RESERVE = gap.length + header.length := by omega
  have slot : slice? encoder.buf gap.length HEADER_RESERVE =
      some (List.replicate header.length 0) :=
    slice?_eq_some_iff.mpr ⟨gap, body, buf, rfl, by rw [List.length_replicate, reached]⟩
  have written : [ascii "8=", encoder.beginString, [SOH], ascii "9=", decimal body.length,
      [SOH]].foldlM pushBytes (List.replicate header.length 0, 0) = some (header, header.length) := by
    have filled := pushBytes_parts [ascii "8=", encoder.beginString, [SOH], ascii "9=",
      decimal body.length, [SOH]] [] (List.replicate header.length 0)
      (by rw [parts, List.length_replicate]) (by
        rw [List.length_replicate, List.length_nil, Nat.zero_add]
        exact le_trans fits (by decide))
    simpa [parts] using filled
  have before : encoder.buf.take gap.length = gap := by rw [buf, List.append_assoc, List.take_left]
  have after : encoder.buf.drop HEADER_RESERVE = body := by
    rw [buf, reached]
    exact List.drop_left' (by simp)
  have span : sliceFrom? (gap ++ header ++ body) gap.length = some (header ++ body) := by
    rw [List.append_assoc]
    exact sliceFrom?_append _ _
  refine ⟨gap, ?_⟩
  simp only [stamp, bind_apply, get_apply, ensure_of _ holds.firstTag, holds.bodyLen, total,
    orFail_some, fits, if_true, gapLen, slot, written, before, after, span, set_apply]
  have ten : ascii "10=" = ascii "10" ++ [EQUALS] := rfl
  simp [frameOf, header_eq, fieldBytes, ten]

/-- An open encoder whose first field is MsgType yields the frame of its body. -/
theorem finish_holds (holds : Holds encoder body (some 35)) (legal : encoder.beginStringError = none) :
    ∃ after, finish encoder = .ok (frameOf encoder.beginString body) after := by
  obtain ⟨gap, stamped⟩ := stamp_holds holds
  have clean : encoder.firstError = none := by
    rw [firstError, legal, holds.clean]
    rfl
  refine ⟨{ encoder with
    buf := gap ++ frameOf encoder.beginString body
    frameStart := some gap.length }, ?_⟩
  simp only [finish, bind_apply, get_apply, clean, holds.opened, Option.isNone_none, if_true, stamped,
    orFail_some, sliceFrom?_append]

/-! ## Messages -/

/-- What a finished message consists of. -/
structure Written (beginString : Bytes) (writes : List Write) (frame : Bytes) : Prop where
  nonempty : beginString ≠ []
  legal : ∀ byte ∈ beginString, isBeginStringByte byte = true
  bounded : beginString.length ≤ BEGIN_STRING_MAX_LEN
  accepted : ∀ write ∈ writes, write.Accepted
  first : writes.head?.map Write.firstTag = some 35
  room : (bodyOf writes).length ≤ usizeMax
  frame : frame = frameOf beginString (bodyOf writes)

theorem copyBeginString_ok {value : Bytes} {kept : { kept : Bytes // kept.length ≤ BEGIN_STRING_MAX_LEN }}
    (h : copyBeginString value = .ok kept) :
    kept.val = value ∧ value ≠ [] ∧ ∀ byte ∈ value, isBeginStringByte byte = true := by
  unfold copyBeginString at h
  split at h
  · cases h
  · rename_i nonempty
    split at h
    · split at h
      · cases h
      · rename_i none
        cases h
        refine ⟨rfl, nonempty, fun byte member => ?_⟩
        obtain ⟨position, inside, at_position⟩ := List.mem_iff_getElem.mp member
        have listed : (byte, position) ∈ value.zipIdx := by
          rw [List.mem_zipIdx_iff_getElem?, ← at_position]
          exact List.getElem?_eq_getElem inside
        simpa using List.find?_eq_none.mp none _ listed
    · cases h

/-- A fresh encoder, if its BeginString is legal. -/
theorem new_holds {beginString : Bytes} (clean : (new beginString).beginStringError = none) :
    Holds (new beginString) [] none ∧ (new beginString).beginString = beginString ∧
      beginString ≠ [] ∧ ∀ byte ∈ beginString, isBeginStringByte byte = true := by
  unfold new at clean ⊢
  cases copied : copyBeginString beginString with
  | error error => simp [copied] at clean
  | ok kept =>
      obtain ⟨same, nonempty, legal⟩ := copyBeginString_ok copied
      refine ⟨⟨?_, rfl, rfl, rfl, rfl, Nat.zero_le _⟩, same, nonempty, legal⟩
      rw [List.append_nil]

/-- `clear` makes room for the next message. -/
theorem clear_holds (encoder : Encoder) : Holds encoder.clear [] none :=
  ⟨(List.append_nil _).symm, rfl, rfl, rfl, rfl, Nat.zero_le _⟩

/-- Only accepted writes that start with the MsgType, behind a legal
BeginString, finish as a message. -/
theorem encode_written {beginString : Bytes} {writes : List Write} {frame : Bytes}
    (h : encode beginString writes = .ok frame) : Written beginString writes frame := by
  unfold encode at h
  generalize final : writes.foldl put (new beginString) = encoder at h
  have clean : encoder.firstError = none := by
    cases failed : encoder.firstError with
    | none => rfl
    | some error => simp [finish, failed] at h
  obtain ⟨legal, unrejected⟩ := Option.or_eq_none_iff.mp clean
  have keeps : Keeps (new beginString) encoder := by
    rw [← final]
    exact puts_keep writes (new beginString)
  obtain ⟨fresh, same, nonempty, graphic⟩ := new_holds (keeps.beginStringError ▸ legal)
  obtain ⟨accepted, holds⟩ := puts_holds writes fresh (final ▸ unrejected)
  rw [final, List.nil_append, Option.none_or] at holds
  have kept : encoder.beginString = beginString := keeps.beginString.trans same
  by_cases first : writes.head?.map Write.firstTag = some 35
  · rw [first] at holds
    obtain ⟨after, finished⟩ := finish_holds holds legal
    simp only [finished, Except.ok.injEq] at h
    exact ⟨nonempty, graphic, kept ▸ encoder.bounded, accepted, first, holds.room, by rw [← h, kept]⟩
  · have missing : stamp encoder = .error (.missingRequiredField 35) encoder := by
      simp only [stamp, bind_apply, get_apply, ensure_not _ (holds.firstTag ▸ first)]
    simp [finish, clean, holds.opened, missing] at h

theorem puts_accept (writes : List Write) (holds : Holds encoder body first)
    (accepted : ∀ write ∈ writes, write.Accepted)
    (room : (body ++ bodyOf writes).length ≤ usizeMax) :
    (writes.foldl put encoder).error = none := by
  induction writes generalizing encoder body first with
  | nil => exact holds.clean
  | cons write writes ih =>
      have whole : (body ++ write.bytes ++ bodyOf writes).length ≤ usizeMax := by
        simpa [bodyOf] using room
      have clean := put_accepts holds (accepted write List.mem_cons_self)
        (le_trans (List.prefix_append _ _).length_le whole)
      exact ih (put_holds holds write clean).2
        (fun other member => accepted other (List.mem_cons_of_mem _ member)) whole

theorem new_legal {beginString : Bytes} (nonempty : beginString ≠ [])
    (bounded : beginString.length ≤ BEGIN_STRING_MAX_LEN)
    (legal : ∀ byte ∈ beginString, isBeginStringByte byte = true) :
    (new beginString).beginStringError = none := by
  have none_illegal : (beginString.zipIdx.find? fun entry => !isBeginStringByte entry.1) = none := by
    rw [List.find?_eq_none]
    intro entry member
    simpa using legal entry.1 (List.fst_mem_of_mem_zipIdx member)
  unfold new
  simp only [copyBeginString, if_neg nonempty, dif_pos bounded, none_illegal]

/-- Every message that can be finished is. -/
theorem encode_of_written {beginString : Bytes} {writes : List Write} {frame : Bytes}
    (written : Written beginString writes frame) : encode beginString writes = .ok frame := by
  have legal := new_legal written.nonempty written.bounded written.legal
  obtain ⟨fresh, same, _⟩ := new_holds legal
  have clean := puts_accept writes fresh written.accepted written.room
  have holds := (puts_holds writes fresh clean).2
  have keeps := puts_keep writes (new beginString)
  rw [List.nil_append, Option.none_or, written.first] at holds
  obtain ⟨after, finished⟩ := finish_holds holds (keeps.beginStringError.trans legal)
  unfold encode
  rw [finished, keeps.beginString, same, written.frame]

end Encoder

end IronFix.TagValue
