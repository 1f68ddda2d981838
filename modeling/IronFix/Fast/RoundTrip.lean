import IronFix.Fast.Texts

/-!
# A stream of fields read back

Every field marks its own end, so fields written one after another are read
one after another.
-/

namespace IronFix.Fast

open Lib.Cursor

/-- A typed value of the stream; `β` is what byte vectors are. -/
inductive Field (β : Type) where
  | uint (value : UInt64)
  | int (value : Int64)
  | ascii (text : String)
  | bytes (value : β)
  | nullableUint (value : Option UInt64)
  | nullableInt (value : Option Int64)
  | nullableAscii (text : Option String)
  | nullableBytes (value : Option β)

/-- What a reader must know of a field. -/
inductive FieldKind where
  | uint
  | int
  | ascii
  | bytes
  | nullableUint
  | nullableInt
  | nullableAscii
  | nullableBytes
  deriving DecidableEq, Repr

namespace Field

def kind {β : Type} : Field β → FieldKind
  | .uint _ => .uint
  | .int _ => .int
  | .ascii _ => .ascii
  | .bytes _ => .bytes
  | .nullableUint _ => .nullableUint
  | .nullableInt _ => .nullableInt
  | .nullableAscii _ => .nullableAscii
  | .nullableBytes _ => .nullableBytes

/-- The field as a reader returns it. -/
def contents : Field ByteVector → Field Bytes
  | .uint value => .uint value
  | .int value => .int value
  | .ascii text => .ascii text
  | .bytes value => .bytes value.bytes
  | .nullableUint value => .nullableUint value
  | .nullableInt value => .nullableInt value
  | .nullableAscii text => .nullableAscii text
  | .nullableBytes value => .nullableBytes (value.map ByteVector.bytes)

def encode : Field ByteVector → Encoder PUnit
  | .uint value => encodeUint value
  | .int value => encodeInt value
  | .ascii text => encodeAscii text
  | .bytes value => encodeBytes value
  | .nullableUint value => encodeNullableUint value
  | .nullableInt value => encodeNullableInt value
  | .nullableAscii text => encodeNullableAscii text
  | .nullableBytes value => encodeNullableBytes value

/-- The bytes of a field. -/
def wire : Field ByteVector → Bytes
  | .uint value => wireUnsigned value.toNat
  | .int value => wireSigned value.toInt
  | .ascii text => wireAscii text
  | .bytes value => wireBytes value
  | .nullableUint none => [STOP_BIT]
  | .nullableUint (some value) => wireUnsigned (value.toNat + 1)
  | .nullableInt value => wireNullableInt value
  | .nullableAscii text => wireNullableAscii text
  | .nullableBytes value => wireNullableBytes value

end Field

def FieldKind.decode : FieldKind → Bytes → Decoder (Field Bytes)
  | .uint, data => Field.uint <$> decodeUint data
  | .int, data => Field.int <$> decodeInt data
  | .ascii, data => Field.ascii <$> decodeAscii data
  | .bytes, data => Field.bytes <$> decodeBytes data
  | .nullableUint, data => Field.nullableUint <$> decodeNullableUint data
  | .nullableInt, data => Field.nullableInt <$> decodeNullableInt data
  | .nullableAscii, data => Field.nullableAscii <$> decodeNullableAscii data
  | .nullableBytes, data => Field.nullableBytes <$> decodeNullableBytes data

/-- Makes the writes in order: those the encoder took, and the buffer. -/
def writeAll : List (Field ByteVector) → Bytes → List (Field ByteVector) × Bytes
  | [], buffer => ([], buffer)
  | field :: fields, buffer =>
      match field.encode buffer with
      | .ok _ buffer =>
          let (accepted, final) := writeAll fields buffer
          (field :: accepted, final)
      | .error _ buffer => writeAll fields buffer

/-- Reads fields of the kinds in order. -/
def readAll : List FieldKind → Bytes → Decoder (List (Field Bytes))
  | [], _ => return []
  | kind :: kinds, data => do
      let field ← kind.decode data
      let fields ← readAll kinds data
      return field :: fields

/-- A text that is not ASCII, or longer than a lone NUL and led by one. -/
def RefusedText (text : String) : Prop := ¬ AsciiText text ∨ NulLed text

namespace Field

/-- The writes the encoder refuses: texts it cannot represent. -/
def Refused : Field ByteVector → Prop
  | .ascii text => RefusedText text
  | .nullableAscii (some text) => RefusedText text
  | _ => False

theorem encode_refuses {field : Field ByteVector} (refused : field.Refused) :
    Refuses field.encode .invalidString := by
  cases field with
  | ascii text => exact encodeAscii_refuses refused
  | nullableAscii text =>
      cases text with
      | none => exact refused.elim
      | some text => exact encodeNullableAscii_refuses refused
  | uint | int | bytes | nullableUint | nullableInt | nullableBytes => exact refused.elim

theorem encode_writes {field : Field ByteVector} (taken : ¬ field.Refused) :
    Writes field.encode field.wire := by
  cases field with
  | uint value => exact encodeUnsigned_writes value.toNat
  | int value => exact encodeSigned_writes value.toInt
  | ascii text =>
      obtain ⟨ascii, notLed⟩ := not_or.mp taken
      exact encodeAscii_writes (not_not.mp ascii) notLed
  | bytes value => exact encodeBytes_writes value
  | nullableUint value =>
      cases value with
      | none => exact extend_writes _
      | some value => exact encodeUnsigned_writes (value.toNat + 1)
  | nullableInt value => exact encodeNullableInt_writes value
  | nullableAscii text =>
      cases text with
      | none => exact extend_writes _
      | some text =>
          obtain ⟨ascii, notLed⟩ := not_or.mp taken
          exact encodeNullableAscii_writes (not_not.mp ascii) notLed
  | nullableBytes value => exact encodeNullableBytes_writes value

/-- A field written is read back, whatever stands before and after it. -/
theorem decode_reads {field : Field ByteVector} (taken : ¬ field.Refused) :
    Reads field.kind.decode field.wire field.contents := by
  cases field with
  | uint value => exact (decodeUint_reads value).map _
  | int value => exact (decodeInt_reads value).map _
  | ascii text =>
      obtain ⟨ascii, notLed⟩ := not_or.mp taken
      exact (decodeAscii_reads (not_not.mp ascii) notLed).map _
  | bytes value => exact (decodeBytes_reads value).map _
  | nullableUint value =>
      cases value with
      | none => exact decodeNullableUint_none.map _
      | some value => exact (decodeNullableUint_some value).map _
  | nullableInt value => exact (decodeNullableInt_reads value).map _
  | nullableAscii text =>
      cases text with
      | none => exact Reads.map (peek_reads fun before after => rfl) _
      | some text =>
          obtain ⟨ascii, notLed⟩ := not_or.mp taken
          exact (decodeNullableAscii_reads (not_not.mp ascii) notLed).map _
  | nullableBytes value => exact (decodeNullableBytes_reads value).map _

/-- Exactly those writes are refused. -/
theorem encode_error_iff (field : Field ByteVector) (buffer : Bytes) :
    (∃ error after, field.encode buffer = .error error after) ↔ field.Refused := by
  constructor
  · rintro ⟨error, after, failed⟩
    by_contra taken
    rw [encode_writes taken buffer] at failed
    cases failed
  · exact fun refused => ⟨.invalidString, buffer, encode_refuses refused buffer⟩

end Field

/-- The buffer grows by the bytes of the writes that were taken. -/
theorem writeAll_wire (fields : List (Field ByteVector)) (buffer : Bytes) :
    (∀ field ∈ (writeAll fields buffer).1, ¬ field.Refused) ∧
      (writeAll fields buffer).2
        = buffer ++ ((writeAll fields buffer).1.map Field.wire).flatten := by
  induction fields generalizing buffer with
  | nil => exact ⟨nofun, (List.append_nil buffer).symm⟩
  | cons field fields ih =>
      unfold writeAll
      by_cases refused : field.Refused
      · rw [Field.encode_refuses refused buffer]
        exact ih buffer
      · rw [Field.encode_writes refused buffer]
        obtain ⟨taken, grown⟩ := ih (buffer ++ field.wire)
        refine ⟨?_, ?_⟩
        · intro other member
          rcases List.mem_cons.mp member with rfl | later
          · exact refused
          · exact taken other later
        · show (writeAll fields (buffer ++ field.wire)).2 = _
          rw [grown, List.append_assoc]
          rfl

theorem readAll_reads {fields : List (Field ByteVector)}
    (taken : ∀ field ∈ fields, ¬ field.Refused) :
    Reads (readAll (fields.map Field.kind)) (fields.map Field.wire).flatten
      (fields.map Field.contents) := by
  induction fields with
  | nil => exact Reads.returns []
  | cons field fields ih =>
      have head := Field.decode_reads (taken field List.mem_cons_self)
      have tail := ih fun other member => taken other (List.mem_cons_of_mem _ member)
      have whole : Reads (fun data => do
            let read ← readAll (fields.map Field.kind) data
            return field.contents :: read) (fields.map Field.wire).flatten
          (field.contents :: fields.map Field.contents) := tail.finish rfl
      exact head.bind whole

/-- Whatever is written, the fields the encoder took are read back in order, to
the end of the buffer; a refused write leaves the buffer; and refused are
exactly the texts that are not ASCII or longer than a NUL they begin with. -/
theorem stream_round_trip (fields : List (Field ByteVector)) :
    (let accepted := (writeAll fields []).1
     let buffer := (writeAll fields []).2
     readAll (accepted.map Field.kind) buffer 0
       = .ok (accepted.map Field.contents) buffer.length) ∧
    (∀ field : Field ByteVector, ∀ buffer after error,
      field.encode buffer = .error error after → after = buffer) ∧
    (∀ field : Field ByteVector, ∀ buffer,
      (∃ error after, field.encode buffer = .error error after) ↔ field.Refused) ∧
    (∀ text buffer, (∃ error after, encodeAscii text buffer = .error error after) ↔
      RefusedText text) ∧
    (∀ text buffer, (∃ error after, encodeNullableAscii (some text) buffer = .error error after) ↔
      RefusedText text) := by
  refine ⟨?_, ?_, Field.encode_error_iff, fun text => (Field.ascii text).encode_error_iff,
    fun text => (Field.nullableAscii (some text)).encode_error_iff⟩
  · obtain ⟨taken, grown⟩ := writeAll_wire fields []
    intro accepted buffer
    have read := readAll_reads taken [] []
    rw [List.nil_append, List.append_nil] at read
    have whole : buffer = (accepted.map Field.wire).flatten := grown
    rw [whole]
    exact read.trans (congrArg (EStateM.Result.ok _) (Nat.zero_add _))
  · intro field buffer after error failed
    have refused := (Field.encode_error_iff field buffer).mp ⟨error, after, failed⟩
    rw [Field.encode_refuses refused buffer] at failed
    cases failed
    rfl

end IronFix.Fast
