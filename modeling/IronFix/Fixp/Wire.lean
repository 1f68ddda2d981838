import IronFix.Lib.Cursor
import Mathlib.Data.List.GetD
import IronFix.Fixp.Codec

/-!
# A FIXP message on the wire

The writers put every field at its own offset; the offsets are contiguous, so
what they write is the header, the root block's fields end to end and the
variable-length fields (`write_wire`), and a field is read where it was put.
-/

namespace IronFix.Fixp

open Lib.Cursor

/-! ## Writing at offsets -/

theorem putBytes_next (done rest bytes : Bytes) :
    putBytes (done ++ rest) done.length bytes = done ++ bytes ++ rest.drop bytes.length := by
  unfold putBytes
  rw [List.take_left, List.drop_append, List.drop_eq_nil_of_le (Nat.le_add_right _ _),
    Nat.add_sub_cancel_left, List.nil_append]

/-- Fields that follow each other from `start` to `stop`. -/
def Contiguous : Nat → List (Nat × Bytes) → Nat → Prop
  | start, [], stop => start = stop
  | start, field :: fields, stop => field.1 = start ∧ Contiguous (start + field.2.length) fields stop

/-- The bytes of fields, end to end. -/
def fieldBytes (fields : List (Nat × Bytes)) : Bytes := fields.flatMap Prod.snd

theorem Contiguous.length {start stop : Nat} {fields : List (Nat × Bytes)}
    (contiguous : Contiguous start fields stop) : start + (fieldBytes fields).length = stop := by
  induction fields generalizing start with
  | nil => exact contiguous
  | cons field fields ih =>
      have rest := ih contiguous.2
      show start + (field.2 ++ fieldBytes fields).length = stop
      rw [List.length_append]
      omega

theorem Contiguous.put {start stop : Nat} {fields : List (Nat × Bytes)}
    (contiguous : Contiguous start fields stop) (done rest : Bytes)
    (here : done.length = HEADER_LEN + start) :
    fields.foldl (fun buf field => putBytes buf (HEADER_LEN + field.1) field.2) (done ++ rest)
      = done ++ fieldBytes fields ++ rest.drop (fieldBytes fields).length := by
  induction fields generalizing start done rest with
  | nil =>
      show done ++ rest = done ++ [] ++ rest
      rw [List.append_nil]
  | cons field fields ih =>
      have position : HEADER_LEN + field.1 = done.length := by rw [contiguous.1, here]
      have further : (done ++ field.2).length = HEADER_LEN + (start + field.2.length) := by
        rw [List.length_append, here, Nat.add_assoc]
      rw [List.foldl_cons, position, putBytes_next, ih contiguous.2 _ _ further]
      show done ++ field.2 ++ fieldBytes fields ++ (rest.drop field.2.length).drop _
        = done ++ (field.2 ++ fieldBytes fields) ++ rest.drop (field.2 ++ fieldBytes fields).length
      rw [List.drop_drop, List.length_append, List.append_assoc done]

/-- The bytes of a variable-length field: its length, then itself. -/
def wireField (field : VarField) : Bytes := le16 field.2.length ++ field.2

def wireFields (fields : List VarField) : Bytes := fields.flatMap wireField

/-- Fields a two-byte length can carry. -/
def Carried (fields : List VarField) : Prop := ∀ field ∈ fields, field.2.length ≤ MAX_VAR_DATA_LEN

theorem checkVarField_carried {field : VarField} (carried : field.2.length ≤ MAX_VAR_DATA_LEN) :
    SessionMessage.checkVarField field = .ok () :=
  if_neg (Nat.not_lt_of_le carried)

theorem wireField_length (field : VarField) :
    (wireField field).length = VAR_PREFIX_LEN + field.2.length := by
  unfold wireField le16 VAR_PREFIX_LEN
  rw [List.length_append, Lib.LittleEndian.length_bytes]

theorem varFieldsLen_wire {fields : List VarField} (carried : Carried fields) :
    SessionMessage.varFieldsLen fields = .ok (wireFields fields).length := by
  induction fields with
  | nil => rfl
  | cons field fields ih =>
      have rest := ih fun other member => carried other (List.mem_cons_of_mem _ member)
      unfold SessionMessage.varFieldsLen
      rw [checkVarField_carried (carried field List.mem_cons_self), rest]
      show Except.ok (VAR_PREFIX_LEN + field.2.length + (wireFields fields).length)
        = .ok (wireField field ++ wireFields fields).length
      rw [List.length_append, wireField_length]

theorem putVarFields_wire {fields : List VarField} (carried : Carried fields) (done rest : Bytes) :
    SessionMessage.putVarFields fields done.length (done ++ rest)
      = .ok (done ++ wireFields fields ++ rest.drop (wireFields fields).length) := by
  induction fields generalizing done rest with
  | nil =>
      show Except.ok (done ++ rest) = .ok (done ++ [] ++ rest)
      rw [List.append_nil]
  | cons field fields ih =>
      have others : Carried fields := fun other member =>
        carried other (List.mem_cons_of_mem _ member)
      have prefixLength : (le16 field.2.length).length = VAR_PREFIX_LEN :=
        Lib.LittleEndian.length_bytes _ _
      have behind : done.length + VAR_PREFIX_LEN = (done ++ le16 field.2.length).length := by
        rw [List.length_append, prefixLength]
      have further : done.length + (VAR_PREFIX_LEN + field.2.length)
          = (done ++ wireField field).length := by
        rw [List.length_append, wireField_length]
      unfold SessionMessage.putVarFields
      rw [checkVarField_carried (carried field List.mem_cons_self)]
      show SessionMessage.putVarFields fields _ (putBytes (putBytes (done ++ rest) _ _) _ _) = _
      rw [putBytes_next, behind, putBytes_next, further]
      have grouped : done ++ le16 field.2.length ++ field.2 = done ++ wireField field := by
        rw [List.append_assoc]
        rfl
      rw [grouped, ih others]
      show Except.ok _ = .ok (done ++ (wireField field ++ wireFields fields) ++ _)
      rw [List.drop_drop, List.drop_drop]
      show Except.ok _ = .ok (done ++ (wireField field ++ wireFields fields)
        ++ rest.drop (wireField field ++ wireFields fields).length)
      rw [List.length_append, wireField_length, prefixLength, List.append_assoc done,
        Nat.add_assoc VAR_PREFIX_LEN]

/-! ## A message's bytes -/

/-- The SBE header of a message. -/
def headerBytes (layout : Layout) : Bytes :=
  le16 layout.blockLength ++ le16 layout.templateId ++ le16 SCHEMA_ID ++ le16 SCHEMA_VERSION

theorem headerBytes_length (layout : Layout) : (headerBytes layout).length = HEADER_LEN := rfl

namespace SessionMessage

/-- The bytes of a message. -/
def wire (message : SessionMessage) : Bytes :=
  headerBytes message.layout ++ fieldBytes message.rootBlock ++ wireFields message.varFields

theorem rootBlock_contiguous (message : SessionMessage) :
    Contiguous 0 message.rootBlock message.layout.blockLength := by
  cases message <;>
    simp only [rootBlock, layout, Contiguous, le64, le32, SessionId.sized, List.length_cons,
      List.length_nil, Lib.LittleEndian.length_bytes] <;>
    decide

/-- Every variable-length field is at most 65534 bytes. -/
def Fits (message : SessionMessage) : Prop := Carried message.varFields

variable {message : SessionMessage}

theorem blockBytes_length (message : SessionMessage) :
    (fieldBytes message.rootBlock).length = message.layout.blockLength :=
  (Nat.zero_add _).symm.trans message.rootBlock_contiguous.length

theorem wire_length (message : SessionMessage) :
    message.wire.length
      = HEADER_LEN + message.layout.blockLength + (wireFields message.varFields).length := by
  unfold wire
  rw [List.length_append, List.length_append, headerBytes_length, blockBytes_length]

theorem encodedLen_wire (fits : message.Fits) : message.encodedLen = .ok message.wire.length := by
  unfold encodedLen
  rw [varFieldsLen_wire fits, wire_length]
  rfl

theorem putHeader_wire (layout : Layout) (rest : Bytes) :
    putHeader layout rest = headerBytes layout ++ rest.drop HEADER_LEN := rfl

theorem write_wire (fits : message.Fits) {buf : Bytes} (whole : buf.length = message.wire.length) :
    message.write buf = .ok message.wire := by
  have block := message.rootBlock_contiguous.put (headerBytes message.layout)
    (buf.drop HEADER_LEN) rfl
  have position : HEADER_LEN + message.layout.blockLength
      = (headerBytes message.layout ++ fieldBytes message.rootBlock).length := by
    rw [List.length_append, headerBytes_length, blockBytes_length]
  have nothing : buf.drop (HEADER_LEN + message.layout.blockLength
      + (wireFields message.varFields).length) = [] :=
    List.drop_eq_nil_of_le (by rw [whole, wire_length])
  unfold write
  dsimp only
  rw [putHeader_wire, block, position, putVarFields_wire fits, List.drop_drop, List.drop_drop,
    blockBytes_length, ← Nat.add_assoc HEADER_LEN, nothing, List.append_nil]
  rfl

theorem encode_fits (fits : message.Fits) {dst : Bytes}
    (room : dst.length + message.wire.length ≤ isizeMax) :
    message.encode dst = (.ok message.wire.length, dst ++ message.wire) := by
  unfold encode
  rw [encodedLen_wire fits]
  dsimp only
  rw [if_neg (Nat.not_lt_of_le room), write_wire fits List.length_replicate]

theorem encodeInto_fits (fits : message.Fits) {dst : Bytes}
    (room : message.wire.length ≤ dst.length) :
    message.encodeInto dst
      = (.ok message.wire.length, message.wire ++ dst.drop message.wire.length) := by
  unfold encodeInto
  rw [encodedLen_wire fits]
  dsimp only
  rw [if_neg (Nat.not_lt_of_le room), write_wire fits (List.length_take_of_le room)]

end SessionMessage

theorem varFieldsLen_tooLong {fields : List VarField} (tooLong : ¬ Carried fields) :
    ∃ field ∈ fields, MAX_VAR_DATA_LEN < field.2.length ∧
      SessionMessage.varFieldsLen fields
        = .error (.varDataTooLong field.1 field.2.length MAX_VAR_DATA_LEN) := by
  induction fields with
  | nil => exact absurd nofun tooLong
  | cons field fields ih =>
      unfold SessionMessage.varFieldsLen
      by_cases carried : field.2.length ≤ MAX_VAR_DATA_LEN
      · have later : ¬ Carried fields := by
          intro others
          refine tooLong fun other member => ?_
          rcases List.mem_cons.mp member with rfl | member
          · exact carried
          · exact others other member
        obtain ⟨other, member, long, failed⟩ := ih later
        refine ⟨other, List.mem_cons_of_mem _ member, long, ?_⟩
        rw [checkVarField_carried carried, failed]
        rfl
      · refine ⟨field, List.mem_cons_self, Nat.lt_of_not_le carried, ?_⟩
        rw [show SessionMessage.checkVarField field = _ from if_pos (Nat.lt_of_not_le carried)]
        rfl

theorem SessionMessage.encode_tooLong {message : SessionMessage} (tooLong : ¬ message.Fits)
    (dst : Bytes) : ∃ field ∈ message.varFields, MAX_VAR_DATA_LEN < field.2.length ∧
      message.encode dst
        = (.error (.varDataTooLong field.1 field.2.length MAX_VAR_DATA_LEN), dst) ∧
      message.encodeInto dst
        = (.error (.varDataTooLong field.1 field.2.length MAX_VAR_DATA_LEN), dst) := by
  obtain ⟨field, member, long, failed⟩ := varFieldsLen_tooLong tooLong
  have len : message.encodedLen
      = .error (.varDataTooLong field.1 field.2.length MAX_VAR_DATA_LEN) := by
    unfold encodedLen
    rw [failed]
    rfl
  refine ⟨field, member, long, ?_, ?_⟩
  · unfold encode
    rw [len]
  · unfold encodeInto
    rw [len]

/-! ## Reading at offsets -/

theorem getBytes_middle {front bytes back : Bytes} {offset len : Nat}
    (here : offset = front.length) (whole : len = bytes.length) :
    getBytes (front ++ (bytes ++ back)) offset len = bytes := by
  subst here whole
  unfold getBytes
  rw [List.drop_left, List.take_left]

/-- A field is found at its offset. -/
theorem Contiguous.find {start stop : Nat} {fields : List (Nat × Bytes)}
    (contiguous : Contiguous start fields stop) {field : Nat × Bytes} (member : field ∈ fields) :
    ∃ front back, fieldBytes fields = front ++ (field.2 ++ back) ∧
      field.1 = start + front.length := by
  induction fields generalizing start with
  | nil => cases member
  | cons head fields ih =>
      obtain ⟨here, rest⟩ := contiguous
      rcases List.mem_cons.mp member with rfl | later
      · exact ⟨[], fieldBytes fields, rfl, here⟩
      · obtain ⟨front, back, parted, offset⟩ := ih rest later
        refine ⟨head.2 ++ front, back, ?_, ?_⟩
        · show head.2 ++ fieldBytes fields = _
          rw [parted, List.append_assoc]
        · rw [offset, List.length_append, Nat.add_assoc]

section Fields

variable {fields : List (Nat × Bytes)} {stop offset : Nat}

theorem getBytes_field (contiguous : Contiguous 0 fields stop) {bytes : Bytes}
    (member : (offset, bytes) ∈ fields) :
    getBytes (fieldBytes fields) offset bytes.length = bytes := by
  obtain ⟨front, back, parted, here⟩ := contiguous.find member
  rw [parted]
  exact getBytes_middle (here.trans (Nat.zero_add _)) rfl

theorem u64At_field (contiguous : Contiguous 0 fields stop) {value : UInt64}
    (member : (offset, le64 value) ∈ fields) : u64At (fieldBytes fields) offset = value := by
  have found := getBytes_field contiguous member
  unfold u64At
  unfold le64 at found
  rw [Lib.LittleEndian.length_bytes] at found
  rw [found, Lib.LittleEndian.value_bytes value.toNat_lt, UInt64.ofNat_toNat]

theorem u32At_field (contiguous : Contiguous 0 fields stop) {value : UInt32}
    (member : (offset, le32 value) ∈ fields) : u32At (fieldBytes fields) offset = value := by
  have found := getBytes_field contiguous member
  unfold u32At
  unfold le32 at found
  rw [Lib.LittleEndian.length_bytes] at found
  rw [found, Lib.LittleEndian.value_bytes value.toNat_lt, UInt32.ofNat_toNat]

theorem u8At_field (contiguous : Contiguous 0 fields stop) {value : UInt8}
    (member : (offset, [value]) ∈ fields) : u8At (fieldBytes fields) offset = value := by
  obtain ⟨front, back, parted, here⟩ := contiguous.find member
  obtain rfl : offset = front.length := here.trans (Nat.zero_add _)
  unfold u8At
  rw [parted, List.getD_append_right _ _ _ _ (Nat.le_refl _), Nat.sub_self]
  rfl

theorem sessionIdAt_field (contiguous : Contiguous 0 fields stop) {id : SessionId}
    (member : (offset, id.bytes) ∈ fields) : sessionIdAt (fieldBytes fields) offset = id := by
  obtain ⟨front, back, parted, here⟩ := contiguous.find member
  obtain rfl : offset = front.length := here.trans (Nat.zero_add _)
  refine SessionId.ext ?_
  refine List.ext_getElem (by rw [id.sized]; exact List.length_ofFn) fun i first second => ?_
  have inside : i < id.bytes.length := second
  refine (List.getElem_ofFn first).trans ?_
  show (fieldBytes fields).getD (front.length + i) 0 = _
  rw [parted, List.getD_append_right _ _ _ _ (Nat.le_add_right _ _), Nat.add_sub_cancel_left,
    List.getD_append _ _ _ _ inside, List.getD_eq_getElem _ _ inside]

end Fields

end IronFix.Fixp
