import IronFix.Fast.PresenceMap
import Mathlib.Data.List.GetD

/-!
# Aligned fields

An encoded presence map may be shorter or longer than the bits it was made of.
What the operators read is the map as it goes on, with absent bits, behind its
end.
-/

namespace IronFix.Fast

open Lib.Cursor Lib.Steps

/-! ## Maps without an end -/

/-- The same bits, each list going on with absent ones. -/
def SameBits (bits bits' : List Bool) : Prop := ∀ i, bits.getD i false = bits'.getD i false

namespace SameBits

variable {bits bits' bits'' : List Bool}

theorem refl (bits : List Bool) : SameBits bits bits := fun _ => rfl

theorem symm (same : SameBits bits bits') : SameBits bits' bits := fun i => (same i).symm

theorem trans (same : SameBits bits bits') (same' : SameBits bits' bits'') : SameBits bits bits'' :=
  fun i => (same i).trans (same' i)

theorem headD (same : SameBits bits bits') : bits.headD false = bits'.headD false := by
  have first := same 0
  cases bits <;> cases bits' <;> exact first

theorem tail (same : SameBits bits bits') : SameBits bits.tail bits'.tail := by
  intro i
  have next := same (i + 1)
  cases bits <;> cases bits' <;> exact next

/-- Absent bits at the end say nothing. -/
theorem padding (bits : List Bool) (n : Nat) : SameBits (bits ++ List.replicate n false) bits := by
  intro i
  by_cases inside : i < bits.length
  · rw [List.getD_append _ _ _ _ inside]
  · have past : bits.length ≤ i := Nat.le_of_not_lt inside
    rw [List.getD_append_right _ _ _ _ past, List.getD_eq_default _ _ past]
    by_cases within : i - bits.length < n
    · exact List.getD_replicate _ within
    · exact List.getD_eq_default _ _ (by rw [List.length_replicate]; omega)

end SameBits

/-! ## The operators -/

/-- The fields' answers from their bits in order, which go on with absent ones. -/
def answers : List TemplateField → List Bool → List FieldTransfer
  | [], _ => []
  | field :: fields, bits =>
      if field.operator.requiresPmap field.optional then
        field.operator.source (some (bits.headD false)) :: answers fields bits.tail
      else field.operator.source none :: answers fields bits

theorem answers_length (fields : List TemplateField) (bits : List Bool) :
    (answers fields bits).length = fields.length := by
  induction fields generalizing bits with
  | nil => rfl
  | cons field fields ih =>
      unfold answers
      by_cases owns : field.operator.requiresPmap field.optional
      · rw [if_pos owns, List.length_cons, List.length_cons, ih]
      · rw [if_neg owns, List.length_cons, List.length_cons, ih]

/-- The answers are about the map as it goes on. -/
theorem answers_same (fields : List TemplateField) {bits bits' : List Bool} (same : SameBits bits bits') :
    answers fields bits = answers fields bits' := by
  induction fields generalizing bits bits' with
  | nil => rfl
  | cons field fields ih =>
      unfold answers
      rw [same.headD, ih same.tail, ih same]

/-- A field that owns a bit reads the next one, and an absent one behind the end. -/
theorem presence_owned {operator : Operator} {optional : Bool}
    (owns : operator.requiresPmap optional = true) (map : PresenceMap) :
    ∃ next, operator.presence optional map = .ok (some ((map.bits.drop map.position).headD false)) next
      ∧ next.bits.drop next.position = (map.bits.drop map.position).tail := by
  unfold Operator.presence PresenceMap.nextBit
  rw [if_pos owns]
  by_cases inside : map.position < map.bits.length
  · rw [dif_pos inside, List.drop_eq_getElem_cons inside]
    exact ⟨_, rfl, rfl⟩
  · rw [dif_neg inside]
    have past : map.bits.drop map.position = [] := List.drop_eq_nil_of_le (Nat.le_of_not_lt inside)
    rw [past]
    exact ⟨map, rfl, past⟩

/-- The fields read the map from its position as `answers` says. -/
theorem transfers_answers (fields : List TemplateField) (map : PresenceMap) :
    ∃ rest, transfers fields map = .ok (answers fields (map.bits.drop map.position)) rest := by
  induction fields generalizing map with
  | nil => exact ⟨map, rfl⟩
  | cons field fields ih =>
      unfold transfers answers Operator.transfer
      by_cases owns : field.operator.requiresPmap field.optional = true
      · obtain ⟨next, read, left⟩ := presence_owned owns map
        obtain ⟨rest, others⟩ := ih next
        refine ⟨rest, ?_⟩
        simp only [bind_apply, read, pure_apply, others, left, if_pos owns]
      · obtain ⟨rest, others⟩ := ih map
        refine ⟨rest, ?_⟩
        have read : field.operator.presence field.optional map = .ok none map := by
          unfold Operator.presence
          rw [if_neg owns]
        simp only [bind_apply, read, pure_apply, others, if_neg owns]

/-! ## The bytes -/

@[simp] theorem payloadBits_length (byte : UInt8) : (payloadBits byte).length = PAYLOAD_BITS := rfl

theorem payloadBits_zero : payloadBits 0 = List.replicate PAYLOAD_BITS false := rfl

/-- The stop bit is none of the payload. -/
theorem payloadBits_stopped {byte : UInt8} (small : byte.toNat < RADIX) :
    payloadBits (byte ||| STOP_BIT) = payloadBits byte := by
  revert small
  exact forall_payload (P := fun byte => payloadBits (byte ||| STOP_BIT) = payloadBits byte)
    (by decide +kernel)

/-- Absent bits at the end of a chunk leave its byte. -/
theorem packed_padding (chunk : List Bool) (n : Nat) :
    packed (chunk ++ List.replicate n false) = packed chunk := by
  unfold packed
  rw [List.zipIdx_append, List.foldl_append]
  generalize List.foldl _ 0 chunk.zipIdx = byte
  generalize 0 + chunk.length = index
  induction n generalizing index with
  | zero => rfl
  | succ n ih => exact ih (index + 1)

theorem packed_full : ∀ a b c d e f g : Bool, (packed [a, b, c, d, e, f, g]).toNat < RADIX ∧
    payloadBits (packed [a, b, c, d, e, f, g]) = [a, b, c, d, e, f, g] := by
  decide +kernel

/-- A chunk's byte has its bits, then absent ones. -/
theorem packed_chunk (chunk : List Bool) (short : chunk.length ≤ PAYLOAD_BITS) :
    (packed chunk).toNat < RADIX ∧
      payloadBits (packed chunk) = chunk ++ List.replicate (PAYLOAD_BITS - chunk.length) false := by
  rw [← packed_padding chunk (PAYLOAD_BITS - chunk.length)]
  have full : (chunk ++ List.replicate (PAYLOAD_BITS - chunk.length) false).length = 7 := by
    rw [List.length_append, List.length_replicate]
    exact Nat.add_sub_cancel' short
  match chunk ++ List.replicate (PAYLOAD_BITS - chunk.length) false, full with
  | [a, b, c, d, e, f, g], _ => exact packed_full a b c d e f g

/-- The payload of a map's bytes. -/
def payload (bytes : Bytes) : List Bool := bytes.flatMap payloadBits

theorem payload_append (front back : Bytes) : payload (front ++ back) = payload front ++ payload back :=
  List.flatMap_append

/-- The bytes of the chunks have the map's bits, then absent ones, and no stop bit. -/
theorem payload_chunks (bits : List Bool) :
    (∃ n, payload ((chunks (PAYLOAD_BITS - 1) bits).map packed) = bits ++ List.replicate n false) ∧
      (∀ byte ∈ (chunks (PAYLOAD_BITS - 1) bits).map packed, byte.toNat < RADIX) ∧
      (chunks (PAYLOAD_BITS - 1) bits).length = (bits.length + (PAYLOAD_BITS - 1)) / PAYLOAD_BITS := by
  induction bits using chunks.induct (PAYLOAD_BITS - 1) with
  | case1 =>
      unfold chunks
      exact ⟨⟨0, rfl⟩, by simp, rfl⟩
  | case2 bit rest ih =>
      obtain ⟨⟨n, same⟩, small, counted⟩ := ih
      unfold chunks
      have short : (bit :: rest.take (PAYLOAD_BITS - 1)).length ≤ PAYLOAD_BITS := by
        rw [List.length_cons, List.length_take]
        exact Nat.succ_le_succ (Nat.min_le_left _ _)
      obtain ⟨smallFirst, sameFirst⟩ := packed_chunk _ short
      refine ⟨?_, ?_, ?_⟩
      · show ∃ n, payloadBits (packed _) ++ payload _ = _
        rw [same, sameFirst]
        by_cases whole : PAYLOAD_BITS - 1 ≤ rest.length
        · refine ⟨n, ?_⟩
          have filled : PAYLOAD_BITS - (bit :: rest.take (PAYLOAD_BITS - 1)).length = 0 := by
            rw [List.length_cons, List.length_take, Nat.min_eq_left whole]
            rfl
          rw [filled, List.replicate_zero, List.append_nil, List.cons_append, ← List.append_assoc,
            List.take_append_drop, List.cons_append]
        · have past : rest.length ≤ PAYLOAD_BITS - 1 := Nat.le_of_not_le whole
          rw [List.take_of_length_le past, List.drop_of_length_le past, List.nil_append,
            List.append_assoc, ← List.replicate_add]
          exact ⟨_, rfl⟩
      · intro byte member
        rcases List.mem_cons.mp member with rfl | later
        · exact smallFirst
        · exact small byte later
      · rw [List.length_cons, counted, List.length_drop, List.length_cons]
        show _ + 1 = _
        unfold PAYLOAD_BITS
        omega

/-- The bytes that are dropped have no bit set. -/
theorem dropAbsent_zeros (result : Bytes) :
    ∃ n, result = dropAbsent result ++ List.replicate n 0 := by
  induction result using dropAbsent.induct with
  | case1 result absent ih =>
      obtain ⟨n, same⟩ := ih
      rw [dropAbsent, if_pos absent]
      refine ⟨n + 1, ?_⟩
      rw [List.replicate_succ', ← List.append_assoc, ← same]
      exact (List.dropLast_append_getLast? 0 absent.2).symm
  | case2 result kept =>
      rw [dropAbsent, if_neg kept]
      exact ⟨0, (List.append_nil _).symm⟩

/-- What `encode` puts the stop bit on: the bits as they go on, in at least one
byte and no more than the chunks were. -/
theorem encode_ok {bits : List Bool} (fits : bits.length ≤ PAYLOAD_BITS * MAX_PMAP_BYTES) :
    ∃ init last, (PresenceMap.fromBits bits).encode = .ok (init ++ [last ||| STOP_BIT]) ∧
      init.length < MAX_PMAP_BYTES ∧ (∀ byte ∈ init ++ [last], byte.toNat < RADIX) ∧
      SameBits (payload (init ++ [last])) bits := by
  obtain ⟨⟨n, padded⟩, small, counted⟩ := payload_chunks bits
  obtain ⟨k, dropped⟩ := dropAbsent_zeros ((chunks (PAYLOAD_BITS - 1) bits).map packed)
  have bounded : (bits.length + (PAYLOAD_BITS - 1)) / PAYLOAD_BITS ≤ MAX_PMAP_BYTES := by
    unfold PAYLOAD_BITS MAX_PMAP_BYTES at *
    omega
  have same : SameBits (payload (dropAbsent ((chunks (PAYLOAD_BITS - 1) bits).map packed))) bits := by
    refine SameBits.trans ?_ (SameBits.padding bits n)
    rw [← padded]
    nth_rewrite 2 [dropped]
    have zeros : payload (List.replicate k 0) = List.replicate (k * PAYLOAD_BITS) false := by
      unfold payload
      rw [List.flatMap_replicate, payloadBits_zero, List.flatten_replicate_replicate]
    rw [payload_append, zeros]
    exact (SameBits.padding _ _).symm
  unfold PresenceMap.encode
  simp only [show (PresenceMap.fromBits bits).bits = bits from rfl, if_neg (Nat.not_lt.mpr bounded)]
  have fewer : (dropAbsent ((chunks (PAYLOAD_BITS - 1) bits).map packed)).length ≤ MAX_PMAP_BYTES := by
    have total := congrArg List.length dropped
    rw [List.length_append, List.length_map, counted] at total
    omega
  have smaller : ∀ byte ∈ dropAbsent ((chunks (PAYLOAD_BITS - 1) bits).map packed),
      byte.toNat < RADIX := by
    intro byte member
    refine small byte ?_
    rw [dropped]
    exact List.mem_append_left _ member
  generalize dropAbsent ((chunks (PAYLOAD_BITS - 1) bits).map packed) = result at *
  rcases List.eq_nil_or_concat' result with rfl | ⟨init, last, rfl⟩
  · refine ⟨[], 0, rfl, by decide, ?_, SameBits.trans ?_ same⟩
    · intro byte member
      rw [List.mem_singleton.mp member]
      decide
    · exact SameBits.padding [] PAYLOAD_BITS
  · refine ⟨init, last, ?_, ?_, smaller, same⟩
    · rw [if_neg (by simp), setStopBit_concat]
    · rw [List.length_append] at fewer
      exact fewer

/-- The decoder's loop reads bytes up to the one with the stop bit. -/
theorem decodeLoop_bits {init : Bytes} {last : UInt8}
    (small : ∀ byte ∈ init ++ [last], byte.toNat < RADIX) {left : Nat} (short : init.length < left)
    (bits : List Bool) :
    Reads (fun data => PresenceMap.decodeLoop data left bits) (init ++ [last ||| STOP_BIT])
      (bits ++ payload (init ++ [last])) := by
  induction init generalizing left bits with
  | nil =>
      obtain ⟨left, rfl⟩ := Nat.exists_eq_succ_of_ne_zero (Nat.ne_zero_of_lt short)
      have smallLast := small last List.mem_cons_self
      obtain ⟨-, stops, -⟩ := payload_stopped smallLast
      show Reads _ ([last ||| STOP_BIT] ++ []) _
      refine Reads.bind (readByte_reads _) ?_
      simp only [if_pos stops, payloadBits_stopped smallLast]
      have one : payload ([] ++ [last]) = payloadBits last := List.append_nil _
      rw [one]
      exact Reads.returns _
  | cons byte init ih =>
      obtain ⟨left, rfl⟩ := Nat.exists_eq_succ_of_ne_zero (Nat.ne_zero_of_lt short)
      obtain ⟨-, continues⟩ := payload_kept (small byte List.mem_cons_self)
      show Reads _ ([byte] ++ (init ++ [last ||| STOP_BIT])) _
      refine Reads.bind (readByte_reads _) ?_
      simp only [if_neg (not_not.mpr continues)]
      have split : bits ++ payload (byte :: init ++ [last])
          = bits ++ payloadBits byte ++ payload (init ++ [last]) := by
        rw [List.append_assoc]
        rfl
      rw [split]
      exact ih (fun other member => small other (List.mem_cons_of_mem _ member))
        (Nat.lt_of_succ_lt_succ short) _

/-! ## The round trip -/

/-- A message's fields find their values in the same places by an encoded map,
read anywhere in the data, as by the bits themselves, and the decoder stops at
the map's end. -/
theorem presence_maps_aligned (fields : List TemplateField) (bits : List Bool)
    (fits : bits.length ≤ PAYLOAD_BITS * MAX_PMAP_BYTES) :
    ∃ wire, (PresenceMap.fromBits bits).encode = .ok wire ∧ ∀ before after, ∃ map,
      PresenceMap.decode (before ++ (wire ++ after)) before.length
        = .ok map (before.length + wire.length) ∧
      ∃ taken rest rest', transfers fields map = .ok taken rest ∧
        transfers fields (PresenceMap.fromBits bits) = .ok taken rest' ∧
        taken.length = fields.length ∧ taken = answers fields bits := by
  obtain ⟨init, last, encoded, short, small, same⟩ := encode_ok fits
  refine ⟨_, encoded, fun before after => ?_⟩
  refine ⟨PresenceMap.fromBits (payload (init ++ [last])), ?_, ?_⟩
  · have read := (decodeLoop_bits small short []).map PresenceMap.fromBits
    exact read before after
  · obtain ⟨rest, decoded⟩ := transfers_answers fields
      (PresenceMap.fromBits (payload (init ++ [last])))
    obtain ⟨rest', whole⟩ := transfers_answers fields (PresenceMap.fromBits bits)
    exact ⟨_, rest, rest', (answers_same fields same) ▸ decoded, whole, answers_length fields bits, rfl⟩

/-- Eight fields, the last of them behind the encoded byte. -/
theorem presence_maps_aligned_short :
    [false, true, false, false, false, false, false, false].length ≤ PAYLOAD_BITS * MAX_PMAP_BYTES ∧
      ∃ wire, (PresenceMap.fromBits [false, true, false, false, false, false, false, false]).encode
          = .ok wire ∧ ∀ before after, ∃ map,
        PresenceMap.decode (before ++ (wire ++ after)) before.length
          = .ok map (before.length + wire.length) ∧
        ∃ taken rest rest', transfers (List.replicate 8 ⟨.copy, false⟩) map = .ok taken rest ∧
          transfers (List.replicate 8 ⟨.copy, false⟩)
            (PresenceMap.fromBits [false, true, false, false, false, false, false, false])
            = .ok taken rest' ∧
          taken.length = 8 ∧ taken = answers (List.replicate 8 ⟨.copy, false⟩)
            [false, true, false, false, false, false, false, false] :=
  ⟨by decide, presence_maps_aligned _ _ (by decide)⟩

end IronFix.Fast
