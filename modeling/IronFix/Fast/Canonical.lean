import IronFix.Fast.Integers
import IronFix.Lib.Steps

/-!
# Canonical integers

What the integer decoders accept, and that the encoders' bytes are the only
shortest ones for their value.
-/

namespace IronFix.Fast

open Lib.Cursor Lib.Radix Lib.Steps

/-! ## Fields -/

/-- `field` is what `data` begins with, up to its first stop bit, and at most
`left` bytes long. -/
structure Stops (left : Nat) (data field : Bytes) : Prop where
  front : field <+: data
  short : field.length ≤ left
  ends : ∃ init last, field = init ++ [last] ∧ last &&& STOP_BIT ≠ 0 ∧
    ∀ byte ∈ init, byte &&& STOP_BIT = 0

/-- The seven-bit groups of a field. -/
def groups (field : Bytes) : List Nat := field.map fun byte => (byte &&& PAYLOAD_MASK).toNat

/-- The groups as an unsigned integer. -/
def unsignedValue (field : Bytes) : Int := ofDigits RADIX 0 (groups field)

/-- The groups in two's complement: bit 6 of the first byte is the sign. -/
def signedValue (field : Bytes) : Int :=
  ofDigits RADIX (if field.head?.any fun byte => decide (byte &&& SIGN_BIT ≠ 0) then -1 else 0)
    (groups field)

theorem forall_byte {P : UInt8 → Prop} (all : ∀ n < 256, P (UInt8.ofNat n)) (byte : UInt8) : P byte := by
  rw [← UInt8.ofNat_toNat (x := byte)]
  exact all byte.toNat byte.toNat_lt

theorem payload_lt (byte : UInt8) : (byte &&& PAYLOAD_MASK).toNat < RADIX :=
  forall_byte (P := fun byte => (byte &&& PAYLOAD_MASK).toNat < RADIX) (by decide +kernel) byte

/-- A byte is its payload and its stop bit. -/
theorem byte_parts (byte : UInt8) : byte = (byte &&& PAYLOAD_MASK) ||| (byte &&& STOP_BIT) :=
  forall_byte (P := fun byte => byte = (byte &&& PAYLOAD_MASK) ||| (byte &&& STOP_BIT))
    (by decide +kernel) byte

theorem stopBit_set {byte : UInt8} (stops : byte &&& STOP_BIT ≠ 0) : byte &&& STOP_BIT = STOP_BIT :=
  forall_byte (P := fun byte => byte &&& STOP_BIT ≠ 0 → byte &&& STOP_BIT = STOP_BIT)
    (by decide +kernel) byte stops

theorem groups_small (field : Bytes) : ∀ digit ∈ groups field, digit < RADIX := by
  intro digit member
  obtain ⟨byte, -, rfl⟩ := List.mem_map.mp member
  exact payload_lt byte

@[simp] theorem groups_length (field : Bytes) : (groups field).length = field.length :=
  List.length_map ..

section Stops

variable {left : Nat} {data field rest : Bytes} {byte : UInt8}

theorem Stops.ne_nil (stops : Stops left data field) : field ≠ [] := by
  obtain ⟨init, last, rfl, -⟩ := stops.ends
  exact List.append_ne_nil_of_right_ne_nil _ (List.cons_ne_nil _ _)

/-- A field is its first byte, or goes on behind it. -/
theorem stops_cons : Stops (left + 1) (byte :: rest) field ↔
    (byte &&& STOP_BIT ≠ 0 ∧ field = [byte]) ∨
      (byte &&& STOP_BIT = 0 ∧ ∃ behind, field = byte :: behind ∧ Stops left rest behind) := by
  constructor
  · rintro ⟨front, short, init, last, rfl, stops, goes⟩
    cases init with
    | nil =>
        have same : last = byte := (List.cons_prefix_cons.mp front).1
        exact .inl ⟨same ▸ stops, by rw [same]; rfl⟩
    | cons first init =>
        obtain ⟨rfl, behind⟩ := List.cons_prefix_cons.mp front
        refine .inr ⟨goes first List.mem_cons_self, init ++ [last], rfl, behind, ?_, init, last, rfl,
          stops, fun other member => goes other (List.mem_cons_of_mem _ member)⟩
        exact Nat.le_of_succ_le_succ short
  · rintro (⟨stops, rfl⟩ | ⟨goes, behind, rfl, front, short, init, last, rfl, stops, others⟩)
    · exact ⟨List.cons_prefix_cons.mpr ⟨rfl, List.nil_prefix⟩, Nat.succ_le_succ (Nat.zero_le _), [],
        byte, rfl, stops, by simp⟩
    · refine ⟨List.cons_prefix_cons.mpr ⟨rfl, front⟩, Nat.succ_le_succ short, byte :: init, last, rfl,
        stops, ?_⟩
      intro other member
      rcases List.mem_cons.mp member with rfl | later
      · exact goes
      · exact others other later

theorem not_stops_nil : ¬Stops left [] field := by
  intro stops
  exact stops.ne_nil (List.prefix_nil.mp stops.front)

theorem not_stops_zero : ¬Stops 0 data field := by
  intro stops
  exact stops.ne_nil (List.length_eq_zero_iff.mp (Nat.le_zero.mp stops.short))

/-- Fields of the same groups are the same. -/
theorem Stops.eq_of_groups {left' : Nat} {data' field' : Bytes} (stops : Stops left data field)
    (stops' : Stops left' data' field') (same : groups field = groups field') : field = field' := by
  obtain ⟨init, last, rfl, ends, goes⟩ := stops.ends
  obtain ⟨init', last', rfl, ends', goes'⟩ := stops'.ends
  unfold groups at same
  rw [List.map_append, List.map_append] at same
  obtain ⟨inits, lasts⟩ := List.append_inj' same rfl
  have lastPayload : last &&& PAYLOAD_MASK = last' &&& PAYLOAD_MASK :=
    UInt8.toNat_inj.mp (List.singleton_inj.mp lasts)
  have lastSame : last = last' := by
    rw [byte_parts last, byte_parts last', lastPayload, stopBit_set ends, stopBit_set ends']
  have initSame : init = init' := by
    have decoded : ∀ bytes : Bytes, (∀ byte ∈ bytes, byte &&& STOP_BIT = 0) →
        (bytes.map fun byte => (byte &&& PAYLOAD_MASK).toNat).map UInt8.ofNat = bytes := by
      intro bytes goes
      rw [List.map_map]
      refine (List.map_congr_left ?_).trans (List.map_id bytes)
      intro byte member
      have parts := byte_parts byte
      rw [goes byte member, UInt8.or_zero] at parts
      show UInt8.ofNat (byte &&& PAYLOAD_MASK).toNat = byte
      rw [UInt8.ofNat_toNat, ← parts]
    rw [← decoded init goes, ← decoded init' goes', inits]
  rw [lastSame, initSame]

end Stops

/-! ## The loop -/

theorem readByte_cons {data rest : Bytes} {offset : Nat} {byte : UInt8}
    (here : data.drop offset = byte :: rest) : readByte data offset = .ok byte (offset + 1) := by
  have found : data[offset]? = some byte := by
    rw [← List.head?_drop, here]
    rfl
  exact readByte_at found

theorem peekByte_cons {data rest : Bytes} {offset : Nat} {byte : UInt8}
    (here : data.drop offset = byte :: rest) : peekByte data offset = .ok byte offset := by
  have found : data[offset]? = some byte := by
    rw [← List.head?_drop, here]
    rfl
  exact peekByte_at found

theorem peekByte_nil {data : Bytes} {offset : Nat} (past : data.drop offset = []) :
    peekByte data offset = .error .unexpectedEof offset := by
  have found : data[offset]? = none := by
    rw [← List.head?_drop, past]
    rfl
  exact peekByte_past found

theorem readByte_nil {data : Bytes} {offset : Nat} (past : data.drop offset = []) :
    readByte data offset = .error .unexpectedEof offset := by
  have found : data[offset]? = none := by
    rw [← List.head?_drop, past]
    rfl
  exact readByte_past found

/-- What the loop makes of a byte. -/
def afterByte (low high : Int) (data : Bytes) (left : Nat) (result : Int) (byte : UInt8) : Decoder Int :=
  match checkedMul low high result RADIX with
  | none => throw .integerOverflow
  | some product =>
      let result := product + (byte &&& PAYLOAD_MASK).toNat
      if byte &&& STOP_BIT ≠ 0 then return result else decodeLoop low high data left result

theorem decodeLoop_succ {low high : Int} {data : Bytes} {left : Nat} {result : Int} {offset : Nat}
    {byte : UInt8} (read : readByte data offset = .ok byte (offset + 1)) :
    decodeLoop low high data (left + 1) result offset =
      afterByte low high data left result byte (offset + 1) := by
  show EStateM.bind (readByte data) (afterByte low high data left result) offset = _
  unfold EStateM.bind
  rw [read]

/-- A product that fits leaves its low bits for a payload. -/
theorem payload_fits {low high result : Int} {payload : Nat} (multiple : (RADIX : Int) ∣ high + 1)
    (product : low ≤ result * RADIX ∧ result * RADIX ≤ high) (small : payload < RADIX) :
    low ≤ result * RADIX + payload ∧ result * RADIX + payload ≤ high := by
  obtain ⟨quotient, whole⟩ := multiple
  have payloadSmall : (payload : Int) < RADIX := by exact_mod_cast small
  rw [radix_cast] at *
  omega

/-- The loop succeeds on a field whose value fits, and gives that value. -/
theorem decodeLoop_ok_iff {low high : Int} (multiple : (RADIX : Int) ∣ low)
    (multiple' : (RADIX : Int) ∣ high + 1) (lowest : low ≤ 0) (highest : 0 ≤ high) (data : Bytes)
    (left : Nat) (result : Int) (offset : Nat) (value : Int) (stop : Nat) :
    decodeLoop low high data left result offset = .ok value stop ↔
      ∃ field, Stops left (data.drop offset) field ∧ ofDigits RADIX result (groups field) = value ∧
        (low ≤ value ∧ value ≤ high) ∧ stop = offset + field.length := by
  induction left generalizing result offset with
  | zero =>
      constructor
      · intro succeeded
        cases succeeded
      · rintro ⟨field, stops, -⟩
        exact absurd stops not_stops_zero
  | succ left ih =>
      cases rest : data.drop offset with
      | nil =>
          constructor
          · intro succeeded
            have failed : decodeLoop low high data (left + 1) result offset =
                .error .unexpectedEof offset := by
              show EStateM.bind (readByte data) _ offset = _
              unfold EStateM.bind
              rw [readByte_nil rest]
            rw [failed] at succeeded
            cases succeeded
          · rintro ⟨field, stops, -⟩
            exact absurd stops not_stops_nil
      | cons byte behind =>
          have next : data.drop (offset + 1) = behind := by
            rw [← List.drop_drop, rest, List.drop_one, List.tail_cons]
          rw [decodeLoop_succ (readByte_cons rest)]
          unfold afterByte checkedMul
          by_cases product : low ≤ result * RADIX ∧ result * RADIX ≤ high
          · rw [if_pos product]
            dsimp only
            by_cases stops : byte &&& STOP_BIT ≠ 0
            · rw [if_pos stops]
              constructor
              · intro returned
                cases returned
                exact ⟨[byte], stops_cons.mpr (.inl ⟨stops, rfl⟩), rfl,
                  payload_fits multiple' product (payload_lt byte), rfl⟩
              · rintro ⟨field, found, gives, -, rfl⟩
                rcases stops_cons.mp found with ⟨-, rfl⟩ | ⟨goes, -⟩
                · rw [← gives]
                  rfl
                · exact absurd goes stops
            · rw [if_neg stops, ih, next]
              constructor
              · rintro ⟨field, found, gives, fits, rfl⟩
                refine ⟨byte :: field, stops_cons.mpr (.inr ⟨not_not.mp stops, field, rfl, found⟩),
                  gives, fits, ?_⟩
                rw [List.length_cons]
                omega
              · rintro ⟨field, found, gives, fits, rfl⟩
                rcases stops_cons.mp found with ⟨ends, -⟩ | ⟨-, later, rfl, foundLater⟩
                · exact absurd ends stops
                · refine ⟨later, foundLater, gives, fits, ?_⟩
                  rw [List.length_cons]
                  omega
          · -- a product that does not fit is of no value that fits
            rw [if_neg product]
            constructor
            · intro thrown
              cases thrown
            · rintro ⟨field, found, gives, fits, -⟩
              refine absurd ?_ product
              have first : ∃ later, field = byte :: later := by
                rcases stops_cons.mp found with ⟨-, rfl⟩ | ⟨-, later, rfl, -⟩
                · exact ⟨[], rfl⟩
                · exact ⟨later, rfl⟩
              obtain ⟨later, rfl⟩ := first
              rw [← gives] at fits
              exact product_fits (groups_small (byte :: later)) multiple lowest highest fits

/-! ## The decoders -/

theorem decodeUnsigned_ok_iff (high : Nat) (multiple : RADIX ∣ high + 1) (data : Bytes)
    (offset value stop : Nat) :
    decodeUnsigned high data offset = .ok value stop ↔
      ∃ field, Stops MAX_INT_ENCODED_LEN (data.drop offset) field ∧ unsignedValue field = value ∧
        value ≤ high ∧ stop = offset + field.length := by
  have multiple' : (RADIX : Int) ∣ (high : Int) + 1 := by exact_mod_cast multiple
  have loop := decodeLoop_ok_iff (dvd_zero _) multiple' (le_refl _) (Int.natCast_nonneg high) data
    MAX_INT_ENCODED_LEN 0 offset
  constructor
  · intro succeeded
    obtain ⟨result, reached, ran, returned⟩ := bind_eq_ok.mp succeeded
    cases returned
    obtain ⟨field, stops, gives, fits, rfl⟩ := (loop result stop).mp ran
    have positive : (result.toNat : Int) = result := Int.toNat_of_nonneg fits.1
    exact ⟨field, stops, gives.trans positive.symm, Int.toNat_le.mpr fits.2, rfl⟩
  · rintro ⟨field, stops, gives, fits, rfl⟩
    have ran := (loop value _).mpr
      ⟨field, stops, gives, ⟨Int.natCast_nonneg _, by exact_mod_cast fits⟩, rfl⟩
    exact bind_eq_ok.mpr ⟨value, _, ran, rfl⟩

theorem decodeSigned_ok_iff (low high : Int) (multiple : (RADIX : Int) ∣ low)
    (multiple' : (RADIX : Int) ∣ high + 1) (lowest : low ≤ 0) (highest : 0 ≤ high) (data : Bytes)
    (offset : Nat) (value : Int) (stop : Nat) :
    decodeSigned low high data offset = .ok value stop ↔
      ∃ field, Stops MAX_INT_ENCODED_LEN (data.drop offset) field ∧ signedValue field = value ∧
        (low ≤ value ∧ value ≤ high) ∧ stop = offset + field.length := by
  cases rest : data.drop offset with
  | nil =>
      constructor
      · intro succeeded
        have failed : decodeSigned low high data offset = .error .unexpectedEof offset := by
          show EStateM.bind (peekByte data) _ offset = _
          unfold EStateM.bind
          rw [peekByte_nil rest]
        rw [failed] at succeeded
        cases succeeded
      · rintro ⟨field, stops, -⟩
        exact absurd stops not_stops_nil
  | cons byte behind =>
      have started : decodeSigned low high data offset =
          decodeLoop low high data MAX_INT_ENCODED_LEN (if byte &&& SIGN_BIT ≠ 0 then -1 else 0)
            offset := by
        show EStateM.bind (peekByte data) _ offset = _
        unfold EStateM.bind
        rw [peekByte_cons rest]
      have signs : ∀ field, Stops MAX_INT_ENCODED_LEN (byte :: behind) field →
          signedValue field = ofDigits RADIX (if byte &&& SIGN_BIT ≠ 0 then -1 else 0) (groups field) := by
        intro field stops
        have first : field.head? = some byte := by
          cases field with
          | nil => exact absurd rfl stops.ne_nil
          | cons other later =>
              obtain ⟨rfl, -⟩ := List.cons_prefix_cons.mp stops.front
              rfl
        unfold signedValue
        rw [first]
        simp only [Option.any_some, decide_eq_true_eq]
      rw [started, decodeLoop_ok_iff multiple multiple' lowest highest, rest]
      constructor
      · rintro ⟨field, stops, gives, others⟩
        exact ⟨field, stops, (signs field stops).trans gives, others⟩
      · rintro ⟨field, stops, gives, others⟩
        exact ⟨field, stops, (signs field stops).symm.trans gives, others⟩

/-- A decoder accepts the fields whose value is that of its result, and stops
at their end. -/
def Accepts {α : Type} (decode : Bytes → Decoder α) (valueOf : Bytes → Int) (denotes : α → Int) : Prop :=
  ∀ data offset value stop, decode data offset = .ok value stop ↔
    ∃ field, Stops MAX_INT_ENCODED_LEN (data.drop offset) field ∧ valueOf field = denotes value ∧
      stop = offset + field.length

theorem decodeUint_accepts : Accepts decodeUint unsignedValue fun value => value.toNat := by
  intro data offset value stop
  have unsigned := decodeUnsigned_ok_iff u64Max (by decide) data offset
  constructor
  · intro succeeded
    obtain ⟨result, reached, ran, returned⟩ := bind_eq_ok.mp succeeded
    cases returned
    obtain ⟨field, stops, gives, fits, rfl⟩ := (unsigned result stop).mp ran
    have kept : (UInt64.ofNat result).toNat = result :=
      UInt64.toNat_ofNat_of_lt (Nat.lt_succ_of_le fits)
    exact ⟨field, stops, gives.trans (congrArg Int.ofNat kept.symm), rfl⟩
  · rintro ⟨field, stops, gives, rfl⟩
    have ran := (unsigned value.toNat _).mpr
      ⟨field, stops, gives, Nat.le_of_lt_succ value.toNat_lt, rfl⟩
    refine bind_eq_ok.mpr ⟨value.toNat, _, ran, ?_⟩
    rw [UInt64.ofNat_toNat]
    rfl

theorem decodeInt_accepts : Accepts decodeInt signedValue Int64.toInt := by
  intro data offset value stop
  have signed := decodeSigned_ok_iff i64Min i64Max (by decide) (by decide)
    (by decide) (by decide) data offset
  constructor
  · intro succeeded
    obtain ⟨result, reached, ran, returned⟩ := bind_eq_ok.mp succeeded
    cases returned
    obtain ⟨field, stops, gives, fits, rfl⟩ := (signed result stop).mp ran
    have kept : (Int64.ofInt result).toInt = result :=
      Int64.toInt_ofInt_of_le fits.1 (Int.lt_of_le_sub_one fits.2)
    exact ⟨field, stops, by rw [kept]; exact gives, rfl⟩
  · rintro ⟨field, stops, gives, rfl⟩
    have ran := (signed value.toInt _).mpr
      ⟨field, stops, gives, ⟨value.le_toInt, Int.le_sub_one_of_lt value.toInt_lt⟩, rfl⟩
    refine bind_eq_ok.mpr ⟨value.toInt, _, ran, ?_⟩
    rw [Int64.ofInt_toInt]
    rfl

/-- What the bytes of a nullable unsigned integer count. -/
def biasedUint : Option UInt64 → Int
  | none => 0
  | some value => value.toNat + 1

/-- What the bytes of a nullable signed integer count. -/
def biasedInt : Option Int64 → Int
  | none => 0
  | some value => if value.toInt < 0 then value.toInt else value.toInt + 1

theorem decodeNullableUint_accepts : Accepts decodeNullableUint unsignedValue biasedUint := by
  intro data offset value stop
  have unsigned := decodeUnsigned_ok_iff u128Max (by decide) data offset
  constructor
  · intro succeeded
    obtain ⟨biased, reached, ran, returned⟩ := bind_eq_ok.mp succeeded
    obtain ⟨field, stops, gives, fits, rfl⟩ := (unsigned biased reached).mp ran
    split at returned
    · rename_i zero
      cases returned
      exact ⟨field, stops, by rw [gives, zero]; rfl, rfl⟩
    · rename_i positive
      split at returned
      · rename_i narrow
        cases returned
        have kept : (UInt64.ofNat (biased - 1)).toNat = biased - 1 :=
          UInt64.toNat_ofNat_of_lt (Nat.lt_succ_of_le narrow)
        refine ⟨field, stops, ?_, rfl⟩
        show unsignedValue field = ((UInt64.ofNat (biased - 1)).toNat : Int) + 1
        rw [kept, gives]
        omega
      · cases returned
  · rintro ⟨field, stops, gives, rfl⟩
    cases value with
    | none =>
        have ran := (unsigned 0 _).mpr ⟨field, stops, gives, Nat.zero_le _, rfl⟩
        exact bind_eq_ok.mpr ⟨0, _, ran, rfl⟩
    | some value =>
        have bound := value.toNat_lt
        have ran := (unsigned (value.toNat + 1) _).mpr
          ⟨field, stops, gives, by unfold u128Max; omega, rfl⟩
        refine bind_eq_ok.mpr ⟨value.toNat + 1, _, ran, ?_⟩
        have narrow : value.toNat ≤ u64Max := Nat.le_of_lt_succ bound
        rw [if_neg (Nat.succ_ne_zero _), Nat.add_sub_cancel, if_pos narrow, UInt64.ofNat_toNat]
        rfl

theorem decodeNullableInt_accepts : Accepts decodeNullableInt signedValue biasedInt := by
  intro data offset value stop
  have signed := decodeSigned_ok_iff i128Min i128Max (by decide) (by decide)
    (by decide) (by decide) data offset
  constructor
  · intro succeeded
    obtain ⟨raw, reached, ran, returned⟩ := bind_eq_ok.mp succeeded
    obtain ⟨field, stops, gives, fits, rfl⟩ := (signed raw reached).mp ran
    have kept : ∀ n : Int, i64Min ≤ n → n ≤ i64Max → (Int64.ofInt n).toInt = n := fun n above below =>
      Int64.toInt_ofInt_of_le above (Int.lt_of_le_sub_one below)
    split at returned
    · rename_i zero
      cases returned
      exact ⟨field, stops, by rw [gives, zero]; rfl, rfl⟩
    · split at returned
      · rename_i negative
        split at returned
        · rename_i narrow
          cases returned
          refine ⟨field, stops, ?_, rfl⟩
          show signedValue field = if (Int64.ofInt raw).toInt < 0 then _ else _
          rw [kept raw narrow (by unfold i64Max; omega), if_pos negative, gives]
        · cases returned
      · rename_i nonzero positive
        split at returned
        · rename_i narrow
          cases returned
          refine ⟨field, stops, ?_, rfl⟩
          show signedValue field = if (Int64.ofInt (raw - 1)).toInt < 0 then _ else _
          rw [kept (raw - 1) (by unfold i64Min; omega) narrow, if_neg (by omega), gives]
          omega
        · cases returned
  · rintro ⟨field, stops, gives, rfl⟩
    have wide : i128Min ≤ biasedInt value ∧ biasedInt value ≤ i128Max := by
      unfold biasedInt i128Min i128Max
      cases value with
      | none => exact ⟨by decide, by decide⟩
      | some value =>
          have below := value.toInt_lt
          have above := value.le_toInt
          dsimp only
          split <;> constructor <;> omega
    have ran := (signed (biasedInt value) _).mpr ⟨field, stops, gives, wide, rfl⟩
    cases value with
    | none => exact bind_eq_ok.mpr ⟨0, _, ran, rfl⟩
    | some value =>
        have below := value.toInt_lt
        have above : i64Min ≤ value.toInt := value.le_toInt
        by_cases negative : value.toInt < 0
        · have raw : biasedInt (some value) = value.toInt := if_pos negative
          rw [raw] at ran
          refine bind_eq_ok.mpr ⟨_, _, ran, ?_⟩
          rw [if_neg (by omega), if_pos negative, if_pos above, Int64.ofInt_toInt]
          rfl
        · have raw : biasedInt (some value) = value.toInt + 1 := if_neg negative
          have narrow : value.toInt ≤ i64Max := Int.le_sub_one_of_lt below
          rw [raw] at ran
          refine bind_eq_ok.mpr ⟨_, _, ran, ?_⟩
          rw [if_neg (by omega), if_neg (by omega), Int.add_sub_cancel, Int64.ofInt_toInt,
            if_pos narrow]
          rfl

/-! ## Shortest encodings -/

/-- What a decoder reads is a field of at least one byte. -/
theorem Accepts.whole {α : Type} {decode : Bytes → Decoder α} {valueOf : Bytes → Int}
    {denotes : α → Int} (accepts : Accepts decode valueOf denotes) {wire : Bytes} {value : α}
    (reads : Reads decode wire value) :
    Stops MAX_INT_ENCODED_LEN wire wire ∧ valueOf wire = denotes value := by
  have read := reads [] []
  rw [List.nil_append, List.append_nil] at read
  obtain ⟨field, stops, gives, ends⟩ := (accepts _ _ _ _).mp read
  rw [List.length_nil, List.drop_zero] at *
  have whole : field = wire := stops.front.eq_of_length (by omega)
  subst whole
  exact ⟨stops, gives⟩

/-- Whatever bytes are decoded to the value the encoder writes, the encoder's
are fewer. -/
def Shortest {α : Type} (encode : α → Encoder PUnit) (decode : Bytes → Decoder α) : Prop :=
  ∀ value, ∃ wire, Writes (encode value) wire ∧ decode wire 0 = .ok value wire.length ∧
    ∀ bytes stop, decode bytes 0 = .ok value stop → bytes ≠ wire → wire.length < bytes.length

/-- An encoding is the only shortest one if no field of the value is shorter
and fields of one length and value are the same. -/
theorem shortest_of {α : Type} {encode : α → Encoder PUnit} {decode : Bytes → Decoder α}
    {valueOf : Bytes → Int} {denotes : α → Int} (wireOf : α → Bytes)
    (writes : ∀ value, Writes (encode value) (wireOf value))
    (reads : ∀ value, Reads decode (wireOf value) value)
    (accepts : Accepts decode valueOf denotes)
    (minimal : ∀ value field, field ≠ [] → valueOf field = denotes value →
      (wireOf value).length ≤ field.length)
    (apart : ∀ field field' : Bytes, field.length = field'.length → valueOf field = valueOf field' →
      groups field = groups field') : Shortest encode decode := by
  intro value
  obtain ⟨wireStops, wireGives⟩ := accepts.whole (reads value)
  refine ⟨wireOf value, writes value, ?_, ?_⟩
  · have read := reads value [] []
    rw [List.nil_append, List.append_nil, List.length_nil, Nat.zero_add] at read
    exact read
  · intro bytes stop decoded differs
    obtain ⟨field, stops, gives, -⟩ := (accepts _ _ _ _).mp decoded
    rw [List.drop_zero] at stops
    have least := minimal value field stops.ne_nil gives
    have inside := stops.front.length_le
    by_contra notLonger
    have alike : field.length = (wireOf value).length := by omega
    have same : field = wireOf value := stops.eq_of_groups wireStops
      (apart field (wireOf value) alike (gives.trans wireGives.symm))
    exact differs ((stops.front.eq_of_length (by omega)).symm.trans same)

theorem unsignedValue_apart (field field' : Bytes) (alike : field.length = field'.length)
    (same : unsignedValue field = unsignedValue field') : groups field = groups field' := by
  refine (ofDigits_inj (groups_small field) (groups_small field') ?_ same).2
  rw [groups_length, groups_length, alike]

theorem signedValue_apart (field field' : Bytes) (alike : field.length = field'.length)
    (same : signedValue field = signedValue field') : groups field = groups field' := by
  refine (ofDigits_inj (groups_small field) (groups_small field') ?_ same).2
  rw [groups_length, groups_length, alike]

theorem setStopBit_length (bytes : List UInt8) : (setStopBit bytes).length = bytes.length := by
  fun_induction setStopBit bytes with
  | case1 => rfl
  | case2 => rfl
  | case3 byte bytes more ih => rw [List.length_cons, ih, List.length_cons]

/-- The sign is that of the first group in two's complement. -/
theorem signBit_payload (byte : UInt8) :
    byte &&& SIGN_BIT ≠ 0 ↔ 64 ≤ (byte &&& PAYLOAD_MASK).toNat :=
  forall_byte (P := fun byte => byte &&& SIGN_BIT ≠ 0 ↔ 64 ≤ (byte &&& PAYLOAD_MASK).toNat)
    (by decide +kernel) byte

theorem wireUnsigned_minimal {value : Nat} {field : Bytes} (nonempty : field ≠ [])
    (gives : unsignedValue field = value) : (wireUnsigned value).length ≤ field.length := by
  obtain ⟨byte, rest, rfl⟩ := List.exists_cons_of_ne_nil nonempty
  have range := @ofDigits_range RADIX 0 _ (groups_small (byte :: rest))
  rw [groups_length, List.length_cons] at range
  have positive : (0 : Int) < (RADIX : Int) ^ (rest.length + 1) := pow_pos (by decide) _
  unfold wireUnsigned
  rw [setStopBit_length, List.length_reverse, List.length_cons]
  refine payloadBytes_length rest.length ?_
  rw [← gives]
  unfold unsignedValue
  constructor <;> omega

theorem wireSigned_minimal {value : Int} {field : Bytes} (nonempty : field ≠ [])
    (gives : signedValue field = value) : (wireSigned value).length ≤ field.length := by
  obtain ⟨byte, rest, rfl⟩ := List.exists_cons_of_ne_nil nonempty
  have small := payload_lt byte
  have signs := signBit_payload byte
  let first : Int := (if byte &&& SIGN_BIT ≠ 0 then -1 else 0) * RADIX + (byte &&& PAYLOAD_MASK).toNat
  have above : -64 ≤ first ∧ first + 1 ≤ 64 := by
    have radix : RADIX = 128 := rfl
    rw [radix] at small
    by_cases negative : byte &&& SIGN_BIT ≠ 0
    · have large := signs.mp negative
      have low : first = -1 * RADIX + (byte &&& PAYLOAD_MASK).toNat := by simp only [first, if_pos negative]
      rw [radix_cast] at low
      omega
    · have small' : ¬64 ≤ (byte &&& PAYLOAD_MASK).toNat := fun large => negative (signs.mpr large)
      have high : first = 0 * RADIX + (byte &&& PAYLOAD_MASK).toNat := by simp only [first, if_neg negative]
      rw [radix_cast] at high
      omega
  have whole : value = ofDigits RADIX first (groups rest) := by
    rw [← gives]
    show ofDigits RADIX (if Option.any _ (some byte) then -1 else 0) (_ :: groups rest) = _
    rw [ofDigits_cons]
    simp only [Option.any_some, decide_eq_true_eq, first]
  have range := @ofDigits_range RADIX first _ (groups_small rest)
  rw [groups_length, ← whole] at range
  have positive : (0 : Int) ≤ (RADIX : Int) ^ rest.length := pow_nonneg (by decide) _
  have lower := mul_le_mul_of_nonneg_right above.1 positive
  have upper := mul_le_mul_of_nonneg_right above.2 positive
  unfold wireSigned
  rw [setStopBit_length, List.length_reverse, List.length_cons]
  exact signedBytes_length rest.length ⟨lower.trans range.1, lt_of_lt_of_le range.2 upper⟩

theorem encodeUint_shortest : Shortest encodeUint decodeUint :=
  shortest_of (fun value => wireUnsigned value.toNat)
    (fun value => encodeUnsigned_writes value.toNat) decodeUint_reads decodeUint_accepts
    (fun _ _ nonempty gives => wireUnsigned_minimal nonempty gives) unsignedValue_apart

theorem encodeInt_shortest : Shortest encodeInt decodeInt :=
  shortest_of (fun value => wireSigned value.toInt) (fun value => encodeSigned_writes value.toInt)
    decodeInt_reads decodeInt_accepts
    (fun _ _ nonempty gives => wireSigned_minimal nonempty gives) signedValue_apart

/-- The bytes of a nullable unsigned integer. -/
def wireNullableUint (value : Option UInt64) : Bytes := wireUnsigned (value.elim 0 fun n => n.toNat + 1)

theorem encodeNullableUint_shortest : Shortest encodeNullableUint decodeNullableUint := by
  refine shortest_of wireNullableUint ?_ ?_ decodeNullableUint_accepts ?_ unsignedValue_apart
  · intro value
    cases value with
    | none =>
        unfold wireNullableUint
        rw [Option.elim_none, wire_absent.1]
        exact fun _ => rfl
    | some value => exact encodeUnsigned_writes (value.toNat + 1)
  · intro value
    cases value with
    | none =>
        unfold wireNullableUint
        rw [Option.elim_none, wire_absent.1]
        exact decodeNullableUint_none
    | some value => exact decodeNullableUint_some value
  · intro value field nonempty gives
    refine wireUnsigned_minimal nonempty (gives.trans ?_)
    cases value <;> rfl

theorem encodeNullableInt_shortest : Shortest encodeNullableInt decodeNullableInt := by
  refine shortest_of wireNullableInt encodeNullableInt_writes decodeNullableInt_reads
    decodeNullableInt_accepts ?_ signedValue_apart
  intro value field nonempty gives
  have wire : wireNullableInt value = wireSigned (biasedInt value) := by
    cases value with
    | none => exact wire_absent.2.symm
    | some value => rfl
  rw [wire]
  exact wireSigned_minimal nonempty gives

/-- Every integer decoder accepts exactly the fields of at most ten bytes whose
value its type has, and every encoder writes the only shortest field of its
value. -/
theorem integers_canonical :
    (Accepts decodeUint unsignedValue (fun value => value.toNat) ∧
      Accepts decodeInt signedValue Int64.toInt ∧
      Accepts decodeNullableUint unsignedValue biasedUint ∧
      Accepts decodeNullableInt signedValue biasedInt) ∧
    Shortest encodeUint decodeUint ∧ Shortest encodeInt decodeInt ∧
      Shortest encodeNullableUint decodeNullableUint ∧ Shortest encodeNullableInt decodeNullableInt :=
  ⟨⟨decodeUint_accepts, decodeInt_accepts, decodeNullableUint_accepts, decodeNullableInt_accepts⟩,
    encodeUint_shortest, encodeInt_shortest, encodeNullableUint_shortest, encodeNullableInt_shortest⟩

end IronFix.Fast
