import IronFix.Lib.Cursor
import IronFix.Lib.Radix
import IronFix.Fast.Decoder

/-!
# Integers read back

The bytes of an encoded integer are its digits in radix 128 above its sign, and
the decoders' loop reads them back (`decodeLoop_reads`) as long as the integer
fits the decoder's type and ten bytes.
-/

namespace IronFix.Fast

open Lib.Cursor Lib.Radix

/-! ## Payload bytes -/

theorem forall_payload {P : UInt8 → Prop} (all : ∀ n < 128, P (UInt8.ofNat n)) {byte : UInt8}
    (small : byte.toNat < RADIX) : P byte := by
  rw [← UInt8.ofNat_toNat (x := byte)]
  exact all byte.toNat small

theorem payload_kept {byte : UInt8} (small : byte.toNat < RADIX) :
    byte &&& PAYLOAD_MASK = byte ∧ byte &&& STOP_BIT = 0 := by
  revert small
  exact forall_payload (P := fun byte => byte &&& PAYLOAD_MASK = byte ∧ byte &&& STOP_BIT = 0)
    (by decide)

/-- The stop bit leaves the payload. -/
theorem payload_stopped {byte : UInt8} (small : byte.toNat < RADIX) :
    (byte ||| STOP_BIT) &&& PAYLOAD_MASK = byte ∧ (byte ||| STOP_BIT) &&& STOP_BIT ≠ 0 ∧
      (byte ||| STOP_BIT) &&& SIGN_BIT = byte &&& SIGN_BIT := by
  revert small
  exact forall_payload (P := fun byte => (byte ||| STOP_BIT) &&& PAYLOAD_MASK = byte ∧
    (byte ||| STOP_BIT) &&& STOP_BIT ≠ 0 ∧
    (byte ||| STOP_BIT) &&& SIGN_BIT = byte &&& SIGN_BIT) (by decide)

/-- Bit 6 is set from the middle of the payloads on. -/
theorem signBit_iff {byte : UInt8} (small : byte.toNat < RADIX) :
    byte &&& SIGN_BIT ≠ 0 ↔ 64 ≤ byte.toNat := by
  revert small
  exact forall_payload (P := fun byte => byte &&& SIGN_BIT ≠ 0 ↔ 64 ≤ byte.toNat) (by decide)

/-- The digits of payload bytes. -/
def digitsOf (bytes : List UInt8) : List Nat := bytes.map UInt8.toNat

theorem digitsOf_append (left right : List UInt8) :
    digitsOf (left ++ right) = digitsOf left ++ digitsOf right := List.map_append

theorem digitsOf_small {bytes : List UInt8} (small : ∀ byte ∈ bytes, byte.toNat < RADIX) :
    ∀ digit ∈ digitsOf bytes, digit < RADIX := by
  intro digit member
  obtain ⟨byte, found, rfl⟩ := List.mem_map.mp member
  exact small byte found

theorem payload_toNat (value : Int) :
    ((UInt8.ofNat (value % RADIX).toNat).toNat : Int) = value % RADIX := by
  rw [UInt8.toNat_ofNat', radix_cast]
  omega

theorem payload_small (value : Int) : (UInt8.ofNat (value % RADIX).toNat).toNat < RADIX := by
  have cast := payload_toNat value
  have below := Int.emod_lt_of_pos value (show (0 : Int) < RADIX by decide)
  rw [← cast] at below
  exact_mod_cast below

theorem payloadBytes_small (value : Int) : ∀ byte ∈ payloadBytes value, byte.toNat < RADIX := by
  induction value using payloadBytes.induct with
  | case1 value ih =>
      intro byte member
      rw [payloadBytes] at member
      rcases List.mem_cons.mp member with rfl | later
      · exact payload_small value
      · split at later
        · cases later
        · rename_i more
          exact ih more byte later

/-- Above its sign, the payloads give the value. -/
theorem payloadBytes_value (value : Int) :
    ofDigits RADIX (signOf value) (digitsOf (payloadBytes value).reverse) = value := by
  induction value using payloadBytes.induct with
  | case1 value ih =>
      have split_value : value / RADIX * RADIX + value % RADIX = value := Int.ediv_mul_add_emod _ _
      rw [payloadBytes, List.reverse_cons, digitsOf_append]
      show ofDigits RADIX _ (_ ++ [_]) = value
      rw [ofDigits_concat, payload_toNat]
      split
      · rename_i stops
        show signOf value * RADIX + value % RADIX = value
        rw [← stops]
        exact split_value
      · rename_i more
        rw [← signOf_rest, ih more]
        exact split_value

theorem payloadBytes_length {value : Int} (places : Nat)
    (fits : -(RADIX : Int) ^ (places + 1) ≤ value ∧ value < (RADIX : Int) ^ (places + 1)) :
    (payloadBytes value).length ≤ places + 1 := by
  induction places generalizing value with
  | zero =>
      have stops : value / RADIX = signOf value := by
        unfold signOf
        rw [radix_cast] at *
        split <;> omega
      rw [payloadBytes, if_pos stops]
      exact Nat.le_refl 1
  | succ places ih =>
      rw [payloadBytes, List.length_cons]
      split
      · exact Nat.succ_le_succ (Nat.zero_le _)
      · refine Nat.succ_le_succ (ih ?_)
        have grown : (RADIX : Int) ^ (places + 1 + 1) = (RADIX : Int) ^ (places + 1) * RADIX :=
          pow_succ _ _
        rw [grown] at fits
        rw [radix_cast] at *
        constructor <;> omega

/-! ## The sign in front -/

theorem payloadBytes_ne_nil (value : Int) : payloadBytes value ≠ [] := by
  rw [payloadBytes]
  exact List.cons_ne_nil _ _

/-- The bytes of a signed value, the least significant first. -/
def signedBytes (value : Int) : List UInt8 :=
  carrySign (decide (value < 0)) (payloadBytes value)

/-- A sign byte was put in front, or bit 6 was right. -/
theorem signedBytes_cases (value : Int) :
    (∃ top, (payloadBytes value).getLast? = some top ∧
      decide (top &&& SIGN_BIT ≠ 0) = decide (value < 0) ∧
      signedBytes value = payloadBytes value) ∨
    (∃ top, (payloadBytes value).getLast? = some top ∧
      decide (top &&& SIGN_BIT ≠ 0) ≠ decide (value < 0) ∧
      signedBytes value
        = payloadBytes value ++ [if value < 0 then PAYLOAD_MASK else 0x00]) := by
  unfold signedBytes carrySign
  cases last : (payloadBytes value).getLast? with
  | none => exact absurd (List.getLast?_eq_none_iff.mp last) (payloadBytes_ne_nil value)
  | some top =>
      by_cases agrees : decide (top &&& SIGN_BIT ≠ 0) = decide (value < 0)
      · refine .inl ⟨top, rfl, agrees, ?_⟩
        exact if_neg fun conflicts => conflicts agrees
      · refine .inr ⟨top, rfl, agrees, ?_⟩
        simp only [if_pos agrees, decide_eq_true_eq]

theorem signedBytes_small (value : Int) : ∀ byte ∈ signedBytes value, byte.toNat < RADIX := by
  intro byte member
  rcases signedBytes_cases value with ⟨_, -, -, same⟩ | ⟨_, -, -, same⟩
  · rw [same] at member
    exact payloadBytes_small value byte member
  · rw [same] at member
    rcases List.mem_append.mp member with payload | carry
    · exact payloadBytes_small value byte payload
    · rw [List.mem_singleton.mp carry]
      split <;> decide

theorem signedBytes_value (value : Int) :
    ofDigits RADIX (signOf value) (digitsOf (signedBytes value).reverse) = value := by
  rcases signedBytes_cases value with ⟨_, -, -, same⟩ | ⟨_, -, -, same⟩
  · rw [same]
    exact payloadBytes_value value
  · rw [same, List.reverse_append]
    show ofDigits RADIX _ (UInt8.toNat _ :: digitsOf _) = value
    refine Eq.trans ?_ (payloadBytes_value value)
    unfold signOf
    split
    · exact ofDigits_complement (by decide) _
    · exact ofDigits_zero _

/-- The first byte on the wire shows the sign. -/
theorem signedBytes_top (value : Int) :
    ∃ rest top, signedBytes value = rest ++ [top] ∧ (top &&& SIGN_BIT ≠ 0 ↔ value < 0) := by
  rcases signedBytes_cases value with ⟨top, last, agrees, same⟩ | ⟨top, -, -, same⟩
  · obtain ⟨rest, payload⟩ := List.getLast?_eq_some_iff.mp last
    exact ⟨rest, top, same.trans payload, decide_eq_decide.mp agrees⟩
  · refine ⟨payloadBytes value, _, same, ?_⟩
    by_cases negative : value < 0
    · rw [if_pos negative]
      exact iff_of_true (by decide) negative
    · rw [if_neg negative]
      exact iff_of_false (by decide) negative

/-- Where bit 6 is wrong, there is a byte to spare for the sign. -/
theorem payloadBytes_conflict {value : Int} {top : UInt8} (places : Nat)
    (fits : -64 * (RADIX : Int) ^ places ≤ value ∧ value < 64 * (RADIX : Int) ^ places)
    (last : (payloadBytes value).getLast? = some top)
    (conflicts : decide (top &&& SIGN_BIT ≠ 0) ≠ decide (value < 0)) :
    (payloadBytes value).length ≤ places := by
  induction places generalizing value with
  | zero =>
      have stops : value / RADIX = signOf value := by
        unfold signOf
        rw [radix_cast, pow_zero] at *
        split <;> omega
      rw [payloadBytes, if_pos stops] at last
      obtain rfl : UInt8.ofNat (value % RADIX).toNat = top := Option.some.inj last
      -- one byte holds the value, so its bit 6 is the sign
      refine absurd (decide_eq_decide.mpr ?_) conflicts
      rw [signBit_iff (payload_small value), ← Int.ofNat_le, payload_toNat]
      rw [pow_zero] at fits
      rw [radix_cast]
      omega
  | succ places ih =>
      rw [payloadBytes] at last ⊢
      split
      · exact Nat.succ_le_succ (Nat.zero_le _)
      · rename_i more
        rw [if_neg more, List.getLast?_cons] at last
        have deeper : (payloadBytes (value / RADIX)).getLast? = some top := by
          cases found : (payloadBytes (value / RADIX)).getLast? with
          | none => exact absurd (List.getLast?_eq_none_iff.mp found) (payloadBytes_ne_nil _)
          | some other =>
              rw [found] at last
              exact last
        have sameSign : value / RADIX < 0 ↔ value < 0 := by
          rw [radix_cast]
          omega
        refine Nat.succ_le_succ (ih ?_ deeper ?_)
        · rw [pow_succ] at fits
          rw [radix_cast] at *
          constructor <;> omega
        · rw [decide_eq_decide.mpr sameSign]
          exact conflicts

theorem signedBytes_length {value : Int} (places : Nat)
    (fits : -64 * (RADIX : Int) ^ places ≤ value ∧ value < 64 * (RADIX : Int) ^ places) :
    (signedBytes value).length ≤ places + 1 := by
  rcases signedBytes_cases value with ⟨_, -, -, same⟩ | ⟨top, last, conflicts, same⟩
  · rw [same]
    refine payloadBytes_length places ?_
    have positive : (0 : Int) < (RADIX : Int) ^ places := pow_pos (by decide) _
    rw [pow_succ]
    rw [radix_cast] at *
    constructor <;> omega
  · rw [same, List.length_append]
    exact Nat.succ_le_succ (payloadBytes_conflict places fits last conflicts)

/-! ## The readers -/

section Bytes

variable {data : Bytes} {offset : Nat} {byte : UInt8}

theorem peekByte_at (found : data[offset]? = some byte) : peekByte data offset = .ok byte offset := by
  unfold peekByte
  dsimp only [bind, EStateM.bind, get, getThe, MonadStateOf.get, EStateM.get]
  rw [found]
  rfl

theorem peekByte_past (missing : data[offset]? = none) :
    peekByte data offset = .error .unexpectedEof offset := by
  unfold peekByte
  dsimp only [bind, EStateM.bind, get, getThe, MonadStateOf.get, EStateM.get]
  rw [missing]
  rfl

theorem readByte_at (found : data[offset]? = some byte) :
    readByte data offset = .ok byte (offset + 1) := by
  unfold readByte
  dsimp only [bind, EStateM.bind, get, getThe, MonadStateOf.get, EStateM.get]
  rw [found]
  rfl

theorem readByte_past (missing : data[offset]? = none) :
    readByte data offset = .error .unexpectedEof offset := by
  unfold readByte
  dsimp only [bind, EStateM.bind, get, getThe, MonadStateOf.get, EStateM.get]
  rw [missing]
  rfl

end Bytes

theorem readByte_reads (byte : UInt8) : Reads readByte [byte] byte := by
  intro before after
  have here : (before ++ ([byte] ++ after))[before.length]? = some byte :=
    Reads.getElem?_field before (i := 0) after rfl
  exact readByte_at here

/-- A look at the first byte of a field. -/
theorem peek_reads {α : Type} {next : UInt8 → Bytes → Decoder α} {head : UInt8} {tail : Bytes}
    {value : α} (reads : Reads (next head) (head :: tail) value) :
    Reads (fun data => do let byte ← peekByte data; next byte data) (head :: tail) value := by
  intro before after
  have peeked : peekByte (before ++ (head :: tail ++ after)) before.length
      = .ok head before.length := by
    have here : (before ++ (head :: tail ++ after))[before.length]? = some head :=
      Reads.getElem?_field before (i := 0) after rfl
    exact peekByte_at here
  show EStateM.bind (peekByte _) _ before.length = _
  unfold EStateM.bind
  rw [peeked]
  exact reads before after

theorem setStopBit_concat (bytes : List UInt8) (last : UInt8) :
    setStopBit (bytes ++ [last]) = bytes ++ [last ||| STOP_BIT] := by
  induction bytes with
  | nil => rfl
  | cons byte bytes ih =>
      cases bytes with
      | nil => rfl
      | cons other bytes =>
          show byte :: setStopBit (other :: bytes ++ [last]) = _
          rw [ih]
          rfl

/-- The decoders' loop reads back the digits the encoders write. -/
theorem decodeLoop_reads {low high : Int} (multiple : (RADIX : Int) ∣ low) (lowest : low ≤ 0)
    (highest : 0 ≤ high) {bytes : List UInt8} {last : UInt8} {left : Nat} {result : Int}
    (small : ∀ byte ∈ bytes ++ [last], byte.toNat < RADIX) (short : bytes.length < left)
    (fits : low ≤ ofDigits RADIX result (digitsOf (bytes ++ [last])) ∧
      ofDigits RADIX result (digitsOf (bytes ++ [last])) ≤ high) :
    Reads (fun data => decodeLoop low high data left result) (setStopBit (bytes ++ [last]))
      (ofDigits RADIX result (digitsOf (bytes ++ [last]))) := by
  rw [setStopBit_concat]
  induction bytes generalizing left result with
  | nil =>
      obtain ⟨left, rfl⟩ := Nat.exists_eq_succ_of_ne_zero (Nat.ne_zero_of_lt short)
      have inRange := product_fits (digitsOf_small small) multiple lowest highest fits
      obtain ⟨payload, stops, -⟩ := payload_stopped (small last List.mem_cons_self)
      show Reads _ ([last ||| STOP_BIT] ++ []) _
      refine Reads.bind (readByte_reads _) ?_
      unfold checkedMul
      simp only [if_pos inRange, if_pos stops, payload]
      exact Reads.returns _
  | cons byte bytes ih =>
      obtain ⟨left, rfl⟩ := Nat.exists_eq_succ_of_ne_zero (Nat.ne_zero_of_lt short)
      have inRange := product_fits (digitsOf_small small) multiple lowest highest fits
      obtain ⟨payload, continues⟩ := payload_kept (small byte List.mem_cons_self)
      show Reads _ ([byte] ++ (bytes ++ [last ||| STOP_BIT])) _
      refine Reads.bind (readByte_reads _) ?_
      unfold checkedMul
      simp only [if_pos inRange, if_neg (not_not.mpr continues), payload]
      exact ih (fun other member => small other (List.mem_cons_of_mem _ member))
        (Nat.lt_of_succ_lt_succ short) fits

/-- The loop reads what `flushStopBitEncoded` makes of gathered bytes. -/
theorem decodeLoop_reads_flushed {low high result value : Int} {left : Nat} {bytes : List UInt8}
    (multiple : (RADIX : Int) ∣ low) (lowest : low ≤ 0) (highest : 0 ≤ high)
    (nonempty : bytes ≠ []) (small : ∀ byte ∈ bytes, byte.toNat < RADIX)
    (short : bytes.length ≤ left)
    (gives : ofDigits RADIX result (digitsOf bytes.reverse) = value)
    (fits : low ≤ value ∧ value ≤ high) :
    Reads (fun data => decodeLoop low high data left result) (setStopBit bytes.reverse) value := by
  obtain ⟨last, rest, rfl⟩ := List.exists_cons_of_ne_nil nonempty
  rw [List.reverse_cons] at *
  subst gives
  refine decodeLoop_reads multiple lowest highest (fun byte member => small byte ?_) ?_ fits
  · rw [← List.reverse_cons] at member
    exact List.mem_reverse.mp member
  · rw [List.length_reverse]
    exact short

/-! ## Unsigned integers -/

/-- The bytes of an unsigned integer. -/
def wireUnsigned (value : Nat) : Bytes := setStopBit (payloadBytes value).reverse

theorem encodeUnsigned_writes (value : Nat) : Writes (encodeUnsigned value) (wireUnsigned value) :=
  fun _ => rfl

theorem decodeUnsigned_reads {value high : Nat} (fits : value ≤ high)
    (short : value < RADIX ^ MAX_INT_ENCODED_LEN) :
    Reads (decodeUnsigned high) (wireUnsigned value) value := by
  have positive : signOf (value : Int) = 0 := if_neg (by omega)
  have gives := payloadBytes_value value
  rw [positive] at gives
  have inPlaces : (value : Int) < (RADIX : Int) ^ (9 + 1) := by exact_mod_cast short
  have read : Reads (fun data => decodeLoop 0 high data MAX_INT_ENCODED_LEN 0) (wireUnsigned value)
      (value : Int) := by
    refine decodeLoop_reads_flushed (dvd_zero _) (le_refl _) (by omega) (payloadBytes_ne_nil _)
      (payloadBytes_small _) (payloadBytes_length 9 ⟨?_, inPlaces⟩) gives
      ⟨by omega, by exact_mod_cast fits⟩
    have : (0 : Int) < (RADIX : Int) ^ (9 + 1) := pow_pos (by decide) _
    omega
  exact read.map Int.toNat

/-! ## Signed integers -/

/-- The bytes of a signed integer. -/
def wireSigned (value : Int) : Bytes := setStopBit (signedBytes value).reverse

theorem encodeSigned_writes (value : Int) : Writes (encodeSigned value) (wireSigned value) :=
  fun _ => rfl

/-- The stop bit leaves the sign of the first byte. -/
theorem wireSigned_head (value : Int) :
    ∃ head tail, wireSigned value = head :: tail ∧ (head &&& SIGN_BIT ≠ 0 ↔ value < 0) := by
  obtain ⟨rest, top, same, shows⟩ := signedBytes_top value
  have topSmall : top.toNat < RADIX := by
    refine signedBytes_small value top ?_
    rw [same]
    exact List.mem_append_right _ List.mem_cons_self
  unfold wireSigned
  rw [same, List.reverse_append]
  cases reversed : rest.reverse with
  | nil =>
      refine ⟨top ||| STOP_BIT, [], rfl, ?_⟩
      rw [(payload_stopped topSmall).2.2]
      exact shows
  | cons other later => exact ⟨top, setStopBit (other :: later), rfl, shows⟩

theorem decodeSigned_reads {low high value : Int} (multiple : (RADIX : Int) ∣ low)
    (lowest : low ≤ 0) (highest : 0 ≤ high) (fits : low ≤ value ∧ value ≤ high)
    (short : -64 * (RADIX : Int) ^ 9 ≤ value ∧ value < 64 * (RADIX : Int) ^ 9) :
    Reads (decodeSigned low high) (wireSigned value) value := by
  obtain ⟨head, tail, wire, shows⟩ := wireSigned_head value
  have start : (if head &&& SIGN_BIT ≠ 0 then -1 else 0) = signOf value := by
    unfold signOf
    by_cases negative : value < 0
    · rw [if_pos (shows.mpr negative), if_pos negative]
    · rw [if_neg fun set => negative (shows.mp set), if_neg negative]
  have nonempty : signedBytes value ≠ [] := by
    obtain ⟨rest, top, same, -⟩ := signedBytes_top value
    rw [same]
    exact List.append_ne_nil_of_right_ne_nil _ (List.cons_ne_nil _ _)
  have read := decodeLoop_reads_flushed multiple lowest highest nonempty (signedBytes_small value)
    (signedBytes_length 9 short) (signedBytes_value value) fits
  have whole : setStopBit (signedBytes value).reverse = head :: tail := wire
  rw [whole, ← start] at read
  rw [wire]
  exact peek_reads read

/-! ## The integers of the stream -/

theorem decodeUint_reads (value : UInt64) : Reads decodeUint (wireUnsigned value.toNat) value := by
  have fits : value.toNat ≤ u64Max := Nat.le_pred_of_lt value.toNat_lt
  have short : value.toNat < RADIX ^ MAX_INT_ENCODED_LEN :=
    Nat.lt_of_lt_of_le value.toNat_lt (by decide)
  have read := (decodeUnsigned_reads fits short).map UInt64.ofNat
  rw [UInt64.ofNat_toNat] at read
  exact read

theorem decodeInt_reads (value : Int64) : Reads decodeInt (wireSigned value.toInt) value := by
  have below := value.toInt_lt
  have above := value.le_toInt
  have signed : Reads (decodeSigned i64Min i64Max) (wireSigned value.toInt) value.toInt := by
    refine decodeSigned_reads (by decide) (by decide) (by decide)
      ⟨above, Int.le_sub_one_of_lt below⟩ ?_
    rw [radix_cast]
    omega
  have read := signed.map Int64.ofInt
  rw [Int64.ofInt_toInt] at read
  exact read

/-- An absent integer is a lone stop byte: the encoding of zero. -/
theorem wire_absent : wireUnsigned 0 = [STOP_BIT] ∧ wireSigned 0 = [STOP_BIT] := by
  have stops : (0 : Int) / RADIX = signOf 0 := rfl
  have payload : payloadBytes 0 = [0] := by
    rw [payloadBytes, if_pos stops]
    rfl
  unfold wireUnsigned wireSigned signedBytes
  rw [Int.natCast_zero, payload]
  exact ⟨rfl, rfl⟩

theorem decodeNullableUint_none : Reads decodeNullableUint [STOP_BIT] none := by
  have read : Reads (decodeUnsigned u128Max) (wireUnsigned 0) 0 :=
    decodeUnsigned_reads (by decide) (by decide)
  rw [wire_absent.1] at read
  exact read.finish rfl

theorem decodeNullableUint_some (value : UInt64) :
    Reads decodeNullableUint (wireUnsigned (value.toNat + 1)) (some value) := by
  have bound := value.toNat_lt
  have wide : (2 : Nat) ^ 64 < RADIX ^ MAX_INT_ENCODED_LEN := by decide
  have fits : value.toNat + 1 ≤ u128Max := by
    unfold u128Max
    omega
  refine (decodeUnsigned_reads fits (by omega)).finish ?_
  rw [if_neg (Nat.succ_ne_zero _), Nat.add_sub_cancel, UInt64.ofNat_toNat]
  exact if_pos (Nat.le_pred_of_lt bound)

/-- The bytes of a nullable signed integer: one that is not negative is shifted. -/
def wireNullableInt (value : Option Int64) : Bytes :=
  match value with
  | none => [STOP_BIT]
  | some value => wireSigned (if value.toInt < 0 then value.toInt else value.toInt + 1)

theorem encodeNullableInt_writes (value : Option Int64) :
    Writes (encodeNullableInt value) (wireNullableInt value) := by
  cases value with
  | none => exact fun _ => rfl
  | some value =>
      have below := value.toInt_lt
      unfold encodeNullableInt wireNullableInt
      dsimp only
      split
      · exact encodeSigned_writes _
      · have fits : value.toInt + 1 ≤ i128Max := by
          unfold i128Max
          omega
        rw [if_pos fits]
        exact encodeSigned_writes _

theorem decodeNullableInt_reads (value : Option Int64) :
    Reads decodeNullableInt (wireNullableInt value) value := by
  have anySigned : ∀ raw : Int, -2 ^ 63 ≤ raw → raw ≤ 2 ^ 63 →
      Reads (decodeSigned i128Min i128Max) (wireSigned raw) raw := by
    intro raw above below
    refine decodeSigned_reads (by decide) (by decide) (by decide) ⟨?_, ?_⟩ ?_
    · unfold i128Min
      omega
    · unfold i128Max
      omega
    · rw [radix_cast]
      omega
  cases value with
  | none =>
      have read := anySigned 0 (by decide) (by decide)
      rw [wire_absent.2] at read
      exact read.finish rfl
  | some value =>
      have below := value.toInt_lt
      have above : i64Min ≤ value.toInt := value.le_toInt
      unfold wireNullableInt
      dsimp only
      split
      · rename_i negative
        refine (anySigned _ above (by omega)).finish ?_
        rw [if_neg (by omega), if_pos negative, if_pos above, Int64.ofInt_toInt]
      · refine (anySigned _ (by omega) (by omega)).finish ?_
        rw [if_neg (by omega), if_neg (by omega), Int.add_sub_cancel, Int64.ofInt_toInt]
        exact if_pos (Int.le_sub_one_of_lt below)

end IronFix.Fast
