import IronFix.Fast.Integers

/-!
# Text and byte vectors read back

For each write the bytes it appends, or its refusal, and the reader that takes
the bytes back (`Reads`).
-/

namespace IronFix.Fast

open Lib.Cursor

/-! ## Text -/

theorem char_bytes {c : Char} (small : c.toNat < 128) :
    String.utf8EncodeChar c = [UInt8.ofNat c.toNat] :=
  if_pos (Nat.le_of_lt_succ small)

/-- A character past ASCII has a byte past ASCII. -/
theorem char_bytes_ascii {c : Char} (ascii : ∀ byte ∈ String.utf8EncodeChar c, byte < 0x80) :
    c.toNat < 128 := by
  by_contra large
  have notSmall : ¬ c.val.toNat ≤ 0x7f := fun small => large (Nat.lt_succ_of_le small)
  have high : ∀ low n : Nat, 0x80 ≤ low → n + low < 256 → ¬ UInt8.ofNat (n + low) < 0x80 := by
    intro low n lowest fits below
    rw [UInt8.lt_iff_toNat_lt, UInt8.toNat_ofNat', Nat.mod_eq_of_lt fits] at below
    have : (0x80 : UInt8).toNat = 0x80 := rfl
    omega
  unfold String.utf8EncodeChar at ascii
  rw [if_neg notSmall] at ascii
  split at ascii
  · exact high 0xc0 _ (by decide) (by omega) (ascii _ List.mem_cons_self)
  · split at ascii
    · exact high 0xe0 _ (by decide) (by omega) (ascii _ List.mem_cons_self)
    · exact high 0xf0 _ (by decide) (by omega) (ascii _ List.mem_cons_self)

/-- Every character of the text is ASCII. -/
def AsciiText (text : String) : Prop := ∀ c ∈ text.toList, c.toNat < 128

theorem isAscii_iff (text : String) : isAscii (asBytes text) = true ↔ AsciiText text := by
  unfold isAscii asBytes
  rw [List.all_eq_true]
  constructor
  · intro all c member
    refine char_bytes_ascii fun byte inside => of_decide_eq_true (all byte ?_)
    exact List.mem_flatMap.mpr ⟨c, member, inside⟩
  · intro ascii byte inside
    obtain ⟨c, member, inside⟩ := List.mem_flatMap.mp inside
    have small := ascii c member
    rw [char_bytes small] at inside
    rw [List.mem_singleton.mp inside, decide_eq_true_eq, UInt8.lt_iff_toNat_lt, UInt8.toNat_ofNat',
      Nat.mod_eq_of_lt (by omega)]
    exact small

theorem asBytes_ascii {text : String} (ascii : AsciiText text) :
    asBytes text = text.toList.map fun c => UInt8.ofNat c.toNat := by
  unfold asBytes
  revert ascii
  unfold AsciiText
  generalize text.toList = chars
  intro ascii
  induction chars with
  | nil => rfl
  | cons c rest ih =>
      rw [List.flatMap_cons, List.map_cons, char_bytes (ascii c List.mem_cons_self),
        ih fun other member => ascii other (List.mem_cons_of_mem _ member)]
      rfl

theorem asBytes_small {text : String} (ascii : AsciiText text) :
    ∀ byte ∈ asBytes text, byte.toNat < RADIX := by
  intro byte member
  have all := List.all_eq_true.mp ((isAscii_iff text).mpr ascii) byte member
  exact of_decide_eq_true all

/-- A text of two characters or more that begins with NUL. -/
def NulLed (text : String) : Prop := 2 ≤ text.toList.length ∧ text.toList.head? = some '\x00'

/-- The forms the encoders tell apart. -/
inductive AsciiForm (text : String) : Prop where
  | empty (chars : text.toList = []) (bytes : asBytes text = [])
  | nul (chars : text.toList = ['\x00']) (bytes : asBytes text = [0x00])
  | nulLed (led : NulLed text) (second : UInt8) (rest : Bytes)
      (bytes : asBytes text = 0x00 :: second :: rest)
  | plain (notLed : ¬ NulLed text) (first : UInt8) (rest : Bytes)
      (bytes : asBytes text = first :: rest) (notNul : first ≠ 0x00)

theorem asciiForm {text : String} (ascii : AsciiText text) : AsciiForm text := by
  have bytes := asBytes_ascii ascii
  cases chars : text.toList with
  | nil =>
      rw [chars] at bytes
      exact .empty chars bytes
  | cons first rest =>
      rw [chars] at bytes
      by_cases isNul : first = '\x00'
      · subst isNul
        cases rest with
        | nil => exact .nul chars bytes
        | cons second rest =>
            refine .nulLed ⟨?_, ?_⟩ _ _ bytes
            · rw [chars]
              exact Nat.le_add_left _ _
            · rw [chars]
              rfl
      · refine .plain ?_ _ _ bytes ?_
        · rintro ⟨-, led⟩
          rw [chars] at led
          exact isNul (Option.some.inj led)
        · have small := ascii first (chars ▸ List.mem_cons_self)
          intro zero
          have same := congrArg UInt8.toNat zero
          rw [UInt8.toNat_ofNat', Nat.mod_eq_of_lt (by omega)] at same
          refine isNul ?_
          rw [← Char.ofNat_toNat first, same]
          rfl

/-- The bytes of a text that is written. -/
def wireAscii (text : String) : Bytes :=
  match asBytes text with
  | [] => [STOP_BIT]
  | [0x00] => [0x00, STOP_BIT]
  | bytes => setStopBit bytes

def wireNullableAscii (text : Option String) : Bytes :=
  match text with
  | none => [STOP_BIT]
  | some text =>
      match asBytes text with
      | [] => [0x00, STOP_BIT]
      | [0x00] => [0x00, 0x00, STOP_BIT]
      | bytes => setStopBit bytes

theorem wireAscii_plain {text : String} {first : UInt8} {rest : Bytes}
    (bytes : asBytes text = first :: rest) (notNul : first ≠ 0x00) :
    wireAscii text = setStopBit (first :: rest) ∧
      wireNullableAscii (some text) = setStopBit (first :: rest) := by
  unfold wireAscii wireNullableAscii
  dsimp only
  rw [bytes]
  constructor
  · split
    · contradiction
    · simp_all
    · rfl
  · split
    · contradiction
    · simp_all
    · rfl

theorem extend_writes (bytes : Bytes) : Writes (extend bytes) bytes := fun _ => rfl

theorem encodeAscii_writes {text : String} (ascii : AsciiText text) (notLed : ¬ NulLed text) :
    Writes (encodeAscii text) (wireAscii text) := by
  cases asciiForm ascii with
  | empty _ bytes =>
      unfold encodeAscii wireAscii
      rw [(isAscii_iff text).mpr ascii, bytes]
      exact extend_writes _
  | nul _ bytes =>
      unfold encodeAscii wireAscii
      rw [(isAscii_iff text).mpr ascii, bytes]
      exact extend_writes _
  | nulLed led => exact absurd led notLed
  | plain _ first rest bytes notNul =>
      rw [(wireAscii_plain bytes notNul).1]
      unfold encodeAscii
      rw [(isAscii_iff text).mpr ascii, bytes]
      split
      · contradiction
      · split
        · contradiction
        · simp_all
        · simp_all
        · exact extend_writes _

theorem NulLed.bytes {text : String} (led : NulLed text) (ascii : AsciiText text) :
    ∃ second rest, asBytes text = 0x00 :: second :: rest := by
  have long := led.1
  cases asciiForm ascii with
  | empty chars =>
      rw [chars] at long
      cases long
  | nul chars =>
      rw [chars] at long
      exact absurd long (by decide)
  | nulLed _ second rest bytes => exact ⟨second, rest, bytes⟩
  | plain notLed => exact absurd led notLed

theorem encodeAscii_refuses {text : String} (bad : ¬ AsciiText text ∨ NulLed text) :
    Refuses (encodeAscii text) .invalidString := by
  unfold encodeAscii
  by_cases ascii : AsciiText text
  · obtain ⟨second, rest, bytes⟩ := (bad.resolve_left (not_not.mpr ascii)).bytes ascii
    rw [(isAscii_iff text).mpr ascii, bytes]
    exact fun _ => rfl
  · rw [Bool.eq_false_iff.mpr fun all => ascii ((isAscii_iff text).mp all)]
    exact fun _ => rfl

theorem encodeNullableAscii_writes {text : String} (ascii : AsciiText text)
    (notLed : ¬ NulLed text) :
    Writes (encodeNullableAscii (some text)) (wireNullableAscii (some text)) := by
  have isAscii := (isAscii_iff text).mpr ascii
  cases asciiForm ascii with
  | empty _ bytes =>
      unfold encodeNullableAscii wireNullableAscii
      dsimp only
      rw [isAscii, bytes]
      exact extend_writes _
  | nul _ bytes =>
      unfold encodeNullableAscii wireNullableAscii
      dsimp only
      rw [isAscii, bytes]
      exact extend_writes _
  | nulLed led => exact absurd led notLed
  | plain _ first rest bytes notNul =>
      have plainWrites := encodeAscii_writes ascii notLed
      rw [(wireAscii_plain bytes notNul).1] at plainWrites
      rw [(wireAscii_plain bytes notNul).2]
      unfold encodeNullableAscii
      dsimp only
      rw [isAscii, bytes]
      split
      · contradiction
      · split
        · contradiction
        · simp_all
        · simp_all
        · exact plainWrites

theorem encodeNullableAscii_refuses {text : String} (bad : ¬ AsciiText text ∨ NulLed text) :
    Refuses (encodeNullableAscii (some text)) .invalidString := by
  unfold encodeNullableAscii
  dsimp only
  by_cases ascii : AsciiText text
  · obtain ⟨second, rest, bytes⟩ := (bad.resolve_left (not_not.mpr ascii)).bytes ascii
    rw [(isAscii_iff text).mpr ascii, bytes]
    exact fun _ => rfl
  · rw [Bool.eq_false_iff.mpr fun all => ascii ((isAscii_iff text).mp all)]
    exact fun _ => rfl

/-! ## Text read back -/

theorem push_all (chars : List Char) (result : String) :
    (chars.foldl String.push result).toList = result.toList ++ chars := by
  induction chars generalizing result with
  | nil => exact (List.append_nil _).symm
  | cons c chars ih =>
      rw [List.foldl_cons, ih, String.toList_push, List.append_assoc]
      rfl

/-- The payloads of the bytes are the characters' codes. -/
theorem readChars_reads {bytes : Bytes} {chars : List Char} (result : String)
    (codes : bytes.map (fun byte => (byte &&& PAYLOAD_MASK).toNat) = chars.map Char.toNat) :
    Reads (fun data => readChars data bytes.length result) bytes
      (chars.foldl String.push result) := by
  induction bytes generalizing chars result with
  | nil =>
      cases chars with
      | nil => exact Reads.returns result
      | cons => cases codes
  | cons byte bytes ih =>
      cases chars with
      | nil => cases codes
      | cons c chars =>
          obtain ⟨code, codes⟩ := List.cons.inj codes
          show Reads _ ([byte] ++ bytes) _
          refine Reads.bind (readByte_reads byte) ?_
          have code : (byte &&& PAYLOAD_MASK).toNat = c.toNat := code
          rw [code, Char.ofNat_toNat]
          exact ih (result.push c) codes

theorem stop_found {init : Bytes} {stopped : UInt8} (after : Bytes)
    (small : ∀ byte ∈ init, byte.toNat < RADIX) (stops : stopped &&& STOP_BIT ≠ 0) :
    (init ++ stopped :: after).findIdx? (fun byte => decide (byte &&& STOP_BIT ≠ 0))
      = some init.length := by
  induction init with
  | nil =>
      rw [List.nil_append, List.findIdx?_cons, if_pos (decide_eq_true stops)]
      rfl
  | cons byte init ih =>
      have runs := (payload_kept (small byte List.mem_cons_self)).2
      rw [List.cons_append, List.findIdx?_cons, if_neg (by simp [runs]),
        ih fun other member => small other (List.mem_cons_of_mem _ member)]
      rfl

/-- The payloads of a text on the wire are its characters' codes. -/
theorem wire_codes {text : String} (ascii : AsciiText text) :
    (setStopBit (asBytes text)).map (fun byte => (byte &&& PAYLOAD_MASK).toNat)
      = text.toList.map Char.toNat := by
  have kept : (setStopBit (asBytes text)).map (fun byte => (byte &&& PAYLOAD_MASK).toNat)
      = (asBytes text).map UInt8.toNat := by
    have small := asBytes_small ascii
    rcases List.eq_nil_or_concat' (asBytes text) with none | ⟨init, last, parted⟩
    · rw [none]
      rfl
    · rw [parted] at small ⊢
      rw [setStopBit_concat, List.map_append, List.map_append]
      refine congrArg₂ (· ++ ·) (List.map_congr_left fun byte member => ?_) ?_
      · rw [(payload_kept (small byte (List.mem_append_left _ member))).1]
      · have stopped := payload_stopped (small last (List.mem_append_right _ List.mem_cons_self))
        rw [List.map_singleton, stopped.1]
        rfl
  rw [kept, asBytes_ascii ascii, List.map_map]
  refine List.map_congr_left fun c member => ?_
  have small := ascii c member
  show (UInt8.ofNat c.toNat).toNat = c.toNat
  rw [UInt8.toNat_ofNat', Nat.mod_eq_of_lt (by omega)]

theorem readAsciiRun_reads {text : String} (ascii : AsciiText text) (nonempty : asBytes text ≠ []) :
    Reads readAsciiRun (setStopBit (asBytes text)) text := by
  have small := asBytes_small ascii
  have codes := wire_codes ascii
  obtain ⟨init, last, parted⟩ := (List.eq_nil_or_concat' (asBytes text)).resolve_left nonempty
  rw [parted] at small codes ⊢
  rw [setStopBit_concat] at codes ⊢
  have stops := (payload_stopped (small last (List.mem_append_right _ List.mem_cons_self))).2.1
  have read := readChars_reads "" codes
  have whole : text.toList.foldl String.push "" = text :=
    String.toList_injective (push_all text.toList "")
  rw [whole] at read
  intro before after
  have found : ((before ++ (init ++ [last ||| STOP_BIT] ++ after)).drop before.length).findIdx?
      (fun byte => decide (byte &&& STOP_BIT ≠ 0)) = some init.length := by
    rw [List.drop_left, List.append_assoc]
    exact stop_found after (fun byte member => small byte (List.mem_append_left _ member)) stops
  unfold readAsciiRun
  dsimp only [bind, EStateM.bind, get, getThe, MonadStateOf.get, EStateM.get]
  rw [found]
  have length : init.length + 1 = (init ++ [last ||| STOP_BIT]).length := by
    rw [List.length_append, List.length_singleton]
  dsimp only
  rw [length]
  exact read before after

/-- A plain text's first byte on the wire is neither of the special ones. -/
theorem plain_head {first : UInt8} (rest : Bytes) (small : first.toNat < RADIX)
    (notNul : first ≠ 0x00) :
    ∃ head tail, setStopBit (first :: rest) = head :: tail ∧ head ≠ STOP_BIT ∧ head ≠ 0x00 := by
  cases rest with
  | nil =>
      refine ⟨first ||| STOP_BIT, [], rfl, ?_⟩
      revert notNul
      revert small
      exact forall_payload (P := fun first => first ≠ 0x00 →
        first ||| STOP_BIT ≠ STOP_BIT ∧ first ||| STOP_BIT ≠ 0x00) (by decide)
  | cons second rest =>
      refine ⟨first, setStopBit (second :: rest), rfl, ?_, notNul⟩
      revert small
      exact forall_payload (P := fun first => first ≠ STOP_BIT) (by decide)

theorem decodeAscii_reads {text : String} (ascii : AsciiText text) (notLed : ¬ NulLed text) :
    Reads decodeAscii (wireAscii text) text := by
  cases asciiForm ascii with
  | empty chars bytes =>
      have isEmpty : text = "" := String.toList_injective chars
      unfold wireAscii
      rw [bytes, isEmpty]
      exact peek_reads fun before after => rfl
  | nul chars bytes =>
      have isNul : text = "\x00" := String.toList_injective chars
      unfold wireAscii
      rw [bytes, isNul]
      refine peek_reads fun before after => ?_
      have second : (before ++ ([0x00, STOP_BIT] ++ after))[before.length + 1]? = some STOP_BIT :=
        Reads.getElem?_field before (i := 1) after rfl
      dsimp only [bind, EStateM.bind, get, getThe, MonadStateOf.get, EStateM.get]
      rw [if_neg (by decide), if_pos rfl, second]
      rfl
  | nulLed led => exact absurd led notLed
  | plain _ first rest bytes notNul =>
      have small := asBytes_small ascii first (bytes ▸ List.mem_cons_self)
      obtain ⟨head, tail, wire, notStop, notZero⟩ := plain_head rest small notNul
      have run := readAsciiRun_reads ascii (bytes ▸ List.cons_ne_nil _ _)
      rw [(wireAscii_plain bytes notNul).1, wire]
      rw [bytes, wire] at run
      refine peek_reads fun before after => ?_
      simp only [if_neg notStop, if_neg notZero]
      exact run before after

theorem decodeNullableAscii_reads {text : String} (ascii : AsciiText text)
    (notLed : ¬ NulLed text) :
    Reads decodeNullableAscii (wireNullableAscii (some text)) (some text) := by
  cases asciiForm ascii with
  | empty chars bytes =>
      have isEmpty : text = "" := String.toList_injective chars
      unfold wireNullableAscii
      dsimp only
      rw [bytes, isEmpty]
      refine peek_reads fun before after => ?_
      have second : (before ++ ([0x00, STOP_BIT] ++ after))[before.length + 1]? = some STOP_BIT :=
        Reads.getElem?_field before (i := 1) after rfl
      dsimp only [bind, EStateM.bind, get, getThe, MonadStateOf.get, EStateM.get]
      rw [if_neg (by decide), if_pos rfl, second]
      rfl
  | nul chars bytes =>
      have isNul : text = "\x00" := String.toList_injective chars
      unfold wireNullableAscii
      dsimp only
      rw [bytes, isNul]
      refine peek_reads fun before after => ?_
      have second : (before ++ ([0x00, 0x00, STOP_BIT] ++ after))[before.length + 1]?
          = some 0x00 := Reads.getElem?_field before (i := 1) after rfl
      have third : (before ++ ([0x00, 0x00, STOP_BIT] ++ after))[before.length + 2]?
          = some STOP_BIT := Reads.getElem?_field before (i := 2) after rfl
      dsimp only [bind, EStateM.bind, get, getThe, MonadStateOf.get, EStateM.get]
      rw [if_neg (by decide), if_pos rfl, second]
      dsimp only
      rw [third]
      rfl
  | nulLed led => exact absurd led notLed
  | plain _ first rest bytes notNul =>
      have small := asBytes_small ascii first (bytes ▸ List.mem_cons_self)
      obtain ⟨head, tail, wire, notStop, notZero⟩ := plain_head rest small notNul
      have run := readAsciiRun_reads ascii (bytes ▸ List.cons_ne_nil _ _)
      rw [(wireAscii_plain bytes notNul).2, wire]
      rw [bytes, wire] at run
      refine peek_reads fun before after => ?_
      simp only [if_neg notStop, if_neg notZero]
      have whole : Reads (fun data => do let text ← readAsciiRun data; return some text)
          (head :: tail) (some text) := run.finish rfl
      exact whole before after

/-! ## Byte vectors -/

theorem takeBytes_reads {length : Nat} {bytes : Bytes} (same : length = bytes.length) :
    Reads (fun data => takeBytes data length) bytes bytes := by
  intro before after
  subst same
  have total : (before ++ (bytes ++ after)).length
      = before.length + (bytes.length + after.length) := by
    rw [List.length_append, List.length_append]
  have present : ¬ ((before ++ (bytes ++ after)).length < before.length ∨
      (before ++ (bytes ++ after)).length - before.length < bytes.length) := by
    rw [total]
    omega
  show (if (before ++ (bytes ++ after)).length < before.length ∨
      (before ++ (bytes ++ after)).length - before.length < bytes.length then
      throw .unexpectedEof
    else do
      set (before.length + bytes.length)
      return ((before ++ (bytes ++ after)).drop before.length).take bytes.length :
        Decoder Bytes) before.length = _
  rw [if_neg present, List.drop_left, List.take_left]
  rfl

/-- A length that fits an allocation fits a `u64`. -/
theorem ByteVector.length_toNat (value : ByteVector) :
    (UInt64.ofNat value.bytes.length).toNat = value.bytes.length := by
  have bounded := value.bounded
  unfold isizeMax at bounded
  rw [UInt64.toNat_ofNat', Nat.mod_eq_of_lt (by omega)]

def wireBytes (value : ByteVector) : Bytes := wireUnsigned value.bytes.length ++ value.bytes

theorem encodeBytes_writes (value : ByteVector) : Writes (encodeBytes value) (wireBytes value) := by
  have length := encodeUnsigned_writes (UInt64.ofNat value.bytes.length).toNat
  rw [value.length_toNat] at length
  have whole := length.bind (extend_writes value.bytes)
  unfold encodeBytes encodeUint
  rw [value.length_toNat]
  exact whole

theorem decodeBytes_reads (value : ByteVector) :
    Reads decodeBytes (wireBytes value) value.bytes := by
  have length := decodeUint_reads (UInt64.ofNat value.bytes.length)
  rw [value.length_toNat] at length
  exact length.bind (takeBytes_reads value.length_toNat)

def wireNullableBytes (value : Option ByteVector) : Bytes :=
  match value with
  | none => [STOP_BIT]
  | some value => wireUnsigned (value.bytes.length + 1) ++ value.bytes

theorem encodeNullableBytes_writes (value : Option ByteVector) :
    Writes (encodeNullableBytes value) (wireNullableBytes value) := by
  cases value with
  | none => exact extend_writes _
  | some value =>
      have fits : value.bytes.length ≤ u64Max := by
        have bounded := value.bounded
        unfold isizeMax at bounded
        unfold u64Max
        omega
      have whole := (encodeUnsigned_writes (value.bytes.length + 1)).bind
        (extend_writes value.bytes)
      unfold encodeNullableBytes encodeNullableUint
      dsimp only
      rw [if_pos fits, value.length_toNat]
      exact whole

theorem decodeNullableBytes_reads (value : Option ByteVector) :
    Reads decodeNullableBytes (wireNullableBytes value) (value.map ByteVector.bytes) := by
  cases value with
  | none => exact decodeNullableUint_none.bind (Reads.returns none)
  | some value =>
      have length := decodeNullableUint_some (UInt64.ofNat value.bytes.length)
      rw [value.length_toNat] at length
      refine length.bind ?_
      exact (takeBytes_reads value.length_toNat).finish rfl

end IronFix.Fast
