import IronFix.Transport.Codec

/-!
# The header scan and the trailer check

`scanHeader` and `verifyTrailer` in the terms of the bytes they read: the scan
evaluated on every shape its window can have, and the bytes a verified trailer
has. Outside `headerNeedsMore` the scan's answer is fixed by a start of the
window, so it stays the same when more bytes arrive.
-/

namespace IronFix.Transport

open Lib.Slice Lib.Decimal IronFix.TagValue

/-- The header `8=…<SOH>9=…<SOH>`: `beginning` is the whole first field,
`digits` the BodyLength value. -/
def headerBytes (beginning digits : Bytes) : Bytes :=
  beginning ++ SOH :: (BODY_LENGTH_PREFIX ++ digits ++ [SOH])

theorem headerBytes_length (beginning digits : Bytes) :
    (headerBytes beginning digits).length = beginning.length + digits.length + 4 := by
  simp [headerBytes, BODY_LENGTH_PREFIX, ascii]
  omega

/-- The shapes of the bytes a header scan looks at. -/
inductive WindowShape (window : Bytes) : Prop
  | noField (clean : SOH ∉ window)
  | noPrefix (beginning tail : Bytes) (split : window = beginning ++ SOH :: tail)
      (clean : SOH ∉ beginning) (short : tail.length < 2)
  | wrongPrefix (beginning found tail : Bytes) (split : window = beginning ++ SOH :: (found ++ tail))
      (clean : SOH ∉ beginning) (len : found.length = 2) (wrong : found ≠ BODY_LENGTH_PREFIX)
  | noDigits (beginning tail : Bytes)
      (split : window = beginning ++ SOH :: (BODY_LENGTH_PREFIX ++ tail))
      (clean : SOH ∉ beginning) (cleanTail : SOH ∉ tail)
  | header (beginning digits tail : Bytes) (split : window = headerBytes beginning digits ++ tail)
      (clean : SOH ∉ beginning) (cleanDigits : SOH ∉ digits)

theorem windowShape (window : Bytes) : WindowShape window := by
  cases found : memchr SOH window with
  | none => exact .noField (memchr_eq_none_iff.mp found)
  | some i =>
      obtain ⟨beginning, tail, split, _, clean⟩ := memchr_eq_some_iff.mp found
      match tail with
      | [] => exact .noPrefix beginning [] split clean (by simp)
      | [a] => exact .noPrefix beginning [a] split clean (by simp)
      | a :: b :: rest =>
          by_cases wrong : [a, b] = BODY_LENGTH_PREFIX
          · have split' : window = beginning ++ SOH :: (BODY_LENGTH_PREFIX ++ rest) := by
              rw [split, ← wrong]
              rfl
            cases found' : memchr SOH rest with
            | none => exact .noDigits beginning rest split' clean (memchr_eq_none_iff.mp found')
            | some j =>
                obtain ⟨digits, more, rfl, _, cleanDigits⟩ := memchr_eq_some_iff.mp found'
                refine .header beginning digits more ?_ clean cleanDigits
                rw [split']
                simp [headerBytes]
          · exact .wrongPrefix beginning [a, b] rest split clean rfl wrong

namespace FixCodec

variable {codec : FixCodec} {bytes : Bytes}

/-- The layout a header of `headerLen` bytes with BodyLength `digits` declares. -/
def declaredLayout (codec : FixCodec) (headerLen : Nat) (digits : Bytes) :
    Except CodecError (Option FrameLayout) := do
  let bodyLength ← okOr (parseBodyLength digits) .invalidBodyLength
  let bodyEnd ← okOr (checkedAdd usizeMax headerLen bodyLength) .invalidBodyLength
  let totalLength ← okOr (checkedAdd usizeMax bodyEnd TRAILER_LEN) .invalidBodyLength
  if totalLength > codec.maxMessageSize then
    .error (.messageTooLarge totalLength codec.maxMessageSize)
  else .ok (some ⟨bodyEnd, totalLength⟩)

/-- The bytes a header scan looks at. -/
abbrev window (bytes : Bytes) : Bytes :=
  bytes.take MAX_HEADER_LEN

theorem sliceTo?_getD_window (bytes : Bytes) :
    (sliceTo? bytes MAX_HEADER_LEN).getD bytes = window bytes := by
  unfold sliceTo?
  split
  · rfl
  · rw [window, List.take_of_length_le (by omega)]
    rfl

theorem window_length_le (bytes : Bytes) : (window bytes).length ≤ 64 := by
  simp [MAX_HEADER_LEN]

private theorem add_small {a b : Nat} (h : a + b ≤ 200) : checkedAdd usizeMax a b = some (a + b) :=
  checkedAdd_eq_some.mpr ⟨rfl, by simp [usizeMax]; omega⟩

theorem scanHeader_noField (clean : SOH ∉ window bytes) :
    codec.scanHeader bytes = codec.headerNeedsMore bytes.length := by
  unfold scanHeader
  rw [sliceTo?_getD_window]
  simp only [memchr_eq_none_iff.mpr clean]

theorem scanHeader_noPrefix {beginning tail : Bytes}
    (split : window bytes = beginning ++ SOH :: tail) (clean : SOH ∉ beginning)
    (short : tail.length < 2) :
    codec.scanHeader bytes = codec.headerNeedsMore bytes.length := by
  have len := window_length_le bytes
  unfold scanHeader
  rw [sliceTo?_getD_window]
  simp only [split, List.length_append, List.length_cons] at len ⊢
  have past : slice? (beginning ++ SOH :: tail) (beginning.length + 1)
      (beginning.length + 1 + BODY_LENGTH_PREFIX.length) = none := by
    rw [slice?, if_neg]
    simp only [BODY_LENGTH_PREFIX, ascii, List.length_append, List.length_cons]
    simp
    omega
  rw [memchr_append_cons clean]
  simp only [add_small (a := beginning.length) (b := 1) (by omega), okOr_some, bind, Except.bind,
    add_small (a := beginning.length + 1) (b := BODY_LENGTH_PREFIX.length)
      (by simp [BODY_LENGTH_PREFIX, ascii]; omega), past]

theorem scanHeader_wrongPrefix {beginning found tail : Bytes}
    (split : window bytes = beginning ++ SOH :: (found ++ tail)) (clean : SOH ∉ beginning)
    (len : found.length = 2) (wrong : found ≠ BODY_LENGTH_PREFIX) :
    codec.scanHeader bytes = .error .missingBodyLength := by
  have short := window_length_le bytes
  unfold scanHeader
  rw [sliceTo?_getD_window]
  simp only [split, List.length_append, List.length_cons] at short ⊢
  have here : slice? (beginning ++ SOH :: (found ++ tail)) (beginning.length + 1)
      (beginning.length + 1 + BODY_LENGTH_PREFIX.length) = some found :=
    slice?_eq_some_iff.mpr ⟨beginning ++ [SOH], tail, by simp, by simp,
      by simp [len, BODY_LENGTH_PREFIX, ascii]⟩
  rw [memchr_append_cons clean]
  simp only [add_small (a := beginning.length) (b := 1) (by omega), okOr_some, bind, Except.bind,
    add_small (a := beginning.length + 1) (b := BODY_LENGTH_PREFIX.length)
      (by simp [BODY_LENGTH_PREFIX, ascii]; omega), here, if_pos wrong]

theorem scanHeader_noDigits {beginning tail : Bytes}
    (split : window bytes = beginning ++ SOH :: (BODY_LENGTH_PREFIX ++ tail))
    (clean : SOH ∉ beginning) (cleanTail : SOH ∉ tail) :
    codec.scanHeader bytes = codec.headerNeedsMore bytes.length := by
  have short := window_length_le bytes
  unfold scanHeader
  rw [sliceTo?_getD_window]
  simp only [split, List.length_append, List.length_cons] at short ⊢
  have here : slice? (beginning ++ SOH :: (BODY_LENGTH_PREFIX ++ tail)) (beginning.length + 1)
      (beginning.length + 1 + BODY_LENGTH_PREFIX.length) = some BODY_LENGTH_PREFIX :=
    slice?_eq_some_iff.mpr ⟨beginning ++ [SOH], tail, by simp, by simp, rfl⟩
  have after : sliceFrom? (beginning ++ SOH :: (BODY_LENGTH_PREFIX ++ tail))
      (beginning.length + 1 + BODY_LENGTH_PREFIX.length) = some tail :=
    sliceFrom?_eq_some_iff.mpr ⟨beginning ++ SOH :: BODY_LENGTH_PREFIX, by simp, by simp; omega⟩
  rw [memchr_append_cons clean]
  simp only [add_small (a := beginning.length) (b := 1) (by omega), okOr_some, bind, Except.bind,
    add_small (a := beginning.length + 1) (b := BODY_LENGTH_PREFIX.length)
      (by simp [BODY_LENGTH_PREFIX, ascii]; omega), here, ne_eq, not_true_eq_false, if_false, after,
    memchr_eq_none_iff.mpr cleanTail]

theorem scanHeader_header {beginning digits tail : Bytes}
    (split : window bytes = headerBytes beginning digits ++ tail)
    (clean : SOH ∉ beginning) (cleanDigits : SOH ∉ digits) :
    codec.scanHeader bytes =
      codec.declaredLayout (headerBytes beginning digits).length digits := by
  have short := window_length_le bytes
  have shape : headerBytes beginning digits ++ tail =
      beginning ++ SOH :: (BODY_LENGTH_PREFIX ++ (digits ++ SOH :: tail)) := by
    simp [headerBytes]
  unfold scanHeader declaredLayout
  rw [sliceTo?_getD_window]
  simp only [split, List.length_append, headerBytes_length] at short ⊢
  rw [shape]
  have here : slice? (beginning ++ SOH :: (BODY_LENGTH_PREFIX ++ (digits ++ SOH :: tail)))
      (beginning.length + 1) (beginning.length + 1 + BODY_LENGTH_PREFIX.length)
      = some BODY_LENGTH_PREFIX :=
    slice?_eq_some_iff.mpr ⟨beginning ++ [SOH], digits ++ SOH :: tail, by simp, by simp, rfl⟩
  have after : sliceFrom? (beginning ++ SOH :: (BODY_LENGTH_PREFIX ++ (digits ++ SOH :: tail)))
      (beginning.length + 1 + BODY_LENGTH_PREFIX.length) = some (digits ++ SOH :: tail) :=
    sliceFrom?_eq_some_iff.mpr ⟨beginning ++ SOH :: BODY_LENGTH_PREFIX, by simp, by simp; omega⟩
  have prefixLen : BODY_LENGTH_PREFIX.length = 2 := rfl
  rw [memchr_append_cons clean]
  simp only [add_small (a := beginning.length) (b := 1) (by omega), okOr_some, bind, Except.bind,
    add_small (a := beginning.length + 1) (b := BODY_LENGTH_PREFIX.length) (by omega), here,
    ne_eq, not_true_eq_false, if_false, after, memchr_append_cons cleanDigits,
    sliceTo?_append digits (SOH :: tail),
    add_small (a := beginning.length + 1 + BODY_LENGTH_PREFIX.length) (b := digits.length)
      (by omega),
    add_small (a := beginning.length + 1 + BODY_LENGTH_PREFIX.length + digits.length) (b := 1)
      (by omega)]
  have start : beginning.length + 1 + BODY_LENGTH_PREFIX.length + digits.length + 1 =
      beginning.length + digits.length + 4 := by omega
  rw [start]

theorem headerNeedsMore_short {n : Nat} (h : n < MAX_HEADER_LEN) (fits : n ≤ codec.maxMessageSize) :
    codec.headerNeedsMore n = .ok none := by
  unfold headerNeedsMore
  simp only
  rw [if_neg (by omega), if_neg (by omega), if_neg (by omega)]

theorem headerNeedsMore_long {n : Nat} (h : MAX_HEADER_LEN ≤ n)
    (recovery : codec.garbledRecovery = true) :
    codec.headerNeedsMore n = .error (.headerTooLong MAX_HEADER_LEN) := by
  unfold headerNeedsMore
  simp only
  rw [if_pos ⟨recovery, h⟩]

theorem headerNeedsMore_ne_some (n : Nat) (layout : FrameLayout) :
    codec.headerNeedsMore n ≠ .ok (some layout) := by
  unfold headerNeedsMore
  simp only
  split_ifs <;> simp

theorem declaredLayout_some {headerLen : Nat} {digits : Bytes} {layout : FrameLayout}
    (h : codec.declaredLayout headerLen digits = .ok (some layout)) :
    ∃ n, parseBodyLength digits = some n ∧ layout.bodyEnd = headerLen + n ∧
      layout.totalLength = layout.bodyEnd + TRAILER_LEN ∧
      layout.totalLength ≤ codec.maxMessageSize ∧ layout.totalLength ≤ usizeMax := by
  unfold declaredLayout at h
  cases parsed : parseBodyLength digits with
  | none => simp [parsed, bind, Except.bind] at h
  | some n =>
      cases ending : checkedAdd usizeMax headerLen n with
      | none => simp [parsed, ending, bind, Except.bind] at h
      | some bodyEnd =>
          cases total : checkedAdd usizeMax bodyEnd TRAILER_LEN with
          | none => simp [parsed, ending, total, bind, Except.bind] at h
          | some totalLength =>
              simp only [parsed, ending, total, bind, Except.bind, okOr_some] at h
              split at h
              · cases h
              · rename_i fits
                cases h
                exact ⟨n, rfl, (checkedAdd_eq_some.mp ending).1.symm,
                  (checkedAdd_eq_some.mp total).1.symm, Nat.le_of_not_lt fits,
                  (checkedAdd_eq_some.mp total).2⟩

theorem declaredLayout_of_fits {headerLen n : Nat} {digits : Bytes}
    (parsed : parseBodyLength digits = some n)
    (fits : headerLen + n + TRAILER_LEN ≤ codec.maxMessageSize)
    (room : headerLen + n + TRAILER_LEN ≤ usizeMax) :
    codec.declaredLayout headerLen digits =
      .ok (some ⟨headerLen + n, headerLen + n + TRAILER_LEN⟩) := by
  have ending : checkedAdd usizeMax headerLen n = some (headerLen + n) :=
    checkedAdd_eq_some.mpr ⟨rfl, by omega⟩
  have total : checkedAdd usizeMax (headerLen + n) TRAILER_LEN =
      some (headerLen + n + TRAILER_LEN) := checkedAdd_eq_some.mpr ⟨rfl, room⟩
  unfold declaredLayout
  simp only [parsed, ending, total, bind, Except.bind, okOr_some]
  rw [if_neg (by omega)]

/-- What a header that declares `layout` consists of. -/
structure Declares (codec : FixCodec) (bytes : Bytes) (layout : FrameLayout)
    (beginning digits rest : Bytes) (bodyLength : Nat) : Prop where
  split : bytes = headerBytes beginning digits ++ rest
  clean : SOH ∉ beginning
  cleanDigits : SOH ∉ digits
  window : (headerBytes beginning digits).length ≤ MAX_HEADER_LEN
  parsed : parseBodyLength digits = some bodyLength
  bodyEnd : layout.bodyEnd = (headerBytes beginning digits).length + bodyLength
  total : layout.totalLength = layout.bodyEnd + TRAILER_LEN
  fits : layout.totalLength ≤ codec.maxMessageSize
  room : layout.totalLength ≤ usizeMax

/-- A scan that finds a layout has read a whole header that declares it. -/
theorem scanHeader_some {layout : FrameLayout} (h : codec.scanHeader bytes = .ok (some layout)) :
    ∃ beginning digits rest bodyLength,
      codec.Declares bytes layout beginning digits rest bodyLength := by
  rcases windowShape (window bytes) with clean | ⟨beginning, tail, split, clean, short⟩ |
    ⟨beginning, found, tail, split, clean, len, wrong⟩ |
    ⟨beginning, tail, split, clean, cleanTail⟩ | ⟨beginning, digits, tail, split, clean, cleanDigits⟩
  · exact absurd (scanHeader_noField clean ▸ h) (headerNeedsMore_ne_some _ _)
  · exact absurd (scanHeader_noPrefix split clean short ▸ h) (headerNeedsMore_ne_some _ _)
  · rw [scanHeader_wrongPrefix split clean len wrong] at h
    cases h
  · exact absurd (scanHeader_noDigits split clean cleanTail ▸ h) (headerNeedsMore_ne_some _ _)
  · rw [scanHeader_header split clean cleanDigits] at h
    have within : (headerBytes beginning digits).length ≤ MAX_HEADER_LEN := by
      have := window_length_le bytes
      rw [split, List.length_append] at this
      exact le_trans (Nat.le_add_right _ _) this
    have whole : bytes = headerBytes beginning digits ++ (tail ++ bytes.drop MAX_HEADER_LEN) := by
      rw [← List.append_assoc, ← split, List.take_append_drop]
    obtain ⟨n, parsed, ending, total, fits, room⟩ := declaredLayout_some h
    exact ⟨beginning, digits, _, n, whole, clean, cleanDigits, within, parsed, ending, total, fits,
      room⟩

/-- A header inside the window declares its layout, whatever follows it. -/
theorem scanHeader_whole {beginning digits : Bytes} (clean : SOH ∉ beginning)
    (cleanDigits : SOH ∉ digits) (within : (headerBytes beginning digits).length ≤ MAX_HEADER_LEN)
    (rest : Bytes) :
    codec.scanHeader (headerBytes beginning digits ++ rest) =
      codec.declaredLayout (headerBytes beginning digits).length digits := by
  have split : window (headerBytes beginning digits ++ rest) = headerBytes beginning digits ++
      rest.take (MAX_HEADER_LEN - (headerBytes beginning digits).length) := by
    rw [window, List.take_append, List.take_of_length_le within]
  exact scanHeader_header split clean cleanDigits

/-- A scan of a part of a header asks for more bytes. -/
theorem scanHeader_part {beginning digits : Bytes} (clean : SOH ∉ beginning)
    (cleanDigits : SOH ∉ digits) (within : (headerBytes beginning digits).length ≤ MAX_HEADER_LEN)
    (part : bytes <+: headerBytes beginning digits)
    (proper : bytes.length < (headerBytes beginning digits).length) :
    codec.scanHeader bytes = codec.headerNeedsMore bytes.length := by
  have all : window bytes = bytes := List.take_of_length_le (by omega)
  have shape := windowShape (window bytes)
  rw [all] at shape
  rcases shape with cleanAll | ⟨front, tail, split, cleanFront, short⟩ |
    ⟨front, found, tail, split, cleanFront, len, wrong⟩ |
    ⟨front, tail, split, cleanFront, cleanTail⟩ | ⟨front, read, tail, split, cleanFront, cleanRead⟩
  · exact scanHeader_noField (all.symm ▸ cleanAll)
  · exact scanHeader_noPrefix (all.trans split) cleanFront short
  · rw [split] at part
    obtain ⟨_, found_part⟩ := cons_prefix_cons cleanFront clean part
    have same : found <+: BODY_LENGTH_PREFIX := by
      refine List.prefix_of_prefix_length_le ((List.prefix_append _ _).trans found_part)
        (List.append_assoc .. ▸ List.prefix_append _ _) ?_
      rw [len]
      rfl
    exact absurd (same.eq_of_length (by rw [len]; rfl)) wrong
  · exact scanHeader_noDigits (all.trans split) cleanFront cleanTail
  · -- a whole header in front would be the declared one
    rw [split] at part proper
    have longer : front ++ SOH :: (BODY_LENGTH_PREFIX ++ read ++ [SOH] ++ tail) <+:
        headerBytes beginning digits := by simpa [headerBytes] using part
    obtain ⟨rfl, rest⟩ := cons_prefix_cons cleanFront clean longer
    have rest : read ++ SOH :: tail <+: digits ++ SOH :: [] := by simpa using rest
    obtain ⟨rfl, _⟩ := cons_prefix_cons cleanRead cleanDigits rest
    rw [List.length_append] at proper
    omega

/-- In recovery mode a scan that did not ask for more bytes gives the same
answer when more arrive, provided the size limit leaves room for a whole
header window. -/
theorem scanHeader_grow (recovery : codec.garbledRecovery = true)
    (room : MAX_HEADER_LEN ≤ codec.maxMessageSize + 1)
    (decided : codec.scanHeader bytes ≠ .ok none) (more : Bytes) :
    codec.scanHeader (bytes ++ more) = codec.scanHeader bytes := by
  by_cases long : MAX_HEADER_LEN ≤ bytes.length
  · have same : window (bytes ++ more) = window bytes := List.take_append_of_le_length long
    have tooLong : codec.headerNeedsMore bytes.length = .error (.headerTooLong MAX_HEADER_LEN) :=
      headerNeedsMore_long long recovery
    have tooLong' : codec.headerNeedsMore (bytes ++ more).length =
        .error (.headerTooLong MAX_HEADER_LEN) :=
      headerNeedsMore_long (by rw [List.length_append]; omega) recovery
    rcases windowShape (window bytes) with clean | ⟨beginning, tail, split, clean, short⟩ |
      ⟨beginning, found, tail, split, clean, len, wrong⟩ |
      ⟨beginning, tail, split, clean, cleanTail⟩ |
      ⟨beginning, digits, tail, split, clean, cleanDigits⟩
    · rw [scanHeader_noField clean, scanHeader_noField (same ▸ clean), tooLong, tooLong']
    · rw [scanHeader_noPrefix split clean short, scanHeader_noPrefix (same ▸ split) clean short,
        tooLong, tooLong']
    · rw [scanHeader_wrongPrefix split clean len wrong,
        scanHeader_wrongPrefix (same ▸ split) clean len wrong]
    · rw [scanHeader_noDigits split clean cleanTail,
        scanHeader_noDigits (same ▸ split) clean cleanTail, tooLong, tooLong']
    · rw [scanHeader_header split clean cleanDigits, scanHeader_header (same ▸ split) clean cleanDigits]
  · have all : window bytes = bytes := List.take_of_length_le (by omega)
    have waits : codec.headerNeedsMore bytes.length = .ok none :=
      headerNeedsMore_short (by omega) (by omega)
    have grown : window (bytes ++ more) = bytes ++ more.take (MAX_HEADER_LEN - bytes.length) := by
      rw [window, List.take_append, List.take_of_length_le (by omega)]
    rcases windowShape (window bytes) with clean | ⟨beginning, tail, split, clean, short⟩ |
      ⟨beginning, found, tail, split, clean, len, wrong⟩ |
      ⟨beginning, tail, split, clean, cleanTail⟩ |
      ⟨beginning, digits, tail, split, clean, cleanDigits⟩
    · exact absurd (scanHeader_noField clean ▸ waits) decided
    · exact absurd (scanHeader_noPrefix split clean short ▸ waits) decided
    · rw [scanHeader_wrongPrefix split clean len wrong]
      rw [all] at split
      have longer : window (bytes ++ more) =
          beginning ++ SOH :: (found ++ (tail ++ more.take (MAX_HEADER_LEN - bytes.length))) := by
        rw [grown, split]
        simp
      exact scanHeader_wrongPrefix longer clean len wrong
    · exact absurd (scanHeader_noDigits split clean cleanTail ▸ waits) decided
    · rw [scanHeader_header split clean cleanDigits]
      rw [all] at split
      have longer : window (bytes ++ more) = headerBytes beginning digits ++
          (tail ++ more.take (MAX_HEADER_LEN - bytes.length)) := by
        rw [grown, split]
        simp
      exact scanHeader_header longer clean cleanDigits

end FixCodec

/-! ## The trailer -/

/-- The CheckSum field `10=NNN<SOH>`. -/
def trailerBytes (digits : Bytes) : Bytes :=
  CHECKSUM_PREFIX ++ digits ++ [SOH]

theorem trailerBytes_length {digits : Bytes} (len : digits.length = CHECKSUM_DIGITS) :
    (trailerBytes digits).length = TRAILER_LEN := by
  simp [trailerBytes, CHECKSUM_PREFIX, ascii, len, CHECKSUM_DIGITS, TRAILER_LEN]

/-- The check at the end of `body` of the seven bytes that follow it. -/
theorem verifyTrailer_append {body digits : Bytes} (rest : Bytes)
    (ends : body.getLast? = some SOH) (len : digits.length = CHECKSUM_DIGITS) :
    verifyTrailer (body ++ trailerBytes digits ++ rest) body.length (body.length + TRAILER_LEN) =
      okOr (parseChecksum digits) .invalidChecksumFormat := by
  have nonempty : body.length ≠ 0 := by
    intro empty
    rw [List.length_eq_zero_iff.mp empty] at ends
    cases ends
  have last : (body ++ trailerBytes digits ++ rest)[body.length - 1]? = some SOH := by
    rw [List.append_assoc, List.getElem?_append_left (by omega), ← List.getLast?_eq_getElem?]
    exact ends
  have trailer : slice? (body ++ trailerBytes digits ++ rest) body.length
      (body.length + TRAILER_LEN) = some (trailerBytes digits) :=
    slice?_eq_some_iff.mpr ⟨body, rest, rfl, rfl, by rw [trailerBytes_length len]⟩
  have opens : sliceTo? (trailerBytes digits) CHECKSUM_PREFIX.length = some CHECKSUM_PREFIX := by
    rw [trailerBytes, List.append_assoc]
    exact sliceTo?_append _ _
  have closes : (trailerBytes digits).getLast? = some SOH := by simp [trailerBytes]
  have middle : slice? (trailerBytes digits) CHECKSUM_PREFIX.length
      (CHECKSUM_PREFIX.length + CHECKSUM_DIGITS) = some digits :=
    slice?_eq_some_iff.mpr ⟨CHECKSUM_PREFIX, [SOH], rfl, rfl, by rw [len]⟩
  have reach : checkedAdd usizeMax CHECKSUM_PREFIX.length CHECKSUM_DIGITS =
      some (CHECKSUM_PREFIX.length + CHECKSUM_DIGITS) := by decide
  unfold verifyTrailer
  simp only [if_neg nonempty, last, ne_eq, not_true_eq_false, if_false, trailer, okOr_some, bind,
    Except.bind, opens, closes, reach, middle]

/-- What a trailer check that gets to the digits has read. -/
theorem verifyTrailer_cases (src : Bytes) (bodyEnd : Nat) :
    verifyTrailer src bodyEnd (bodyEnd + TRAILER_LEN) = .error (.invalidTrailer bodyEnd) ∨
    ∃ body digits rest, src = body ++ trailerBytes digits ++ rest ∧ body.length = bodyEnd ∧
      body.getLast? = some SOH ∧ digits.length = CHECKSUM_DIGITS := by
  unfold verifyTrailer
  simp only
  by_cases atEnd : (if bodyEnd = 0 then none else src[bodyEnd - 1]?) = some SOH
  case neg =>
    rw [if_pos atEnd]
    exact .inl rfl
  case pos =>
    rw [if_neg (not_not_intro atEnd)]
    cases cut : slice? src bodyEnd (bodyEnd + TRAILER_LEN) with
    | none => exact .inl rfl
    | some trailer =>
        obtain ⟨body, rest, split, bodyLen, trailerLen⟩ := slice?_eq_some_iff.mp cut
        have seven : trailer.length = 7 := by
          simp only [TRAILER_LEN] at trailerLen
          omega
        simp only [okOr_some, bind, Except.bind]
        split_ifs with opens closes
        · exact .inl rfl
        · exact .inl rfl
        · right
          simp only [ne_eq, Decidable.not_not] at opens closes
          obtain ⟨tail, rfl, _⟩ := sliceTo?_eq_some_iff.mp opens
          have tailLen : tail.length = 4 := by
            simp only [List.length_append, CHECKSUM_PREFIX, ascii] at seven
            simp at seven
            omega
          have lastTail : tail.getLast? = some SOH := by
            rw [List.getLast?_append] at closes
            cases tl : tail.getLast? with
            | none =>
                rw [List.getLast?_eq_none_iff] at tl
                simp [tl] at tailLen
            | some x => simpa [tl] using closes
          obtain ⟨digits, rfl⟩ : ∃ digits, tail = digits ++ [SOH] :=
            ⟨_, (List.dropLast_append_getLast? SOH lastTail).symm⟩
          refine ⟨body, digits, rest, ?_, bodyLen, ?_, ?_⟩
          · rw [split, trailerBytes]
            simp
          · by_cases zero : bodyEnd = 0
            · rw [if_pos zero] at atEnd
              cases atEnd
            · rw [if_neg zero, split, List.append_assoc, List.getElem?_append_left (by omega),
                ← bodyLen, ← List.getLast?_eq_getElem?] at atEnd
              exact atEnd
          · simp at tailLen
            simp [CHECKSUM_DIGITS, tailLen]

/-- The trailer check reads nothing past the frame. -/
theorem verifyTrailer_grow {src : Bytes} {bodyEnd : Nat}
    (whole : bodyEnd + TRAILER_LEN ≤ src.length) (more : Bytes) :
    verifyTrailer (src ++ more) bodyEnd (bodyEnd + TRAILER_LEN) =
      verifyTrailer src bodyEnd (bodyEnd + TRAILER_LEN) := by
  have cut : slice? (src ++ more) bodyEnd (bodyEnd + TRAILER_LEN) =
      slice? src bodyEnd (bodyEnd + TRAILER_LEN) := slice?_grow whole more
  have before : (if bodyEnd = 0 then none else (src ++ more)[bodyEnd - 1]?) =
      (if bodyEnd = 0 then none else src[bodyEnd - 1]?) := by
    split_ifs
    · rfl
    · rw [List.getElem?_append_left]
      simp only [TRAILER_LEN] at whole
      omega
  unfold verifyTrailer
  rw [cut, before]

end IronFix.Transport
