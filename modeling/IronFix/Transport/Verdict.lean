import IronFix.Transport.Resync

/-!
# The verdict of a framing attempt

`verdict` is what one attempt decides from the bytes alone; `decodeOne_eq`
says that `decodeOne` is that decision and its effect on codec and buffer.
What follows for each decision is proved here once: a `frame` is well formed,
a skip consumes bytes, and in recovery mode a decision is final.
-/

namespace IronFix.Transport

open Lib.Slice Lib.Decimal IronFix.TagValue

/-- What one framing attempt decides. -/
inductive Verdict where
  /-- Not enough bytes yet. -/
  | wait
  /-- The first `n` bytes are a frame. -/
  | frame (n : Nat)
  /-- Garbled, with no boundary to trust: resynchronise. -/
  | garbled (error : CodecError)
  /-- Garbled, but the boundary at `n` is corroborated: discard the frame. -/
  | misframed (n : Nat) (error : CodecError)
  /-- Reported, consuming nothing. -/
  | refused (error : CodecError)
  deriving DecidableEq, Repr

/-- The settings of two codecs agree; counts and pending resyncs may differ. -/
structure SameConfig (a b : FixCodec) : Prop where
  maxMessageSize : a.maxMessageSize = b.maxMessageSize
  validateChecksum : a.validateChecksum = b.validateChecksum
  garbledRecovery : a.garbledRecovery = b.garbledRecovery
  recoveryAnchors : a.recoveryAnchors = b.recoveryAnchors

theorem SameConfig.refl (a : FixCodec) : SameConfig a a := ⟨rfl, rfl, rfl, rfl⟩

theorem SameConfig.trans {a b c : FixCodec} (ab : SameConfig a b) (bc : SameConfig b c) :
    SameConfig a c :=
  ⟨ab.1.trans bc.1, ab.2.trans bc.2, ab.3.trans bc.3, ab.4.trans bc.4⟩

/-- A well-formed frame: header, body and trailer, with a BodyLength that
points exactly at the trailer. -/
structure IsFrame (codec : FixCodec) (frame beginning digits body checksum : Bytes) : Prop where
  split : frame = headerBytes beginning digits ++ body ++ trailerBytes checksum
  opens : BEGIN_STRING_PREFIX <+: beginning
  clean : SOH ∉ beginning
  cleanDigits : SOH ∉ digits
  window : (headerBytes beginning digits).length ≤ MAX_HEADER_LEN
  bodyLength : parseBodyLength digits = some body.length
  ends : (headerBytes beginning digits ++ body).getLast? = some SOH
  checksum_length : checksum.length = CHECKSUM_DIGITS
  declared : ∃ sum, parseChecksum checksum = some sum ∧
    (codec.validateChecksum = true → calculateChecksum (headerBytes beginning digits ++ body) = sum)
  fits : frame.length ≤ codec.maxMessageSize
  room : frame.length ≤ usizeMax

namespace FixCodec

variable {codec : FixCodec} {src : Bytes}

/-- The decision of one framing attempt on the buffered bytes. -/
def verdict (codec : FixCodec) (src : Bytes) : Verdict :=
  if src.length < MIN_FRAME_LEN then .wait
  else if sliceTo? src BEGIN_STRING_PREFIX.length ≠ some BEGIN_STRING_PREFIX then
    .garbled .invalidBeginString
  else
    match codec.scanHeader src with
    | .error error =>
        if codec.garbledRecovery ∧ error.isRecoverable then .garbled error else .refused error
    | .ok none => .wait
    | .ok (some ⟨bodyEnd, totalLength⟩) =>
        if src.length < totalLength then .wait
        else
          match verifyTrailer src bodyEnd totalLength with
          | .error (.invalidTrailer offset) => .garbled (.invalidTrailer offset)
          | .error error => .misframed totalLength error
          | .ok declared =>
              if codec.validateChecksum then
                match (sliceTo? src bodyEnd).map calculateChecksum with
                | some sum =>
                    if sum = declared then .frame totalLength
                    else .misframed totalLength (.checksumMismatch sum declared)
                | none => .garbled (.invalidTrailer bodyEnd)
              else .frame totalLength

/-- The effect of a decision on the codec and the buffer. -/
def carryOut (codec : FixCodec) (src : Bytes) :
    Verdict → Except CodecError (Option Bytes) × FixCodec × Bytes
  | .wait => (.ok none, codec, src)
  | .frame n => (.ok (some (src.take n)), codec, src.drop n)
  | .garbled error => (.error error, codec.resync src)
  | .misframed n error => (.error error, codec, src.drop n)
  | .refused error => (.error error, codec, src)

/-- A framing attempt is its decision and the effect of it. -/
theorem decodeOne_eq (codec : FixCodec) (src : Bytes) :
    codec.decodeOne src = codec.carryOut src (codec.verdict src) := by
  unfold decodeOne verdict
  by_cases short : src.length < MIN_FRAME_LEN
  · rw [if_pos short, if_pos short]
    rfl
  rw [if_neg short, if_neg short]
  by_cases opens : sliceTo? src BEGIN_STRING_PREFIX.length = some BEGIN_STRING_PREFIX
  case neg =>
    rw [if_pos opens, if_pos opens]
    rfl
  rw [if_neg (not_not_intro opens), if_neg (not_not_intro opens)]
  cases codec.scanHeader src with
  | error error =>
      simp only [rejectHeader]
      split <;> rfl
  | ok found =>
      cases found with
      | none => rfl
      | some layout =>
          simp only
          split
          · rfl
          · cases verifyTrailer src layout.bodyEnd layout.totalLength with
            | error error => cases error <;> rfl
            | ok declared =>
                simp only
                split
                · cases (sliceTo? src layout.bodyEnd).map calculateChecksum with
                  | none => rfl
                  | some sum =>
                      simp only
                      split <;> rfl
                · rfl

theorem scanHeader_congr {a b : FixCodec} (same : SameConfig a b) (bytes : Bytes) :
    a.scanHeader bytes = b.scanHeader bytes := by
  unfold scanHeader headerNeedsMore
  rw [same.maxMessageSize, same.garbledRecovery]

theorem verdict_congr {a b : FixCodec} (same : SameConfig a b) (src : Bytes) :
    a.verdict src = b.verdict src := by
  unfold verdict
  rw [scanHeader_congr same, same.garbledRecovery, same.validateChecksum]

theorem resync_config (codec : FixCodec) (src : Bytes) : SameConfig (codec.resync src).1 codec := by
  unfold resync
  split <;> exact ⟨rfl, rfl, rfl, rfl⟩

theorem resync_count (codec : FixCodec) (src : Bytes) :
    (codec.resync src).1.garbledCount = codec.garbledCount := by
  unfold resync
  split <;> rfl

/-- The first bytes of `src` are laid out as a header declares: that header, a
body of the declared length ending in SOH, and a CheckSum field. -/
structure Framed (codec : FixCodec) (src beginning digits body checksum rest : Bytes) : Prop where
  split : src = headerBytes beginning digits ++ body ++ trailerBytes checksum ++ rest
  least : MIN_FRAME_LEN ≤ src.length
  opens : BEGIN_STRING_PREFIX <+: beginning
  clean : SOH ∉ beginning
  cleanDigits : SOH ∉ digits
  window : (headerBytes beginning digits).length ≤ MAX_HEADER_LEN
  parsed : parseBodyLength digits = some body.length
  ends : (headerBytes beginning digits ++ body).getLast? = some SOH
  len : checksum.length = CHECKSUM_DIGITS
  fits : (headerBytes beginning digits ++ body).length + TRAILER_LEN ≤ codec.maxMessageSize
  room : (headerBytes beginning digits ++ body).length + TRAILER_LEN ≤ usizeMax

/-- The decision past the header, on bytes that are laid out as the header
declares. -/
theorem verdict_framed {beginning digits body checksum rest : Bytes}
    (f : codec.Framed src beginning digits body checksum rest) :
    codec.verdict src =
      match parseChecksum checksum with
      | none => .misframed ((headerBytes beginning digits ++ body).length + TRAILER_LEN)
          .invalidChecksumFormat
      | some declared =>
          if codec.validateChecksum = true ∧
              calculateChecksum (headerBytes beginning digits ++ body) ≠ declared then
            .misframed ((headerBytes beginning digits ++ body).length + TRAILER_LEN)
              (.checksumMismatch (calculateChecksum (headerBytes beginning digits ++ body)) declared)
          else .frame ((headerBytes beginning digits ++ body).length + TRAILER_LEN) := by
  obtain ⟨split, least, opens, clean, cleanDigits, within, parsed, ends, len, fits, room⟩ := f
  subst split
  have total : (headerBytes beginning digits).length + body.length + TRAILER_LEN =
      (headerBytes beginning digits ++ body).length + TRAILER_LEN := by
    rw [List.length_append]
  have scanned := (scanHeader_whole clean cleanDigits within (body ++ trailerBytes checksum ++ rest)
    : codec.scanHeader _ = _).trans (declaredLayout_of_fits parsed (total ▸ fits) (total ▸ room))
  rw [← List.append_assoc, ← List.append_assoc] at scanned
  have ending : (headerBytes beginning digits).length + body.length =
      (headerBytes beginning digits ++ body).length := List.length_append.symm
  rw [ending] at scanned
  have verified := verifyTrailer_append rest ends len
  have trailerLen := trailerBytes_length len
  obtain ⟨value, hvalue⟩ := opens
  have starts : sliceTo? (headerBytes beginning digits ++ body ++ trailerBytes checksum ++ rest)
      BEGIN_STRING_PREFIX.length = some BEGIN_STRING_PREFIX := by
    rw [headerBytes, ← hvalue]
    simp only [List.append_assoc]
    exact sliceTo?_append _ _
  have covered : sliceTo? (headerBytes beginning digits ++ body ++ trailerBytes checksum ++ rest)
      (headerBytes beginning digits ++ body).length = some (headerBytes beginning digits ++ body) := by
    rw [List.append_assoc _ _ rest]
    exact sliceTo?_append _ _
  have long : ¬(headerBytes beginning digits ++ body ++ trailerBytes checksum ++ rest).length <
      (headerBytes beginning digits ++ body).length + TRAILER_LEN := by
    rw [List.length_append, List.length_append, trailerLen]
    omega
  unfold verdict
  rw [if_neg (by omega), if_neg (not_not_intro starts)]
  simp only [scanned]
  rw [if_neg long, verified, covered]
  cases parseChecksum checksum with
  | none => rfl
  | some declared =>
      simp only [okOr_some, Option.map_some]
      by_cases validates : codec.validateChecksum = true <;>
        by_cases agrees : calculateChecksum (headerBytes beginning digits ++ body) = declared <;>
          simp [validates, agrees]

/-- Nothing is decided on a part of such bytes. -/
theorem verdict_part {beginning digits body checksum part : Bytes}
    (f : codec.Framed src beginning digits body checksum []) (starts : part <+: src)
    (proper : part.length < src.length) : codec.verdict part = .wait := by
  obtain ⟨split, _, opens, clean, cleanDigits, within, parsed, _, len, fits, room⟩ := f
  rw [List.append_nil] at split
  have total : src.length = (headerBytes beginning digits ++ body).length + TRAILER_LEN := by
    rw [split, List.length_append, trailerBytes_length len]
  have header : headerBytes beginning digits <+: src := by
    rw [split, List.append_assoc]
    exact List.prefix_append _ _
  unfold verdict
  by_cases short : part.length < MIN_FRAME_LEN
  · exact if_pos short
  have opening : sliceTo? part BEGIN_STRING_PREFIX.length = some BEGIN_STRING_PREFIX := by
    have first : BEGIN_STRING_PREFIX <+: part := by
      refine List.prefix_of_prefix_length_le
        (opens.trans ((List.prefix_append _ _).trans header)) starts ?_
      exact le_trans (by decide) (Nat.le_of_not_lt short)
    obtain ⟨more, rfl⟩ := first
    exact sliceTo?_append _ _
  rw [if_neg short, if_neg (not_not_intro opening)]
  rcases Nat.lt_or_ge part.length (headerBytes beginning digits).length with inside | past
  · -- the header itself is not all there
    have inHeader := List.prefix_of_prefix_length_le starts header (Nat.le_of_lt inside)
    rw [scanHeader_part clean cleanDigits within inHeader inside,
      headerNeedsMore_short (by omega) (by omega)]
  · obtain ⟨rest, rfl⟩ := List.prefix_of_prefix_length_le header starts past
    rw [scanHeader_whole clean cleanDigits within, declaredLayout_of_fits parsed
      (by rw [← List.length_append]; omega) (by rw [← List.length_append]; omega)]
    have missing : (headerBytes beginning digits ++ rest).length <
        (headerBytes beginning digits).length + body.length + TRAILER_LEN := by
      rw [← List.length_append]
      omega
    exact if_pos missing

/-- A decision that trusts the declared boundary has read a whole frame up to
its digits. -/
theorem verdict_layout {n : Nat}
    (h : codec.verdict src = .frame n ∨ ∃ error, codec.verdict src = .misframed n error) :
    ∃ beginning digits body checksum rest,
      codec.Framed src beginning digits body checksum rest ∧
      n = (headerBytes beginning digits ++ body).length + TRAILER_LEN := by
  have refuted : ∀ v, codec.verdict src = v → (∀ n, v ≠ .frame n) →
      (∀ n e, v ≠ .misframed n e) → False := by
    rintro v rfl noFrame noMisframed
    rcases h with h | ⟨e, h⟩
    · exact noFrame n h
    · exact noMisframed n e h
  have decided := h
  unfold verdict at h refuted
  by_cases short : src.length < MIN_FRAME_LEN
  · exact (refuted .wait (if_pos short) (by simp) (by simp)).elim
  by_cases opens : sliceTo? src BEGIN_STRING_PREFIX.length = some BEGIN_STRING_PREFIX
  case neg =>
    refine (refuted (.garbled .invalidBeginString) ?_ (by simp) (by simp)).elim
    rw [if_neg short, if_pos opens]
  rw [if_neg short, if_neg (not_not_intro opens)] at h refuted
  cases scanned : codec.scanHeader src with
  | error error =>
      simp only [scanned] at refuted
      by_cases skips : codec.garbledRecovery = true ∧ error.isRecoverable = true
      · exact (refuted (.garbled error) (if_pos skips) (by simp) (by simp)).elim
      · exact (refuted (.refused error) (if_neg skips) (by simp) (by simp)).elim
  | ok found =>
      cases found with
      | none =>
          simp only [scanned] at refuted
          exact (refuted .wait rfl (by simp) (by simp)).elim
      | some layout =>
          obtain ⟨beginning, digits, rest, bodyLength, d⟩ := scanHeader_some scanned
          simp only [scanned] at h refuted
          by_cases long : src.length < layout.totalLength
          · exact (refuted .wait (if_pos long) (by simp) (by simp)).elim
          rw [if_neg long, d.total] at h refuted
          rcases verifyTrailer_cases src layout.bodyEnd with bad |
            ⟨front, checksum, tail, split, frontLen, ends, len⟩
          · simp only [bad] at refuted
            exact (refuted (.garbled (.invalidTrailer layout.bodyEnd)) rfl (by simp) (by simp)).elim
          · -- the bytes before the trailer are the header and the body
            have order : headerBytes beginning digits <+: front := by
              refine List.prefix_of_prefix_length_le ⟨rest, d.split.symm⟩
                ⟨trailerBytes checksum ++ tail, by rw [split]; simp⟩ ?_
              rw [frontLen, d.bodyEnd]
              omega
            obtain ⟨body, rfl⟩ := order
            have bodyLen : body.length = bodyLength := by
              rw [List.length_append, d.bodyEnd] at frontLen
              omega
            have total := d.total
            rw [← frontLen] at total
            have startsWith : BEGIN_STRING_PREFIX <+: beginning := by
              obtain ⟨after, hsrc, _⟩ := sliceTo?_eq_some_iff.mp opens
              have eight : BEGIN_STRING_PREFIX = [0x38, 0x3D] := rfl
              rw [d.split, headerBytes, eight] at hsrc
              rw [eight]
              rcases beginning with _ | ⟨a, _ | ⟨b, more⟩⟩
              · simp [SOH] at hsrc
              · simp [SOH] at hsrc
              · simp only [List.cons_append, List.nil_append, List.cons.injEq] at hsrc
                rw [hsrc.1, hsrc.2.1]
                exact ⟨more, rfl⟩
            have framed : codec.Framed src beginning digits body checksum tail :=
              ⟨split, by omega, startsWith, d.clean, d.cleanDigits, d.window, bodyLen ▸ d.parsed,
                ends, len, total ▸ d.fits, total ▸ d.room⟩
            refine ⟨beginning, digits, body, checksum, tail, framed, ?_⟩
            rw [verdict_framed framed] at decided
            cases declared : parseChecksum checksum with
            | none => simpa [declared, eq_comm] using decided
            | some value =>
                simp only [declared] at decided
                split at decided
                · simpa [eq_comm] using decided
                · simpa [eq_comm] using decided

/-- Where the decision is a frame or a misframed one, `n` bytes are there. -/
theorem verdict_length {n : Nat}
    (h : codec.verdict src = .frame n ∨ ∃ error, codec.verdict src = .misframed n error) :
    MIN_FRAME_LEN ≤ src.length ∧ TRAILER_LEN ≤ n ∧ n ≤ src.length := by
  obtain ⟨beginning, digits, body, checksum, rest, framed, rfl⟩ := verdict_layout h
  have len := congrArg List.length framed.split
  rw [List.length_append, List.length_append, trailerBytes_length framed.len] at len
  exact ⟨framed.least, Nat.le_add_left _ _, by omega⟩

/-- A frame that is handed up is well formed. -/
theorem verdict_frame {n : Nat} (h : codec.verdict src = .frame n) :
    ∃ beginning digits body checksum,
      IsFrame codec (src.take n) beginning digits body checksum := by
  obtain ⟨beginning, digits, body, checksum, rest, framed, rfl⟩ := verdict_layout (.inl h)
  have cut : src.take ((headerBytes beginning digits ++ body).length + TRAILER_LEN) =
      headerBytes beginning digits ++ body ++ trailerBytes checksum := by
    rw [framed.split]
    refine List.take_left' ?_
    rw [List.length_append, trailerBytes_length framed.len]
  rw [verdict_framed framed] at h
  refine ⟨beginning, digits, body, checksum, cut, framed.opens, framed.clean, framed.cleanDigits,
    framed.window, framed.parsed, framed.ends, framed.len, ?_, ?_, ?_⟩
  · cases declared : parseChecksum checksum with
    | none => simp [declared] at h
    | some sum =>
        simp only [declared] at h
        split at h
        · cases h
        · rename_i agrees
          exact ⟨sum, rfl, fun validates => by_contra fun differs => agrees ⟨validates, differs⟩⟩
  · rw [cut, List.length_append, trailerBytes_length framed.len]
    exact framed.fits
  · rw [cut, List.length_append, trailerBytes_length framed.len]
    exact framed.room

/-- The error of a misframed decision is recoverable. -/
theorem verdict_misframed {n : Nat} {error : CodecError}
    (h : codec.verdict src = .misframed n error) : error.isRecoverable = true := by
  obtain ⟨beginning, digits, body, checksum, rest, framed, rfl⟩ := verdict_layout (.inr ⟨error, h⟩)
  rw [verdict_framed framed] at h
  cases declared : parseChecksum checksum with
  | none =>
      simp only [declared, Verdict.misframed.injEq] at h
      rw [← h.2]
      rfl
  | some sum =>
      simp only [declared] at h
      split at h
      · rw [← (Verdict.misframed.inj h).2]
        rfl
      · cases h

theorem verdict_garbled {error : CodecError} (h : codec.verdict src = .garbled error) :
    error.isRecoverable = true ∧ MIN_FRAME_LEN ≤ src.length := by
  unfold verdict at h
  by_cases short : src.length < MIN_FRAME_LEN
  · rw [if_pos short] at h
    cases h
  refine ⟨?_, Nat.le_of_not_lt short⟩
  rw [if_neg short] at h
  split at h
  · cases h
    rfl
  · split at h
    · split at h
      · rename_i skips
        cases h
        exact skips.2
      · cases h
    · cases h
    · split at h
      · cases h
      · split at h
        · cases h
          rfl
        · cases h
        · split at h
          · split at h
            · split at h <;> cases h
            · cases h
              rfl
          · cases h

theorem verdict_refused {error : CodecError} (h : codec.verdict src = .refused error)
    (recovery : codec.garbledRecovery = true) : error.isRecoverable = false := by
  unfold verdict at h
  split at h
  · cases h
  · split at h
    · cases h
    · split at h
      · split at h
        · cases h
        · rename_i keeps
          cases h
          simpa [recovery] using keeps
      · cases h
      · split at h
        · cases h
        · split at h
          · cases h
          · cases h
          · split at h
            · split at h
              · split at h <;> cases h
              · cases h
            · cases h

/-- In recovery mode a decision other than to wait is final, provided the size
limit leaves room for a whole header window. -/
theorem verdict_grow (recovery : codec.garbledRecovery = true)
    (room : MAX_HEADER_LEN ≤ codec.maxMessageSize + 1) (decided : codec.verdict src ≠ .wait)
    (more : Bytes) : codec.verdict (src ++ more) = codec.verdict src := by
  unfold verdict at decided ⊢
  by_cases short : src.length < MIN_FRAME_LEN
  · rw [if_pos short] at decided
    exact absurd rfl decided
  rw [if_neg short] at decided ⊢
  rw [if_neg (by rw [List.length_append]; omega)]
  have start : sliceTo? (src ++ more) BEGIN_STRING_PREFIX.length =
      sliceTo? src BEGIN_STRING_PREFIX.length :=
    sliceTo?_grow (le_trans (by decide) (Nat.le_of_not_lt short)) more
  rw [start]
  by_cases opens : sliceTo? src BEGIN_STRING_PREFIX.length = some BEGIN_STRING_PREFIX
  case neg => rw [if_pos opens, if_pos opens]
  rw [if_neg (not_not_intro opens)] at decided ⊢
  rw [if_neg (not_not_intro opens)]
  by_cases waits : codec.scanHeader src = .ok none
  · rw [waits] at decided
    exact absurd rfl decided
  rw [scanHeader_grow recovery room waits more]
  cases scanned : codec.scanHeader src with
  | error error => rfl
  | ok found =>
      cases found with
      | none => exact absurd scanned waits
      | some layout =>
          obtain ⟨_, _, _, _, declares⟩ := scanHeader_some scanned
          simp only [scanned] at decided ⊢
          by_cases long : src.length < layout.totalLength
          · rw [if_pos long] at decided
            exact absurd rfl decided
          rw [if_neg long, if_neg (by rw [List.length_append]; omega)]
          have whole : layout.bodyEnd + TRAILER_LEN ≤ src.length := by
            rw [← declares.total]
            omega
          have covered : sliceTo? (src ++ more) layout.bodyEnd = sliceTo? src layout.bodyEnd :=
            sliceTo?_grow (by omega) more
          rw [declares.total, verifyTrailer_grow whole, covered]

end FixCodec

end IronFix.Transport
