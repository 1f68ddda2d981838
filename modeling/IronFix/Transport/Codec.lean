import IronFix.TagValue.Checksum

/-!
# The framing codec

`FixCodec` cuts a byte stream into frames `8=…<SOH>9=…<SOH>` … `10=NNN<SOH>`.
Every function takes the codec and the read buffer and returns them as it
leaves them. What is only logged is left out.
-/

namespace IronFix.Transport

open Lib.Slice Lib.Decimal IronFix.TagValue

inductive CodecError where
  | incomplete
  | invalidBeginString
  | missingBodyLength
  | invalidBodyLength
  | headerTooLong (maxHeaderLen : Nat)
  | invalidTrailer (offset : Nat)
  | invalidChecksumFormat
  | checksumMismatch (calculated declared : UInt8)
  | messageTooLarge (size maxSize : Nat)
  | io (message : String)
  deriving DecidableEq, Repr

/-- Whether an error describes garbled input that can be skipped. -/
def CodecError.isRecoverable : CodecError → Bool
  | .invalidBeginString | .missingBodyLength | .invalidBodyLength
  | .headerTooLong _ | .invalidTrailer _ | .invalidChecksumFormat
  | .checksumMismatch _ _ => true
  | .incomplete | .messageTooLarge _ _ | .io _ => false

def BEGIN_STRING_PREFIX : Bytes := ascii "8="

/-- The header openings recovery mode accepts as a frame start. -/
def RECOVERY_ANCHORS : List Bytes :=
  [ascii "8=FIX.4.0\x019=", ascii "8=FIX.4.1\x019=", ascii "8=FIX.4.2\x019=",
   ascii "8=FIX.4.3\x019=", ascii "8=FIX.4.4\x019=", ascii "8=FIXT.1.1\x019="]

def BODY_LENGTH_PREFIX : Bytes := ascii "9="
def CHECKSUM_PREFIX : Bytes := ascii "10="
def TRAILER_LEN : Nat := 7
def CHECKSUM_DIGITS : Nat := 3
def MIN_FRAME_LEN : Nat := 20
def MAX_HEADER_LEN : Nat := 64
def MAX_BODY_LENGTH_DIGITS : Nat := 10

def parseBodyLength (bytes : Bytes) : Option Nat :=
  parseDigits MAX_BODY_LENGTH_DIGITS usizeMax bytes

/-- How many bytes to discard without recovery: up to the `8` of the next
`<SOH>8` pair, keeping a trailing SOH. `fuel` bounds the passes of the loop by
the length of the buffer. -/
def resyncOffsetLoop (src : Bytes) : Nat → Nat → Nat
  | 0, _ => src.length
  | fuel + 1, start =>
      match memchr SOH ((sliceFrom? src start).getD []) with
      | none => src.length
      | some relative =>
          let soh := start + relative
          let candidate := soh + 1
          match src[candidate]? with
          | none => soh
          | some byte =>
              if byte = 0x38 then candidate else resyncOffsetLoop src fuel candidate

def resyncOffset (src : Bytes) : Nat :=
  resyncOffsetLoop src (src.length + 1) 0

/-- How the bytes at a candidate frame start compare with the anchors. -/
inductive AnchorShape where
  | complete
  | partialOpening
  | rejected
  deriving DecidableEq, Repr

def anchorShapeLoop (rest : Bytes) : AnchorShape → List Bytes → AnchorShape
  | shape, [] => shape
  | shape, anchor :: anchors =>
      if anchor.isPrefixOf rest then .complete
      else if rest.length < anchor.length && rest.isPrefixOf anchor then
        anchorShapeLoop rest .partialOpening anchors
      else anchorShapeLoop rest shape anchors

def anchorShape (rest : Bytes) (anchors : List Bytes) : AnchorShape :=
  anchorShapeLoop rest .rejected anchors

/-- Whether a frame may start right after `prev`. -/
def boundaryBefore (prev : Option UInt8) : Bool :=
  match prev with
  | none => true
  | some byte => !isAsciiDigit byte && byte != EQUALS

/-- Recovery-mode counterpart of `resyncOffsetLoop`. -/
def recoveryResyncOffsetLoop (src : Bytes) (anchors : List Bytes) : Nat → Nat → Nat
  | 0, _ => src.length
  | fuel + 1, start =>
      match (sliceFrom? src start).bind (memchr 0x38) with
      | none => src.length
      | some relative =>
          let candidate := start + relative
          let prev := if candidate = 0 then none else src[candidate - 1]?
          let shape := ((sliceFrom? src candidate).map (anchorShape · anchors)).getD .rejected
          if boundaryBefore prev && shape != .rejected then candidate
          else recoveryResyncOffsetLoop src anchors fuel (candidate + 1)

/-- How many bytes to discard in recovery mode: up to the next candidate at
offset 1 or later. -/
def recoveryResyncOffset (src : Bytes) (anchors : List Bytes) : Nat :=
  recoveryResyncOffsetLoop src anchors (src.length + 1) 1

/-- Where a frame's body ends and the frame itself ends. -/
structure FrameLayout where
  bodyEnd : Nat
  totalLength : Nat
  deriving DecidableEq, Repr

/-- What a recovery-mode resync left behind for the next read to settle. -/
inductive ResyncState where
  | settled
  | emptiedAfter (last : UInt8)
  | partialOpening
  deriving DecidableEq, Repr

inductive SpanVerdict where
  | proceed
  | needMore
  | resynced
  deriving DecidableEq, Repr

structure FixCodec where
  maxMessageSize : Nat
  validateChecksum : Bool
  garbledRecovery : Bool
  /-- Skips since the count was last taken, at most `u64Max`. -/
  garbledCount : Nat
  recoveryAnchors : List Bytes
  resyncState : ResyncState
  /-- Anchors are only ever taken from the accepted header openings. -/
  anchors_known : ∀ anchor ∈ recoveryAnchors, anchor ∈ RECOVERY_ANCHORS

namespace FixCodec

def new : FixCodec where
  maxMessageSize := 1024 * 1024
  validateChecksum := true
  garbledRecovery := false
  garbledCount := 0
  recoveryAnchors := RECOVERY_ANCHORS
  resyncState := .settled
  anchors_known := fun _ member => member

def withMaxMessageSize (codec : FixCodec) (size : Nat) : FixCodec :=
  { codec with maxMessageSize := size }

def withChecksumValidation (codec : FixCodec) (validate : Bool) : FixCodec :=
  { codec with validateChecksum := validate }

def withGarbledRecovery (codec : FixCodec) (recover : Bool) : FixCodec :=
  { codec with garbledRecovery := recover }

/-- The BeginString an accepted header opening carries. -/
def anchorBeginString (anchor : Bytes) : Bytes :=
  (anchor.drop BEGIN_STRING_PREFIX.length).take (anchor.length - 5)

def withBeginString (codec : FixCodec) (beginString : Bytes) : FixCodec :=
  { codec with
    recoveryAnchors := (RECOVERY_ANCHORS.find? (anchorBeginString · == beginString)).toList
    anchors_known := by
      intro anchor member
      exact List.mem_of_find?_eq_some (Option.mem_toList.mp member) }

def takeGarbledCount (codec : FixCodec) : Nat × FixCodec :=
  (codec.garbledCount, { codec with garbledCount := 0 })

/-- Discards up to the next candidate frame start; in recovery mode records
what that leaves pending. -/
def resync (codec : FixCodec) (src : Bytes) : FixCodec × Bytes :=
  if codec.garbledRecovery then
    let anchors := codec.recoveryAnchors
    let discarded := recoveryResyncOffset src anchors
    let state :=
      if discarded = src.length then
        match (if discarded = 0 then none else src[discarded - 1]?) with
        | some last => ResyncState.emptiedAfter last
        | none => .settled
      else if anchorShape (src.drop discarded) anchors = .partialOpening then .partialOpening
      else .settled
    ({ codec with resyncState := state }, src.drop discarded)
  else (codec, src.drop (resyncOffset src))

/-- Judges the start of the buffer against what the last resync left pending. -/
def judgeResyncStart (codec : FixCodec) (src : Bytes) : SpanVerdict × FixCodec × Bytes :=
  match codec.resyncState with
  | .settled => (.proceed, codec, src)
  | pending =>
      let afterBoundary := match pending with
        | .emptiedAfter prev => boundaryBefore (some prev)
        | _ => true
      if src.isEmpty then (.needMore, codec, src)
      else
        let shape :=
          if afterBoundary then
            if codec.recoveryAnchors.isEmpty then .complete
            else anchorShape src codec.recoveryAnchors
          else .rejected
        match shape with
        | .complete => (.proceed, { codec with resyncState := .settled }, src)
        | .partialOpening => (.needMore, codec, src)
        | .rejected => (.resynced, codec.resync src)

/-- What a header-phase miss means for a buffer of `srcLen` bytes. -/
def headerNeedsMore (codec : FixCodec) (srcLen : Nat) :
    Except CodecError (Option FrameLayout) :=
  let tooLarge := srcLen > codec.maxMessageSize
  let tooLong := srcLen ≥ MAX_HEADER_LEN
  let headerTooLong := CodecError.headerTooLong MAX_HEADER_LEN
  if codec.garbledRecovery ∧ tooLong then .error headerTooLong
  else if tooLarge then .error (.messageTooLarge srcLen codec.maxMessageSize)
  else if tooLong then .error headerTooLong
  else .ok none

/-- Parses the `8=…<SOH>9=…<SOH>` header and derives the frame layout it
declares. -/
def scanHeader (codec : FixCodec) (bytes : Bytes) :
    Except CodecError (Option FrameLayout) :=
  let header := (sliceTo? bytes MAX_HEADER_LEN).getD bytes
  let needsMore := codec.headerNeedsMore bytes.length
  match memchr SOH header with
  | none => needsMore
  | some firstSoh => do
      let bodyLenStart ← okOr (checkedAdd usizeMax firstSoh 1) .invalidBodyLength
      let bodyLenEnd ←
        okOr (checkedAdd usizeMax bodyLenStart BODY_LENGTH_PREFIX.length) .invalidBodyLength
      match slice? header bodyLenStart bodyLenEnd with
      | none => needsMore
      | some found =>
          if found ≠ BODY_LENGTH_PREFIX then .error .missingBodyLength
          else
            match sliceFrom? header bodyLenEnd with
            | none => needsMore
            | some afterPrefix =>
                match memchr SOH afterPrefix with
                | none => needsMore
                | some digitsLen => do
                    let digits ← okOr (sliceTo? afterPrefix digitsLen) .invalidBodyLength
                    let bodyLength ← okOr (parseBodyLength digits) .invalidBodyLength
                    let bodyLenSoh ←
                      okOr (checkedAdd usizeMax bodyLenEnd digitsLen) .invalidBodyLength
                    let bodyStart ← okOr (checkedAdd usizeMax bodyLenSoh 1) .invalidBodyLength
                    let bodyEnd ← okOr (checkedAdd usizeMax bodyStart bodyLength) .invalidBodyLength
                    let totalLength ←
                      okOr (checkedAdd usizeMax bodyEnd TRAILER_LEN) .invalidBodyLength
                    if totalLength > codec.maxMessageSize then
                      .error (.messageTooLarge totalLength codec.maxMessageSize)
                    else .ok (some ⟨bodyEnd, totalLength⟩)

/-- Counts one skipped garbled frame, and takes a byte if the skip took none.
An unrepresentable count returns the error instead. -/
def recordSkip (codec : FixCodec) (src : Bytes) (before : Nat) (error : CodecError) :
    Except CodecError Unit × FixCodec × Bytes :=
  match checkedAdd u64Max codec.garbledCount 1 with
  | none => (.error error, codec, src)
  | some count =>
      let codec := { codec with garbledCount := count }
      if src.length ≥ before ∧ ¬src.isEmpty then (.ok (), codec, src.drop 1)
      else (.ok (), codec, src)

/-- Reports a header that cannot frame a legal message. -/
def rejectHeader (codec : FixCodec) (src : Bytes) (error : CodecError) :
    Except CodecError (Option Bytes) × FixCodec × Bytes :=
  if codec.garbledRecovery ∧ error.isRecoverable then (.error error, codec.resync src)
  else (.error error, codec, src)

end FixCodec

/-- Verifies the `<SOH>10=NNN<SOH>` trailer at `bodyEnd` and returns the
declared checksum. -/
def verifyTrailer (src : Bytes) (bodyEnd totalLength : Nat) : Except CodecError UInt8 :=
  let malformed := CodecError.invalidTrailer bodyEnd
  if (if bodyEnd = 0 then none else src[bodyEnd - 1]?) ≠ some SOH then .error malformed
  else do
    let trailer ← okOr (slice? src bodyEnd totalLength) malformed
    if sliceTo? trailer CHECKSUM_PREFIX.length ≠ some CHECKSUM_PREFIX then .error malformed
    else if trailer.getLast? ≠ some SOH then .error malformed
    else
      let digitsEnd ← okOr (checkedAdd usizeMax CHECKSUM_PREFIX.length CHECKSUM_DIGITS) malformed
      let digits ← okOr (slice? trailer CHECKSUM_PREFIX.length digitsEnd) malformed
      okOr (parseChecksum digits) .invalidChecksumFormat

namespace FixCodec

/-- Extracts one complete frame from `src`, or reports why it cannot: a single
framing attempt. -/
def decodeOne (codec : FixCodec) (src : Bytes) :
    Except CodecError (Option Bytes) × FixCodec × Bytes :=
  if src.length < MIN_FRAME_LEN then (.ok none, codec, src)
  else if sliceTo? src BEGIN_STRING_PREFIX.length ≠ some BEGIN_STRING_PREFIX then
    (.error .invalidBeginString, codec.resync src)
  else
    match codec.scanHeader src with
    | .error error => codec.rejectHeader src error
    | .ok none => (.ok none, codec, src)
    | .ok (some ⟨bodyEnd, totalLength⟩) =>
        if src.length < totalLength then (.ok none, codec, src)
        else
          match verifyTrailer src bodyEnd totalLength with
          | .error (.invalidTrailer offset) =>
              (.error (.invalidTrailer offset), codec.resync src)
          | .error error => (.error error, codec, src.drop totalLength)
          | .ok declared =>
              let message := (.ok (some (src.take totalLength)), codec, src.drop totalLength)
              if codec.validateChecksum then
                match (sliceTo? src bodyEnd).map calculateChecksum with
                | some sum =>
                    if sum = declared then message
                    else (.error (.checksumMismatch sum declared), codec, src.drop totalLength)
                | none => (.error (.invalidTrailer bodyEnd), codec.resync src)
              else message

/-- The recovery loop of one `decode` call, `none` when `fuel` passes are not
enough. -/
def decodeLoop : Nat → FixCodec → Bytes →
    Option (Except CodecError (Option Bytes) × FixCodec × Bytes)
  | 0, _, _ => none
  | fuel + 1, codec, src =>
      let judged :=
        if codec.garbledRecovery ∧ codec.resyncState ≠ .settled then codec.judgeResyncStart src
        else (.proceed, codec, src)
      match judged with
      | (.needMore, codec, src) => some (.ok none, codec, src)
      | (.resynced, codec, src) => decodeLoop fuel codec src
      | (.proceed, codec, src) =>
          let before := src.length
          match codec.decodeOne src with
          | (.ok (some frame), codec, src) =>
              some (.ok (some frame), { codec with resyncState := .settled }, src)
          | (.ok none, codec, src) => some (.ok none, codec, src)
          | (.error error, codec, src) =>
              if ¬codec.garbledRecovery ∨ ¬error.isRecoverable then
                some (.error error, codec, src)
              else
                match codec.recordSkip src before error with
                | (.error error, codec, src) => some (.error error, codec, src)
                | (.ok (), codec, src) => decodeLoop fuel codec src

end FixCodec

end IronFix.Transport
