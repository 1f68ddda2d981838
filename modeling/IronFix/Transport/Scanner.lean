import IronFix.Lib.Incremental
import IronFix.Transport.Decode

/-!
# Garbled recovery as a scanner

The intent of recovery mode, without the codec's buffering and remembered
resync state: a scanner is either aligned, and judges the bytes as a frame, or
inside a garbled span, where it advances byte by byte to the next position at
which an accepted opening follows a plausible boundary. Its moves are final,
so `scanner` is a reader.
-/

namespace IronFix.Transport

open Lib.Decimal Lib.Incremental

/-- A codec that recovers: recovery is on, there is an opening to look for, and
the size limit leaves room for a whole header window. -/
structure Recovers (codec : FixCodec) : Prop where
  recovery : codec.garbledRecovery = true
  anchored : codec.recoveryAnchors ≠ []
  room : MAX_HEADER_LEN ≤ codec.maxMessageSize + 1

inductive ScanMode where
  | aligned
  /-- Inside a garbled span; whether a frame may start here. -/
  | inSpan (boundary : Bool)
  | halted

structure Scan where
  mode : ScanMode
  count : Nat

namespace Scan

/-- Counts a skip of `n` bytes, or halts when it cannot be counted. -/
def skip (scan : Scan) (n : Nat) (mode : ScanMode) (error : CodecError) :
    Move Scan (Bytes ⊕ CodecError) :=
  if scan.count + 1 ≤ u64Max then .take n ⟨mode, scan.count + 1⟩ []
  else .take n ⟨.halted, scan.count⟩ [.inr error]

/-- How an opening at the start of the buffer compares with the anchors. -/
def opening (codec : FixCodec) (boundary : Bool) (buffer : Bytes) : AnchorShape :=
  if boundary then anchorShape buffer codec.recoveryAnchors else .rejected

/-- The mode behind a discarded byte. -/
def past (byte : UInt8) : ScanMode := .inSpan (boundaryBefore (some byte))

def move (codec : FixCodec) (scan : Scan) (buffer : Bytes) : Move Scan (Bytes ⊕ CodecError) :=
  match scan.mode, buffer with
  | .halted, _ => .wait
  | .inSpan _, [] => .wait
  | .inSpan boundary, byte :: rest =>
      match opening codec boundary (byte :: rest) with
      | .complete => .take 0 { scan with mode := .aligned } []
      | .partialOpening => .wait
      | .rejected => .take 1 { scan with mode := past byte } []
  | .aligned, buffer =>
      match codec.verdict buffer, buffer with
      | .wait, _ => .wait
      | .frame n, buffer => .take n { scan with mode := .aligned } [.inl (buffer.take n)]
      | .garbled error, byte :: _ => scan.skip 1 (past byte) error
      | .garbled _, [] => .wait
      | .misframed n error, _ => scan.skip n .aligned error
      | .refused error, _ => .take 0 { scan with mode := .halted } [.inr error]

variable {codec : FixCodec} {scan : Scan} {buffer : Bytes}

theorem skip_take {n m : Nat} {mode : ScanMode} {error : CodecError} {next : Scan}
    {out : List (Bytes ⊕ CodecError)} (h : scan.skip n mode error = .take m next out) : m = n := by
  unfold skip at h
  split at h <;> cases h <;> rfl

theorem opening_grow {boundary : Bool} (decided : opening codec boundary buffer ≠ .partialOpening)
    (more : Bytes) :
    opening codec boundary (buffer ++ more) = opening codec boundary buffer := by
  unfold opening at decided ⊢
  cases boundary with
  | false => rfl
  | true =>
      simp only [if_true] at decided ⊢
      cases shape : anchorShape buffer codec.recoveryAnchors with
      | complete => exact anchorShape_complete_grow shape more
      | rejected => exact anchorShape_rejected_grow shape more
      | partialOpening => exact absurd shape decided

theorem move_bounded {n : Nat} {next : Scan} {out : List (Bytes ⊕ CodecError)}
    (h : move codec scan buffer = .take n next out) : n ≤ buffer.length := by
  unfold move at h
  split at h
  · cases h
  · cases h
  · split at h
    · cases h
      exact Nat.zero_le _
    · cases h
    · cases h
      simp
  · split at h
    · cases h
    · rename_i decided
      cases h
      exact (FixCodec.verdict_length (.inl decided)).2.2
    · rw [skip_take h]
      simp
    · cases h
    · rename_i error decided
      rw [skip_take h]
      exact (FixCodec.verdict_length (.inr ⟨error, decided⟩)).2.2
    · cases h
      exact Nat.zero_le _

theorem move_stable (recovers : Recovers codec) {n : Nat} {next : Scan}
    {out : List (Bytes ⊕ CodecError)} (h : move codec scan buffer = .take n next out)
    (more : Bytes) : move codec scan (buffer ++ more) = .take n next out := by
  have bound := move_bounded h
  obtain ⟨mode, count⟩ := scan
  cases mode with
  | halted => cases h
  | inSpan boundary =>
      cases buffer with
      | nil => cases h
      | cons byte rest =>
          have decided : opening codec boundary (byte :: rest) ≠ .partialOpening := by
            intro partly
            simp only [move, partly] at h
            cases h
          have grown := opening_grow decided more
          rw [List.cons_append] at grown ⊢
          simp only [move, grown] at h ⊢
          exact h
  | aligned =>
      have decided : codec.verdict buffer ≠ .wait := by
        intro waits
        simp only [move, waits] at h
        cases h
      have grown := FixCodec.verdict_grow recovers.recovery recovers.room decided more
      cases judged : codec.verdict buffer with
      | wait => exact absurd judged decided
      | frame k =>
          have inside := (FixCodec.verdict_length (.inl judged)).2.2
          simp only [move, judged] at h
          simp only [move, grown, judged]
          rw [List.take_append_of_le_length inside]
          exact h
      | garbled error =>
          cases buffer with
          | nil =>
              simp only [move, judged] at h
              cases h
          | cons byte rest =>
              simp only [List.cons_append] at grown ⊢
              simp only [move, judged] at h
              simp only [move, grown, judged]
              exact h
      | misframed k error =>
          simp only [move, judged] at h
          simp only [move, grown, judged]
          exact h
      | refused error =>
          simp only [move, judged] at h
          simp only [move, grown, judged]
          exact h

end Scan

/-- The scanner of a codec that recovers. -/
def scanner (codec : FixCodec) (recovers : Recovers codec) :
    Reader Scan UInt8 (Bytes ⊕ CodecError) where
  move := Scan.move codec
  bounded := Scan.move_bounded
  stable := Scan.move_stable recovers

end IronFix.Transport
