import IronFix.TagValue.Message
import IronFix.Transport.Framing

/-!
# The codec and the decoder agree

A frame the codec hands up is laid out as the decoder reads it: the two header
parsers take the same bytes for the header, so the decoder's body is the
codec's, and the trailer the codec verified is the CheckSum the decoder meets
behind it.
-/

namespace IronFix.Pipeline

open Lib.Decimal IronFix.TagValue IronFix.Transport

theorem trailerBytes_eq (checksum : Bytes) :
    trailerBytes checksum = fieldBytes (ascii "10") checksum := by
  have equals : ascii "10=" = ascii "10" ++ [EQUALS] := rfl
  simp [trailerBytes, fieldBytes, CHECKSUM_PREFIX, equals]

/-- The codec's header is two fields. -/
theorem headerBytes_eq (version digits : Bytes) :
    headerBytes (BEGIN_STRING_PREFIX ++ version) digits = headerOf version digits := by
  have eight : ascii "8=" = ascii "8" ++ [EQUALS] := rfl
  have nine : ascii "9=" = ascii "9" ++ [EQUALS] := rfl
  simp [headerBytes, headerOf, fieldBytes, BEGIN_STRING_PREFIX, BODY_LENGTH_PREFIX, eight, nine]

/-- The two parsers of BodyLength are one. -/
theorem parseBodyLength_eq (digits : Bytes) : parseBodyLength digits = parseLength digits := rfl

/-- A frame of the codec is a message laid out for the decoder. -/
theorem isFrame_message {codec : FixCodec} {frame beginning digits body checksum : Bytes}
    (isFrame : IsFrame codec frame beginning digits body checksum) :
    ∃ version, SOH ∉ version ∧
      frame = headerOf version digits ++ (body ++ fieldBytes (ascii "10") checksum) ∧
      Decoder.Layout (headerOf version digits) body checksum ∧
      headerBytes beginning digits = headerOf version digits := by
  obtain ⟨version, opens⟩ := isFrame.opens
  have header : headerBytes beginning digits = headerOf version digits := by
    rw [← opens, headerBytes_eq]
  have split : frame = headerOf version digits ++ (body ++ fieldBytes (ascii "10") checksum) := by
    rw [isFrame.split, header, trailerBytes_eq, List.append_assoc]
  have clean : SOH ∉ checksum := by
    obtain ⟨sum, declared, _⟩ := isFrame.declared
    exact notMem_of_digits (parseChecksum_eq_some declared).2 isAsciiDigit_SOH
  have cleanVersion : SOH ∉ version := by
    intro found
    apply isFrame.clean
    rw [← opens]
    exact List.mem_append_right _ found
  exact ⟨version, cleanVersion, split, ⟨split ▸ isFrame.room, header ▸ isFrame.ends, clean⟩, header⟩

/-- A frame the codec hands up and the decoder reads. -/
def plainFrame : Bytes := ascii "8=FIX.4.4\x019=5\x0135=0\x0110=163\x01"

/-- A frame with a CheckSum field inside its body. -/
def embeddedFrame : Bytes := ascii "8=FIX.4.4\x019=10\x0135=0\x0110=5\x0110=163\x01"

/-- The error of a decode, if it fails. -/
def decodeError (input : Bytes) : Option DecodeError :=
  match Decoder.decode (Decoder.new input) with
  | .ok _ _ => none
  | .error error _ => some error

end IronFix.Pipeline
