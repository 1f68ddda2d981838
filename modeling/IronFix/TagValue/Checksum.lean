import IronFix.Core.Bytes

/-!
# The FIX checksum

The sum of the bytes before the CheckSum (10) field, modulo 256, written as
three decimal digits.
-/

namespace IronFix.TagValue

/-- Sum of the bytes modulo 256. -/
def calculateChecksum (data : Bytes) : UInt8 :=
  UInt8.ofNat ((data.map UInt8.toNat).sum % 256)

/-- Three zero-padded decimal digits. -/
def formatChecksum (checksum : UInt8) : Bytes :=
  [0x30 + checksum / 100, 0x30 + (checksum / 10) % 10, 0x30 + checksum % 10]

/-- `u8::checked_sub`. -/
def checkedSubByte (a b : UInt8) : Option UInt8 :=
  if b ≤ a then some (a - b) else none

/-- Reads three digits of a value in `0..=255`. -/
def parseChecksum (bytes : Bytes) : Option UInt8 :=
  match bytes with
  | [b0, b1, b2] => do
      let d0 ← checkedSubByte b0 0x30
      let d1 ← checkedSubByte b1 0x30
      let d2 ← checkedSubByte b2 0x30
      if d0 > 9 || d1 > 9 || d2 > 9 then none
      else
        let value := d0.toNat * 100 + d1.toNat * 10 + d2.toNat
        if value ≤ u8Max then some (UInt8.ofNat value) else none
  | _ => none

theorem formatChecksum_length (checksum : UInt8) : (formatChecksum checksum).length = 3 := rfl

/-- Every checksum is read back from its three digits. -/
theorem parseChecksum_formatChecksum (checksum : UInt8) :
    parseChecksum (formatChecksum checksum) = some checksum := by
  have all : ∀ n < 256, parseChecksum (formatChecksum (UInt8.ofNat n)) =
      some (UInt8.ofNat n) := by decide +kernel
  simpa using all checksum.toNat checksum.toNat_lt

theorem formatChecksum_digits (checksum : UInt8) :
    ∀ b ∈ formatChecksum checksum, Lib.Decimal.isAsciiDigit b = true := by
  have all : ∀ n < 256, (formatChecksum (UInt8.ofNat n)).all Lib.Decimal.isAsciiDigit = true := by
    decide +kernel
  have digits := all checksum.toNat checksum.toNat_lt
  rw [UInt8.ofNat_toNat] at digits
  exact List.all_eq_true.mp digits

theorem checkedSubByte_eq_some {a b d : UInt8} :
    checkedSubByte a b = some d ↔ b ≤ a ∧ a - b = d := by
  unfold checkedSubByte
  split <;> simp_all

/-- Only three bytes, each a digit, parse as a checksum. -/
theorem parseChecksum_eq_some {bytes : Bytes} {checksum : UInt8}
    (h : parseChecksum bytes = some checksum) :
    bytes.length = 3 ∧ ∀ b ∈ bytes, Lib.Decimal.isAsciiDigit b = true := by
  unfold parseChecksum at h
  split at h
  · rename_i b0 b1 b2
    simp only [Option.bind_eq_bind, Option.bind_eq_some_iff, checkedSubByte_eq_some] at h
    obtain ⟨_, ⟨l0, rfl⟩, _, ⟨l1, rfl⟩, _, ⟨l2, rfl⟩, h⟩ := h
    split at h
    · cases h
    · rename_i small
      have digit : ∀ b : UInt8, 0x30 ≤ b → ¬ b - 0x30 > 9 → Lib.Decimal.isAsciiDigit b = true := by
        intro b low high
        have lowNat : 48 ≤ b.toNat := by simpa [UInt8.le_iff_toNat_le] using low
        have highNat : (b - 0x30).toNat ≤ 9 := by
          simpa [UInt8.lt_iff_toNat_lt] using high
        rw [UInt8.toNat_sub_of_le _ _ low] at highNat
        have upper : b ≤ 0x39 := by
          rw [UInt8.le_iff_toNat_le]
          simp at highNat ⊢
          omega
        simp [Lib.Decimal.isAsciiDigit, low, upper]
      simp only [gt_iff_lt, Bool.or_eq_true, decide_eq_true_eq, not_or] at small
      refine ⟨rfl, ?_⟩
      intro b hb
      simp only [List.mem_cons, List.not_mem_nil, or_false] at hb
      rcases hb with rfl | rfl | rfl
      · exact digit _ l0 small.1.1
      · exact digit _ l1 small.1.2
      · exact digit _ l2 small.2
  · cases h

example : parseChecksum (ascii "999") = none := by decide

end IronFix.TagValue
