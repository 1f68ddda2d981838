import IronFix.Core.Error

/-!
# Reading bytes as text

`String::from_utf8_lossy`: well-formed UTF-8 is read as it is, and each maximal
ill-formed sequence as one U+FFFD.
-/

namespace IronFix

/-- U+FFFD. -/
def REPLACEMENT : Char := Char.ofNat 0xFFFD

/-- The six bits a continuation byte carries. -/
def continuationBits (byte : UInt8) : Nat := byte.toNat % 0x40

/-- Reads continuation bytes onto the bits read so far; an ill-formed sequence
ends before the byte that does not continue it. -/
def continueChar : (count bits : Nat) → Bytes → Char × Bytes
  | 0, bits, rest => (Char.ofNat bits, rest)
  | _ + 1, _, [] => (REPLACEMENT, [])
  | count + 1, bits, byte :: rest =>
      if isContinuation byte then continueChar count (bits * 0x40 + continuationBits byte) rest
      else (REPLACEMENT, byte :: rest)

/-- Reads a sequence of three or four bytes, whose second byte is restricted. -/
def continueWide (first : UInt8) (count bits : Nat) : Bytes → Char × Bytes
  | [] => (REPLACEMENT, [])
  | byte :: rest =>
      let (low, high) := secondByteRange first
      if low ≤ byte && byte ≤ high then continueChar count (bits * 0x40 + continuationBits byte) rest
      else (REPLACEMENT, byte :: rest)

/-- The first character of `first :: rest`. -/
def readChar (first : UInt8) (rest : Bytes) : Char × Bytes :=
  if first < 0x80 then (Char.ofNat first.toNat, rest)
  else if 0xC2 ≤ first && first ≤ 0xDF then continueChar 1 (first.toNat % 0x20) rest
  else if 0xE0 ≤ first && first ≤ 0xEF then continueWide first 1 (first.toNat % 0x10) rest
  else if 0xF0 ≤ first && first ≤ 0xF4 then continueWide first 2 (first.toNat % 0x08) rest
  else (REPLACEMENT, rest)

/-- Every character reads at least one byte. -/
def readChars : (fuel : Nat) → Bytes → List Char
  | 0, _ => []
  | _, [] => []
  | fuel + 1, first :: rest =>
      let (char, rest) := readChar first rest
      char :: readChars fuel rest

def fromUtf8Lossy (bytes : Bytes) : String := String.ofList (readChars bytes.length bytes)

theorem continueChar_length (count bits : Nat) (bytes : Bytes) :
    (continueChar count bits bytes).2.length ≤ bytes.length := by
  induction count generalizing bits bytes with
  | zero => exact Nat.le_refl _
  | succ count ih =>
      cases bytes with
      | nil => exact Nat.le_refl _
      | cons byte rest =>
          rw [continueChar]
          split
          · exact Nat.le_succ_of_le (ih _ rest)
          · exact Nat.le_refl _

theorem continueWide_length (first : UInt8) (count bits : Nat) (bytes : Bytes) :
    (continueWide first count bits bytes).2.length ≤ bytes.length := by
  cases bytes with
  | nil => exact Nat.le_refl _
  | cons byte rest =>
      rw [continueWide]
      dsimp only
      split
      · exact Nat.le_succ_of_le (continueChar_length _ _ rest)
      · exact Nat.le_refl _

theorem readChar_length (first : UInt8) (rest : Bytes) :
    (readChar first rest).2.length ≤ rest.length := by
  unfold readChar
  split
  · exact Nat.le_refl _
  · split
    · exact continueChar_length _ _ rest
    · split
      · exact continueWide_length _ _ _ rest
      · split
        · exact continueWide_length _ _ _ rest
        · exact Nat.le_refl _

/-- More steps than bytes read nothing more. -/
theorem readChars_enough {fuel : Nat} {bytes : Bytes} (enough : bytes.length ≤ fuel) :
    readChars fuel bytes = readChars bytes.length bytes := by
  induction fuel using Nat.strong_induction_on generalizing bytes with
  | _ fuel ih =>
      cases bytes with
      | nil => cases fuel <;> rfl
      | cons first rest =>
          obtain ⟨fuel, rfl⟩ := Nat.exists_eq_succ_of_ne_zero (Nat.ne_of_gt (Nat.lt_of_lt_of_le
            (Nat.succ_pos _) enough))
          have shorter := readChar_length first rest
          have enough : rest.length ≤ fuel := Nat.le_of_succ_le_succ enough
          rw [List.length_cons, readChars, readChars]
          dsimp only
          rw [ih fuel (Nat.lt_succ_self _) (shorter.trans enough)]
          by_cases same : rest.length = fuel
          · rw [same, ih fuel (Nat.lt_succ_self _) (shorter.trans enough)]
          · rw [ih rest.length (by omega) shorter]

example : fromUtf8Lossy [0x41, 0xC3, 0xA9, 0xFF, 0xE2, 0x82] = "A\u00e9\ufffd\ufffd" := by decide

end IronFix
