import IronFix.Lib.LittleEndian

/-!
# Big-endian words

A natural number as its `width` low bytes, the most significant first.
-/

namespace Lib.BigEndian

def bytes (width n : Nat) : List UInt8 := (LittleEndian.bytes width n).reverse

def value (word : List UInt8) : Nat := LittleEndian.value word.reverse

@[simp] theorem length_bytes (width n : Nat) : (bytes width n).length = width := by
  rw [bytes, List.length_reverse, LittleEndian.length_bytes]

theorem value_bytes {width n : Nat} (fits : n < 256 ^ width) : value (bytes width n) = n := by
  rw [value, bytes, List.reverse_reverse, LittleEndian.value_bytes fits]

theorem value_lt (word : List UInt8) : value word < 256 ^ word.length := by
  rw [← List.length_reverse]
  exact LittleEndian.value_lt word.reverse

/-- A word is the bytes of its value. -/
theorem bytes_value (word : List UInt8) : bytes word.length (value word) = word := by
  have same := LittleEndian.bytes_value word.reverse
  rw [List.length_reverse] at same
  rw [bytes, value, same, List.reverse_reverse]

end Lib.BigEndian
