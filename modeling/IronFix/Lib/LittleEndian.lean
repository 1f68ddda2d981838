import Mathlib.Data.List.Basic
import Mathlib.Data.Nat.Basic
import Mathlib.Algebra.Group.Nat.Defs

/-!
# Little-endian words

A natural number as its `width` low bytes, the least significant first.
-/

namespace Lib.LittleEndian

def bytes : Nat → Nat → List UInt8
  | 0, _ => []
  | width + 1, n => UInt8.ofNat n :: bytes width (n / 256)

def value : List UInt8 → Nat
  | [] => 0
  | byte :: rest => byte.toNat + 256 * value rest

@[simp] theorem length_bytes (width n : Nat) : (bytes width n).length = width := by
  induction width generalizing n with
  | zero => rfl
  | succ width ih => exact congrArg Nat.succ (ih (n / 256))

theorem value_bytes {width n : Nat} (fits : n < 256 ^ width) : value (bytes width n) = n := by
  induction width generalizing n with
  | zero =>
      rw [Nat.pow_zero] at fits
      exact (Nat.lt_one_iff.mp fits).symm
  | succ width ih =>
      have rest : n / 256 < 256 ^ width := by
        rw [Nat.pow_succ, Nat.mul_comm] at fits
        exact Nat.div_lt_of_lt_mul fits
      show (UInt8.ofNat n).toNat + 256 * value (bytes width (n / 256)) = n
      rw [ih rest, UInt8.toNat_ofNat']
      exact Nat.mod_add_div n 256

theorem value_lt (word : List UInt8) : value word < 256 ^ word.length := by
  induction word with
  | nil => exact Nat.one_pos
  | cons byte rest ih =>
      have low := byte.toNat_lt
      show byte.toNat + 256 * value rest < 256 ^ (rest.length + 1)
      rw [Nat.pow_succ]
      omega

/-- A word is the bytes of its value. -/
theorem bytes_value (word : List UInt8) : bytes word.length (value word) = word := by
  induction word with
  | nil => rfl
  | cons byte rest ih =>
      have low : (byte.toNat + 256 * value rest) / 256 = value rest := by
        rw [Nat.add_mul_div_left _ _ (by decide), Nat.div_eq_of_lt byte.toNat_lt, Nat.zero_add]
      have first : UInt8.ofNat (byte.toNat + 256 * value rest) = byte := by
        rw [UInt8.ofNat_add, UInt8.ofNat_toNat]
        have wraps : UInt8.ofNat (256 * value rest) = 0 := by
          rw [UInt8.ofNat_mul]
          exact UInt8.zero_mul
        rw [wraps, UInt8.add_zero]
      show UInt8.ofNat (byte.toNat + 256 * value rest) ::
        bytes rest.length ((byte.toNat + 256 * value rest) / 256) = byte :: rest
      rw [first, low, ih]

end Lib.LittleEndian
