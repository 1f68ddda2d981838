import IronFix.Lib.Slice
import IronFix.Lib.Decimal

/-!
# Bytes and machine integers

Byte strings are lists of octets. Machine integers are naturals whose checked
operations answer `none` past the type's maximum; the target is 64-bit.
-/

namespace IronFix

open Lib.Slice Lib.Decimal

abbrev Bytes := List UInt8

/-- The bytes of an ASCII text. -/
def ascii (text : String) : Bytes :=
  text.toList.map Char.toUInt8

/-- The UTF-8 bytes of a text. -/
def textBytes (text : String) : Bytes := text.toUTF8.data.toList

/-- `str::from_utf8`. -/
def textOf (bytes : Bytes) : Option String := String.fromUTF8? ⟨bytes.toArray⟩

def u8Max : Nat := 2 ^ 8 - 1
def u16Max : Nat := 2 ^ 16 - 1
def u32Max : Nat := 2 ^ 32 - 1
def u64Max : Nat := 2 ^ 64 - 1
def usizeMax : Nat := 2 ^ 64 - 1

/-- No allocation is longer. -/
def isizeMax : Nat := 2 ^ 63 - 1

/-- `Option::ok_or`. -/
def okOr {ε α : Type} (value : Option α) (error : ε) : Except ε α :=
  match value with
  | some a => .ok a
  | none => .error error

/-- SOH, the field delimiter. -/
def SOH : UInt8 := 0x01

/-- `=`, which separates a tag from its value. -/
def EQUALS : UInt8 := 0x3D

@[simp] theorem okOr_some {ε α : Type} (a : α) (e : ε) : okOr (some a) e = .ok a := rfl

@[simp] theorem okOr_none {ε α : Type} (e : ε) :
    okOr (none : Option α) e = .error e := rfl

theorem okOr_eq_ok {ε α : Type} {value : Option α} {e : ε} {a : α} :
    okOr value e = .ok a ↔ value = some a := by
  cases value <;> simp [okOr]

theorem okOr_eq_error {ε α : Type} {value : Option α} {e e' : ε} :
    okOr value e = .error e' ↔ value = none ∧ e = e' := by
  cases value <;> simp [okOr]

theorem isAsciiDigit_SOH : isAsciiDigit SOH = false := rfl

theorem isAsciiDigit_EQUALS : isAsciiDigit EQUALS = false := rfl

theorem textOf_textBytes (text : String) : textOf (textBytes text) = some text := by
  have same : (⟨(textBytes text).toArray⟩ : ByteArray) = text.toByteArray := rfl
  unfold textOf String.fromUTF8?
  rw [same, dif_pos text.isValidUTF8]
  rfl

theorem textBytes_of_textOf {bytes : Bytes} {text : String} (decoded : textOf bytes = some text) :
    textBytes text = bytes := by
  unfold textOf String.fromUTF8? at decoded
  split at decoded
  · cases decoded
    rfl
  · cases decoded

end IronFix
