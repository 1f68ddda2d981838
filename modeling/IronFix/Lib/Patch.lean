import Mathlib.Data.List.Basic

/-!
# Patching a string

A patch writes over a string from an offset on; a span reads a part of one.
What a patch leaves out, every span reads as before.
-/

namespace Lib.Patch

variable {α : Type}

/-- `bytes` with `data` written over it from `start` on. -/
def patch (bytes : List α) (start : Nat) (data : List α) : List α :=
  bytes.take start ++ data ++ bytes.drop (start + data.length)

/-- The `len` bytes from `start` on. -/
def span (bytes : List α) (start len : Nat) : List α := (bytes.drop start).take len

variable {bytes data : List α} {start : Nat}

theorem span_length {len : Nat} (inside : start + len ≤ bytes.length) :
    (span bytes start len).length = len := by
  unfold span
  rw [List.length_take, List.length_drop]
  omega

/-- A span of a prefix is a span of the whole. -/
theorem span_take {n len : Nat} (inside : start + len ≤ n) :
    span (bytes.take n) start len = span bytes start len := by
  unfold span
  rw [List.drop_take, List.take_take, Nat.min_eq_left (by omega)]

theorem span_append {more : List α} {len : Nat} (inside : start + len ≤ bytes.length) :
    span (bytes ++ more) start len = span bytes start len := by
  have whole : (bytes ++ more).take bytes.length = bytes := List.take_left
  rw [← span_take inside, whole]

theorem patch_length (inside : start + data.length ≤ bytes.length) :
    (patch bytes start data).length = bytes.length := by
  unfold patch
  simp only [List.length_append, List.length_take, List.length_drop]
  omega

/-- A patch at the end appends. -/
theorem patch_end (bytes data : List α) : patch bytes bytes.length data = bytes ++ data := by
  unfold patch
  rw [List.take_length, List.drop_eq_nil_of_le (Nat.le_add_right _ _), List.append_nil]

theorem patch_take (within : start ≤ bytes.length) :
    (patch bytes start data).take start = bytes.take start := by
  have count : (bytes.take start).length = start := List.length_take_of_le within
  unfold patch
  rw [List.append_assoc, List.take_left' count]

/-- A patch is read back. -/
theorem span_patch (within : start ≤ bytes.length) :
    span (patch bytes start data) start data.length = data := by
  have count : (bytes.take start).length = start := List.length_take_of_le within
  unfold span patch
  rw [List.append_assoc, List.drop_left' count, List.take_left]

/-- A span before a patch is not touched. -/
theorem span_patch_before {first len : Nat} (within : start ≤ bytes.length)
    (before : first + len ≤ start) :
    span (patch bytes start data) first len = span bytes first len := by
  rw [← span_take before, patch_take within, span_take before]

/-- What lies behind a patch is not touched. -/
theorem drop_patch {first : Nat} (within : start ≤ bytes.length)
    (behind : start + data.length ≤ first) : (patch bytes start data).drop first = bytes.drop first := by
  have count : (bytes.take start).length = start := List.length_take_of_le within
  have front : (bytes.take start ++ data).length = start + data.length := by
    rw [List.length_append, count]
  unfold patch
  rw [List.drop_append, List.drop_eq_nil_of_le (by omega), front, List.drop_drop, List.nil_append]
  congr 1
  omega

theorem span_patch_after {first len : Nat} (within : start ≤ bytes.length)
    (behind : start + data.length ≤ first) :
    span (patch bytes start data) first len = span bytes first len := by
  unfold span
  rw [drop_patch within behind]

/-- A patch replaces a part of its length. -/
theorem patch_middle (front behind : List α) {part : List α} (alike : part.length = data.length) :
    patch (front ++ (part ++ behind)) front.length data = front ++ (data ++ behind) := by
  unfold patch
  have past : (front ++ (part ++ behind)).drop (front.length + data.length) = behind := by
    rw [← alike, ← List.drop_drop, List.drop_left, List.drop_left]
  rw [List.take_left, past, List.append_assoc]

/-- A patch at the start replaces the start. -/
theorem patch_front (behind : List α) {part : List α} (alike : part.length = data.length) :
    patch (part ++ behind) 0 data = data ++ behind := patch_middle [] behind alike

/-- What lies between two parts is read. -/
theorem span_middle (front part behind : List α) :
    span (front ++ (part ++ behind)) front.length part.length = part := by
  unfold span
  rw [List.drop_left, List.take_left]

/-- A patch, element by element. -/
theorem getElem?_patch (within : start ≤ bytes.length) (i : Nat) :
    (patch bytes start data)[i]? =
      if i < start then bytes[i]? else if i < start + data.length then data[i - start]? else bytes[i]? := by
  have count : (bytes.take start).length = start := List.length_take_of_le within
  unfold patch
  rw [List.append_assoc, List.getElem?_append, count]
  split
  · rw [List.getElem?_take_of_lt ‹_›]
  · rw [List.getElem?_append]
    split
    · rw [if_pos (by omega)]
    · rw [if_neg (by omega), List.getElem?_drop]
      congr 1
      omega

/-- A patch inside a prefix is a patch of the prefix. -/
theorem take_patch {n : Nat} (inside : start + data.length ≤ n) (within : start ≤ bytes.length) :
    (patch bytes start data).take n = patch (bytes.take n) start data := by
  have short : start ≤ (bytes.take n).length := by
    rw [List.length_take]
    omega
  refine List.ext_getElem? ?_
  intro i
  rw [getElem?_patch short, List.getElem?_take, getElem?_patch within, List.getElem?_take]
  split
  · rfl
  · repeat' split
    all_goals first | rfl | omega

/-- A patch over another one, which is no longer. -/
theorem patch_patch {first : List α} (shorter : first.length ≤ data.length)
    (within : start + data.length ≤ bytes.length) :
    patch (patch bytes start first) start data = patch bytes start data := by
  have length : (patch bytes start first).length = bytes.length := patch_length (by omega)
  refine List.ext_getElem? ?_
  intro i
  rw [getElem?_patch (by omega), getElem?_patch (by omega), getElem?_patch (by omega)]
  repeat' split
  all_goals first | rfl | omega

/-- Patches of two parts that lie apart. -/
theorem patch_comm {start' : Nat} {data' : List α} (apart : start + data.length ≤ start')
    (within : start' + data'.length ≤ bytes.length) :
    patch (patch bytes start data) start' data' = patch (patch bytes start' data') start data := by
  have length : (patch bytes start data).length = bytes.length := patch_length (by omega)
  have length' : (patch bytes start' data').length = bytes.length := patch_length (by omega)
  refine List.ext_getElem? ?_
  intro i
  rw [getElem?_patch (by omega), getElem?_patch (by omega), getElem?_patch (by omega),
    getElem?_patch (by omega)]
  repeat' split
  all_goals first | rfl | omega

/-- A patch with what is already there. -/
theorem patch_span {len : Nat} (within : start + len ≤ bytes.length) :
    patch bytes start (span bytes start len) = bytes := by
  have count := span_length within
  refine List.ext_getElem? ?_
  intro i
  rw [getElem?_patch (by omega), count]
  split
  · rfl
  · split
    · unfold span
      rw [List.getElem?_take_of_lt (by omega), List.getElem?_drop]
      congr 1
      omega
    · rfl

end Lib.Patch
