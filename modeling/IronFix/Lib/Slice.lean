import Mathlib.Data.List.Basic

/-!
# Checked slices and byte search

Slices of a list by absolute offsets, each `none` outside the list, and the
search for the first occurrence of an element. An offset that survives its
check is described by the decomposition of the list it stands for
(`memchr_eq_some_iff`, `slice?_eq_some_iff`), which is the form proofs about
a parser use.
-/

namespace Lib.Slice

variable {α : Type}

/-- The elements from offset `a` on, or `none` past the end. -/
def sliceFrom? (l : List α) (a : Nat) : Option (List α) :=
  if a ≤ l.length then some (l.drop a) else none

/-- The first `b` elements, or `none` if there are fewer. -/
def sliceTo? (l : List α) (b : Nat) : Option (List α) :=
  if b ≤ l.length then some (l.take b) else none

/-- The elements of `a..b`, or `none` for a range outside the list. -/
def slice? (l : List α) (a b : Nat) : Option (List α) :=
  if a ≤ b ∧ b ≤ l.length then some ((l.drop a).take (b - a)) else none

/-- Offset of the first occurrence of `x`. -/
def memchr [BEq α] (x : α) (l : List α) : Option Nat :=
  l.idxOf? x

theorem sliceFrom?_eq_some_iff {l r : List α} {a : Nat} :
    sliceFrom? l a = some r ↔ ∃ p, l = p ++ r ∧ p.length = a := by
  unfold sliceFrom?
  constructor
  · intro h
    split at h
    · rename_i le
      cases h
      exact ⟨l.take a, (List.take_append_drop a l).symm, List.length_take_of_le le⟩
    · cases h
  · rintro ⟨p, rfl, rfl⟩
    simp

theorem sliceTo?_eq_some_iff {l r : List α} {b : Nat} :
    sliceTo? l b = some r ↔ ∃ s, l = r ++ s ∧ r.length = b := by
  unfold sliceTo?
  constructor
  · intro h
    split at h
    · rename_i le
      cases h
      exact ⟨l.drop b, (List.take_append_drop b l).symm, List.length_take_of_le le⟩
    · cases h
  · rintro ⟨s, rfl, rfl⟩
    simp

theorem slice?_eq_some_iff {l r : List α} {a b : Nat} :
    slice? l a b = some r ↔
      ∃ p s, l = p ++ r ++ s ∧ p.length = a ∧ a + r.length = b := by
  unfold slice?
  constructor
  · intro h
    split at h
    · rename_i bounds
      cases h
      refine ⟨l.take a, l.drop b, ?_, ?_, ?_⟩
      · rw [List.append_assoc]
        have tail : (l.drop a).take (b - a) ++ l.drop b = l.drop a := by
          conv_rhs => rw [← List.take_append_drop (b - a) (l.drop a)]
          rw [List.drop_drop]
          congr 2
          omega
        rw [tail, List.take_append_drop]
      · simp only [List.length_take]
        omega
      · simp only [List.length_take, List.length_drop]
        omega
    · cases h
  · rintro ⟨p, s, rfl, rfl, rfl⟩
    simp

theorem slice?_middle (p r s : List α) :
    slice? (p ++ r ++ s) p.length (p.length + r.length) = some r :=
  slice?_eq_some_iff.mpr ⟨p, s, rfl, rfl, rfl⟩

theorem sliceFrom?_append (p r : List α) : sliceFrom? (p ++ r) p.length = some r :=
  sliceFrom?_eq_some_iff.mpr ⟨p, rfl, rfl⟩

theorem sliceTo?_append (r s : List α) : sliceTo? (r ++ s) r.length = some r :=
  sliceTo?_eq_some_iff.mpr ⟨s, rfl, rfl⟩

/-- A slice inside the list is unchanged when the list grows at its end. -/
theorem slice?_grow {l : List α} {a b : Nat} (inside : b ≤ l.length) (more : List α) :
    slice? (l ++ more) a b = slice? l a b := by
  unfold slice?
  by_cases ordered : a ≤ b
  · rw [if_pos ⟨ordered, by rw [List.length_append]; omega⟩, if_pos ⟨ordered, inside⟩,
      List.drop_append_of_le_length (by omega), List.take_append_of_le_length]
    rw [List.length_drop]
    omega
  · rw [if_neg (by omega), if_neg (by omega)]

/-- A slice of a slice. -/
theorem slice?_slice? {l r : List α} {a b c d : Nat} (cut : slice? l a b = some r)
    (inside : a + d ≤ b) : slice? r c d = slice? l (a + c) (a + d) := by
  obtain ⟨before, behind, rfl, rfl, ends⟩ := slice?_eq_some_iff.mp cut
  have within : d ≤ r.length := by omega
  unfold slice?
  by_cases ordered : c ≤ d
  · rw [if_pos ⟨ordered, within⟩, if_pos ⟨by omega, by
      rw [List.length_append, List.length_append]
      omega⟩]
    rw [List.append_assoc, ← List.drop_drop, List.drop_left,
      List.drop_append_of_le_length (by omega), List.take_append_of_le_length]
    · congr 2
      omega
    · rw [List.length_drop]
      omega
  · rw [if_neg (by omega), if_neg (by omega)]

theorem sliceTo?_grow {l : List α} {b : Nat} (inside : b ≤ l.length) (more : List α) :
    sliceTo? (l ++ more) b = sliceTo? l b := by
  unfold sliceTo?
  rw [if_pos (by rw [List.length_append]; omega), if_pos inside,
    List.take_append_of_le_length inside]

section Search

variable [BEq α] [LawfulBEq α] {x : α}

theorem memchr_eq_some_iff {l : List α} {i : Nat} :
    memchr x l = some i ↔ ∃ p s, l = p ++ x :: s ∧ p.length = i ∧ x ∉ p := by
  unfold memchr
  induction l generalizing i with
  | nil => simp
  | cons y ys ih =>
      rw [List.idxOf?_cons]
      by_cases hyx : (y == x) = true
      · have yx : y = x := eq_of_beq hyx
        subst yx
        simp only [hyx, if_true]
        constructor
        · intro h
          cases h
          exact ⟨[], ys, rfl, rfl, by simp⟩
        · rintro ⟨p, s, hl, rfl, hnot⟩
          cases p with
          | nil => rfl
          | cons z zs =>
              simp only [List.cons_append, List.cons.injEq] at hl
              exact absurd (by simp [hl.1]) hnot
      · have yx : y ≠ x := fun e => hyx (by simp [e])
        simp only [hyx, Bool.false_eq_true, if_false, Option.map_eq_some_iff]
        constructor
        · rintro ⟨j, hj, rfl⟩
          obtain ⟨p, s, rfl, rfl, hnot⟩ := ih.mp hj
          exact ⟨y :: p, s, by simp, by simp, by simp [Ne.symm yx, hnot]⟩
        · rintro ⟨p, s, hl, rfl, hnot⟩
          cases p with
          | nil =>
              simp only [List.nil_append, List.cons.injEq] at hl
              exact absurd hl.1 yx
          | cons z zs =>
              simp only [List.cons_append, List.cons.injEq] at hl
              simp only [List.mem_cons, not_or] at hnot
              exact ⟨zs.length, ih.mpr ⟨zs, s, hl.2, rfl, hnot.2⟩, by simp⟩

theorem memchr_eq_none_iff {l : List α} : memchr x l = none ↔ x ∉ l := by
  unfold memchr
  induction l with
  | nil => simp
  | cons y ys ih =>
      rw [List.idxOf?_cons]
      by_cases hyx : (y == x) = true
      · simp [eq_of_beq hyx]
      · have yx : y ≠ x := fun e => hyx (by simp [e])
        simp [hyx, ih, Ne.symm yx]

/-- The first occurrence after a prefix free of `x`. -/
theorem memchr_append_cons {p : List α} (h : x ∉ p) (s : List α) :
    memchr x (p ++ x :: s) = some p.length :=
  memchr_eq_some_iff.mpr ⟨p, s, rfl, rfl, h⟩

theorem memchr_lt_length {l : List α} {i : Nat} (h : memchr x l = some i) :
    i < l.length := by
  obtain ⟨p, s, rfl, rfl, _⟩ := memchr_eq_some_iff.mp h
  simp

/-- A match stays the first match when the list grows at its end. -/
theorem memchr_grow {l : List α} {i : Nat} (h : memchr x l = some i)
    (more : List α) : memchr x (l ++ more) = some i := by
  obtain ⟨p, s, rfl, hi, hnot⟩ := memchr_eq_some_iff.mp h
  exact memchr_eq_some_iff.mpr ⟨p, s ++ more, by simp, hi, hnot⟩

/-- What stands before the first `x` of a prefix stands there in the whole. -/
theorem cons_prefix_cons {p q s t : List α} (hp : x ∉ p) (hq : x ∉ q)
    (h : p ++ x :: s <+: q ++ x :: t) : p = q ∧ s <+: t := by
  obtain ⟨more, grown⟩ := h
  have same := memchr_grow (memchr_append_cons hp s) more
  rw [grown, memchr_append_cons hq, Option.some.injEq] at same
  rw [List.append_assoc] at grown
  obtain ⟨rfl, tails⟩ := List.append_inj grown same.symm
  exact ⟨rfl, more, (List.cons.inj tails).2⟩

/-- What stands before the first `x` is determined. -/
theorem before_unique {p q s t : List α} (hp : x ∉ p) (hq : x ∉ q)
    (same : p ++ x :: s = q ++ x :: t) : p = q ∧ s = t := by
  have lengths := memchr_append_cons hp s
  rw [same, memchr_append_cons hq, Option.some.injEq] at lengths
  obtain ⟨fronts, tails⟩ := List.append_inj same lengths.symm
  exact ⟨fronts, (List.cons.inj tails).2⟩

end Search

end Lib.Slice
