import Mathlib.Data.List.Basic

/-!
# Consecutive spans

Spans of given widths laid end to end: a position is a span and an offset in
it, positions are ordered as these are (`lt_iff`), and each position lies in a
span (`locate_spec`).
-/

namespace Lib.Spans

variable {w : Nat → Nat} {m n r s : Nat}

/-- Where a span starts: the widths before it. -/
def start (width : Nat → Nat) : Nat → Nat
  | 0 => 0
  | n + 1 => start width n + width n

theorem start_mono (ordered : m ≤ n) : start w m ≤ start w n := by
  induction ordered with
  | refl => exact Nat.le_refl _
  | step _ ih => exact Nat.le_trans ih (Nat.le_add_right _ _)

/-- What lies in an earlier span lies before. -/
theorem end_le (before : m < n) : start w m + w m ≤ start w n := start_mono before

theorem lt_iff (inside : r < w m) (within : s < w n) :
    start w m + r < start w n + s ↔ m < n ∨ m = n ∧ r < s := by
  rcases Nat.lt_trichotomy m n with before | same | after
  · have apart := end_le (w := w) before
    exact ⟨fun _ => .inl before, fun _ => by omega⟩
  · subst same
    constructor
    · intro less
      exact .inr ⟨rfl, by omega⟩
    · rintro (less | ⟨_, less⟩)
      · exact absurd less (Nat.lt_irrefl m)
      · omega
  · have apart := end_le (w := w) after
    constructor
    · intro less
      omega
    · rintro (less | ⟨same, _⟩)
      · omega
      · omega

/-- The widths of equal spans multiply. -/
theorem start_const (length : Nat) (n : Nat) : start (fun _ => length) n = n * length := by
  induction n with
  | zero => exact (Nat.zero_mul length).symm
  | succ n ih => rw [start, ih, Nat.succ_mul]

theorem lt_const_iff {length : Nat} (inside : r < length) (within : s < length) :
    m * length + r < n * length + s ↔ m < n ∨ m = n ∧ r < s := by
  have ordered := lt_iff (w := fun _ => length) (m := m) (n := n) inside within
  rwa [start_const, start_const] at ordered

/-- The span that holds the position `offset` after the start of `span`. -/
def locate (width : Nat → Nat) : Nat → Nat → Nat → Nat × Nat
  | 0, span, offset => (span, offset)
  | fuel + 1, span, offset =>
      if offset < width span then (span, offset)
      else locate width fuel (span + 1) (offset - width span)

theorem locate_spec (positive : ∀ n, 0 < w n) {fuel offset : Nat} (enough : offset < fuel)
    (span : Nat) :
    (locate w fuel span offset).2 < w (locate w fuel span offset).1 ∧
      start w (locate w fuel span offset).1 + (locate w fuel span offset).2 =
        start w span + offset := by
  induction fuel generalizing span offset with
  | zero => exact absurd enough (Nat.not_lt_zero _)
  | succ fuel ih =>
      rw [locate]
      by_cases inside : offset < w span
      · rw [if_pos inside]
        exact ⟨inside, rfl⟩
      · rw [if_neg inside]
        have advances := positive span
        obtain ⟨within, reached⟩ := ih (by omega : offset - w span < fuel) (span + 1)
        refine ⟨within, reached.trans ?_⟩
        rw [start]
        omega

end Lib.Spans
