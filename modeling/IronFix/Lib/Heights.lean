import Mathlib.Logic.Relation

/-!
# Heights of a relation

Paths along a relation that may branch, and the length of the longest path
from a place. A place whose paths are bounded does not reach itself.
-/

namespace IronFix.Lib.Heights

open Relation

variable {α : Type*} {step : α → α → Prop} {a b c : α} {n h k : Nat}

/-- A path of `n` steps starts at a place. -/
inductive Walks (step : α → α → Prop) : Nat → α → Prop
  | here (a : α) : Walks step 0 a
  | step {n : Nat} {a b : α} (first : step a b) (rest : Walks step n b) : Walks step (n + 1) a

/-- The longest path from `a` has `h` steps. -/
structure Height (step : α → α → Prop) (a : α) (h : Nat) : Prop where
  reached : Walks step h a
  bound : ∀ n, Walks step n a → n ≤ h

/-- Places with the same first steps are the start of the same paths. -/
theorem Walks.of_steps (steps : ∀ d, step a d → step b d) (walks : Walks step n a) : Walks step n b := by
  cases walks with
  | here => exact .here b
  | step first rest => exact .step (steps _ first) rest

theorem Height.leaf (none : ∀ b, ¬step a b) : Height step a 0 := by
  refine ⟨.here a, fun n walks => ?_⟩
  cases walks with
  | here => exact Nat.le_refl _
  | step first _ => exact absurd first (none _)

/-- One step leads on from `a`. -/
theorem Height.succ (only : ∀ d, step a d ↔ d = b) (height : Height step b h) : Height step a (h + 1) := by
  refine ⟨.step ((only b).mpr rfl) height.reached, fun n walks => ?_⟩
  cases walks with
  | here => exact Nat.zero_le _
  | step first rest =>
      obtain rfl := (only _).mp first
      exact Nat.succ_le_succ (height.bound _ rest)

/-- The steps of `c` are those of `a` and those of `b`. -/
theorem Height.union (split : ∀ d, step c d ↔ step a d ∨ step b d) (left : Height step a h)
    (right : Height step b k) : Height step c (max h k) := by
  refine ⟨?_, fun n walks => ?_⟩
  · rcases Nat.le_total h k with le | le
    · rw [Nat.max_eq_right le]
      exact right.reached.of_steps fun d first => (split d).mpr (.inr first)
    · rw [Nat.max_eq_left le]
      exact left.reached.of_steps fun d first => (split d).mpr (.inl first)
  · cases walks with
    | here => exact Nat.zero_le _
    | step first rest =>
        rcases (split _).mp first with inLeft | inRight
        · exact Nat.le_trans (left.bound _ (.step inLeft rest)) (Nat.le_max_left _ _)
        · exact Nat.le_trans (right.bound _ (.step inRight rest)) (Nat.le_max_right _ _)

/-- What a place reaches starts shorter paths. -/
theorem Walks.before (reaches : TransGen step a b) (walks : Walks step n b) :
    ∃ m, n < m ∧ Walks step m a := by
  induction reaches using TransGen.head_induction_on with
  | single first => exact ⟨n + 1, Nat.lt_succ_self n, .step first walks⟩
  | head first _ ih =>
      obtain ⟨m, longer, walksOn⟩ := ih
      exact ⟨m + 1, Nat.lt_succ_of_lt longer, .step first walksOn⟩

/-- Bounded paths do not come back. -/
theorem not_reaches_self (limit : Nat) (bounded : ∀ n, Walks step n a → n ≤ limit) :
    ¬TransGen step a a := by
  intro cycle
  have unbounded : ∀ n, ∃ m, n ≤ m ∧ Walks step m a := by
    intro n
    induction n with
    | zero => exact ⟨0, Nat.le_refl 0, .here a⟩
    | succ n ih =>
        obtain ⟨m, le, walks⟩ := ih
        obtain ⟨m', longer, walks'⟩ := walks.before cycle
        exact ⟨m', Nat.succ_le_of_lt (Nat.lt_of_le_of_lt le longer), walks'⟩
  obtain ⟨m, le, walks⟩ := unbounded (limit + 1)
  exact Nat.not_succ_le_self limit (Nat.le_trans le (bounded m walks))

end IronFix.Lib.Heights
