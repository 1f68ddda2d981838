import Mathlib.Data.List.Basic
import Mathlib.Algebra.GroupWithZero.Nat

/-!
# Lists by position

What a list holds after the item at one position is replaced, and what becomes
of a sum or a count over it.
-/

namespace Lib.Positions

variable {α β : Type}

theorem getElem?_set_cases {items : List α} {i j : Nat} {new found : α} (here : (items.set i new)[j]? = some found) :
    (j = i ∧ found = new) ∨ (j ≠ i ∧ items[j]? = some found) := by
  by_cases same : i = j
  · subst same
    rw [List.getElem?_set_self'] at here
    obtain ⟨_, _, rfl⟩ := Option.map_eq_some_iff.mp here
    exact .inl ⟨rfl, rfl⟩
  · rw [List.getElem?_set_ne same] at here
    exact .inr ⟨fun h => same h.symm, here⟩

/-- A field of the item that was replaced, or of another. -/
theorem getElem?_set_map (f : α → β) {items : List α} {i : Nat} {old : α} (found : items[i]? = some old)
    (new : α) (j : Nat) : ((items.set i new)[j]?).map f = if j = i then some (f new) else (items[j]?).map f := by
  have inside := (List.getElem?_eq_some_iff.mp found).1
  by_cases same : i = j
  · subst same
    rw [if_pos rfl, List.getElem?_set_self inside]
    rfl
  · rw [if_neg fun h => same h.symm, List.getElem?_set_ne same]

theorem sum_map_modify (f : α → Nat) (change : α → α) {items : List α} {i : Nat} {old : α}
    (found : items[i]? = some old) :
    ((items.modify i change).map f).sum + f old = (items.map f).sum + f (change old) := by
  induction items generalizing i with
  | nil => simp at found
  | cons first rest ih =>
      cases i with
      | zero =>
          obtain rfl : first = old := by simpa using found
          simp only [List.modify_zero_cons, List.map_cons, List.sum_cons]
          omega
      | succ i =>
          have later := ih (i := i) (by simpa using found)
          simp only [List.modify_succ_cons, List.map_cons, List.sum_cons]
          omega

theorem countP_set (p : α → Bool) {items : List α} {i : Nat} {old : α} (found : items[i]? = some old) (new : α) :
    (items.set i new).countP p + (p old).toNat = items.countP p + (p new).toNat := by
  induction items generalizing i with
  | nil => simp at found
  | cons first rest ih =>
      cases i with
      | zero =>
          obtain rfl : first = old := by simpa using found
          rw [List.set_cons_zero, List.countP_cons, List.countP_cons]
          cases p first <;> cases p new <;> simp
      | succ i =>
          have later := ih (i := i) (by simpa using found)
          rw [List.set_cons_succ, List.countP_cons, List.countP_cons]
          omega

end Lib.Positions
