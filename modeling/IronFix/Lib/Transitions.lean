import Mathlib.Init

/-!
# Transition systems

A system takes one action at a time: `step` gives the next state, or none where
the action cannot be taken. What every step taken keeps, every state reached
has (`Reaches.invariant`).
-/

namespace Lib.Transitions

variable {σ α : Type} {step : σ → α → Option σ} {allowed : σ → α → Prop}

/-- The states reached from `start` when every step taken is allowed. -/
inductive Reaches (step : σ → α → Option σ) (allowed : σ → α → Prop) (start : σ) : σ → Prop
  | refl : Reaches step allowed start start
  | next {s s' : σ} (reached : Reaches step allowed start s) (action : α) (may : allowed s action)
      (taken : step s action = some s') : Reaches step allowed start s'

/-- Any step may be taken. -/
def anyStep (_ : σ) (_ : α) : Prop := True

theorem Reaches.mono {start s : σ} {wider : σ → α → Prop} (reached : Reaches step allowed start s)
    (widens : ∀ s action, allowed s action → wider s action) : Reaches step wider start s := by
  induction reached with
  | refl => exact .refl
  | next _ action may taken ih => exact .next ih action (widens _ _ may) taken

theorem Reaches.trans {start middle s : σ} (first : Reaches step allowed start middle)
    (rest : Reaches step allowed middle s) : Reaches step allowed start s := by
  induction rest with
  | refl => exact first
  | next _ action may taken ih => exact .next ih action may taken

theorem Reaches.invariant {P : σ → Prop}
    (keeps : ∀ s action s', P s → allowed s action → step s action = some s' → P s') {start s : σ}
    (starts : P start) (reached : Reaches step allowed start s) : P s := by
  induction reached with
  | refl => exact starts
  | next _ action may taken ih => exact keeps _ action _ ih may taken

/-- The state after the actions, if each can be taken. -/
def run (step : σ → α → Option σ) (start : σ) (actions : List α) : Option σ := actions.foldlM step start

/-- A run of allowed actions reaches its last state. -/
theorem reaches_of_run {start s : σ} {actions : List α} (ran : run step start actions = some s) :
    Reaches step anyStep start s := by
  unfold run at ran
  induction actions generalizing start with
  | nil =>
      obtain rfl := Option.some.inj ran
      exact .refl
  | cons action actions ih =>
      rw [List.foldlM_cons] at ran
      obtain ⟨next, taken, rest⟩ := Option.bind_eq_some_iff.mp ran
      exact Reaches.trans (.next .refl action trivial taken) (ih rest)

/-- The step, where it is allowed. -/
def guarded (step : σ → α → Option σ) (allowed : σ → α → Prop) [∀ s action, Decidable (allowed s action)] (s : σ)
    (action : α) : Option σ := if allowed s action then step s action else none

theorem reaches_of_guarded [∀ s action, Decidable (allowed s action)] {start s : σ} {actions : List α}
    (ran : run (guarded step allowed) start actions = some s) : Reaches step allowed start s := by
  refine (reaches_of_run ran).rec .refl ?_
  intro s s' _ action _ taken reached
  unfold guarded at taken
  split at taken
  · rename_i may
    exact .next reached action may taken
  · cases taken

end Lib.Transitions
