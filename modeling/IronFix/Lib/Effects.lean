import Mathlib.Logic.Basic

/-!
# Specifications of stoppable programs

A program transforms a state and either returns a value or stops. `Meets` is
its specification: from a state in `P` a return satisfies `Q` and a stop
satisfies `E`. The rules follow the way programs are put together.
-/

namespace Lib.Effects

variable {ε σ α β : Type}

/-- From a state in `P`, a return satisfies `Q` and a stop satisfies `E`. -/
def Meets (P : σ → Prop) (program : EStateM ε σ α) (Q : α → σ → Prop) (E : ε → σ → Prop) : Prop :=
  ∀ s, P s →
    match program s with
    | .ok a s' => Q a s'
    | .error e s' => E e s'

namespace Meets

variable {P P' : σ → Prop} {Q Q' : α → σ → Prop} {R : β → σ → Prop} {E : ε → σ → Prop}

theorem returns {a : α} (holds : ∀ s, P s → Q a s) :
    Meets P (pure a : EStateM ε σ α) Q E := holds

theorem stops {e : ε} (holds : ∀ s, P s → E e s) :
    Meets P (throw e : EStateM ε σ α) Q E := holds

theorem changes {change : σ → σ} {Q : PUnit → σ → Prop}
    (holds : ∀ s, P s → Q PUnit.unit (change s)) :
    Meets P (modify change : EStateM ε σ PUnit) Q E := holds

theorem writes {t : σ} {Q : PUnit → σ → Prop} (holds : ∀ s, P s → Q PUnit.unit t) :
    Meets P (set t : EStateM ε σ PUnit) Q E := holds

/-- One program after another. -/
theorem bind {first : EStateM ε σ α} {next : α → EStateM ε σ β} (before : Meets P first Q E)
    (after : ∀ a, Meets (Q a) (next a) R E) : Meets P (first >>= next) R E := by
  intro s start
  have middle := before s start
  show match EStateM.bind first next s with
    | .ok b s' => R b s'
    | .error e s' => E e s'
  unfold EStateM.bind
  cases result : first s with
  | ok a s' =>
      rw [result] at middle
      exact after a s' middle
  | error e s' =>
      rw [result] at middle
      exact middle

/-- A program that reads the state first. -/
theorem read {next : σ → EStateM ε σ β}
    (after : ∀ seen, Meets (fun s => P s ∧ s = seen) (next seen) R E) :
    Meets P (get >>= next) R E :=
  fun s start => after s s ⟨start, rfl⟩

theorem weaken {program : EStateM ε σ α} (spec : Meets P program Q E)
    (needs : ∀ s, P' s → P s) (gives : ∀ a s, Q a s → Q' a s) : Meets P' program Q' E := by
  intro s start
  have met := spec s (needs s start)
  cases result : program s with
  | ok a s' =>
      rw [result] at met
      exact gives a s' met
  | error e s' =>
      rw [result] at met
      exact met

/-- Less is asked of a stop. -/
theorem loosen {E' : ε → σ → Prop} {program : EStateM ε σ α} (spec : Meets P program Q E)
    (gives : ∀ e s, E e s → E' e s) : Meets P program Q E' := by
  intro s start
  have met := spec s start
  cases result : program s with
  | ok a s' =>
      rw [result] at met
      exact met
  | error e s' =>
      rw [result] at met
      exact gives e s' met

end Meets

/-- The program keeps `I`, however it ends. -/
abbrev Keeps (I : σ → Prop) (program : EStateM ε σ α) : Prop :=
  Meets I program (fun _ => I) (fun _ => I)

end Lib.Effects
