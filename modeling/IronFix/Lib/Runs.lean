import Mathlib.Data.List.Basic

/-!
# Runs of a deterministic machine

A machine is a step function on states, driven by a list of inputs. What every
legal step keeps, every legal run keeps (`invariant`).
-/

namespace Lib.Runs

variable {σ ι : Type} (step : σ → ι → σ) (legal : σ → ι → Prop)

/-- The state after the inputs. -/
def run (s : σ) (inputs : List ι) : σ := inputs.foldl step s

@[simp] theorem run_nil (s : σ) : run step s [] = s := rfl

@[simp] theorem run_cons (s : σ) (input : ι) (inputs : List ι) :
    run step s (input :: inputs) = run step (step s input) inputs := rfl

theorem run_append (s : σ) (before after : List ι) :
    run step s (before ++ after) = run step (run step s before) after := List.foldl_append

/-- Every input of the run is legal where it is made. -/
def Along : σ → List ι → Prop
  | _, [] => True
  | s, input :: inputs => legal s input ∧ Along (step s input) inputs

variable {step legal}

theorem Along.append {s : σ} {before after : List ι} (first : Along step legal s before)
    (second : Along step legal (run step s before) after) :
    Along step legal s (before ++ after) := by
  induction before generalizing s with
  | nil => exact second
  | cons input before ih => exact ⟨first.1, ih first.2 second⟩

/-- When every input is legal, so is every run. -/
theorem along_true (s : σ) (inputs : List ι) : Along step (fun _ _ => True) s inputs := by
  induction inputs generalizing s with
  | nil => exact trivial
  | cons input inputs ih => exact ⟨trivial, ih (step s input)⟩

/-- What legal steps keep holds along every legal run. -/
theorem invariant {P : σ → Prop} (keeps : ∀ s input, P s → legal s input → P (step s input))
    {s : σ} {inputs : List ι} (starts : P s) (along : Along step legal s inputs) :
    P (run step s inputs) := by
  induction inputs generalizing s with
  | nil => exact starts
  | cons input inputs ih => exact ih (keeps s input starts along.1) along.2

end Lib.Runs
