import Mathlib.Init

/-!
# Traces of labelled steps

A system goes from state to state, each step with a label. What holds step by
step holds along a trace: an invariant, a relation to another system, and a
state that a function of the labels computes.
-/

namespace Lib.Traces

variable {σ τ ℓ : Type} {step : σ → ℓ → σ → Prop}

/-- The steps of the labels, one behind the other. -/
inductive Trace (step : σ → ℓ → σ → Prop) : σ → List ℓ → σ → Prop
  | nil (s : σ) : Trace step s [] s
  | cons {s s' s'' : σ} {label : ℓ} {labels : List ℓ} (taken : step s label s')
      (rest : Trace step s' labels s'') : Trace step s (label :: labels) s''

namespace Trace

variable {s s' s'' : σ} {t : τ} {label : ℓ} {labels before after : List ℓ}

theorem append (first : Trace step s before s') (second : Trace step s' after s'') :
    Trace step s (before ++ after) s'' := by
  induction first with
  | nil => exact second
  | cons taken _ ih => exact .cons taken (ih second)

theorem split (trace : Trace step s (before ++ after) s'') :
    ∃ s', Trace step s before s' ∧ Trace step s' after s'' := by
  induction before generalizing s with
  | nil => exact ⟨s, .nil s, trace⟩
  | cons label before ih =>
      cases trace with
      | cons taken rest =>
          obtain ⟨s', first, second⟩ := ih rest
          exact ⟨s', .cons taken first, second⟩

/-- What every step of the labels keeps, the trace keeps. -/
theorem invariant {P : σ → Prop} (trace : Trace step s labels s')
    (keeps : ∀ s label s', label ∈ labels → P s → step s label s' → P s') (starts : P s) : P s' := by
  induction trace with
  | nil => exact starts
  | cons taken rest ih =>
      have next := keeps _ _ _ List.mem_cons_self starts taken
      exact ih (fun s label s' member => keeps s label s' (List.mem_cons_of_mem _ member)) next

/-- A system whose steps another one matches has its traces matched. -/
theorem simulates {other : τ → ℓ → τ → Prop} {R : σ → τ → Prop}
    (matched : ∀ s t label s', R s t → step s label s' → ∃ t', other t label t' ∧ R s' t')
    (trace : Trace step s labels s') (starts : R s t) : ∃ t', Trace other t labels t' ∧ R s' t' := by
  induction trace generalizing t with
  | nil => exact ⟨t, .nil t, starts⟩
  | cons taken rest ih =>
      obtain ⟨between, followed, related⟩ := matched _ _ _ _ starts taken
      obtain ⟨last, along, ends⟩ := ih related
      exact ⟨last, .cons followed along, ends⟩

/-- A system whose steps a function follows is followed along its traces. -/
theorem follows {next : τ → ℓ → τ} {R : σ → τ → Prop} (trace : Trace step s labels s')
    (matched : ∀ s t label s', label ∈ labels → R s t → step s label s' → R s' (next t label))
    (starts : R s t) : R s' (labels.foldl next t) := by
  induction trace generalizing t with
  | nil => exact starts
  | cons taken rest ih =>
      have related := matched _ _ _ _ List.mem_cons_self starts taken
      exact ih (fun s t label s' member => matched s t label s' (List.mem_cons_of_mem _ member)) related

end Trace

end Lib.Traces
