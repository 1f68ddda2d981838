import Mathlib.Init

/-!
# Steps that keep their state when they fail

`EStateM ε σ` is a step on a state `σ` that answers or fails with an `ε`, and
leaves a state either way. These are the equations of its operations at a
state, which evaluate a `do` block one step at a time.
-/

namespace Lib.Steps

variable {ε σ α β : Type}

/-- `value`, or a failure. -/
def orFail (value : Option α) (error : ε) : EStateM ε σ α :=
  match value with
  | some a => pure a
  | none => throw error

/-- A fallible computation that does not touch the state. -/
def orThrow (value : Except ε α) : EStateM ε σ α :=
  match value with
  | .ok a => pure a
  | .error error => throw error

/-- Fails unless `condition` holds. -/
def ensure (condition : Prop) [Decidable condition] (error : ε) : EStateM ε σ Unit :=
  if condition then pure () else throw error

/-- Runs a step and answers with its result: it no longer fails. -/
def attempt {ε' : Type} (step : EStateM ε σ α) : EStateM ε' σ (Except ε α) := fun s =>
  match step s with
  | .ok a s' => .ok (.ok a) s'
  | .error error s' => .ok (.error error) s'

def mapError {ε' : Type} (f : ε → ε') (step : EStateM ε σ α) : EStateM ε' σ α := fun s =>
  match step s with
  | .ok a s' => .ok a s'
  | .error error s' => .error (f error) s'

/-- A step on a part of the state. -/
def zoom {τ : Type} (part : σ → τ) (put : σ → τ → σ) (step : EStateM ε τ α) : EStateM ε σ α := fun s =>
  match step (part s) with
  | .ok a t => .ok a (put s t)
  | .error error t => .error error (put s t)

section Equations

variable (s : σ)

@[simp] theorem pure_apply (a : α) : (pure a : EStateM ε σ α) s = .ok a s := rfl

@[simp] theorem throw_apply (error : ε) : (throw error : EStateM ε σ α) s = .error error s := rfl

@[simp] theorem get_apply : (get : EStateM ε σ σ) s = .ok s s := rfl

@[simp] theorem set_apply (next : σ) : (set next : EStateM ε σ PUnit) s = .ok ⟨⟩ next := rfl

@[simp] theorem modify_apply (f : σ → σ) : (modify f : EStateM ε σ PUnit) s = .ok ⟨⟩ (f s) := rfl

@[simp] theorem bind_apply (x : EStateM ε σ α) (f : α → EStateM ε σ β) :
    (x >>= f) s = match x s with
      | .ok a s' => f a s'
      | .error error s' => .error error s' := rfl

@[simp] theorem orFail_some (a : α) (error : ε) : (orFail (some a) error : EStateM ε σ α) s = .ok a s :=
  rfl

@[simp] theorem orFail_none (error : ε) :
    (orFail (none : Option α) error : EStateM ε σ α) s = .error error s := rfl

@[simp] theorem orThrow_ok (a : α) : (orThrow (.ok a : Except ε α) : EStateM ε σ α) s = .ok a s := rfl

@[simp] theorem orThrow_error (error : ε) :
    (orThrow (.error error : Except ε α) : EStateM ε σ α) s = .error error s := rfl

theorem ensure_of {condition : Prop} [Decidable condition] (holds : condition) (error : ε) :
    (ensure condition error : EStateM ε σ Unit) s = .ok () s := by
  unfold ensure
  rw [if_pos holds]
  rfl

theorem ensure_not {condition : Prop} [Decidable condition] (fails : ¬condition) (error : ε) :
    (ensure condition error : EStateM ε σ Unit) s = .error error s := by
  unfold ensure
  rw [if_neg fails]
  rfl

/-! ### What a step that answers did -/

variable {s} {s' : σ} {b : β}

theorem bind_eq_ok {x : EStateM ε σ α} {f : α → EStateM ε σ β} :
    (x >>= f) s = .ok b s' ↔ ∃ a t, x s = .ok a t ∧ f a t = .ok b s' := by
  rw [bind_apply]
  constructor
  · intro answers
    split at answers
    · rename_i a t first
      exact ⟨a, t, first, answers⟩
    · cases answers
  · rintro ⟨a, t, first, rest⟩
    rw [first]
    exact rest

theorem get_bind_eq_ok {f : σ → EStateM ε σ β} :
    (get >>= f) s = .ok b s' ↔ f s s = .ok b s' := Iff.rfl

theorem orFail_bind_eq_ok {value : Option α} {error : ε} {f : α → EStateM ε σ β} :
    (orFail value error >>= f) s = .ok b s' ↔ ∃ a, value = some a ∧ f a s = .ok b s' := by
  cases value with
  | none => exact ⟨nofun, nofun⟩
  | some found => simp

theorem orThrow_bind_eq_ok {value : Except ε α} {f : α → EStateM ε σ β} :
    (orThrow value >>= f) s = .ok b s' ↔ ∃ a, value = .ok a ∧ f a s = .ok b s' := by
  cases value with
  | error error => exact ⟨nofun, nofun⟩
  | ok found => simp

theorem ensure_bind_eq_ok {condition : Prop} [Decidable condition] {error : ε}
    {f : Unit → EStateM ε σ β} :
    (ensure condition error >>= f) s = .ok b s' ↔ condition ∧ f () s = .ok b s' := by
  rw [bind_apply]
  by_cases holds : condition
  · rw [ensure_of s holds]
    simp [holds]
  · rw [ensure_not s holds]
    simp [holds]

end Equations

/-! ## The errors a step can fail with -/

/-- Every error of `step` satisfies `P`. -/
def FailsWith (P : ε → Prop) (step : EStateM ε σ α) : Prop :=
  ∀ s error after, step s = .error error after → P error

namespace FailsWith

variable {P : ε → Prop}

theorem pure (a : α) : FailsWith P (pure a : EStateM ε σ α) := by
  intro s error after fails
  cases fails

theorem get : FailsWith P (get : EStateM ε σ σ) := by
  intro s error after fails
  cases fails

theorem set (next : σ) : FailsWith P (set next : EStateM ε σ PUnit) := by
  intro s error after fails
  cases fails

theorem modify (f : σ → σ) : FailsWith P (modify f : EStateM ε σ PUnit) := by
  intro s error after fails
  cases fails

theorem orFail {error : ε} (fine : P error) (value : Option α) :
    FailsWith P (orFail value error : EStateM ε σ α) := by
  intro s error after fails
  cases value with
  | some a => cases fails
  | none =>
      cases fails
      exact fine

theorem orThrow {value : Except ε α} (fine : ∀ error, value = .error error → P error) :
    FailsWith P (orThrow value : EStateM ε σ α) := by
  intro s error after fails
  cases value with
  | ok a => cases fails
  | error thrown =>
      cases fails
      exact fine _ rfl

theorem ensure {error : ε} (fine : P error) (condition : Prop) [Decidable condition] :
    FailsWith P (ensure condition error : EStateM ε σ Unit) := by
  intro s raised after fails
  by_cases holds : condition
  · rw [ensure_of s holds] at fails
    cases fails
  · rw [ensure_not s holds] at fails
    cases fails
    exact fine

theorem bind {step : EStateM ε σ α} {next : α → EStateM ε σ β} (first : FailsWith P step)
    (rest : ∀ a, FailsWith P (next a)) : FailsWith P (step >>= next) := by
  intro s error after fails
  rw [bind_apply] at fails
  split at fails
  · exact rest _ _ _ _ fails
  · rename_i found
    cases fails
    exact first _ _ _ found

end FailsWith

/-! ## Steps on a view of the state -/

/-- Wherever `step` answers, `other` answers the same on the view of the state. -/
def Mirrors {τ : Type} (view : σ → τ) (step : EStateM ε σ α) (other : EStateM ε τ α) : Prop :=
  ∀ s a after, step s = .ok a after → other (view s) = .ok a (view after)

namespace Mirrors

variable {τ : Type} {view : σ → τ}

theorem pure (a : α) : Mirrors view (pure a : EStateM ε σ α) (pure a) := by
  rintro s _ _ ⟨⟩
  rfl

theorem set (next : σ) : Mirrors view (set next : EStateM ε σ PUnit) (set (view next)) := by
  rintro s _ _ ⟨⟩
  rfl

theorem modify {f : σ → σ} {g : τ → τ} (same : ∀ s, g (view s) = view (f s)) :
    Mirrors view (modify f : EStateM ε σ PUnit) (modify g) := by
  rintro s _ _ ⟨⟩
  rw [modify_apply, same]

theorem orFail (value : Option α) (error : ε) :
    Mirrors view (orFail value error : EStateM ε σ α) (orFail value error) := by
  intro s a after answers
  cases value with
  | none => cases answers
  | some b =>
      cases answers
      rfl

theorem orThrow {value other : Except ε α} (same : ∀ a, value = .ok a → other = .ok a) :
    Mirrors view (orThrow value : EStateM ε σ α) (orThrow other) := by
  intro s a after answers
  cases value with
  | error error => cases answers
  | ok b =>
      cases answers
      rw [same a rfl]
      rfl

theorem ensure (condition : Prop) [Decidable condition] (error : ε) :
    Mirrors view (ensure condition error : EStateM ε σ Unit) (ensure condition error) := by
  intro s a after answers
  by_cases holds : condition
  · rw [ensure_of s holds] at answers
    cases answers
    exact ensure_of _ holds error
  · rw [ensure_not s holds] at answers
    cases answers

theorem bind {step : EStateM ε σ α} {other : EStateM ε τ α} {next : α → EStateM ε σ β}
    {further : α → EStateM ε τ β} (first : Mirrors view step other)
    (rest : ∀ a, Mirrors view (next a) (further a)) :
    Mirrors view (step >>= next) (other >>= further) := by
  intro s b after answers
  obtain ⟨a, between, stepped, answers⟩ := bind_eq_ok.mp answers
  rw [bind_apply, first s a between stepped]
  exact rest a between b after answers

theorem get_bind {next : σ → EStateM ε σ β} {further : τ → EStateM ε τ β}
    (rest : ∀ s, Mirrors view (next s) (further (view s))) :
    Mirrors view (get >>= next : EStateM ε σ β) (get >>= further : EStateM ε τ β) := by
  intro s b after answers
  exact rest s s b after answers

end Mirrors

end Lib.Steps
