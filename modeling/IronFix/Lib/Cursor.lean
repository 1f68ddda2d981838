import Mathlib.Data.List.Basic

/-!
# Reading and writing along a buffer

A writer appends to its buffer; a reader looks at fixed data from an offset it
moves. `Reads` says that a field can be read wherever it lies: it marks its own
end. Fields written one after another are then read one after another.
-/

namespace Lib.Cursor

variable {ε β α γ : Type}

/-- Whatever the buffer holds, `write` appends `field` to it. -/
def Writes (write : EStateM ε (List β) PUnit) (field : List β) : Prop :=
  ∀ buffer, write buffer = .ok PUnit.unit (buffer ++ field)

/-- Whatever the buffer holds, `write` fails and leaves it. -/
def Refuses (write : EStateM ε (List β) PUnit) (error : ε) : Prop :=
  ∀ buffer, write buffer = .error error buffer

/-- Wherever `field` lies in the data, reading from its start gives `value` and
stops at its end. -/
def Reads (read : List β → EStateM ε Nat α) (field : List β) (value : α) : Prop :=
  ∀ before after, read (before ++ (field ++ after)) before.length
    = .ok value (before.length + field.length)

theorem Writes.bind {first second : EStateM ε (List β) PUnit} {head tail : List β}
    (writesHead : Writes first head) (writesTail : Writes second tail) :
    Writes (do first; second) (head ++ tail) := by
  intro buffer
  show (EStateM.bind first fun _ => second) buffer = _
  unfold EStateM.bind
  rw [writesHead buffer, ← List.append_assoc]
  exact writesTail (buffer ++ head)

namespace Reads

theorem returns (value : α) : Reads (fun _ : List β => (pure value : EStateM ε Nat α)) [] value :=
  fun _ _ => rfl

/-- A field that is read in two parts. -/
theorem bind {first : List β → EStateM ε Nat α} {next : α → List β → EStateM ε Nat γ}
    {head tail : List β} {a : α} {c : γ} (readsHead : Reads first head a)
    (readsTail : Reads (next a) tail c) :
    Reads (fun data => do let a ← first data; next a data) (head ++ tail) c := by
  intro before after
  show EStateM.bind (first _) (fun a => next a _) before.length = _
  have parted : before ++ (head ++ tail ++ after) = before ++ (head ++ (tail ++ after)) := by
    rw [List.append_assoc head]
  have regrouped : before ++ (head ++ (tail ++ after)) = before ++ head ++ (tail ++ after) := by
    rw [List.append_assoc before]
  unfold EStateM.bind
  rw [parted, readsHead before (tail ++ after), regrouped]
  show next a _ (before.length + head.length) = _
  rw [← List.length_append, readsTail (before ++ head) after, List.length_append,
    List.length_append, Nat.add_assoc]

/-- What is read decides the rest. -/
theorem finish {read : List β → EStateM ε Nat α} {next : α → EStateM ε Nat γ} {field : List β}
    {a : α} {c : γ} (reads : Reads read field a) (ends : next a = pure c) :
    Reads (fun data => do let a ← read data; next a) field c := by
  intro before after
  show EStateM.bind (read _) next before.length = _
  unfold EStateM.bind
  rw [reads before after]
  show next a _ = _
  rw [ends]
  rfl

theorem map {read : List β → EStateM ε Nat α} {field : List β} {a : α} (reads : Reads read field a)
    (f : α → γ) : Reads (fun data => f <$> read data) field (f a) := by
  intro before after
  show EStateM.map f (read _) before.length = _
  unfold EStateM.map
  rw [reads before after]

/-- The elements of a field, where it lies. -/
theorem getElem?_field (before : List β) {field : List β} (after : List β) {i : Nat}
    {element : β} (found : field[i]? = some element) :
    (before ++ (field ++ after))[before.length + i]? = some element := by
  have inside : i < field.length := (List.getElem?_eq_some_iff.mp found).1
  rw [List.getElem?_append_right (Nat.le_add_right _ _), Nat.add_sub_cancel_left,
    List.getElem?_append_left inside]
  exact found

end Reads

/-- What is read satisfies `Q` and lies in the data; the same is read from any
prefix that has it whole, and a shorter one fails with an error in `short`. -/
def Delimits (short : ε → Prop) (Q : α → Prop) (read : List β → EStateM ε Nat α) : Prop :=
  ∀ data offset a stop, offset ≤ data.length → read data offset = .ok a stop →
    Q a ∧ offset ≤ stop ∧ stop ≤ data.length ∧
      (∀ k, stop ≤ k → read (data.take k) offset = .ok a stop) ∧
      ∀ k, offset ≤ k → k < stop → ∃ e left, read (data.take k) offset = .error e left ∧ short e

namespace Delimits

variable {short : ε → Prop} {Q : α → Prop} {R : γ → Prop}

/-- A program that reads nothing. -/
theorem settled {program : EStateM ε Nat α}
    (stays : ∀ offset a stop, program offset = .ok a stop → stop = offset ∧ Q a) :
    Delimits short Q (fun _ : List β => program) := by
  intro data offset a stop inside ran
  obtain ⟨rfl, holds⟩ := stays offset a stop ran
  exact ⟨holds, Nat.le_refl _, inside, fun _ _ => ran,
    fun k above below => absurd above (Nat.not_le_of_lt below)⟩

theorem returns {a : α} (holds : Q a) :
    Delimits short Q (fun _ : List β => (pure a : EStateM ε Nat α)) := by
  refine settled fun offset b stop ran => ?_
  cases ran
  exact ⟨rfl, holds⟩

theorem bind {first : List β → EStateM ε Nat α} {next : α → List β → EStateM ε Nat γ}
    (before : Delimits short Q first) (after : ∀ a, Q a → Delimits short R (next a)) :
    Delimits short R (fun data => do let a ← first data; next a data) := by
  intro data offset c stop inside ran
  dsimp only at ran
  have step : ∀ input a middle, first input offset = .ok a middle →
      (do let a ← first input; next a input : EStateM ε Nat γ) offset = next a input middle := by
    intro input a middle read
    show EStateM.bind (first input) _ offset = _
    unfold EStateM.bind
    rw [read]
  cases read : first data offset with
  | error e left =>
      have failed : (do let a ← first data; next a data : EStateM ε Nat γ) offset
          = .error e left := by
        show EStateM.bind (first data) _ offset = _
        unfold EStateM.bind
        rw [read]
      rw [failed] at ran
      cases ran
  | ok a middle =>
      rw [step data a middle read] at ran
      obtain ⟨holds, up, within, same, cut⟩ := before data offset a middle inside read
      obtain ⟨holds', up', within', same', cut'⟩ := after a holds data middle c stop within ran
      refine ⟨holds', Nat.le_trans up up', within', fun k whole => ?_, fun k above below => ?_⟩
      · exact (step _ a middle (same k (Nat.le_trans up' whole))).trans (same' k whole)
      · rcases Nat.lt_or_ge k middle with early | late
        · obtain ⟨e, left, failed, isShort⟩ := cut k above early
          refine ⟨e, left, ?_, isShort⟩
          show EStateM.bind (first _) _ offset = _
          unfold EStateM.bind
          rw [failed]
        · obtain ⟨e, left, failed, isShort⟩ := cut' k late below
          exact ⟨e, left, (step _ a middle (same k late)).trans failed, isShort⟩

end Delimits

end Lib.Cursor
