import IronFix.Fixp.Session

/-!
# Lists of gaps

Ascending lists of half-open ranges, and what recording, widening, consuming
and dropping do to the numbers they cover.
-/

namespace IronFix.Fixp

open Lib.Decimal

/-- The number lies in the range. -/
def Gap.Covers (gap : Gap) (n : Nat) : Prop := gap.fromSeq ≤ n ∧ n < gap.endSeq

/-- The number lies in one of the ranges. -/
def Covered (gaps : List Gap) (n : Nat) : Prop := ∃ gap ∈ gaps, gap.Covers n

/-- Ranges that are not empty, disjoint and in order. -/
structure Ascending (gaps : List Gap) : Prop where
  nonempty : ∀ gap ∈ gaps, gap.fromSeq < gap.endSeq
  ordered : gaps.Pairwise fun earlier later => earlier.endSeq ≤ later.fromSeq

/-- Every range ends at or before `bound`. -/
def EndBy (gaps : List Gap) (bound : Nat) : Prop := ∀ gap ∈ gaps, gap.endSeq ≤ bound

theorem EndBy.mono {gaps : List Gap} {bound wider : Nat} (ends : EndBy gaps bound)
    (le : bound ≤ wider) : EndBy gaps wider := fun gap mem => le_trans (ends gap mem) le

theorem EndBy.not_covered {gaps : List Gap} {n : Nat} (ends : EndBy gaps n) : ¬Covered gaps n := by
  rintro ⟨gap, mem, -, below⟩
  have := ends gap mem
  omega

theorem Covered.append {gaps : List Gap} {gap : Gap} {n : Nat} :
    Covered (gaps ++ [gap]) n ↔ Covered gaps n ∨ gap.Covers n := by
  constructor
  · rintro ⟨found, mem, covers⟩
    rcases List.mem_append.mp mem with mem | mem
    · exact .inl ⟨found, mem, covers⟩
    · obtain rfl := List.mem_singleton.mp mem
      exact .inr covers
  · rintro (⟨found, mem, covers⟩ | covers)
    · exact ⟨found, List.mem_append_left _ mem, covers⟩
    · exact ⟨gap, List.mem_append_right _ (List.mem_singleton.mpr rfl), covers⟩

namespace Ascending

variable {gaps rest : List Gap} {front last gap : Gap}

theorem nil : Ascending [] := ⟨by simp, List.Pairwise.nil⟩

theorem append (ascending : Ascending gaps) (ends : EndBy gaps gap.fromSeq)
    (nonempty : gap.fromSeq < gap.endSeq) : Ascending (gaps ++ [gap]) where
  nonempty found mem := by
    rcases List.mem_append.mp mem with mem | mem
    · exact ascending.nonempty found mem
    · obtain rfl := List.mem_singleton.mp mem
      exact nonempty
  ordered := by
    rw [List.pairwise_append]
    refine ⟨ascending.ordered, List.pairwise_singleton _ _, fun earlier mem later single => ?_⟩
    obtain rfl := List.mem_singleton.mp single
    exact ends earlier mem

/-- All but the last end before it begins. -/
theorem init (ascending : Ascending (gaps ++ [last])) :
    Ascending gaps ∧ EndBy gaps last.fromSeq ∧ last.fromSeq < last.endSeq := by
  obtain ⟨ordered, -, before⟩ := List.pairwise_append.mp ascending.ordered
  refine ⟨⟨fun found mem => ascending.nonempty found (List.mem_append_left _ mem), ordered⟩,
    fun found mem => before found mem last (List.mem_singleton.mpr rfl),
    ascending.nonempty last (List.mem_append_right _ (List.mem_singleton.mpr rfl))⟩

theorem endBy_last (ascending : Ascending (gaps ++ [last])) : EndBy (gaps ++ [last]) last.endSeq := by
  obtain ⟨-, before, nonempty⟩ := ascending.init
  intro found mem
  rcases List.mem_append.mp mem with mem | mem
  · have := before found mem
    omega
  · obtain rfl := List.mem_singleton.mp mem
    exact le_refl _

theorem widen {endSeq : Nat} (ascending : Ascending (gaps ++ [last])) (wider : last.endSeq ≤ endSeq) :
    Ascending (gaps ++ [{ last with endSeq }]) := by
  obtain ⟨earlier, before, nonempty⟩ := ascending.init
  exact earlier.append before (lt_of_lt_of_le nonempty wider)

theorem tail (ascending : Ascending (front :: rest)) :
    Ascending rest ∧ ∀ gap ∈ rest, front.endSeq ≤ gap.fromSeq := by
  obtain ⟨before, ordered⟩ := List.pairwise_cons.mp ascending.ordered
  exact ⟨⟨fun gap mem => ascending.nonempty gap (List.mem_cons_of_mem _ mem), ordered⟩, before⟩

theorem cons (ascending : Ascending rest) (before : ∀ gap ∈ rest, front.endSeq ≤ gap.fromSeq)
    (nonempty : front.fromSeq < front.endSeq) : Ascending (front :: rest) where
  nonempty gap mem := by
    rcases List.mem_cons.mp mem with rfl | mem
    · exact nonempty
    · exact ascending.nonempty gap mem
  ordered := List.pairwise_cons.mpr ⟨before, ascending.ordered⟩

/-- The numbers of later gaps lie at or past the end of the first. -/
theorem covered_rest (ascending : Ascending (front :: rest)) {n : Nat} (covered : Covered rest n) :
    front.endSeq ≤ n := by
  obtain ⟨gap, mem, below, -⟩ := covered
  exact le_trans (ascending.tail.2 gap mem) below

end Ascending

/-! ## Consuming the first gap -/

/-- The gaps once `count` numbers of the first are consumed. -/
def trim (front : Gap) (rest : List Gap) (count : Nat) : List Gap :=
  if front.fromSeq + count < front.endSeq then
    { front with fromSeq := front.fromSeq + count } :: rest
  else rest

theorem Session.consumeMissing_trim {session : Session} {front : Gap} {rest : List Gap} {count : Nat}
    (first : session.missing = front :: rest) (nonempty : front.fromSeq < front.endSeq)
    (inside : front.fromSeq + count ≤ front.endSeq) (small : front.endSeq ≤ u64Max) :
    session.consumeMissing count =
      { session with
        missing := trim front rest count
        overflowReceived :=
          if (trim front rest count).isEmpty then [] else session.overflowReceived } := by
  unfold consumeMissing trim
  by_cases none_left : count = 0
  · subst none_left
    rw [if_pos rfl, if_pos (by omega : front.fromSeq + 0 < front.endSeq)]
    show session = { session with missing := front :: rest, overflowReceived := session.overflowReceived }
    rw [← first]
  · have fits : checkedAdd u64Max front.fromSeq count = some (front.fromSeq + count) :=
      checkedAdd_eq_some.mpr ⟨rfl, by omega⟩
    rw [if_neg none_left, first]
    simp only [fits]
    split
    · rfl
    · rfl

section Trim

variable {front : Gap} {rest : List Gap} {count n : Nat}

theorem trim_ascending (ascending : Ascending (front :: rest)) : Ascending (trim front rest count) := by
  unfold trim
  split
  · exact ascending.tail.1.cons ascending.tail.2 (by assumption)
  · exact ascending.tail.1

theorem trim_length : (trim front rest count).length ≤ (front :: rest).length := by
  unfold trim
  split
  · exact le_refl _
  · exact Nat.le_succ _

theorem trim_endBy {bound : Nat} (ends : EndBy (front :: rest) bound) :
    EndBy (trim front rest count) bound := by
  unfold trim
  split
  · intro gap mem
    rcases List.mem_cons.mp mem with rfl | mem
    · exact ends front (List.mem_cons_self ..)
    · exact ends gap (List.mem_cons_of_mem _ mem)
  · exact fun gap mem => ends gap (List.mem_cons_of_mem _ mem)

/-- As long as a gap is left, one ends at or past the end of each. -/
theorem trim_reaches {gap : Gap} (ascending : Ascending (front :: rest))
    (filled : trim front rest count ≠ []) (mem : gap ∈ front :: rest) :
    ∃ left ∈ trim front rest count, gap.endSeq ≤ left.endSeq := by
  unfold trim at filled ⊢
  split
  · rcases List.mem_cons.mp mem with rfl | mem
    · exact ⟨_, List.mem_cons_self .., le_refl _⟩
    · exact ⟨gap, List.mem_cons_of_mem _ mem, le_refl _⟩
  · rename_i spent
    rw [if_neg spent] at filled
    rcases List.mem_cons.mp mem with rfl | mem
    · obtain ⟨later, laterMem⟩ := List.exists_mem_of_ne_nil rest filled
      have := ascending.tail.2 later laterMem
      have := ascending.nonempty later (List.mem_cons_of_mem _ laterMem)
      exact ⟨later, laterMem, by omega⟩
    · exact ⟨gap, mem, le_refl _⟩

/-- What is left is what was covered past the consumed numbers. -/
theorem covered_trim (ascending : Ascending (front :: rest))
    (inside : front.fromSeq + count ≤ front.endSeq) :
    Covered (trim front rest count) n ↔
      Covered (front :: rest) n ∧ front.fromSeq + count ≤ n := by
  have later (covered : Covered rest n) : front.fromSeq + count ≤ n :=
    le_trans inside (ascending.covered_rest covered)
  unfold trim
  constructor
  · split
    · rintro ⟨gap, mem, covers⟩
      rcases List.mem_cons.mp mem with rfl | mem
      · exact ⟨⟨front, List.mem_cons_self .., by
          obtain ⟨above, below⟩ := covers
          exact ⟨le_trans (Nat.le_add_right ..) above, below⟩⟩, covers.1⟩
      · exact ⟨⟨gap, List.mem_cons_of_mem _ mem, covers⟩, later ⟨gap, mem, covers⟩⟩
    · rintro ⟨gap, mem, covers⟩
      exact ⟨⟨gap, List.mem_cons_of_mem _ mem, covers⟩, later ⟨gap, mem, covers⟩⟩
  · rintro ⟨⟨gap, mem, covers⟩, past⟩
    rcases List.mem_cons.mp mem with rfl | mem
    · rw [if_pos (lt_of_le_of_lt past covers.2)]
      exact ⟨_, List.mem_cons_self .., past, covers.2⟩
    · split
      · exact ⟨gap, List.mem_cons_of_mem _ mem, covers⟩
      · exact ⟨gap, mem, covers⟩

end Trim

/-! ## Runs received -/

/-- The runs that end past a number. -/
def runsPast (runs : List Gap) (seq : Nat) : List Gap := runs.dropWhile fun run => run.endSeq ≤ seq

section Runs

variable {runs : List Gap} {seq : Nat}

theorem runsPast_sublist : (runsPast runs seq).Sublist runs := List.dropWhile_sublist _

theorem runsPast_ascending (ascending : Ascending runs) : Ascending (runsPast runs seq) :=
  ⟨fun run mem => ascending.nonempty run (runsPast_sublist.subset mem),
    ascending.ordered.sublist runsPast_sublist⟩

theorem mem_runsPast {run : Gap} (mem : run ∈ runs) (past : seq < run.endSeq) :
    run ∈ runsPast runs seq := by
  unfold runsPast
  induction runs with
  | nil => exact mem
  | cons first rest ih =>
      rw [List.dropWhile_cons]
      split
      · rename_i dropped
        rcases List.mem_cons.mp mem with rfl | mem
        · have := of_decide_eq_true dropped
          omega
        · exact ih mem
      · exact mem

theorem covered_runsPast {n : Nat} (covered : Covered runs n) (past : seq ≤ n) :
    Covered (runsPast runs seq) n := by
  obtain ⟨run, mem, covers⟩ := covered
  exact ⟨run, mem_runsPast mem (lt_of_le_of_lt past covers.2), covers⟩

/-- The first run left tells whether the number was received. -/
theorem head_runsPast (ascending : Ascending runs) :
    (match (runsPast runs seq).head? with
      | some run => decide (run.fromSeq ≤ seq)
      | none => false) = true ↔ Covered runs seq := by
  have left : Ascending (runsPast runs seq) := runsPast_ascending ascending
  have ends : ∀ run, (runsPast runs seq).head? = some run → seq < run.endSeq := by
    intro run first
    have kept := List.head?_dropWhile_not (fun run : Gap => decide (run.endSeq ≤ seq)) runs
    unfold runsPast at first
    rw [first] at kept
    simpa using kept
  constructor
  · intro received
    split at received
    · rename_i run first
      exact ⟨run, runsPast_sublist.subset (List.mem_of_head? first), of_decide_eq_true received,
        ends run first⟩
    · cases received
  · intro covered
    obtain ⟨run, mem, covers⟩ := covered_runsPast covered (le_refl seq)
    cases shape : runsPast runs seq with
    | nil =>
        rw [shape] at mem
        cases mem
    | cons first rest =>
        rw [shape] at mem left
        show decide (first.fromSeq ≤ seq) = true
        rcases List.mem_cons.mp mem with rfl | mem
        · exact decide_eq_true covers.1
        · -- a later run would begin at or before a number the first ends past
          have ahead := ends first (by rw [shape]; rfl)
          have before := left.tail.2 run mem
          have := covers.1
          omega

end Runs

end IronFix.Fixp
