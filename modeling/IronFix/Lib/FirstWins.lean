import Mathlib.Data.List.Sort

/-!
# Sorted once, the first of each key kept

A list sorted by a key with a stable sort, and of each run of equal keys the
first element kept. What is left is strictly ascending, holds exactly the keys
of the list, and answers a search by key with the first element of the list
that has it.
-/

namespace Lib.FirstWins

variable {α κ : Type*} [LinearOrder κ] (key : α → κ)

/-- A stable sort by `key`. -/
def sortByKey (l : List α) : List α := l.insertionSort (fun a b => key a ≤ key b)

/-- Drops what repeats the key of the element kept before it. -/
def dedupAfter (kept : α) : List α → List α
  | [] => [kept]
  | next :: rest =>
      if key next = key kept then dedupAfter kept rest else kept :: dedupAfter next rest

def dedupByKey : List α → List α
  | [] => []
  | first :: rest => dedupAfter key first rest

def firsts (l : List α) : List α := dedupByKey key (sortByKey key l)

variable (l : List α) (k : κ)

/-- The first element of `l` with key `k`. -/
def lookup : Option α := l.find? (key · == k)

variable {key l k}

theorem lookup_some {a : α} (found : lookup key l k = some a) : a ∈ l ∧ key a = k :=
  ⟨List.mem_of_find?_eq_some found, by simpa using List.find?_some found⟩

theorem lookup_isSome : (lookup key l k).isSome ↔ ∃ a ∈ l, key a = k := by
  simp [lookup, List.find?_isSome]

theorem lookup_cons (a : α) :
    lookup key (a :: l) k = if key a = k then some a else lookup key l k := by
  unfold lookup
  by_cases isKey : key a = k
  · simp [isKey]
  · simp [isKey]

theorem lookup_insert (a : α) :
    lookup key (l.orderedInsert (fun a b => key a ≤ key b) a) k = lookup key (a :: l) k := by
  induction l with
  | nil => rfl
  | cons b rest ih =>
      rw [List.orderedInsert_cons]
      by_cases before : key a ≤ key b
      · rw [if_pos before]
      · rw [if_neg before, lookup_cons, ih, lookup_cons, lookup_cons, lookup_cons]
        -- The two swap places, and only one of them can have the key.
        by_cases isB : key b = k
        · have notA : key a ≠ k := fun isA => before (le_of_eq (isA.trans isB.symm))
          rw [if_pos isB, if_neg notA, if_pos isB]
        · rw [if_neg isB, if_neg isB]

/-- The sort is stable: the first of a key stays the first. -/
theorem lookup_sort : lookup key (sortByKey key l) k = lookup key l k := by
  induction l with
  | nil => rfl
  | cons a rest ih =>
      have inserted : lookup key ((sortByKey key rest).orderedInsert _ a) k = _ := lookup_insert a
      rw [lookup_cons, ← ih, ← lookup_cons]
      exact inserted

theorem lookup_dedupAfter (kept : α) :
    lookup key (dedupAfter key kept l) k = lookup key (kept :: l) k := by
  induction l generalizing kept with
  | nil => rfl
  | cons next rest ih =>
      unfold dedupAfter
      by_cases same : key next = key kept
      · rw [if_pos same, ih, lookup_cons, lookup_cons, lookup_cons, same]
        by_cases isKept : key kept = k
        · rw [if_pos isKept, if_pos isKept]
        · rw [if_neg isKept, if_neg isKept, if_neg isKept]
      · rw [if_neg same, lookup_cons, ih, ← lookup_cons]

theorem lookup_dedup : lookup key (dedupByKey key l) k = lookup key l k := by
  cases l with
  | nil => rfl
  | cons first rest => exact lookup_dedupAfter first

theorem lookup_firsts : lookup key (firsts key l) k = lookup key l k :=
  lookup_dedup.trans lookup_sort

theorem sorted_sort : (sortByKey key l).Pairwise (fun a b => key a ≤ key b) := by
  have total : Std.Total (fun a b : α => key a ≤ key b) := ⟨fun a b => le_total (key a) (key b)⟩
  have transitive : IsTrans α (fun a b : α => key a ≤ key b) := ⟨fun _ _ _ => le_trans⟩
  exact List.pairwise_insertionSort _ l

theorem mem_dedupAfter {kept a : α} (mem : a ∈ dedupAfter key kept l) : a = kept ∨ a ∈ l := by
  induction l generalizing kept with
  | nil => exact .inl (List.mem_singleton.mp mem)
  | cons next rest ih =>
      unfold dedupAfter at mem
      split at mem
      · exact (ih mem).imp id (List.mem_cons_of_mem _)
      · rcases List.mem_cons.mp mem with isKept | later
        · exact .inl isKept
        · rcases ih later with isNext | inRest
          · exact .inr (isNext ▸ List.mem_cons_self)
          · exact .inr (List.mem_cons_of_mem _ inRest)

theorem ascending_dedupAfter {kept : α}
    (sorted : (kept :: l).Pairwise (fun a b => key a ≤ key b)) :
    (dedupAfter key kept l).Pairwise (fun a b => key a < key b) := by
  induction l generalizing kept with
  | nil => exact List.pairwise_singleton _ _
  | cons next rest ih =>
      have ⟨below, sortedRest⟩ := List.pairwise_cons.mp sorted
      unfold dedupAfter
      split
      · exact ih (List.pairwise_cons.mpr
          ⟨fun a mem => below a (List.mem_cons_of_mem _ mem), (List.pairwise_cons.mp sortedRest).2⟩)
      · rename_i differ
        refine List.pairwise_cons.mpr ⟨fun a mem => ?_, ih sortedRest⟩
        have nextAbove : key kept < key next :=
          lt_of_le_of_ne (below next List.mem_cons_self) (Ne.symm differ)
        rcases mem_dedupAfter mem with isNext | inRest
        · exact isNext ▸ nextAbove
        · exact lt_of_lt_of_le nextAbove ((List.pairwise_cons.mp sortedRest).1 a inRest)

/-- What is left is strictly ascending. -/
theorem ascending_firsts : (firsts key l).Pairwise (fun a b => key a < key b) := by
  unfold firsts
  have sorted : (sortByKey key l).Pairwise _ := sorted_sort
  cases listed : sortByKey key l with
  | nil => exact List.Pairwise.nil
  | cons first rest => exact ascending_dedupAfter (listed ▸ sorted)

/-- In an ascending list every element answers for its own key. -/
theorem lookup_of_mem {a : α} (ascending : l.Pairwise (fun a b => key a < key b)) (mem : a ∈ l) :
    lookup key l (key a) = some a := by
  induction l with
  | nil => exact absurd mem List.not_mem_nil
  | cons b rest ih =>
      have ⟨above, ascendingRest⟩ := List.pairwise_cons.mp ascending
      unfold lookup
      rcases List.mem_cons.mp mem with rfl | inRest
      · simp
      · rw [List.find?_cons_of_neg (by simpa using (above a inRest).ne)]
        exact ih ascendingRest inRest

/-- What is left is what answers a search of the list. -/
theorem mem_firsts {a : α} : a ∈ firsts key l ↔ lookup key l (key a) = some a :=
  ⟨fun mem => lookup_firsts.symm.trans (lookup_of_mem ascending_firsts mem),
    fun found => (lookup_some (lookup_firsts.trans found)).1⟩

/-- Keys that are their own elements: the sorted set of the list. -/
theorem mem_firsts_self {keys : List κ} : k ∈ firsts id keys ↔ k ∈ keys := by
  rw [mem_firsts]
  constructor
  · intro found
    exact (lookup_some found).1
  · intro mem
    have some : (lookup id keys k).isSome := lookup_isSome.mpr ⟨k, mem, rfl⟩
    obtain ⟨found, here⟩ := Option.isSome_iff_exists.mp some
    have same : found = k := (lookup_some here).2
    exact here.trans (congrArg _ same)

end Lib.FirstWins
