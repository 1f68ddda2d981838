import IronFix.Lib.OrderedMap
import Mathlib.Data.List.Induction

/-!
# Overwrites

A run of writes to a map: each key holds its last write, and what the map
weighs is what was written without the writes that were overwritten.
-/

namespace Lib.Ordered

variable {κ α : Type} [LinearOrder κ]

/-- The last write to a key. -/
def last (key : κ) : List (κ × α) → Option α
  | [] => none
  | write :: later => (last key later).or (if write.1 = key then some write.2 else none)

/-- The writes that a later one overwrites. -/
def overwritten : List (κ × α) → List (κ × α)
  | [] => []
  | write :: later =>
      if (last write.1 later).isSome then write :: overwritten later else overwritten later

/-- What a list of writes weighs. -/
def weigh (weight : α → Nat) (writes : List (κ × α)) : Nat :=
  (writes.map fun write => weight write.2).sum

namespace OrderedMap

/-- A map after a run of writes. -/
def writeAll (map : OrderedMap κ α) (writes : List (κ × α)) : OrderedMap κ α :=
  writes.foldl (fun map write => map.insert write.1 write.2) map

end OrderedMap

variable {key : κ} {writes : List (κ × α)}

theorem last_eq_none (never : ∀ write ∈ writes, write.1 ≠ key) : last key writes = none := by
  induction writes with
  | nil => rfl
  | cons write later ih =>
      have rest := ih fun other member => never other (List.mem_cons_of_mem _ member)
      rw [last, rest, if_neg (never write List.mem_cons_self)]
      rfl

/-- A write nothing after it overwrites is the last one. -/
theorem last_append_cons {before after : List (κ × α)} {value : α}
    (never : ∀ write ∈ after, write.1 ≠ key) : last key (before ++ (key, value) :: after) = some value := by
  induction before with
  | nil =>
      show (last key after).or (if key = key then some value else none) = some value
      rw [last_eq_none never, if_pos rfl]
      rfl
  | cons write before ih =>
      rw [List.cons_append, last, ih]
      rfl

theorem last_concat (write : κ × α) :
    last key (writes ++ [write]) = if write.1 = key then some write.2 else last key writes := by
  induction writes with
  | nil =>
      show (none : Option α).or _ = _
      rw [Option.none_or]
      rfl
  | cons head writes ih =>
      rw [List.cons_append, last, ih, last]
      split
      · exact Option.some_or
      · rfl

theorem OrderedMap.writeAll_get? (map : OrderedMap κ α) (writes : List (κ × α)) (key : κ) :
    (map.writeAll writes).get? key = (last key writes).or (map.get? key) := by
  induction writes generalizing map with
  | nil => rfl
  | cons write later ih =>
      show ((map.insert write.1 write.2).writeAll later).get? key = _
      rw [ih, insert_get?, last, Option.or_assoc]
      congr 1
      by_cases same : key = write.1
      · rw [if_pos same, if_pos same.symm]
        rfl
      · rw [if_neg same, if_neg (Ne.symm same)]
        rfl

/-- A write is the last one of its key. -/
theorem mem_of_last {value : α} (held : last key writes = some value) : (key, value) ∈ writes := by
  induction writes with
  | nil => cases held
  | cons write later ih =>
      rw [last] at held
      rcases Option.or_eq_some_iff.mp held with behind | ⟨-, own⟩
      · exact List.mem_cons_of_mem _ (ih behind)
      · obtain ⟨isKey, isValue⟩ := Option.ite_none_right_eq_some.mp own
        rw [← isKey, ← Option.some.inj isValue]
        exact List.mem_cons_self

theorem last_map {β : Type} (f : α → β) :
    last key (writes.map fun write => (write.1, f write.2)) = (last key writes).map f := by
  induction writes with
  | nil => rfl
  | cons write later ih =>
      rw [List.map_cons, last, ih, last]
      cases last key later with
      | some value => rfl
      | none =>
          rw [Option.map_none, Option.none_or, Option.none_or]
          split <;> rfl

namespace OrderedMap

variable {β : Type} (map : OrderedMap κ α) (f : α → β)

/-- The map of the images of the values. -/
def mapValues : OrderedMap κ β where
  entries := map.entries.map fun entry => (entry.1, f entry.2)
  ascending := by
    have sorted := map.ascending
    unfold Ascending at sorted ⊢
    rw [List.pairwise_map]
    exact sorted

@[simp] theorem mapValues_get? (key : κ) : (map.mapValues f).get? key = (map.get? key).map f := by
  unfold get? mapValues
  dsimp only
  induction map.entries with
  | nil => rfl
  | cons head rest ih =>
      rw [List.map_cons, find, find]
      split
      · rfl
      · exact ih

theorem mapValues_range (low high : κ) : (map.mapValues f).range low high =
    (map.range low high).map fun entry => (entry.1, f entry.2) := by
  unfold range mapValues
  rw [List.filter_map]
  rfl

theorem mapValues_writeAll (writes : List (κ × α)) :
    ((empty : OrderedMap κ α).writeAll writes).mapValues f =
      (empty : OrderedMap κ β).writeAll (writes.map fun write => (write.1, f write.2)) := by
  refine eq_of_get? ?_
  intro key
  rw [mapValues_get?, writeAll_get?, writeAll_get?, last_map]
  cases last key writes <;> rfl

theorem writeAll_concat (writes : List (κ × α)) (write : κ × α) :
    map.writeAll (writes ++ [write]) = (map.writeAll writes).insert write.1 write.2 :=
  List.foldl_concat ..

/-- A map holds no more than was written into it. -/
theorem writeAll_length (writes : List (κ × α)) :
    (map.writeAll writes).entries.length ≤ map.entries.length + writes.length := by
  induction writes generalizing map with
  | nil => exact Nat.le_refl _
  | cons write later ih =>
      have rest := ih (map.insert write.1 write.2)
      have one : (map.insert write.1 write.2).entries.length ≤ map.entries.length + 1 := by
        rw [insert_length]
        split <;> omega
      show ((map.insert write.1 write.2).writeAll later).entries.length ≤ _
      rw [List.length_cons]
      omega

/-- A map is what its own entries write. -/
theorem writeAll_entries : (empty : OrderedMap κ α).writeAll map.entries = map := by
  refine eq_of_get? ?_
  intro key
  refine (foldl_insert_get? empty map.ascending key).trans ?_
  rw [empty_get?, Option.or_none]
  rfl

/-- What a range holds was written. -/
theorem mem_range_writeAll {writes : List (κ × α)} {low high : κ} {entry : κ × α}
    (listed : entry ∈ ((empty : OrderedMap κ α).writeAll writes).range low high) : entry ∈ writes := by
  obtain ⟨member, -⟩ := List.mem_filter.mp listed
  have held := (mem_entries _).mp member
  rw [writeAll_get?] at held
  refine mem_of_last ?_
  cases written : last entry.1 writes with
  | none =>
      rw [written] at held
      cases held
  | some value =>
      rw [written] at held
      exact held

end OrderedMap

/-- Writes to distinct keys overwrite nothing. -/
theorem overwritten_distinct (distinct : (writes.map Prod.fst).Nodup) : overwritten writes = [] := by
  induction writes with
  | nil => rfl
  | cons write later ih =>
      obtain ⟨fresh, rest⟩ := List.nodup_cons.mp distinct
      have never : last write.1 later = none := by
        refine last_eq_none ?_
        intro other member same
        exact fresh (same ▸ List.mem_map_of_mem member)
      rw [overwritten, never]
      exact ih rest

/-- One more write overwrites what the key held. -/
theorem weigh_overwritten_concat (weight : α → Nat) (write : κ × α) :
    weigh weight (overwritten (writes ++ [write])) =
      weigh weight (overwritten writes) + ((last write.1 writes).map weight).getD 0 := by
  induction writes with
  | nil => rfl
  | cons head writes ih =>
      rw [List.cons_append, overwritten, last_concat, overwritten, last]
      by_cases same : head.1 = write.1
      · -- the head is overwritten now, and was held unless a later write had the key
        rw [if_pos same.symm, if_pos same, same]
        cases held : last write.1 writes with
        | none =>
            rw [held] at ih
            simp [weigh] at ih ⊢
            omega
        | some value =>
            rw [held] at ih
            simp [weigh] at ih ⊢
            omega
      · rw [if_neg (Ne.symm same), if_neg same, Option.or_none]
        split
        · simp only [weigh, List.map_cons, List.sum_cons] at ih ⊢
          omega
        · exact ih

/-- What a map weighs is what was written and not overwritten. -/
theorem OrderedMap.total_writeAll (weight : α → Nat) (writes : List (κ × α)) :
    weigh weight (overwritten writes) + ((empty : OrderedMap κ α).writeAll writes).total weight =
      weigh weight writes := by
  induction writes using List.reverseRecOn with
  | nil => rfl
  | append_singleton writes write ih =>
      have held := (empty : OrderedMap κ α).writeAll_get? writes write.1
      have added := ((empty : OrderedMap κ α).writeAll writes).insert_total weight write.1 write.2
      have before : (empty : OrderedMap κ α).get? write.1 = none := rfl
      rw [held, before, Option.or_none] at added
      have more : (empty : OrderedMap κ α).writeAll (writes ++ [write]) =
          ((empty : OrderedMap κ α).writeAll writes).insert write.1 write.2 := List.foldl_concat ..
      have written : weigh weight (writes ++ [write]) = weigh weight writes + weight write.2 := by
        simp [weigh]
      rw [weigh_overwritten_concat, more, written]
      omega

end Lib.Ordered
