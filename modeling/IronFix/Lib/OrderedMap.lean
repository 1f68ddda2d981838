import Mathlib.Algebra.Order.BigOperators.Group.List
import Mathlib.Algebra.Order.Group.Nat
import Mathlib.Data.List.Basic
import Mathlib.Order.Basic
import Mathlib.Order.Defs.LinearOrder
import Mathlib.Algebra.GroupWithZero.Nat

/-!
# Ordered maps

A finite map as the list of its entries, its keys strictly ascending. Two maps
that answer every lookup alike are the same list, so a map may be computed in
one way and compared with one computed in another.
-/

namespace Lib.Ordered

variable {κ α β : Type} [LinearOrder κ]

/-- The keys ascend. -/
def Ascending (entries : List (κ × α)) : Prop :=
  entries.Pairwise fun earlier later => earlier.1 < later.1

/-- A finite map, its entries in the order of their keys. -/
structure OrderedMap (κ α : Type) [LinearOrder κ] where
  entries : List (κ × α)
  ascending : Ascending entries

/-- The value of the first entry under `key`. -/
def find (key : κ) : List (κ × α) → Option α
  | [] => none
  | entry :: rest => if entry.1 = key then some entry.2 else find key rest

/-- Puts an entry in its place, replacing the one under the same key. -/
def put (key : κ) (value : α) : List (κ × α) → List (κ × α)
  | [] => [(key, value)]
  | entry :: rest =>
      if key < entry.1 then (key, value) :: entry :: rest
      else if entry.1 = key then (key, value) :: rest
      else entry :: put key value rest

theorem mem_put {key : κ} {value : α} {entries : List (κ × α)} {entry : κ × α}
    (member : entry ∈ put key value entries) : entry = (key, value) ∨ entry ∈ entries := by
  induction entries with
  | nil => exact .inl (List.mem_singleton.mp member)
  | cons head rest ih =>
      unfold put at member
      split at member
      · exact List.mem_cons.mp member
      · split at member
        · rcases List.mem_cons.mp member with rfl | later
          · exact .inl rfl
          · exact .inr (List.mem_cons_of_mem _ later)
        · rcases List.mem_cons.mp member with rfl | later
          · exact .inr List.mem_cons_self
          · exact (ih later).imp_right (List.mem_cons_of_mem _)

theorem put_ascending {key : κ} {value : α} {entries : List (κ × α)}
    (ascending : Ascending entries) : Ascending (put key value entries) := by
  induction entries with
  | nil => exact List.pairwise_singleton _ _
  | cons head rest ih =>
      obtain ⟨below, sorted⟩ := List.pairwise_cons.mp ascending
      unfold put
      split
      · rename_i before
        refine List.pairwise_cons.mpr ⟨?_, ascending⟩
        intro entry member
        rcases List.mem_cons.mp member with rfl | later
        · exact before
        · exact before.trans (below entry later)
      · rename_i notBefore
        split
        · rename_i same
          exact List.pairwise_cons.mpr ⟨fun entry member => same ▸ below entry member, sorted⟩
        · rename_i differ
          refine List.pairwise_cons.mpr ⟨?_, ih sorted⟩
          intro entry member
          rcases mem_put member with rfl | later
          · exact lt_of_le_of_ne (not_lt.mp notBefore) differ
          · exact below entry later

theorem find_put (key other : κ) (value : α) (entries : List (κ × α)) :
    find other (put key value entries)
      = if other = key then some value else find other entries := by
  induction entries with
  | nil => simp only [put, find, eq_comm]
  | cons head rest ih =>
      unfold put
      split
      · simp only [find, eq_comm]
      · split
        · rename_i same
          subst same
          by_cases here : other = head.1
          · simp [find, here]
          · simp [find, here, Ne.symm here]
        · rename_i differ
          simp only [find, ih]
          by_cases here : head.1 = other
          · subst here
            simp [differ]
          · simp [here]

theorem find_eq_none_of_below {key : κ} {entries : List (κ × α)}
    (below : ∀ entry ∈ entries, key < entry.1) : find key entries = none := by
  induction entries with
  | nil => rfl
  | cons head rest ih =>
      unfold find
      rw [if_neg (below head List.mem_cons_self).ne']
      exact ih fun entry member => below entry (List.mem_cons_of_mem _ member)

theorem find_of_mem {key : κ} {value : α} {entries : List (κ × α)}
    (ascending : Ascending entries) (member : (key, value) ∈ entries) :
    find key entries = some value := by
  induction entries with
  | nil => cases member
  | cons head rest ih =>
      obtain ⟨below, sorted⟩ := List.pairwise_cons.mp ascending
      unfold find
      rcases List.mem_cons.mp member with rfl | later
      · exact if_pos rfl
      · rw [if_neg (below _ later).ne]
        exact ih sorted later

theorem mem_of_find {key : κ} {value : α} {entries : List (κ × α)}
    (found : find key entries = some value) : (key, value) ∈ entries := by
  induction entries with
  | nil => cases found
  | cons head rest ih =>
      unfold find at found
      split at found
      · rename_i same
        cases found
        exact same ▸ List.mem_cons_self
      · exact List.mem_cons_of_mem _ (ih found)

/-- Ascending lists that answer every lookup alike are equal. -/
theorem entries_eq {left right : List (κ × α)} (ascendingLeft : Ascending left)
    (ascendingRight : Ascending right) (alike : ∀ key, find key left = find key right) :
    left = right := by
  induction left generalizing right with
  | nil =>
      cases right with
      | nil => rfl
      | cons head rest =>
          have absent := alike head.1
          rw [find_of_mem ascendingRight (show (head.1, head.2) ∈ _ from List.mem_cons_self)] at absent
          cases absent
  | cons head rest ih =>
      cases right with
      | nil =>
          have absent := alike head.1
          rw [find_of_mem ascendingLeft (show (head.1, head.2) ∈ _ from List.mem_cons_self)] at absent
          cases absent
      | cons head' rest' =>
          obtain ⟨below, sorted⟩ := List.pairwise_cons.mp ascendingLeft
          obtain ⟨below', sorted'⟩ := List.pairwise_cons.mp ascendingRight
          -- each head is found in the other list, so neither is below the other
          have first : (head.1, head.2) ∈ head' :: rest' := by
            apply mem_of_find
            rw [← alike]
            exact find_of_mem ascendingLeft List.mem_cons_self
          have first' : (head'.1, head'.2) ∈ head :: rest := by
            apply mem_of_find
            rw [alike]
            exact find_of_mem ascendingRight List.mem_cons_self
          have same : head = head' := by
            rcases List.mem_cons.mp first with here | later
            · exact here
            · rcases List.mem_cons.mp first' with here' | later'
              · exact here'.symm
              · exact absurd (below' _ later) (below _ later').asymm
          subst same
          congr 1
          apply ih sorted sorted'
          intro key
          by_cases here : head.1 = key
          · subst here
            rw [find_eq_none_of_below below, find_eq_none_of_below below']
          · have tails := alike key
            simpa only [find, here, if_false] using tails

/-- A new key puts one entry among the others. -/
theorem put_perm {key : κ} {value : α} {entries : List (κ × α)} (fresh : find key entries = none) :
    (put key value entries).Perm ((key, value) :: entries) := by
  induction entries with
  | nil => exact .refl _
  | cons head rest ih =>
      unfold find at fresh
      split at fresh
      · cases fresh
      · rename_i differ
        unfold put
        by_cases before : key < head.1
        · rw [if_pos before]
        · rw [if_neg before, if_neg differ]
          exact ((ih fresh).cons head).trans (.swap _ _ _)

/-- An entry is found under its key, and only there. -/
theorem mem_iff_find {key : κ} {value : α} {entries : List (κ × α)} (ascending : Ascending entries) :
    (key, value) ∈ entries ↔ find key entries = some value :=
  ⟨find_of_mem ascending, mem_of_find⟩

/-- Ascending lists of the same entries are equal. -/
theorem eq_of_mem_iff {left right : List (κ × α)} (ascendingLeft : Ascending left)
    (ascendingRight : Ascending right) (alike : ∀ key value, (key, value) ∈ left ↔ (key, value) ∈ right) :
    left = right := by
  refine entries_eq ascendingLeft ascendingRight fun key => ?_
  ext value
  show find key left = some value ↔ find key right = some value
  rw [← mem_iff_find ascendingLeft, ← mem_iff_find ascendingRight]
  exact alike key value

/-- A put adds an entry, unless it replaces one. -/
theorem put_length (key : κ) (value : α) {entries : List (κ × α)} (ascending : Ascending entries) :
    (put key value entries).length =
      if (find key entries).isSome then entries.length else entries.length + 1 := by
  induction entries with
  | nil => rfl
  | cons head rest ih =>
      obtain ⟨below, sorted⟩ := List.pairwise_cons.mp ascending
      unfold put
      by_cases before : key < head.1
      · have absent : find key (head :: rest) = none := by
          refine find_eq_none_of_below ?_
          intro entry member
          rcases List.mem_cons.mp member with rfl | later
          · exact before
          · exact before.trans (below entry later)
        rw [if_pos before, absent]
        rfl
      · rw [if_neg before]
        by_cases same : head.1 = key
        · simp [find, same]
        · simp only [find, if_neg same, List.length_cons, ih sorted]
          split <;> rfl

/-- What a put adds to a total, it adds to what the map held without the entry
it replaced. -/
theorem put_sum (weight : α → Nat) (key : κ) (value : α) {entries : List (κ × α)}
    (ascending : Ascending entries) :
    ((put key value entries).map fun entry => weight entry.2).sum +
        ((find key entries).map weight).getD 0 =
      (entries.map fun entry => weight entry.2).sum + weight value := by
  induction entries with
  | nil => simp [put, find]
  | cons head rest ih =>
      obtain ⟨below, sorted⟩ := List.pairwise_cons.mp ascending
      unfold put
      by_cases before : key < head.1
      · have absent : find key (head :: rest) = none := by
          refine find_eq_none_of_below ?_
          intro entry member
          rcases List.mem_cons.mp member with rfl | later
          · exact before
          · exact before.trans (below entry later)
        rw [if_pos before, absent]
        simp only [List.map_cons, List.sum_cons, Option.map_none, Option.getD_none]
        omega
      · rw [if_neg before]
        by_cases same : head.1 = key
        · simp only [find, if_pos same, List.map_cons, List.sum_cons, Option.map_some,
            Option.getD_some]
          omega
        · have rests := ih sorted
          simp only [find, if_neg same, List.map_cons, List.sum_cons]
          omega

/-! ## Splitting at a key -/

/-- The entries below a key. -/
def below (key : κ) (entries : List (κ × α)) : List (κ × α) :=
  entries.filter fun entry => entry.1 < key

/-- The entries above a key. -/
def above (key : κ) (entries : List (κ × α)) : List (κ × α) :=
  entries.filter fun entry => key < entry.1

@[simp] theorem below_nil (key : κ) : below key ([] : List (κ × α)) = [] := rfl

@[simp] theorem above_nil (key : κ) : above key ([] : List (κ × α)) = [] := rfl

theorem below_eq_nil {key : κ} {entries : List (κ × α)} (higher : ∀ entry ∈ entries, key ≤ entry.1) :
    below key entries = [] := by
  rw [below, List.filter_eq_nil_iff]
  intro entry listed isBelow
  exact absurd (of_decide_eq_true isBelow) (not_lt.mpr (higher entry listed))

theorem above_eq_self {key : κ} {entries : List (κ × α)} (higher : ∀ entry ∈ entries, key < entry.1) :
    above key entries = entries := by
  rw [above, List.filter_eq_self]
  intro entry listed
  exact decide_eq_true (higher entry listed)

/-- An entry below the key goes to the entries below it. -/
theorem splits_of_lt {key : κ} {head : κ × α} {rest : List (κ × α)} (lower : head.1 < key) :
    below key (head :: rest) = head :: below key rest ∧ above key (head :: rest) = above key rest ∧
      find key (head :: rest) = find key rest := by
  have notAbove : ¬ key < head.1 := not_lt.mpr lower.le
  exact ⟨by simp [below, lower], by simp [above, notAbove], by simp [find, lower.ne]⟩

/-- An ascending list that begins at the key. -/
theorem splits_of_eq {key : κ} {value : α} {rest : List (κ × α)}
    (ascending : Ascending ((key, value) :: rest)) :
    below key ((key, value) :: rest) = [] ∧ above key ((key, value) :: rest) = rest ∧
      find key ((key, value) :: rest) = some value := by
  obtain ⟨later, -⟩ := List.pairwise_cons.mp ascending
  refine ⟨below_eq_nil ?_, ?_, by simp [find]⟩
  · intro entry listed
    rcases List.mem_cons.mp listed with rfl | rests
    · exact le_refl _
    · exact (later entry rests).le
  · rw [← above_eq_self later]
    simp [above]

/-- An ascending list that begins above the key. -/
theorem splits_of_gt {key : κ} {head : κ × α} {rest : List (κ × α)}
    (ascending : Ascending (head :: rest)) (higher : key < head.1) :
    below key (head :: rest) = [] ∧ above key (head :: rest) = head :: rest ∧
      find key (head :: rest) = none := by
  obtain ⟨later, -⟩ := List.pairwise_cons.mp ascending
  have every : ∀ entry ∈ head :: rest, key < entry.1 := by
    intro entry listed
    rcases List.mem_cons.mp listed with rfl | rests
    · exact higher
    · exact higher.trans (later entry rests)
  exact ⟨below_eq_nil fun entry listed => (every entry listed).le, above_eq_self every,
    find_eq_none_of_below every⟩

/-- A map is what lies below a key, at it and above it. -/
theorem split_at (key : κ) {entries : List (κ × α)} (ascending : Ascending entries) :
    entries = below key entries ++ ((find key entries).map fun value => (key, value)).toList ++
      above key entries := by
  induction entries with
  | nil => rfl
  | cons head rest ih =>
      obtain ⟨start, value⟩ := head
      have rest_split := ih (List.pairwise_cons.mp ascending).2
      rcases lt_trichotomy start key with lower | rfl | higher
      · obtain ⟨lowers, highers, found⟩ := splits_of_lt (show (start, value).1 < key from lower)
        rw [lowers, highers, found, List.cons_append, List.cons_append, ← rest_split]
      · obtain ⟨lowers, highers, found⟩ := splits_of_eq ascending
        rw [lowers, highers, found]
        rfl
      · obtain ⟨lowers, highers, found⟩ := splits_of_gt ascending higher
        rw [lowers, highers, found]
        rfl

namespace OrderedMap

/-- The map without entries. -/
def empty : OrderedMap κ α := ⟨[], List.Pairwise.nil⟩

def get? (map : OrderedMap κ α) (key : κ) : Option α := find key map.entries

/-- Files `value` under `key`, replacing what was there. -/
def insert (map : OrderedMap κ α) (key : κ) (value : α) : OrderedMap κ α :=
  ⟨put key value map.entries, put_ascending map.ascending⟩

/-- The entries whose key is between the bounds, both included. -/
def range (map : OrderedMap κ α) (low high : κ) : List (κ × α) :=
  map.entries.filter fun entry => low ≤ entry.1 ∧ entry.1 ≤ high

variable (map : OrderedMap κ α)

@[simp] theorem empty_get? (key : κ) : (empty : OrderedMap κ α).get? key = none := rfl

@[simp] theorem insert_get? (key other : κ) (value : α) :
    (map.insert key value).get? other = if other = key then some value else map.get? other :=
  find_put key other value map.entries

/-- A map is what its lookups say. -/
theorem eq_of_get? {left right : OrderedMap κ α} (alike : ∀ key, left.get? key = right.get? key) :
    left = right := by
  have same := entries_eq left.ascending right.ascending alike
  cases left
  cases right
  cases same
  rfl

/-- Filing ascending entries one after the other. -/
theorem foldl_insert_get? {entries : List (κ × α)} (ascending : Ascending entries) (key : κ) :
    (entries.foldl (fun map entry => map.insert entry.1 entry.2) map).get? key =
      (find key entries).or (map.get? key) := by
  induction entries generalizing map with
  | nil => rfl
  | cons head rest ih =>
      obtain ⟨below, sorted⟩ := List.pairwise_cons.mp ascending
      rw [List.foldl_cons, ih (map.insert head.1 head.2) sorted, insert_get?]
      by_cases same : head.1 = key
      · subst same
        rw [find_eq_none_of_below below]
        simp [find]
      · simp [find, same, Ne.symm same]

theorem insert_length (key : κ) (value : α) : (map.insert key value).entries.length =
    if (map.get? key).isSome then map.entries.length else map.entries.length + 1 :=
  put_length key value map.ascending

/-- The total weight of the values. -/
def total (weight : α → Nat) : Nat := (map.entries.map fun entry => weight entry.2).sum

theorem insert_total (weight : α → Nat) (key : κ) (value : α) :
    (map.insert key value).total weight + ((map.get? key).map weight).getD 0 =
      map.total weight + weight value := put_sum weight key value map.ascending

/-- A value weighs no more than all of them. -/
theorem le_total (weight : α → Nat) {key : κ} {value : α} (held : map.get? key = some value) :
    weight value ≤ map.total weight := by
  have listed : (key, value) ∈ map.entries := mem_of_find held
  have weighed : weight value ∈ map.entries.map fun entry => weight entry.2 :=
    List.mem_map.mpr ⟨(key, value), listed, rfl⟩
  exact List.le_sum_of_mem weighed

theorem mem_entries {key : κ} {value : α} :
    (key, value) ∈ map.entries ↔ map.get? key = some value :=
  ⟨find_of_mem map.ascending, mem_of_find⟩

end OrderedMap

end Lib.Ordered
