import Mathlib.Data.List.AList
import Mathlib.Data.List.Perm.Basic

/-!
# Lists by key

A table of lists, one under each key in use. Changing the list of one key
changes the items of the table in one place (`all_perm`, `all_insert`).
-/

namespace Lib.Bucketed

variable {κ ρ : Type} [DecidableEq κ]

abbrev Buckets (κ ρ : Type) : Type := AList (fun _ : κ => List ρ)

/-- The items under `key`. -/
def bucket (key : κ) (table : Buckets κ ρ) : List ρ := (table.lookup key).getD []

/-- Every item, in no particular order. -/
def all (table : Buckets κ ρ) : List ρ := table.entries.flatMap Sigma.snd

theorem all_insert (key : κ) (items : List ρ) (table : Buckets κ ρ) :
    all (table.insert key items) = items ++ all (table.erase key) := by
  unfold all
  rw [AList.entries_insert]
  rfl

theorem bucket_eq {key : κ} {table : Buckets κ ρ} {items : List ρ} (found : table.lookup key = some items) :
    bucket key table = items := by
  unfold bucket
  rw [found]
  rfl

/-- A table is the list of one key and the rest. -/
theorem all_perm (key : κ) (table : Buckets κ ρ) :
    (all table).Perm (bucket key table ++ all (table.erase key)) := by
  by_cases inside : key ∈ table.entries.keys
  · obtain ⟨items, before, after, _, split, rest⟩ := List.exists_of_kerase inside
    have found : table.lookup key = some items :=
      AList.mem_lookup_iff.mpr (split ▸ List.mem_append_right _ List.mem_cons_self)
    rw [bucket_eq found]
    show (table.entries.flatMap Sigma.snd).Perm (items ++ (table.entries.kerase key).flatMap Sigma.snd)
    rw [rest, split, List.flatMap_append, List.flatMap_cons, List.flatMap_append]
    exact List.perm_append_comm_assoc _ _ _
  · have missing : bucket key table = [] := by
      unfold bucket
      rw [AList.lookup_eq_none.mpr inside]
      rfl
    rw [missing, List.nil_append]
    show (table.entries.flatMap Sigma.snd).Perm ((table.entries.kerase key).flatMap Sigma.snd)
    rw [List.kerase_of_notMem_keys inside]

theorem mem_all {item : ρ} {table : Buckets κ ρ} :
    item ∈ all table ↔ ∃ key items, table.lookup key = some items ∧ item ∈ items := by
  constructor
  · intro inside
    obtain ⟨⟨key, items⟩, entry, here⟩ := List.mem_flatMap.mp inside
    exact ⟨key, items, AList.mem_lookup_iff.mpr entry, here⟩
  · rintro ⟨key, items, found, here⟩
    exact List.mem_flatMap.mpr ⟨⟨key, items⟩, AList.mem_lookup_iff.mp found, here⟩

/-! ## The first item that fits -/

/-- Changes the first item that fits. -/
def updateFirst (fits : ρ → Bool) (change : ρ → ρ) : List ρ → List ρ
  | [] => []
  | item :: rest => if fits item then change item :: rest else item :: updateFirst fits change rest

theorem updateFirst_of_find {fits : ρ → Bool} (change : ρ → ρ) {items : List ρ} {item : ρ}
    (found : items.find? fits = some item) : ∃ before after, items = before ++ item :: after ∧
      updateFirst fits change items = before ++ change item :: after := by
  induction items with
  | nil => cases found
  | cons first rest ih =>
      unfold updateFirst
      by_cases here : fits first = true
      · rw [List.find?_cons_of_pos here] at found
        obtain rfl := Option.some.inj found
        rw [if_pos here]
        exact ⟨[], rest, rfl, rfl⟩
      · rw [List.find?_cons_of_neg here] at found
        obtain ⟨before, after, split, updated⟩ := ih found
        rw [if_neg here, updated]
        exact ⟨first :: before, after, by rw [split]; rfl, rfl⟩

end Lib.Bucketed
