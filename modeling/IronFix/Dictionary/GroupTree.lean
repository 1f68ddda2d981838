import IronFix.Dictionary.Group

/-!
# Trees of group entries

A group instance as a tree: a count field, and entries that hold fields and
instances of nested groups. Flattened it is a list of fields without any mark
of where an entry or a group ends. The walk finds these ends where the tags of
a nested group's entries, at any depth, are none of the levels around it.
-/

namespace IronFix.Dict

/-- What an entry holds: a field, or an instance of a nested group. -/
inductive Item where
  | field (field : TagValue.FieldRef)
  | group (count : TagValue.FieldRef) (entries : List (List Item))

namespace Item

/-- The field an item starts with. -/
def head : Item → TagValue.FieldRef
  | field f => f
  | group count _ => count

def tag (item : Item) : Nat := item.head.tag

end Item

/-! ## Flattening -/

mutual

def flattenItem : Item → List TagValue.FieldRef
  | .field f => [f]
  | .group count entries => count :: flattenEntries entries

def flattenItems : List Item → List TagValue.FieldRef
  | [] => []
  | item :: items => flattenItem item ++ flattenItems items

def flattenEntries : List (List Item) → List TagValue.FieldRef
  | [] => []
  | entry :: entries => flattenItems entry ++ flattenEntries entries

end

/-- What an item flattens to starts with its head. -/
theorem flattenItem_cons (item : Item) : ∃ rest, flattenItem item = item.head :: rest := by
  cases item with
  | field f => exact ⟨[], by rw [flattenItem]; rfl⟩
  | group count entries => exact ⟨flattenEntries entries, by rw [flattenItem]; rfl⟩

/-! ## Trees over a layout -/

/-- An item of an entry of `group`; instances of nested groups as `nests`. -/
def IsItem (nests : LayoutGroup → TagValue.FieldRef → List (List Item) → Prop) (group : LayoutGroup) :
    Item → Prop
  | .field f => group.isMember f.tag = true ∧ group.nested f.tag = none
  | .group count entries => group.isMember count.tag = true ∧
      ∃ nested, group.nested count.tag = some nested ∧ nests nested count entries

/-- An entry of `group`: led by the delimiter, no tag twice. -/
structure IsEntry (nests : LayoutGroup → TagValue.FieldRef → List (List Item) → Prop)
    (group : LayoutGroup) (items : List Item) : Prop where
  led : (items.map Item.tag).head? = some group.delimiterTag
  once : (items.map Item.tag).Nodup
  items : ∀ item ∈ items, IsItem nests group item

/-- An instance of `group` with `room` levels left: the count field declares
the entries that follow. -/
def IsInstance : (room : Nat) → LayoutGroup → TagValue.FieldRef → List (List Item) → Prop
  | 0, _, _, _ => False
  | room + 1, group, count, entries =>
      parseCount count.value = some entries.length ∧
        ∀ entry ∈ entries, IsEntry (IsInstance room) group entry

/-! ## Layouts whose levels are apart -/

/-- Every tag of the group's entries and of the entries below them. -/
def LayoutGroup.allTags (group : LayoutGroup) : List Nat := group.entry.treeTags

/-- No tag of a nested group's entries, at any depth, is a member of the level
around it; so below, too. -/
inductive Apart : LayoutGroup → Prop
  | mk {group : LayoutGroup}
      (disjoint : ∀ nested ∈ group.entry.groups, ∀ tag ∈ nested.allTags, tag ∉ group.entry.members)
      (below : ∀ nested ∈ group.entry.groups, Apart nested) : Apart group

theorem Apart.nested {group nested : LayoutGroup} (apart : Apart group)
    (below : nested ∈ group.entry.groups) : Apart nested := by
  cases apart with
  | mk _ apartBelow => exact apartBelow nested below

theorem Sound.nested {group nested : LayoutGroup} (sound : Sound group)
    (below : nested ∈ group.entry.groups) : Sound nested := by
  cases sound with
  | mk _ _ _ _ soundBelow => exact soundBelow nested below

theorem Sound.delimiter {group : LayoutGroup} (sound : Sound group) :
    group.delimiterTag ∈ group.entry.members := by
  cases sound
  assumption

/-- `rest` starts with none of `tags`. -/
def StartsOutside (tags : List Nat) (rest : List TagValue.FieldRef) : Prop :=
  ∀ field, rest.head? = some field → field.tag ∉ tags

theorem mem_treeTagsOf {groups : List LayoutGroup} {tag : Nat} :
    tag ∈ Level.treeTagsOf groups ↔ ∃ group ∈ groups, tag ∈ group.allTags := by
  induction groups with
  | nil => simp [Level.treeTagsOf]
  | cons group rest ih =>
      obtain ⟨countTag, name, delimiterTag, required, entry⟩ := group
      rw [Level.treeTagsOf, List.mem_append, ih, List.exists_mem_cons_iff]
      rfl

theorem mem_allTags {group : LayoutGroup} {tag : Nat} : tag ∈ group.allTags ↔
    tag ∈ group.entry.members ∨ ∃ nested ∈ group.entry.groups, tag ∈ nested.allTags := by
  unfold LayoutGroup.allTags
  obtain ⟨members, required, groups, groupTags⟩ := group.entry
  rw [Level.treeTags, List.mem_append, mem_treeTagsOf]
  rfl

theorem isMember_iff {group : LayoutGroup} {tag : Nat} :
    group.isMember tag = true ↔ tag ∈ group.entry.members := List.contains_iff_mem

theorem nested_mem {group nested : LayoutGroup} {tag : Nat} (found : group.nested tag = some nested) :
    nested ∈ group.entry.groups ∧ nested.countTag = tag :=
  ⟨List.mem_of_find?_eq_some found, by simpa using List.find?_some found⟩

/-- What starts outside a group's tree starts outside a nested group's. -/
theorem StartsOutside.nested {group nested : LayoutGroup} {rest : List TagValue.FieldRef}
    (outside : StartsOutside group.allTags rest) (below : nested ∈ group.entry.groups) :
    StartsOutside nested.allTags rest :=
  fun field head mem => outside field head (mem_allTags.mpr (.inr ⟨nested, below, mem⟩))

/-- What starts with a member starts outside the groups nested there. -/
theorem startsOutside_of_member {group nested : LayoutGroup} (apart : Apart group)
    (below : nested ∈ group.entry.groups) {field : TagValue.FieldRef} {rest : List TagValue.FieldRef}
    (member : field.tag ∈ group.entry.members) : StartsOutside nested.allTags (field :: rest) := by
  intro head isHead mem
  cases apart with
  | mk disjoint _ =>
      cases isHead
      exact disjoint nested below _ mem member

/-! ## The walk over a flattened instance -/

/-- An event that reports nothing wrong. -/
def Event.clean : Event → Bool
  | .enterGroup _ | .entryClosed _ _ _ | .leaveGroup _ _ _ => true
  | .invalidCount _ _ | .delimiterMismatch _ _ | .repeatedTag _ _ | .countMismatch _ _ _
  | .tooDeep _ => false

/-- A walk nothing is wrong with, that leaves `rest`. -/
structure WalksTo (walked : Walked) (group : LayoutGroup) (entries : Nat)
    (rest : List TagValue.FieldRef) : Prop where
  rest : walked.rest = rest
  clean : ∀ event ∈ walked.events, event.clean = true
  left : walked.events.getLast? = some (.leaveGroup group true entries)

end IronFix.Dict
