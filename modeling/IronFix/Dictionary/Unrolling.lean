import IronFix.Dictionary.Scope
import Mathlib.Logic.Relation

/-!
# What a level is made of

The meaning of a member list, without budget, depth or guard: the tags it
contributes, the fields and groups that chains of required references lead to,
and the groups that open at its level, in the order the schema lists them. A
member list with its components unrolled in place is `Contents`.
-/

namespace IronFix.Dict

variable (dict : Dictionary)

/-! ## References -/

/-- A component is referenced, directly or inside a group's entries. -/
inductive Mentions : List Member → String → Prop
  | component {members : List Member} {reference : ComponentRef}
      (listed : .component reference ∈ members) : Mentions members reference.name
  | group {members : List Member} {group : GroupDef} {name : String}
      (listed : .group group ∈ members) (inside : Mentions group.members name) : Mentions members name

def References (one two : String) : Prop :=
  ∃ component, dict.getComponent one = some component ∧ Mentions component.members two

/-- No component reaches itself. -/
def Acyclic : Prop := ∀ name, ¬Relation.TransGen (References dict) name name

/-! ## Tags and chains -/

/-- A chain of references, of required ones if `demanded`, leads to a member
list that has what is looked for. -/
inductive Leads (demanded : Bool) (Has : List Member → Prop) : List Member → Prop
  | here {members : List Member} (has : Has members) : Leads demanded Has members
  | component {members : List Member} {reference : ComponentRef} {component : ComponentDef}
      (listed : .component reference ∈ members)
      (required : demanded = true → reference.required = true)
      (found : dict.getComponent reference.name = some component)
      (inside : Leads demanded Has component.members) : Leads demanded Has members

def ListsTag (tag : Nat) (members : List Member) : Prop :=
  (∃ field, .field field ∈ members ∧ field.tag = tag) ∨
    ∃ group, .group group ∈ members ∧ group.countTag = tag

def RequiresField (tag : Nat) (members : List Member) : Prop :=
  ∃ field, .field field ∈ members ∧ field.required = true ∧ field.tag = tag

def RequiresGroup (tag : Nat) (members : List Member) : Prop :=
  ∃ group, .group group ∈ members ∧ group.required = true ∧ group.countTag = tag

/-- The tags fields, groups and transitively referenced components contribute. -/
def Contributes (members : List Member) (tag : Nat) : Prop := Leads dict false (ListsTag tag) members

/-- A chain of required references leads to a required field. -/
def DemandsField (members : List Member) (tag : Nat) : Prop :=
  Leads dict true (RequiresField tag) members

/-- A chain of required references leads to a required group. -/
def DemandsGroup (members : List Member) (tag : Nat) : Prop :=
  Leads dict true (RequiresGroup tag) members

/-! ## Members unrolled in place -/

/-- A group where it opens at a level: the dictionary its entries resolve
against, and whether a required chain leads to it. -/
structure Opening where
  dict : Dictionary
  group : GroupDef
  required : Bool

def Opening.countTag (opening : Opening) : Nat := opening.group.countTag

structure Contents where
  tags : List Nat
  needs : List (Nat × String)
  opens : List Opening

namespace Contents

def empty : Contents := ⟨[], [], []⟩

def append (one two : Contents) : Contents :=
  ⟨one.tags ++ two.tags, one.needs ++ two.needs, one.opens ++ two.opens⟩

theorem append_assoc (one two three : Contents) :
    (one.append two).append three = one.append (two.append three) := by
  unfold append
  simp only [List.append_assoc]

end Contents

/-- The required ones of a list of fields, if the list's owner is. -/
def needsOf (required : Bool) (fields : List FieldRef) : List (Nat × String) :=
  (fields.filter (required && ·.required)).map fun field => (field.tag, field.name)

/-- The fields and groups of a member list. -/
def own (required : Bool) (members : List Member) : Contents where
  tags := (fieldsOf members).map FieldRef.tag ++ (groupsOf members).map GroupDef.countTag
  needs := needsOf required (fieldsOf members)
  opens := (groupsOf members).map fun group => ⟨dict, group, group.required && required⟩

/-- The contents of references, each component's own before those of the
components it references. -/
inductive UnrollsAll : Bool → List ComponentRef → Contents → Prop
  | nil {required : Bool} : UnrollsAll required [] .empty
  | cons {required : Bool} {reference : ComponentRef} {references : List ComponentRef}
      {component : ComponentDef} {inner rest : Contents}
      (found : dict.getComponent reference.name = some component)
      (inside : UnrollsAll (required && reference.required) (componentsOf component.members) inner)
      (others : UnrollsAll required references rest) :
      UnrollsAll required (reference :: references)
        (((own dict (required && reference.required) component.members).append inner).append rest)

/-- The contents of a member list. -/
def Unrolls (required : Bool) (members : List Member) (contents : Contents) : Prop :=
  ∃ inner, UnrollsAll dict required (componentsOf members) inner ∧
    contents = (own dict required members).append inner

variable {dict} {required : Bool} {members : List Member} {contents : Contents} {tag : Nat}

theorem mem_needsOf {fields : List FieldRef} : tag ∈ (needsOf required fields).map Prod.fst ↔
    required = true ∧ ∃ field ∈ fields, field.required = true ∧ field.tag = tag := by
  unfold needsOf
  rw [List.map_map, List.mem_map]
  constructor
  · rintro ⟨field, mem, rfl⟩
    obtain ⟨listed, both⟩ := List.mem_filter.mp mem
    rw [Bool.and_eq_true] at both
    exact ⟨both.1, field, listed, both.2, rfl⟩
  · rintro ⟨owner, field, listed, isRequired, rfl⟩
    exact ⟨field, List.mem_filter.mpr ⟨listed, by rw [owner, isRequired]; rfl⟩, rfl⟩

/-! ## Contents and chains agree -/

section Leads

variable {demanded : Bool} {Has : List Member → Prop} {InContents : Contents → Prop}

/-- What is looked for in contents is there when it is in the one or the other. -/
structure Additive (InContents : Contents → Prop) : Prop where
  empty : ¬InContents .empty
  append {one two : Contents} : InContents (one.append two) ↔ InContents one ∨ InContents two

variable (additive : Additive InContents)
  (owned : ∀ {required : Bool} {members : List Member}, InContents (own dict required members) ↔
    (demanded = true → required = true) ∧ Has members)

include additive owned

/-- What references contribute, they do through their components. -/
theorem UnrollsAll.leads {references : List ComponentRef}
    (unrolls : UnrollsAll dict required references contents) :
    InContents contents ↔ (demanded = true → required = true) ∧ ∃ reference ∈ references,
      (demanded = true → reference.required = true) ∧ ∃ component,
        dict.getComponent reference.name = some component ∧ Leads dict demanded Has component.members := by
  induction unrolls with
  | nil => exact ⟨fun has => absurd has additive.empty, fun ⟨_, _, mem, _⟩ => absurd mem List.not_mem_nil⟩
  | @cons required reference references component inner rest found inside others ihInside ihOthers =>
      have both : (demanded = true → (required && reference.required) = true) ↔
          (demanded = true → required = true) ∧ (demanded = true → reference.required = true) := by
        rw [Bool.and_eq_true]
        exact forall_and
      rw [additive.append, additive.append, owned, ihInside, ihOthers, both]
      constructor
      · rintro ((⟨⟨owner, asked⟩, has⟩ | ⟨⟨owner, asked⟩, nested, listed, asked', _, found', inside'⟩) |
          ⟨owner, other, listed, rest⟩)
        · exact ⟨owner, reference, List.mem_cons_self, asked, component, found, .here has⟩
        · exact ⟨owner, reference, List.mem_cons_self, asked, component, found,
            .component (mem_componentsOf.mp listed) asked' found' inside'⟩
        · exact ⟨owner, other, List.mem_cons_of_mem _ listed, rest⟩
      · rintro ⟨owner, other, listed, asked, component', found', leads⟩
        rcases List.mem_cons.mp listed with rfl | later
        · rw [found] at found'
          cases found'
          cases leads with
          | here has => exact .inl (.inl ⟨⟨owner, asked⟩, has⟩)
          | component listed asked' found' inside' =>
              exact .inl (.inr ⟨⟨owner, asked⟩, _, mem_componentsOf.mpr listed, asked', _, found', inside'⟩)
        · exact .inr ⟨owner, other, later, asked, component', found', leads⟩

theorem Unrolls.leads (unrolls : Unrolls dict required members contents) :
    InContents contents ↔ (demanded = true → required = true) ∧ Leads dict demanded Has members := by
  obtain ⟨inner, all, rfl⟩ := unrolls
  rw [additive.append, owned, UnrollsAll.leads additive owned all, ← and_or_left]
  refine and_congr_right fun _ => ?_
  constructor
  · rintro (has | ⟨reference, listed, asked, component, found, inside⟩)
    · exact .here has
    · exact .component (mem_componentsOf.mp listed) asked found inside
  · intro leads
    cases leads with
    | here has => exact .inl has
    | component listed asked found inside =>
        exact .inr ⟨_, mem_componentsOf.mpr listed, asked, _, found, inside⟩

end Leads

theorem own_tags : tag ∈ (own dict required members).tags ↔ ListsTag tag members := by
  simp [own, ListsTag]

theorem own_needs : tag ∈ (own dict required members).needs.map Prod.fst ↔
    required = true ∧ RequiresField tag members := by
  unfold own RequiresField
  rw [mem_needsOf]
  simp

theorem own_opens : (∃ opening ∈ (own dict required members).opens,
      opening.countTag = tag ∧ opening.required = true) ↔
    required = true ∧ RequiresGroup tag members := by
  unfold own
  constructor
  · rintro ⟨opening, mem, isTag, isRequired⟩
    obtain ⟨group, listed, rfl⟩ := List.mem_map.mp mem
    have both : group.required = true ∧ required = true := by
      rwa [Bool.and_eq_true] at isRequired
    exact ⟨both.2, group, mem_groupsOf.mp listed, both.1, isTag⟩
  · rintro ⟨owner, group, listed, isRequired, isTag⟩
    refine ⟨_, List.mem_map.mpr ⟨group, mem_groupsOf.mpr listed, rfl⟩, isTag, ?_⟩
    rw [isRequired, owner]
    rfl

/-- The tags of a member list's contents are those it contributes. -/
theorem Unrolls.tags (unrolls : Unrolls dict required members contents) :
    tag ∈ contents.tags ↔ Contributes dict members tag := by
  have additive : Additive (fun c => tag ∈ c.tags) := ⟨List.not_mem_nil, List.mem_append⟩
  have owned : ∀ {required : Bool} {members : List Member}, tag ∈ (own dict required members).tags ↔
      (false = true → required = true) ∧ ListsTag tag members := by
    intro required members
    rw [own_tags]
    simp
  refine (unrolls.leads additive owned).trans ?_
  simp [Contributes]

/-- Its needs are what required chains lead to. -/
theorem Unrolls.needs (unrolls : Unrolls dict true members contents) :
    tag ∈ contents.needs.map Prod.fst ↔ DemandsField dict members tag := by
  have additive : Additive (fun c => tag ∈ c.needs.map Prod.fst) := by
    refine ⟨List.not_mem_nil, ?_⟩
    intro one two
    show tag ∈ (one.needs ++ two.needs).map Prod.fst ↔ _
    rw [List.map_append, List.mem_append]
  have owned : ∀ {required : Bool} {members : List Member},
      tag ∈ (own dict required members).needs.map Prod.fst ↔
        (true = true → required = true) ∧ RequiresField tag members := by
    intro required members
    rw [own_needs]
    simp
  refine (unrolls.leads additive owned).trans ?_
  simp [DemandsField]

/-- A required group opens when a required chain leads to one. -/
theorem Unrolls.opens (unrolls : Unrolls dict true members contents) :
    (∃ opening ∈ contents.opens, opening.countTag = tag ∧ opening.required = true) ↔
      DemandsGroup dict members tag := by
  have additive : Additive (fun c => ∃ opening ∈ c.opens, opening.countTag = tag ∧
      opening.required = true) := by
    refine ⟨fun ⟨_, mem, _⟩ => absurd mem List.not_mem_nil, ?_⟩
    intro one two
    show (∃ opening ∈ one.opens ++ two.opens, _) ↔ _
    simp only [List.mem_append, or_and_right, exists_or]
  have owned : ∀ {required : Bool} {members : List Member},
      (∃ opening ∈ (own dict required members).opens, opening.countTag = tag ∧
        opening.required = true) ↔ (true = true → required = true) ∧ RequiresGroup tag members := by
    intro required members
    rw [own_opens]
    simp
  refine (unrolls.leads additive owned).trans ?_
  simp [DemandsGroup]

end IronFix.Dict
