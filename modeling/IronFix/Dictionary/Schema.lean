import Mathlib.Data.List.Basic

/-!
# The schema model

What a dictionary says of its messages: fields, repeating groups and
components, each list of members in dictionary order, and the per-kind views
of it. A component is referenced by name and resolved when a message is
expanded.
-/

namespace IronFix.Dict

/-- Reference to a field. -/
structure FieldRef where
  tag : Nat
  name : String
  required : Bool
  deriving DecidableEq, Repr

/-- Reference to a component; whether it is required is said here, not by the
component. -/
structure ComponentRef where
  name : String
  required : Bool
  deriving DecidableEq, Repr

mutual

/-- A repeating group: its count field, the tag every entry starts with, and
the members of an entry. -/
structure GroupDef where
  countTag : Nat
  name : String
  delimiterTag : Nat
  required : Bool
  members : List Member

inductive Member where
  | field (field : FieldRef)
  | group (group : GroupDef)
  | component (reference : ComponentRef)

end

namespace Member

def asField : Member → Option FieldRef
  | field f => some f
  | group _ | component _ => none

def asGroup : Member → Option GroupDef
  | group g => some g
  | field _ | component _ => none

def asComponent : Member → Option ComponentRef
  | component c => some c
  | field _ | group _ => none

end Member

/-! ## The per-kind views of a member list -/

def fieldsOf (members : List Member) : List FieldRef := members.filterMap Member.asField

def groupsOf (members : List Member) : List GroupDef := members.filterMap Member.asGroup

def componentsOf (members : List Member) : List ComponentRef := members.filterMap Member.asComponent

section Views

variable {members : List Member}

@[simp] theorem mem_fieldsOf {field : FieldRef} : field ∈ fieldsOf members ↔ .field field ∈ members := by
  unfold fieldsOf
  rw [List.mem_filterMap]
  constructor
  · rintro ⟨member, mem, asField⟩
    cases member with
    | field f => cases asField; exact mem
    | group g => cases asField
    | component c => cases asField
  · intro mem
    exact ⟨_, mem, rfl⟩

@[simp] theorem mem_groupsOf {group : GroupDef} : group ∈ groupsOf members ↔ .group group ∈ members := by
  unfold groupsOf
  rw [List.mem_filterMap]
  constructor
  · rintro ⟨member, mem, asGroup⟩
    cases member with
    | group g => cases asGroup; exact mem
    | field f => cases asGroup
    | component c => cases asGroup
  · intro mem
    exact ⟨_, mem, rfl⟩

@[simp] theorem mem_componentsOf {reference : ComponentRef} :
    reference ∈ componentsOf members ↔ .component reference ∈ members := by
  unfold componentsOf
  rw [List.mem_filterMap]
  constructor
  · rintro ⟨member, mem, asComponent⟩
    cases member with
    | component c => cases asComponent; exact mem
    | field f => cases asComponent
    | group g => cases asComponent
  · intro mem
    exact ⟨_, mem, rfl⟩

end Views

namespace GroupDef

def fields (group : GroupDef) : List FieldRef := fieldsOf group.members

def groups (group : GroupDef) : List GroupDef := groupsOf group.members

def components (group : GroupDef) : List ComponentRef := componentsOf group.members

end GroupDef

structure ComponentDef where
  name : String
  members : List Member

namespace ComponentDef

def fields (component : ComponentDef) : List FieldRef := fieldsOf component.members

def groups (component : ComponentDef) : List GroupDef := groupsOf component.members

def components (component : ComponentDef) : List ComponentRef := componentsOf component.members

end ComponentDef

inductive MessageCategory where
  | admin
  | app
  deriving DecidableEq, Repr

structure MessageDef where
  msgType : String
  name : String
  category : MessageCategory
  members : List Member

namespace MessageDef

def fields (message : MessageDef) : List FieldRef := fieldsOf message.members

def groups (message : MessageDef) : List GroupDef := groupsOf message.members

def components (message : MessageDef) : List ComponentRef := componentsOf message.members

end MessageDef

/-- Data type of a field. -/
inductive FieldType where
  | int | length | seqNum | numInGroup | tagNum | dayOfMonth | float | qty | price | priceOffset
  | amt | percentage | char | boolean | string | multipleCharValue | multipleStringValue | country
  | currency | exchange | monthYear | utcTimestamp | utcTimeOnly | utcDateOnly | localMktDate
  | localMktTime | tzTimeOnly | tzTimestamp | data | xmlData | language | pattern | tenor | reserved
  deriving DecidableEq, Repr

/-- Definition of a field; the enumeration of an enumerated one maps its
values to their descriptions. -/
structure FieldDef where
  tag : Nat
  name : String
  fieldType : FieldType
  values : Option (List (String × String))
  description : Option String

/-- The maps of a dictionary are lists of bindings, the first of a key its
value. -/
structure Dictionary where
  fields : List (Nat × FieldDef)
  messages : List (String × MessageDef)
  components : List (String × ComponentDef)
  header : List FieldRef
  headerGroups : List GroupDef
  trailer : List FieldRef
  trailerGroups : List GroupDef

namespace Dictionary

def getField (dict : Dictionary) (tag : Nat) : Option FieldDef := dict.fields.lookup tag

def getMessage (dict : Dictionary) (msgType : String) : Option MessageDef :=
  dict.messages.lookup msgType

def getComponent (dict : Dictionary) (name : String) : Option ComponentDef :=
  dict.components.lookup name

end Dictionary

end IronFix.Dict
