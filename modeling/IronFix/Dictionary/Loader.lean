import IronFix.Dictionary.Schema

/-!
# Loading a dictionary: the component graph and the resolver

A parsed document holds its references by name. The component graph is checked
before anything is resolved: a depth-first visit that remembers the height of
each component it has finished. The resolver then finds the delimiter of a
group, the first tag reachable in document order, and the members of each
definition.
-/

namespace IronFix.Dict.Loader

/-- How far component references may chain. -/
def MAX_COMPONENT_DEPTH : Nat := 32

/-- How deep elements may nest. -/
def MAX_NESTING_DEPTH : Nat := 32

inductive DefinitionKind where
  | field
  | component
  | message
  deriving DecidableEq, Repr

inductive OrchestraKind where
  | field
  | component
  | group
  deriving DecidableEq, Repr

/-- Why a document is refused, once it is parsed. -/
inductive DictionaryError where
  | unknownFieldName (name : String)
  | unknownComponent (name : String)
  | emptyGroup (name : String)
  | componentCycle (name : String)
  | nestingTooDeep (element : String) (limit : Nat)
  | duplicateDefinition (kind : DefinitionKind) (name : String)
  | unknownOrchestraReference (kind : OrchestraKind) (id : Nat) (owner : String)
  | missingCountField (group : String)
  | groupCycle (group : String)
  | envelopeReference (component owner : String)
  | duplicateOrchestraDefinition (kind : OrchestraKind) (key : String)
  | tooManyMembers (limit : Nat)
  deriving DecidableEq, Repr

/-- Refused for a component: unknown, or nested too deep. -/
def DictionaryError.ofComponents : DictionaryError → Bool
  | unknownComponent _ | nestingTooDeep _ _ => true
  | unknownFieldName _ | emptyGroup _ | componentCycle _ | duplicateDefinition _ _
  | unknownOrchestraReference _ _ _ | missingCountField _ | groupCycle _ | envelopeReference _ _
  | duplicateOrchestraDefinition _ _ | tooManyMembers _ => false

/-- Refused for the nesting of groups: a cycle, or nested too deep. -/
def DictionaryError.ofNesting : DictionaryError → Bool
  | groupCycle _ | nestingTooDeep _ _ => true
  | unknownComponent _ | unknownFieldName _ | emptyGroup _ | componentCycle _
  | duplicateDefinition _ _ | unknownOrchestraReference _ _ _ | missingCountField _
  | envelopeReference _ _ | duplicateOrchestraDefinition _ _ | tooManyMembers _ => false

/-- A member of a parsed definition. -/
inductive Item where
  | field (name : String) (required : Bool)
  | group (name : String) (required : Bool) (items : List Item)
  | component (name : String) (required : Bool)

/-- Component definitions, the members by name and the names in declaration
order. -/
structure ComponentIrs where
  items : List (String × List Item)
  order : List String
  complete : ∀ name, name ∈ order ↔ (items.lookup name).isSome

namespace ComponentIrs

def empty : ComponentIrs := ⟨[], [], fun _ => by simp⟩

/-- Registers a component, unless its name is taken. -/
def define (irs : ComponentIrs) (name : String) (items : List Item) :
    Except DictionaryError ComponentIrs :=
  if (irs.items.lookup name).isSome then .error (.duplicateDefinition .component name)
  else .ok {
    items := (name, items) :: irs.items
    order := irs.order ++ [name]
    complete := by
      intro other
      rw [List.mem_append, irs.complete, List.mem_singleton, List.lookup_cons]
      by_cases same : other = name
      · simp [same]
      · simp [same, beq_false_of_ne same] }

end ComponentIrs

/-! ## The component graph -/

/-- Traversal state of a component. -/
inductive VisitState where
  /-- On the current path. -/
  | inProgress
  /-- Finished, with the height of its subtree, itself counted. -/
  | done (height : Nat)

abbrev Visits := List (String × VisitState)

section Visit

variable (components : List (String × List Item))

def tooDeep : DictionaryError := .nestingTooDeep "component" MAX_COMPONENT_DEPTH

/-- Visits a component, its members with `visitItems`: the height of its
subtree. -/
def visitComponent (visitItems : List Item → Visits → Except DictionaryError (Nat × Visits))
    (name : String) (state : Visits) : Except DictionaryError (Nat × Visits) :=
  match state.lookup name with
  | some (.done height) => .ok (height, state)
  | some .inProgress => .error (.componentCycle name)
  | none =>
      match components.lookup name with
      | none => .error (.unknownComponent name)
      | some items =>
          match visitItems items ((name, .inProgress) :: state) with
          | .error error => .error error
          | .ok (below, state) =>
              let height := 1 + below
              if height > MAX_COMPONENT_DEPTH then .error tooDeep
              else .ok (height, (name, .done height) :: state)

/-- Visits members one after the other, for the height of the deepest. -/
def visitEach (visit : Item → Visits → Except DictionaryError (Nat × Visits)) :
    List Item → (height : Nat) → Visits → Except DictionaryError (Nat × Visits)
  | [], height, state => .ok (height, state)
  | item :: rest, height, state =>
      match visit item state with
      | .error error => .error error
      | .ok (reach, state) => visitEach visit rest (if reach > height then reach else height) state

/-- Visits one member, lists of members below it with `visitItems`. -/
def visitItem (visitItems : List Item → Visits → Except DictionaryError (Nat × Visits)) (item : Item)
    (state : Visits) : Except DictionaryError (Nat × Visits) :=
  match item with
  | .field _ _ => .ok (0, state)
  | .group _ _ items =>
      match visitItems items state with
      | .error error => .error error
      | .ok (below, state) => .ok (1 + below, state)
  | .component name _ => visitComponent components visitItems name state

/-- Visits a member list, for the height of its deepest group or component.
`room` counts the depth down: `MAX_COMPONENT_DEPTH + 1` at depth 0. -/
def visitItems : (room : Nat) → List Item → Visits → Except DictionaryError (Nat × Visits)
  | 0, _, _ => .error tooDeep
  | room + 1, items, state => visitEach (visitItem components (visitItems room)) items 0 state

/-- Visits the components in turn, each from depth 0. -/
def visitAll : (order : List String) → Visits → Except DictionaryError Unit
  | [], _ => .ok ()
  | name :: rest, state =>
      match visitComponent components (visitItems components MAX_COMPONENT_DEPTH) name state with
      | .error error => .error error
      | .ok (_, state) => visitAll rest state

end Visit

/-- Refuses dangling references, cycles and components that nest too deep. -/
def checkComponentGraph (components : List (String × List Item)) (order : List String) :
    Except DictionaryError Unit :=
  visitAll components order []

/-! ## Resolving -/

/-- First tags already known, by component. -/
abbrev FirstTags := List (String × Option Nat)

/-- The tables references resolve against. -/
structure Resolver where
  fieldsByName : List (String × Nat)
  components : List (String × List Item)

namespace Resolver

variable (resolver : Resolver)

def tag (name : String) : Except DictionaryError Nat :=
  match resolver.fieldsByName.lookup name with
  | some tag => .ok tag
  | none => .error (.unknownFieldName name)

def fieldRef (name : String) (required : Bool) : Except DictionaryError FieldRef :=
  match resolver.tag name with
  | .ok tag => .ok ⟨tag, name, required⟩
  | .error error => .error error

/-- The tag of the first field reachable in document order, first tags of
components by `componentFirstTag`. -/
def firstTagWith (componentFirstTag : String → FirstTags → Except DictionaryError (Option Nat × FirstTags)) :
    List Item → FirstTags → Except DictionaryError (Option Nat × FirstTags)
  | [], known => .ok (none, known)
  | .field name _ :: _, known | .group name _ _ :: _, known =>
      match resolver.tag name with
      | .ok tag => .ok (some tag, known)
      | .error error => .error error
  | .component name _ :: rest, known =>
      match componentFirstTag name known with
      | .error error => .error error
      | .ok (some tag, known) => .ok (some tag, known)
      | .ok (none, known) => firstTagWith componentFirstTag rest known

/-- The first tag of a component, found once. `room` counts the depth down
from `MAX_COMPONENT_DEPTH`. -/
def componentFirstTag : (room : Nat) → String → FirstTags → Except DictionaryError (Option Nat × FirstTags)
  | room, name, known =>
      match known.lookup name with
      | some tag => .ok (tag, known)
      | none =>
          match room with
          | 0 => .error (.nestingTooDeep name MAX_COMPONENT_DEPTH)
          | room + 1 =>
              match resolver.components.lookup name with
              | none => .error (.unknownComponent name)
              | some inner =>
                  match resolver.firstTagWith (componentFirstTag room) inner known with
                  | .error error => .error error
                  | .ok (tag, known) => .ok (tag, (name, tag) :: known)

def firstTag (room : Nat) : List Item → FirstTags → Except DictionaryError (Option Nat × FirstTags) :=
  resolver.firstTagWith (resolver.componentFirstTag room)

/-- A group of `items`, its members resolved by `members`. -/
def group (name : String) (required : Bool) (items : List Item)
    (members : FirstTags → Except DictionaryError (List Member × FirstTags)) (known : FirstTags) :
    Except DictionaryError (GroupDef × FirstTags) :=
  match resolver.tag name with
  | .error error => .error error
  | .ok countTag =>
      match resolver.firstTag MAX_COMPONENT_DEPTH items known with
      | .error error => .error error
      | .ok (none, _) => .error (.emptyGroup name)
      | .ok (some delimiterTag, known) =>
          match members known with
          | .error error => .error error
          | .ok (members, known) => .ok (⟨countTag, name, delimiterTag, required, members⟩, known)

mutual

def member : Item → FirstTags → Except DictionaryError (Member × FirstTags)
  | .field name required, known =>
      match resolver.fieldRef name required with
      | .error error => .error error
      | .ok field => .ok (.field field, known)
  | .group name required items, known =>
      match resolver.group name required items (members items) known with
      | .error error => .error error
      | .ok (group, known) => .ok (.group group, known)
  | .component name required, known =>
      if (resolver.components.lookup name).isNone then .error (.unknownComponent name)
      else .ok (.component ⟨name, required⟩, known)

/-- Resolves items into members, in document order. -/
def members : List Item → FirstTags → Except DictionaryError (List Member × FirstTags)
  | [], known => .ok ([], known)
  | item :: rest, known =>
      match member item known with
      | .error error => .error error
      | .ok (first, known) =>
          match members rest known with
          | .error error => .error error
          | .ok (later, known) => .ok (first :: later, known)

end

end Resolver

end IronFix.Dict.Loader
