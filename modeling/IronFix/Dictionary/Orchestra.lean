import IronFix.Dictionary.Loader
import Mathlib.Algebra.Group.Nat.Defs

/-!
# Orchestra groups

An Orchestra repository references its fields, components and groups by id.
Its groups are checked before any is expanded: a depth-first visit that
remembers the longest chain of groups below each. Expanding a definition puts
a group's members in place of the reference to it; the components of the
header and the trailer are expanded in place, too.
-/

namespace IronFix.Dict.Orchestra

open Loader

/-- How many members a repository's expansion may have. -/
def MAX_ORCHESTRA_MEMBERS : Nat := 2 ^ 18

/-- The longest chain of nested groups a message's group may start: the
message itself is one level. -/
def MAX_GROUP_CHAIN : Nat := MAX_NESTING_DEPTH - 1

inductive RefKind where
  | field
  | component
  | group
  deriving DecidableEq, Repr

structure RawRef where
  kind : RefKind
  id : Nat
  required : Bool
  deriving DecidableEq, Repr

structure RawComponent where
  id : Nat
  name : String
  members : List RawRef
  deriving DecidableEq, Repr

structure RawGroup where
  id : Nat
  name : String
  /-- The id of the count field. -/
  count : Option Nat
  members : List RawRef
  deriving DecidableEq, Repr

/-- Indexes definitions by id, none of them twice. -/
def byIdFrom {T : Type} (id : T → Nat) (kind : OrchestraKind) :
    List T → List (Nat × T) → Except DictionaryError (List (Nat × T))
  | [], map => .ok map
  | definition :: rest, map =>
      if (map.lookup (id definition)).isSome then
        .error (.duplicateOrchestraDefinition kind (toString (id definition)))
      else byIdFrom id kind rest ((id definition, definition) :: map)

def byId {T : Type} (definitions : List T) (id : T → Nat) (kind : OrchestraKind) :
    Except DictionaryError (List (Nat × T)) := byIdFrom id kind definitions []

/-! ## The group graph -/

/-- Traversal state of a group. -/
inductive GroupVisit where
  /-- On the current path. -/
  | inProgress
  /-- Checked, with the length of its longest chain, itself counted. -/
  | done (chain : Nat)

abbrev GroupVisits := List (Nat × GroupVisit)

/-- The position in a chain when `room` more groups fit from there on. -/
def positionAt (room : Nat) : Nat := MAX_GROUP_CHAIN + 1 - room

section Check

variable (groups : List (Nat × RawGroup))

def tooDeep (group : RawGroup) : DictionaryError := .nestingTooDeep group.name MAX_NESTING_DEPTH

/-- The longest chain among the groups referenced in `members`. -/
def nestedEach (nestedChain : RawGroup → GroupVisits → Except DictionaryError (Nat × GroupVisits)) :
    List RawRef → (nested : Nat) → GroupVisits → Except DictionaryError (Nat × GroupVisits)
  | [], nested, state => .ok (nested, state)
  | member :: rest, nested, state =>
      if member.kind = .group then
        match groups.lookup member.id with
        | some child =>
            match nestedChain child state with
            | .error error => .error error
            | .ok (chain, state) => nestedEach nestedChain rest (max nested chain) state
        | none => nestedEach nestedChain rest nested state
      else nestedEach nestedChain rest nested state

/-- A chain has to fit where the walk reached it. -/
def chainFits (room : Nat) (group : RawGroup) (chain : Nat) (state : GroupVisits) :
    Except DictionaryError (Nat × GroupVisits) :=
  if positionAt room + chain - 1 > MAX_GROUP_CHAIN then .error (tooDeep group) else .ok (chain, state)

/-- Visits a group: the length of its longest chain of nested groups. -/
def nestedChain : (room : Nat) → RawGroup → GroupVisits → Except DictionaryError (Nat × GroupVisits)
  | room, group, state =>
      match state.lookup group.id with
      | some .inProgress => .error (.groupCycle group.name)
      | some (.done chain) => chainFits room group chain state
      | none =>
          match room with
          | 0 => .error (tooDeep group)
          | room + 1 =>
              match nestedEach groups (nestedChain room) group.members 0 ((group.id, .inProgress) :: state) with
              | .error error => .error error
              | .ok (nested, state) =>
                  chainFits (room + 1) group (nested + 1) ((group.id, .done (nested + 1)) :: state)

def checkGroupsFrom : List RawGroup → GroupVisits → Except DictionaryError Unit
  | [], _ => .ok ()
  | group :: rest, state =>
      match nestedChain groups MAX_GROUP_CHAIN group state with
      | .error error => .error error
      | .ok (_, state) => checkGroupsFrom rest state

/-- Refuses cycles of group references, and chains that no message holds. -/
def checkGroupGraph (raw : List RawGroup) : Except DictionaryError Unit := checkGroupsFrom groups raw []

end Check

/-! ## Expansion -/

/-- Where a member list sits. -/
inductive Scope where
  | message
  /-- A component's or a group's members. -/
  | definition
  /-- The header's or the trailer's members. -/
  | envelope
  deriving DecidableEq, Repr

/-- What references resolve against. -/
structure Expander where
  fields : List (Nat × String)
  components : List (Nat × RawComponent)
  groups : List (Nat × RawGroup)
  header : Option Nat
  trailer : Option Nat

/-- The state of an expansion: members still allowed, and the groups and
envelope components being expanded, outermost first. -/
structure Expansion where
  budget : Nat
  openGroups : List Nat
  openComponents : List Nat

/-- An item that is not required. -/
def optional : Item → Item
  | .field name _ => .field name false
  | .group name _ items => .group name false items
  | .component name _ => .component name false

namespace Expander

variable (x : Expander)

/-- Counts one member. -/
def spend (state : Expansion) : Except DictionaryError Expansion :=
  match state.budget with
  | 0 => .error (.tooManyMembers MAX_ORCHESTRA_MEMBERS)
  | budget + 1 => .ok { state with budget := budget }

def field (id : Nat) (owner : String) : Except DictionaryError String :=
  match x.fields.lookup id with
  | some name => .ok name
  | none => .error (.unknownOrchestraReference .field id owner)

section Members

variable (component : RawComponent → Expansion → Except DictionaryError (List Item × Expansion))
  (group : RawRef → String → Expansion → Except DictionaryError (Item × Expansion))

/-- Resolves one member, a group by `group`, a component of the envelope by
`component`. -/
def item (owner : String) (scope : Scope) (member : RawRef) (state : Expansion) :
    Except DictionaryError (List Item × Expansion) :=
  match member.kind with
  | .field =>
      match x.field member.id owner with
      | .error error => .error error
      | .ok name => .ok ([.field name member.required], state)
  | .component =>
      match x.components.lookup member.id with
      | none => .error (.unknownOrchestraReference .component member.id owner)
      | some referenced =>
          if x.header = some member.id ∨ x.trailer = some member.id then
            if scope = .message then .ok ([], state)
            else .error (.envelopeReference referenced.name owner)
          else if scope = .envelope then
            match component referenced state with
            | .error error => .error error
            -- An optional block's members take its presence.
            | .ok (expanded, state) =>
                .ok (if member.required then expanded else expanded.map optional, state)
          else .ok ([.component referenced.name member.required], state)
  | .group =>
      match group member owner state with
      | .error error => .error error
      | .ok (expanded, state) => .ok ([expanded], state)

/-- Resolves members, in document order. -/
def items (owner : String) (scope : Scope) : List RawRef → Expansion →
    Except DictionaryError (List Item × Expansion)
  | [], state => .ok ([], state)
  | member :: rest, state =>
      match spend state with
      | .error error => .error error
      | .ok state =>
          match x.item component group owner scope member state with
          | .error error => .error error
          | .ok (first, state) =>
              match items owner scope rest state with
              | .error error => .error error
              | .ok (later, state) => .ok (first ++ later, state)

end Members

/-- Expands a group reference, named after the count field. `room` counts the
depth down from `MAX_NESTING_DEPTH`. -/
def group (component : RawComponent → Expansion → Except DictionaryError (List Item × Expansion)) :
    (room : Nat) → RawRef → String → Expansion → Except DictionaryError (Item × Expansion)
  | room, member, owner, state =>
      match x.groups.lookup member.id with
      | none => .error (.unknownOrchestraReference .group member.id owner)
      | some referenced =>
          if referenced.id ∈ state.openGroups then .error (.groupCycle referenced.name)
          else
            match room with
            | 0 => .error (.nestingTooDeep referenced.name MAX_NESTING_DEPTH)
            | room + 1 =>
                let location := "group " ++ referenced.name
                match referenced.count with
                | none => .error (.missingCountField referenced.name)
                | some count =>
                    match x.field count location with
                    | .error error => .error error
                    | .ok name =>
                        match x.items component (group component room) location .definition
                            referenced.members
                            { state with openGroups := state.openGroups ++ [referenced.id] } with
                        | .error error => .error error
                        | .ok (items, state) => .ok (.group name member.required items,
                            { state with openGroups := state.openGroups.dropLast })

/-- The room below a list of depth 1. -/
def firstRoom : Nat := MAX_NESTING_DEPTH - 1

/-- Expands a component of the header or the trailer in place. `room` counts
the open components down from `MAX_COMPONENT_DEPTH`. -/
def envelopeComponent : (room : Nat) → RawComponent → Expansion →
    Except DictionaryError (List Item × Expansion)
  | room, component, state =>
      if component.id ∈ state.openComponents then .error (.componentCycle component.name)
      else
        match room with
        | 0 => .error (.nestingTooDeep component.name MAX_COMPONENT_DEPTH)
        | room + 1 =>
            match x.items (envelopeComponent room) (x.group (envelopeComponent room) firstRoom)
                ("component " ++ component.name) .envelope component.members
                { state with openComponents := state.openComponents ++ [component.id] } with
            | .error error => .error error
            | .ok (items, state) =>
                .ok (items, { state with openComponents := state.openComponents.dropLast })

/-- Resolves the members of a message or of a definition. -/
def membersOf (owner : String) (scope : Scope) : List RawRef → Expansion →
    Except DictionaryError (List Item × Expansion) :=
  x.items (x.envelopeComponent MAX_COMPONENT_DEPTH)
    (x.group (x.envelopeComponent MAX_COMPONENT_DEPTH) firstRoom) owner scope

/-- Checks a group without expanding it. -/
def checkGroup (raw : RawGroup) : Except DictionaryError Unit :=
  let location := "group " ++ raw.name
  match raw.count with
  | none => .error (.missingCountField raw.name)
  | some count =>
      match x.field count location with
      | .error error => .error error
      | .ok countName =>
          if raw.members.isEmpty then .error (.emptyGroup countName)
          else
            match raw.members.find? (fun member => !(match member.kind with
              | .field => (x.fields.lookup member.id).isSome
              | .component => (x.components.lookup member.id).isSome
              | .group => (x.groups.lookup member.id).isSome)) with
            | none => .ok ()
            | some member => .error (.unknownOrchestraReference
                (match member.kind with
                  | .field => .field
                  | .component => .component
                  | .group => .group) member.id location)

end Expander

end IronFix.Dict.Orchestra
