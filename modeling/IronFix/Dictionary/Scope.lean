import IronFix.Dictionary.Schema
import IronFix.Lib.FirstWins

/-!
# Expanding the schema of a message

A message is expanded into a tree of levels: the message level, header and
trailer merged into it, and below it one level for the entries of each
repeating group. Components are flattened into the level that references them.
The expansion is bounded in depth and in the number of groups and components
it expands, and does not enter a component it is expanding.
-/

namespace IronFix.Dict

open Lib.FirstWins

/-- How deep groups and components are expanded. -/
def MAX_SCOPE_DEPTH : Nat := 32

/-- How many groups and components are expanded for one message. -/
def MAX_SCOPE_NODES : Nat := 4096

/-- A validation failure. -/
inductive ValidationError where
  | unknownMsgType (msgType : String)
  | missingRequiredField (tag : Nat) (name : String)
  | unknownTag (tag : Nat)
  | fieldNotAllowedForMessage (tag : Nat) (msgType : String)
  | invalidFieldFormat (tag : Nat) (name : String) (value : String) (fieldType : FieldType)
  | invalidEnumValue (tag : Nat) (name : String) (value : String)
  | duplicateTag (tag : Nat) (name : String)
  | repeatedTagInGroupEntry (countTag : Nat) (group : String) (tag : Nat) (name : String)
  | invalidGroupCount (tag : Nat) (name : String) (value : String)
  | groupCountMismatch (countTag : Nat) (name : String) (declared actual delimiterTag : Nat)
  | groupDelimiterMismatch (countTag : Nat) (name : String) (expected found : Nat)
  | missingRequiredGroup (countTag : Nat) (name : String)
  | unknownComponent (name : String)
  | schemaTooDeep (name : String) (limit : Nat)
  | schemaTooLarge (limit : Nat)
  | beginStringMismatch (expected found : String)
  | missingRequiredFieldInGroupEntry (countTag : Nat) (group : String) (entry tag : Nat) (name : String)
  | errorLimitReached (limit : Nat)
  deriving DecidableEq, Repr

mutual

/-- One structural level of a message: the message itself, or the members of
one group entry. -/
structure Level where
  members : List Nat
  required : List (Nat × String)
  groups : List LayoutGroup
  groupTags : List Nat

/-- A repeating group and the level one of its entries forms. -/
structure LayoutGroup where
  countTag : Nat
  name : String
  delimiterTag : Nat
  required : Bool
  entry : Level

end

namespace Level

def empty : Level := ⟨[], [], [], []⟩

def addField (level : Level) (tag : Nat) (name : String) (required : Bool) : Level :=
  { level with
    members := level.members ++ [tag]
    required := if required then level.required ++ [(tag, name)] else level.required }

/-- Adds the fields a list references, none required unless `required`. -/
def addFields (level : Level) (fields : List FieldRef) (required : Bool) : Level :=
  fields.foldl (fun level field => level.addField field.tag field.name (required && field.required))
    level

/-- Sorts the lists, so they can be searched; the first expansion of a count
tag wins. -/
def finish (level : Level) : Level :=
  let groups := firsts LayoutGroup.countTag level.groups
  { level with
    members := firsts id level.members
    groups := groups
    groupTags := groups.map LayoutGroup.countTag }

/-- Whether `tag` may appear here: a binary search of the sorted list. -/
def allows (level : Level) (tag : Nat) : Bool := level.members.contains tag

/-- The group that opens at `countTag`. -/
def group (level : Level) (countTag : Nat) : Option LayoutGroup :=
  level.groups.find? (·.countTag == countTag)

mutual

/-- Every tag of the level and of the entries below it, in the order of the
tree. -/
def treeTags : Level → List Nat
  | ⟨members, _, groups, _⟩ => members ++ treeTagsOf groups

def treeTagsOf : List LayoutGroup → List Nat
  | [] => []
  | ⟨_, _, _, _, entry⟩ :: rest => treeTags entry ++ treeTagsOf rest

end

/-- These tags, sorted and unique. -/
def allTags (level : Level) : List Nat := firsts id level.treeTags

end Level

/-- The expanded schema of one message. -/
structure Scope where
  level : Level
  /-- The tags of the header and trailer. -/
  envelope : List Nat

/-- The state of an expansion. `expanded` records what `spend` let through,
by name and depth; nothing reads it. -/
structure ScopeBuilder where
  budget : Nat
  errors : List ValidationError
  expanded : List (String × Nat)

namespace ScopeBuilder

def start : ScopeBuilder := ⟨MAX_SCOPE_NODES, [], []⟩

def fail (b : ScopeBuilder) (error : ValidationError) : ScopeBuilder :=
  { b with errors := b.errors ++ [error] }

/-- Charges one node against the budget and checks the depth ceiling. -/
def spend (b : ScopeBuilder) (name : String) (depth : Nat) : Bool × ScopeBuilder :=
  if depth > MAX_SCOPE_DEPTH then (false, b.fail (.schemaTooDeep name MAX_SCOPE_DEPTH))
  else
    match b.budget with
    | remaining + 1 =>
        (true, { b with budget := remaining, expanded := b.expanded ++ [(name, depth)] })
    | 0 =>
        if .schemaTooLarge MAX_SCOPE_NODES ∈ b.errors then (false, b)
        else (false, b.fail (.schemaTooLarge MAX_SCOPE_NODES))

end ScopeBuilder

/-- The required fields of an entry: each tag once, at its first position, and
not the delimiter. -/
def entryRequired (delimiterTag : Nat) : List Nat → List (Nat × String) → List (Nat × String)
  | _, [] => []
  | unique, (tag, name) :: rest =>
      if tag = delimiterTag ∨ tag ∈ unique then entryRequired delimiterTag unique rest
      else (tag, name) :: entryRequired delimiterTag (tag :: unique) rest

section Expansion

variable (dict : Dictionary)

/-- How deep a node is when `room` more levels fit below the ceiling. -/
def depthOf (room : Nat) : Nat := MAX_SCOPE_DEPTH + 1 - room

mutual

/-- Adds a group to `level` and builds the level of one entry; the component
references resolve against `dict`. `room` counts the depth down: nothing is
expanded without room, so this ends. -/
def addGroup : Nat → Level × ScopeBuilder → GroupDef → (required collectRequired : Bool) →
    (path : List String) → Level × ScopeBuilder
  | 0, (level, b), group, _, _, _ => (level, (b.spend group.name (depthOf 0)).2)
  | room + 1, (level, b), group, required, collectRequired, path =>
      match b.spend group.name (depthOf (room + 1)) with
      | (false, b) => (level, b)
      | (true, b) =>
          let entry : Level := { Level.empty with members := [group.delimiterTag] }
          let entry := entry.addFields group.fields true
          let (entry, b) := group.groups.foldl (fun state nested =>
            addGroup room state nested nested.required true path) (entry, b)
          let (entry, b) := group.components.foldl (fun state component =>
            addComponent room state component true path) (entry, b)
          let entry := { entry with required := entryRequired group.delimiterTag [] entry.required }
          let layout : LayoutGroup := {
            countTag := group.countTag
            name := group.name
            delimiterTag := group.delimiterTag
            required := required && collectRequired
            entry := entry.finish }
          ({ level with
              members := level.members ++ [group.countTag]
              groups := level.groups ++ [layout] }, b)

/-- Expands a component reference into `level`. A component on the `path` to
this reference is not entered again. -/
def addComponent : Nat → Level × ScopeBuilder → ComponentRef → (collectRequired : Bool) →
    (path : List String) → Level × ScopeBuilder
  | 0, (level, b), reference, _, _ => (level, (b.spend reference.name (depthOf 0)).2)
  | room + 1, (level, b), reference, collectRequired, path =>
      match b.spend reference.name (depthOf (room + 1)) with
      | (false, b) => (level, b)
      | (true, b) =>
          match dict.getComponent reference.name with
          | none => (level, b.fail (.unknownComponent reference.name))
          | some component =>
              if reference.name ∈ path then (level, b)
              else
                -- `path` itself is untouched, as after the removal on the way out
                let path := reference.name :: path
                let required := collectRequired && reference.required
                let level := level.addFields component.fields required
                let state := component.groups.foldl (fun state group =>
                  addGroup room state group group.required required path) (level, b)
                component.components.foldl (fun state nested =>
                  addComponent room state nested required path) state

end

end Expansion

/-- The room of a node of depth 0. -/
def fullRoom : Nat := MAX_SCOPE_DEPTH + 1

namespace ScopeBuilder

/-- Builds the message level: header and trailer from `transport`, then the
body, its components resolved against `body`. -/
def build (b : ScopeBuilder) (transport body : Dictionary) (msgDef : MessageDef) :
    Scope × ScopeBuilder :=
  let level := Level.empty.addFields transport.header true
  let (level, b) := transport.headerGroups.foldl (fun state group =>
    addGroup transport fullRoom state group group.required true []) (level, b)
  let level := level.addFields transport.trailer true
  let (level, b) := transport.trailerGroups.foldl (fun state group =>
    addGroup transport fullRoom state group group.required true []) (level, b)
  let envelope := level.allTags
  let level := level.addFields msgDef.fields true
  let (level, b) := msgDef.groups.foldl (fun state group =>
    addGroup body fullRoom state group group.required true []) (level, b)
  let (level, b) := msgDef.components.foldl (fun state component =>
    addComponent body fullRoom state component true []) (level, b)
  (⟨level.finish, envelope⟩, b)

/-- The scope of a message, with every schema error met on the way. -/
def expand (transport body : Dictionary) (msgDef : MessageDef) : Scope × ScopeBuilder :=
  ScopeBuilder.start.build transport body msgDef

end ScopeBuilder

end IronFix.Dict
