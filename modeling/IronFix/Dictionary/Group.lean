import IronFix.Dictionary.Walk

/-!
# The group reader

Reads the repeating groups of a message by their layout. A group is checked as
it is located, nested groups included, before any view of it is handed out;
the rest of the message is still scanned, for a second instance. A view is a
range of the message's fields.
-/

namespace IronFix.Dict

/-- Why a group cannot be read. -/
inductive GroupError where
  | unknownMsgType (msgType : String)
  | invalidSchema (error : ValidationError)
  | notInLayout (countTag : Nat)
  | duplicateGroup (countTag : Nat)
  | invalidCount (countTag : Nat)
  | countMismatch (countTag declared actual : Nat)
  | delimiterMismatch (countTag expected found : Nat)
  | repeatedTag (countTag tag : Nat)
  | tooDeep (countTag limit : Nat)
  | msgTypeMismatch (expected found : String)
  deriving DecidableEq, Repr

/-! ## Layouts -/

/-- What a layout guarantees of a group: sorted lists, and the delimiter and
the nested count fields among the members. -/
inductive Sound : LayoutGroup → Prop
  | mk {group : LayoutGroup} (ascending : group.entry.members.Pairwise (· < ·))
      (delimiter : group.delimiterTag ∈ group.entry.members)
      (sorted : group.entry.groups.Pairwise (·.countTag < ·.countTag))
      (counts : ∀ nested ∈ group.entry.groups, nested.countTag ∈ group.entry.members)
      (below : ∀ nested ∈ group.entry.groups, Sound nested) : Sound group

/-- Sibling groups, and the tags of the level they open at. -/
structure GroupSet where
  groups : List LayoutGroup
  levelTags : List Nat
  sound : ∀ group ∈ groups, Sound group

namespace GroupSet

/-- The group whose count field is `countTag`. -/
def get (set : GroupSet) (countTag : Nat) : Option LayoutGroup :=
  set.groups.find? (·.countTag == countTag)

end GroupSet

/-! ## Visitors -/

/-- The walk of a group at nesting depth `depth`. -/
def walkAt (track : Bool) (depth : Nat) (enclosing : List Nat) (group : LayoutGroup)
    (fields : List TagValue.FieldRef) : Walked :=
  walkGroup track (fullRoom - depth) enclosing group fields

/-- The first structural error of a walk, and the entries of the last group
that ended. -/
structure FirstError where
  error : Option GroupError
  entries : Nat

namespace FirstError

def start : FirstError := ⟨none, 0⟩

def note (first : FirstError) (error : GroupError) : FirstError :=
  { first with error := first.error.or (some error) }

def visit (first : FirstError) : Event → FirstError
  | .enterGroup _ | .entryClosed _ _ _ => first
  | .invalidCount group _ => first.note (.invalidCount group.countTag)
  | .delimiterMismatch group found =>
      first.note (.delimiterMismatch group.countTag group.delimiterTag found)
  | .repeatedTag group tag => first.note (.repeatedTag group.countTag tag)
  | .countMismatch group declared actual =>
      first.note (.countMismatch group.countTag declared actual)
  | .tooDeep group => first.note (.tooDeep group.countTag MAX_SCOPE_DEPTH)
  | .leaveGroup _ _ entries => { first with entries := entries }

end FirstError

/-- The count tag of the first group a walk finds nested too deep. -/
def depthGuard (tooDeep : Option Nat) : Event → Option Nat
  | .tooDeep group => tooDeep.or (some group.countTag)
  | _ => tooDeep

/-! ## Views -/

/-- One entry: the range of fields it takes, its nested groups included. -/
structure GroupEntry where
  fields : List TagValue.FieldRef
  spec : LayoutGroup
  index : Nat
  depth : Nat

/-- The entries of one checked group instance, still to be read. -/
structure GroupEntries where
  fields : List TagValue.FieldRef
  spec : LayoutGroup
  /-- Where the next entry starts. -/
  cursor : Nat
  /-- Where the group's run ends. -/
  stop : Nat
  nextIndex : Nat
  remaining : Nat
  depth : Nat

/-- Where the fields left over by a walk start. -/
def positionOf (fields rest : List TagValue.FieldRef) : Nat := fields.length - rest.length

/-- Where the entry that starts at `start` ends. -/
def entryEnd (fields : List TagValue.FieldRef) (start : Nat) (group : LayoutGroup) (depth : Nat) : Nat :=
  positionOf fields (scanFrom false (walkAt false (depth + 1)) group false (fields.drop start)).rest

namespace GroupEntries

/-- The entries of an instance checked with the entry that encloses it, whose
fields are `fields`. -/
def trusted (fields : List TagValue.FieldRef) (index : Nat) (spec : LayoutGroup) (depth : Nat) :
    GroupEntries where
  fields := fields
  spec := spec
  cursor := index + 1
  stop := fields.length
  nextIndex := 0
  remaining := ((fields[index]?).bind fun field => parseCount field.value).getD 0
  depth := depth

/-- The next entry. -/
def next (entries : GroupEntries) : Option (GroupEntry × GroupEntries) :=
  if entries.cursor ≥ entries.stop then none
  else
    match entries.remaining with
    | 0 => none
    | remaining + 1 =>
        let stop := entryEnd entries.fields entries.cursor entries.spec entries.depth
        let entryFields := (entries.fields.drop entries.cursor).take (stop - entries.cursor)
        some (⟨entryFields, entries.spec, entries.nextIndex, entries.depth⟩,
          { entries with cursor := stop, nextIndex := entries.nextIndex + 1, remaining := remaining })

/-- Iterates, `fuel` entries at most. -/
def collect : (fuel : Nat) → GroupEntries → List GroupEntry
  | 0, _ => []
  | fuel + 1, entries =>
      match entries.next with
      | none => []
      | some (entry, entries) => entry :: collect fuel entries

/-- Every entry; no more are yielded than remain. -/
def toList (entries : GroupEntries) : List GroupEntry := entries.collect entries.remaining

end GroupEntries

namespace GroupEntry

/-- Where `tag` is at the entry's own level, nested groups skipped. -/
def findFrom (entry : GroupEntry) (tag : Nat) : (fuel : Nat) → List TagValue.FieldRef → Option Nat
  | 0, _ => none
  | _, [] => none
  | fuel + 1, field :: rest =>
      if field.tag = tag then some (positionOf entry.fields (field :: rest))
      else
        match entry.spec.nested field.tag with
        | some nested =>
            findFrom entry tag fuel (walkAt false (entry.depth + 1) entry.spec.entry.members nested
              (field :: rest)).rest
        | none => findFrom entry tag fuel rest

def find (entry : GroupEntry) (tag : Nat) : Option Nat :=
  entry.findFrom tag entry.fields.length entry.fields

/-- The field `tag` at the entry's own level. -/
def get (entry : GroupEntry) (tag : Nat) : Option TagValue.FieldRef :=
  (entry.find tag).bind (entry.fields[·]?)

/-- The group nested in this entry whose count field is `countTag`. -/
def group (entry : GroupEntry) (countTag : Nat) : Except GroupError (Option GroupEntries) :=
  match entry.spec.nested countTag with
  | none => .error (.notInLayout countTag)
  | some nested =>
      .ok ((entry.find countTag).map fun index =>
        .trusted entry.fields index nested (entry.depth + 1))

end GroupEntry

/-! ## Reading at the message level -/

namespace FirstError

/-- The entries of a group located at `index`, or the error its walk met. -/
def intoEntries (first : FirstError) (fields : List TagValue.FieldRef) (index stop : Nat)
    (spec : LayoutGroup) (depth : Nat) : Except GroupError GroupEntries :=
  match first.error with
  | some error => .error error
  | none => .ok ⟨fields, spec, index + 1, stop, 0, first.entries, depth⟩

end FirstError

namespace GroupSet

variable (set : GroupSet)

/-- Scans the message level from `rest` on. -/
def readFrom (fields : List TagValue.FieldRef) (spec : LayoutGroup) (countTag : Nat) :
    (fuel : Nat) → Option GroupEntries → List TagValue.FieldRef →
      Except GroupError (Option GroupEntries)
  | 0, found, _ => .ok found
  | _, found, [] => .ok found
  | fuel + 1, found, field :: rest =>
      if field.tag = countTag then
        if found.isSome then .error (.duplicateGroup countTag)
        else
          let walked := walkAt true 0 set.levelTags spec (field :: rest)
          match (walked.events.foldl FirstError.visit .start).intoEntries fields
              (positionOf fields (field :: rest)) (positionOf fields walked.rest) spec 0 with
          | .error error => .error error
          | .ok entries => readFrom fields spec countTag fuel (some entries) walked.rest
      else
        match set.get field.tag with
        | some group =>
            let walked := walkAt false 0 set.levelTags group (field :: rest)
            match walked.events.foldl depthGuard none with
            | some tooDeep => .error (.tooDeep tooDeep MAX_SCOPE_DEPTH)
            | none => readFrom fields spec countTag fuel found walked.rest
        | none => readFrom fields spec countTag fuel found rest

/-- Reads the group whose count field is `countTag` at the message level. -/
def read (fields : List TagValue.FieldRef) (countTag : Nat) :
    Except GroupError (Option GroupEntries) :=
  match set.get countTag with
  | none => .error (.notInLayout countTag)
  | some spec => set.readFrom fields spec countTag fields.length none fields

/-- Scans the message level for `tag`, skipping the groups' runs. -/
def fieldFrom (tag : Nat) : (fuel : Nat) → List TagValue.FieldRef → Option TagValue.FieldRef
  | 0, _ => none
  | _, [] => none
  | fuel + 1, field :: rest =>
      if field.tag = tag then some field
      else
        match set.get field.tag with
        | some group =>
            let walked := walkAt false 0 set.levelTags group (field :: rest)
            match walked.events.foldl depthGuard none with
            | some _ => none
            | none => fieldFrom tag fuel walked.rest
        | none => fieldFrom tag fuel rest

/-- The first field `tag` at the message level. -/
def field (fields : List TagValue.FieldRef) (tag : Nat) : Option TagValue.FieldRef :=
  set.fieldFrom tag fields.length fields

end GroupSet

end IronFix.Dict
