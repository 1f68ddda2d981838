import IronFix.Core.Bytes
import IronFix.Dictionary.Scope
import IronFix.TagValue.Decoder

/-!
# The walk over a repeating group

A group instance starts at its count field. The walk consumes the fields that
belong to it: an entry opens at every delimiter, a field that is no member of
the group ends it, and the count field of a nested group hands over to a
nested walk. What the walk meets it reports as events; what a visitor makes of
them does not bear on the walk. A position in the message is the list of the
fields from there on.
-/

namespace IronFix.Dict

open Lib.Decimal

/-- A group count: one or more digits that fit in a `u64`. -/
def parseCount (value : Bytes) : Option Nat := parseDigits value.length u64Max value

/-- What a walk reports. -/
inductive Event where
  | enterGroup (group : LayoutGroup)
  | invalidCount (group : LayoutGroup) (value : Bytes)
  | delimiterMismatch (group : LayoutGroup) (found : Nat)
  | repeatedTag (group : LayoutGroup) (tag : Nat)
  /-- An entry ended; `seen` are the tags at its own level. -/
  | entryClosed (group : LayoutGroup) (entry : Nat) (seen : List Nat)
  | countMismatch (group : LayoutGroup) (declared actual : Nat)
  | tooDeep (group : LayoutGroup)
  | leaveGroup (group : LayoutGroup) (wellFormed : Bool) (entries : Nat)

/-- What a walk reported, and where it ended. -/
structure Walked where
  events : List Event
  rest : List TagValue.FieldRef

/-- A scan of one entry: also the tags seen, and whether the group can no
longer be split into entries. -/
structure Scanned where
  events : List Event
  rest : List TagValue.FieldRef
  seen : List Nat
  unparseable : Bool

/-- The entries of a group so far. -/
structure Entries where
  events : List Event
  rest : List TagValue.FieldRef
  entries : Nat
  unparseable : Bool

namespace LayoutGroup

/-- Whether `tag` may appear at an entry's own level. -/
def isMember (group : LayoutGroup) (tag : Nat) : Bool := group.entry.allows tag

/-- The group nested in an entry whose count field is `countTag`. -/
def nested (group : LayoutGroup) (countTag : Nat) : Option LayoutGroup := group.entry.group countTag

end LayoutGroup

section Scan

variable (track : Bool) (walkNested : List Nat → LayoutGroup → List TagValue.FieldRef → Walked) (group : LayoutGroup)

/-- Consumes the fields of an entry and the runs of the groups nested in it.
`opened` says that the entry's first field is behind. -/
def scanEntry : (fuel : Nat) → (opened : Bool) → List Nat → Bool → List TagValue.FieldRef → Scanned
  | 0, _, seen, unparseable, fields => ⟨[], fields, seen, unparseable⟩
  | _, _, seen, unparseable, [] => ⟨[], [], seen, unparseable⟩
  | fuel + 1, opened, seen, unparseable, field :: rest =>
      if !group.isMember field.tag then ⟨[], field :: rest, seen, unparseable⟩
      else if opened && field.tag == group.delimiterTag then ⟨[], field :: rest, seen, unparseable⟩
      else
        let repeated := track && seen.contains field.tag
        let seen := if track then field.tag :: seen else seen
        let reported := if repeated then [Event.repeatedTag group field.tag] else []
        -- The delimiter can itself be a nested group's count tag.
        let walked := match group.nested field.tag with
          | some nested => walkNested group.entry.members nested (field :: rest)
          | none => ⟨[], rest⟩
        let scanned := scanEntry fuel true seen (unparseable || repeated) walked.rest
        { scanned with events := reported ++ walked.events ++ scanned.events }

/-- Scans the entry that starts here. -/
def scanFrom (unparseable : Bool) (fields : List TagValue.FieldRef) : Scanned :=
  scanEntry track walkNested group fields.length false [] unparseable fields

/-- Reports a closed entry, to a visitor that tracks tags. -/
def closed (entry : Nat) (seen : List Nat) : List Event :=
  if track then [.entryClosed group entry seen] else []

/-- Whether a field behind the declared entries belongs to the enclosing scope
rather than to this group. -/
def endsGroup (declared : Option Nat) (enclosing : List Nat) (entries tag : Nat) : Bool :=
  declared == some entries && enclosing.contains tag

variable (declared : Option Nat) (enclosing : List Nat)

/-- Entries, one for every delimiter. -/
def scanEntries : (fuel entries : Nat) → Bool → List TagValue.FieldRef → Entries
  | 0, entries, unparseable, fields => ⟨[], fields, entries, unparseable⟩
  | _, entries, unparseable, [] => ⟨[], [], entries, unparseable⟩
  | fuel + 1, entries, unparseable, field :: rest =>
      if field.tag ≠ group.delimiterTag then ⟨[], field :: rest, entries, unparseable⟩
      else if endsGroup declared enclosing entries field.tag then
        ⟨[], field :: rest, entries, unparseable⟩
      else
        let scanned := scanFrom track walkNested group unparseable (field :: rest)
        let more := scanEntries fuel (entries + 1) scanned.unparseable scanned.rest
        { more with
          events := scanned.events ++ closed track group entries scanned.seen ++ more.events }

/-- Members ahead of any delimiter, walked as one entry so the run ends where
it would. -/
def leadEntry (fields : List TagValue.FieldRef) : Entries :=
  match fields with
  | [] => ⟨[], [], 0, false⟩
  | field :: rest =>
      if field.tag ≠ group.delimiterTag && group.isMember field.tag &&
          !endsGroup declared enclosing 0 field.tag then
        let scanned := scanFrom track walkNested group true (field :: rest)
        ⟨.delimiterMismatch group field.tag :: scanned.events ++ closed track group 0 scanned.seen,
          scanned.rest, 1, scanned.unparseable⟩
      else ⟨[], field :: rest, 0, false⟩

/-- Walks the group instance whose count field is the first of `fields`, its
nested groups with `walkNested`. -/
def walkWith (fields : List TagValue.FieldRef) : Walked :=
  match fields with
  | [] => ⟨[], []⟩
  | countField :: rest =>
      let declared := parseCount countField.value
      let invalid := if declared.isNone then [Event.invalidCount group countField.value] else []
      let lead := leadEntry track walkNested group declared enclosing rest
      let found := scanEntries track walkNested group declared enclosing lead.rest.length lead.entries
        lead.unparseable lead.rest
      let counted := declared == some found.entries
      let mismatch := match declared with
        | some declared =>
            if declared ≠ found.entries && !found.unparseable then
              [Event.countMismatch group declared found.entries]
            else []
        | none => []
      ⟨.enterGroup group :: invalid ++ lead.events ++ found.events ++ mismatch ++
          [.leaveGroup group (!found.unparseable && counted) found.entries], found.rest⟩

end Scan

/-- Walks one group instance from its count field, `room` levels above the
ceiling; `enclosing` are the tags the scope around the group accepts. Without
room the group is not walked: only its count field is consumed. -/
def walkGroup (track : Bool) : (room : Nat) → List Nat → LayoutGroup → List TagValue.FieldRef → Walked
  | 0, _, group, fields =>
      match fields with
      | [] => ⟨[], []⟩
      | _ :: rest => ⟨[.tooDeep group], rest⟩
  | room + 1, enclosing, group, fields =>
      walkWith track (walkGroup track room) group enclosing fields

end IronFix.Dict
