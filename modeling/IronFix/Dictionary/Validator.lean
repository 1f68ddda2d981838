import IronFix.Core.Utf8
import IronFix.Dictionary.FieldForms
import IronFix.Dictionary.Walk

/-!
# The validator

A message is checked against the level tree of its type: values first, then
the structure in one walk, the required members last. Errors are collected up
to a limit; `none` is no limit. The per-entry errors of a group are held back
until the group is known to be well-formed, and follow the structural ones.
-/

namespace IronFix.Dict

/-- How many errors one validation collects. -/
def MAX_VALIDATION_ERRORS : Nat := 1024

/-! ## Collecting errors -/

/-- The errors of one validation. -/
structure ErrorSink where
  errors : List ValidationError
  /-- Errors held in every pending buffer. -/
  provisional : Nat
  truncated : Bool
  deriving DecidableEq

/-- Per-entry errors of one group instance, and of the well-formed groups
nested in it. -/
structure Pending where
  errors : List ValidationError
  overflowed : Bool
  deriving DecidableEq

def Pending.empty : Pending := ⟨[], false⟩

/-- Whether one more than `count` errors stay within the limit. -/
def fits (limit : Option Nat) (count : Nat) : Bool :=
  match limit with
  | some limit => count < limit
  | none => true

namespace ErrorSink

def empty : ErrorSink := ⟨[], 0, false⟩

/-- Stops counting `count` provisional errors. -/
def forget (sink : ErrorSink) (count : Nat) : ErrorSink :=
  { sink with provisional :=
      if count ≤ sink.provisional then sink.provisional - count else sink.provisional }

/-- Moves a finished group's errors into the enclosing group's buffer. -/
def adopt (parent child : Pending) : Pending :=
  ⟨parent.errors ++ child.errors, parent.overflowed || child.overflowed⟩

/-- Drops a malformed group's errors. -/
def release (sink : ErrorSink) (pending : Pending) : ErrorSink := sink.forget pending.errors.length

variable (limit : Option Nat)

/-- Commits an error, or records that the result is full. -/
def push (sink : ErrorSink) (error : ValidationError) : ErrorSink :=
  if fits limit sink.errors.length then { sink with errors := sink.errors ++ [error] }
  else { sink with truncated := true }

/-- Holds a per-entry error, if it could ever reach the result. -/
def hold (sink : ErrorSink) (pending : Pending) (error : ValidationError) : ErrorSink × Pending :=
  if fits limit (sink.errors.length + sink.provisional) then
    ({ sink with provisional := sink.provisional + 1 },
      { pending with errors := pending.errors ++ [error] })
  else (sink, { pending with overflowed := true })

/-- Commits the errors of well-formed groups, as many as fit. -/
def commit (sink : ErrorSink) (pending : Pending) : ErrorSink :=
  let sink := sink.forget pending.errors.length
  let sink := if pending.overflowed then { sink with truncated := true } else sink
  pending.errors.foldl (push limit) sink

/-- The result, closed by a mark if an error was refused. -/
def finish (sink : ErrorSink) : Except (List ValidationError) Unit :=
  let errors := if sink.truncated then
      sink.errors ++ [.errorLimitReached MAX_VALIDATION_ERRORS]
    else sink.errors
  if errors.isEmpty then .ok () else .error errors

end ErrorSink

/-! ## Which dictionary answers -/

/-- A dictionary, or a transport dictionary composed with one for the
application; a composed session also fixes BeginString (8). -/
structure Validator where
  transport : Dictionary
  application : Option Dictionary
  beginString : Option String

inductive Side where
  | transport
  | application
  deriving DecidableEq, Repr

namespace Validator

/-- One dictionary for everything. -/
def new (dict : Dictionary) : Validator := ⟨dict, none, none⟩

def forSession (transport application : Dictionary) (beginString : String) : Validator :=
  ⟨transport, some application, some beginString⟩

def dict (validator : Validator) : Side → Dictionary
  | .transport => validator.transport
  | .application => validator.application.getD validator.transport

/-- The definition of a message type, and the side that answers its body: the
transport for an admin message it defines. -/
def resolve (validator : Validator) (msgType : String) : Option (MessageDef × Side) :=
  match validator.transport.getMessage msgType with
  | some definition =>
      if definition.category = .admin then some (definition, .transport)
      else ((validator.dict .application).getMessage msgType).map (·, .application)
  | none => ((validator.dict .application).getMessage msgType).map (·, .application)

end Validator

/-- Answers which definition a tag of the message has. -/
structure TagResolver where
  validator : Validator
  body : Side
  envelope : List Nat

namespace TagResolver

/-- Header and trailer tags are the transport's. -/
def side (tags : TagResolver) (tag : Nat) : Side :=
  if tags.envelope.contains tag then .transport else tags.body

def field (tags : TagResolver) (tag : Nat) : Option FieldDef :=
  (tags.validator.dict (tags.side tag)).getField tag

/-- Whether the enumeration of the side that does not answer has the value. -/
def otherSideAdmits (tags : TagResolver) (tag : Nat) (value : String) : Bool :=
  match tags.validator.application with
  | none => false
  | some application =>
      let other := match tags.side tag with
        | .transport => application
        | .application => tags.validator.transport
      match (other.getField tag).bind FieldDef.values with
      | some values => (values.lookup value).isSome
      | none => false

/-- Whether an enumeration has a value, each token of a multi-value one. -/
def admits (tags : TagResolver) (tag : Nat) (fieldType : FieldType) (values : List (String × String))
    (value : String) : Bool :=
  let admitted := fun token : String => (values.lookup token).isSome || tags.otherSideAdmits tag token
  if fieldType.isMultiValue then
    (splitOn ' ' value.toList).all fun token => admitted (String.ofList token)
  else admitted value

/-- A field is defined, well-formed, and of its enumeration if it has one. -/
def checkValue (limit : Option Nat) (tags : TagResolver) (sink : ErrorSink)
    (field : TagValue.FieldRef) : ErrorSink :=
  match tags.field field.tag with
  | none => sink.push limit (.unknownTag field.tag)
  | some definition =>
      let value := fromUtf8Lossy field.value
      if !definition.fieldType.isValidValue value then
        sink.push limit (.invalidFieldFormat field.tag definition.name value definition.fieldType)
      else
        match definition.values with
        | none => sink
        | some values =>
            if tags.admits field.tag definition.fieldType values value then sink
            else sink.push limit (.invalidEnumValue field.tag definition.name value)

end TagResolver

/-! ## The structural walk -/

/-- The required members missing from a closed entry. -/
def checkEntryRequired (group : LayoutGroup) (entry : Nat) (seen : List Nat) : List ValidationError :=
  let missing := fun (tag : Nat) (name : String) =>
    ValidationError.missingRequiredFieldInGroupEntry group.countTag group.name entry tag name
  (group.entry.required.filter fun (tag, _) => !seen.contains tag).map (fun (tag, name) =>
    missing tag name) ++
  (group.entry.groups.filter fun nested => nested.required && !seen.contains nested.countTag).map
    fun nested => missing nested.countTag nested.name

/-- The walk's visitor: a buffer for every group instance being walked,
innermost first, and the errors of the well-formed top-level groups. -/
structure Checks where
  sink : ErrorSink
  stack : List Pending
  accepted : Pending

namespace Checks

variable (limit : Option Nat)

def push (checks : Checks) (error : ValidationError) : Checks :=
  { checks with sink := checks.sink.push limit error }

/-- Holds an error in the innermost buffer. -/
def hold (checks : Checks) (error : ValidationError) : Checks :=
  match checks.stack with
  | [] => checks
  | pending :: outer =>
      let (sink, pending) := checks.sink.hold limit pending error
      { checks with sink := sink, stack := pending :: outer }

def leaveGroup (checks : Checks) (wellFormed : Bool) : Checks :=
  match checks.stack with
  | [] => checks
  | pending :: outer =>
      if !wellFormed then { checks with sink := checks.sink.release pending, stack := outer }
      else
        match outer with
        | parent :: outer => { checks with stack := ErrorSink.adopt parent pending :: outer }
        | [] => { checks with stack := [], accepted := ErrorSink.adopt checks.accepted pending }

/-- What the visitor makes of an event. -/
def visit (tags : TagResolver) (checks : Checks) : Event → Checks
  | .enterGroup _ => { checks with stack := .empty :: checks.stack }
  | .invalidCount group value =>
      checks.push limit (.invalidGroupCount group.countTag group.name (fromUtf8Lossy value))
  | .delimiterMismatch group found =>
      checks.push limit (.groupDelimiterMismatch group.countTag group.name group.delimiterTag found)
  | .repeatedTag group tag =>
      checks.push limit (.repeatedTagInGroupEntry group.countTag group.name tag
        (((tags.field tag).map FieldDef.name).getD ""))
  | .entryClosed group entry seen => (checkEntryRequired group entry seen).foldl (hold limit) checks
  | .countMismatch group declared actual =>
      checks.push limit (.groupCountMismatch group.countTag group.name declared actual group.delimiterTag)
  | .tooDeep group => checks.push limit (.schemaTooDeep group.name MAX_SCOPE_DEPTH)
  | .leaveGroup _ wellFormed _ => checks.leaveGroup wellFormed

/-- The walk over the message level; also answers the tags seen at it. -/
def walkMessage (tags : TagResolver) (level : Level) (msgType : String) :
    (fuel : Nat) → Checks → List Nat → List TagValue.FieldRef → Checks × List Nat
  | 0, checks, seen, _ => (checks, seen)
  | _, checks, seen, [] => (checks, seen)
  | fuel + 1, checks, seen, field :: rest =>
      match tags.field field.tag with
      | none => walkMessage tags level msgType fuel checks seen rest
      | some definition =>
          let checks := if seen.contains field.tag then
              checks.push limit (.duplicateTag field.tag definition.name)
            else checks
          let seen := field.tag :: seen
          match level.group field.tag with
          | some group =>
              let walked := walkGroup true fullRoom level.members group (field :: rest)
              walkMessage tags level msgType fuel
                (walked.events.foldl (visit limit tags) checks) seen walked.rest
          | none =>
              let checks := if level.allows field.tag then checks
                else checks.push limit (.fieldNotAllowedForMessage field.tag msgType)
              walkMessage tags level msgType fuel checks seen rest

end Checks

namespace Validator

variable (limit : Option Nat)

/-- A missing BeginString (8) is a missing required field; only a present,
wrong one is a mismatch. -/
def checkBeginString (validator : Validator) (fields : List TagValue.FieldRef) (sink : ErrorSink) :
    ErrorSink :=
  match validator.beginString, fields.find? (·.tag == 8) with
  | some expected, some beginString =>
      let found := fromUtf8Lossy beginString.value
      if found ≠ expected then sink.push limit (.beginStringMismatch expected found) else sink
  | _, _ => sink

/-- Checks a message of a known type. -/
def checkMessage (validator : Validator) (definition : MessageDef) (body : Side) (msgType : String)
    (fields : List TagValue.FieldRef) (sink : ErrorSink) : ErrorSink :=
  let (scope, builder) := ScopeBuilder.expand validator.transport (validator.dict body) definition
  let sink := builder.errors.foldl (ErrorSink.push limit) sink
  let tags : TagResolver := ⟨validator, body, scope.envelope⟩
  let sink := fields.foldl (tags.checkValue limit) sink
  let (checks, seen) := Checks.walkMessage limit tags scope.level msgType fields.length
    ⟨sink, [], .empty⟩ [] fields
  let sink := checks.sink.commit limit checks.accepted
  -- CheckSum (10) is consumed by the decoder.
  let missingFields := (scope.level.required.filter fun (tag, _) =>
    tag ≠ 10 && !seen.contains tag).map fun (tag, name) => .missingRequiredField tag name
  let missingGroups := (scope.level.groups.filter fun group =>
    group.required && !seen.contains group.countTag).map fun group =>
      .missingRequiredGroup group.countTag group.name
  missingGroups.foldl (ErrorSink.push limit) (missingFields.foldl (ErrorSink.push limit) sink)

/-- Validates a message, collecting errors up to `limit`. -/
def validateWith (validator : Validator) (message : TagValue.RawMessage) :
    Except (List ValidationError) Unit :=
  let sink := validator.checkBeginString limit message.fields .empty
  let msgType := fromUtf8Lossy message.msgType.code
  match validator.resolve msgType with
  | none => (sink.push limit (.unknownMsgType msgType)).finish
  | some (definition, body) =>
      (validator.checkMessage limit definition body msgType message.fields sink).finish

/-- `Validator::validate`. -/
def validate : Validator → TagValue.RawMessage → Except (List ValidationError) Unit :=
  validateWith (some MAX_VALIDATION_ERRORS)

/-- The errors a validation without a limit finds. -/
def allErrors (validator : Validator) (message : TagValue.RawMessage) : List ValidationError :=
  match validator.validateWith none message with
  | .ok () => []
  | .error errors => errors

end Validator

end IronFix.Dict
