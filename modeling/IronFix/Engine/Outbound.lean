import IronFix.Engine.Routes
import IronFix.TagValue.Encoded

/-!
# Outbound messages

A message from the application is a MsgType and its body fields in order. The
body is checked before it is framed, and again after the application's callback.
-/

namespace IronFix.Engine.Outbound

open IronFix.TagValue

/-- A body field in the form the encoder takes it. -/
inductive OutboundField where
  | raw (tag : UInt32) (value : Bytes)
  | data (lengthTag dataTag : UInt32) (value : Bytes)
  deriving DecidableEq

structure OutboundMessage where
  msgType : MsgType
  fields : List OutboundField

/-- `OutboundMessage::get`: the value of the first field with the tag. -/
def OutboundMessage.get (message : OutboundMessage) (tag : UInt32) : Option Bytes :=
  message.fields.findSome? fun field =>
    match field with
    | .raw fieldTag value => if fieldTag = tag then some value else none
    | .data _ dataTag value => if dataTag = tag then some value else none

/-- The `EngineError`s that refuse a message. -/
inductive OutboundError where
  | reservedMsgType (msgType : Bytes)
  | reservedTag (tag : UInt32)
  | invalidField (tag : UInt32) (reason : String)
  | missingRequiredField (msgType : Bytes) (tag : UInt32)
  deriving DecidableEq, Repr

/-- The tags the engine stamps itself. -/
def RESERVED_TAGS : List UInt32 := [8, 9, 10, 34, 35, 43, 49, 50, 52, 56, 57, 122, 1128]

/-- The body tags an administrative message may not go out without. -/
def adminRequiredTags (msgType : MsgType) : List UInt32 :=
  if msgType.code = ascii "A" then [98, 108]
  else if msgType.code = ascii "1" then [112]
  else if msgType.code = ascii "2" then [7, 16]
  else if msgType.code = ascii "4" then [36]
  else []

def zeroBodyTag : OutboundError :=
  .invalidField 0 "0 is not a legal FIX field tag: tags are positive integers starting at 1"

def emptyBodyValue (tag : UInt32) : OutboundError :=
  .invalidField tag "value is empty; a FIX field carries at least one byte"

def sohInBodyValue (tag : UInt32) : OutboundError :=
  .invalidField tag
    ("value contains the SOH delimiter, which would terminate the field early and inject the " ++
      "remainder as further fields")

def checkBodyTag (tag : UInt32) : Except OutboundError Unit :=
  if tag = 0 then .error zeroBodyTag
  else if RESERVED_TAGS.contains tag then .error (.reservedTag tag)
  else .ok ()

/-- One pass of the loop of `check_body`. The payload of a pair is not looked at. -/
def checkField : OutboundField → Except OutboundError Unit
  | .raw tag value => do
      checkBodyTag tag
      if value = [] then .error (emptyBodyValue tag)
      else if value.contains SOH then .error (sohInBodyValue tag)
      else .ok ()
  | .data lengthTag dataTag _ => do
      checkBodyTag lengthTag
      checkBodyTag dataTag

def checkBody (message : OutboundMessage) : Except OutboundError Unit := do
  message.fields.forM checkField
  (adminRequiredTags message.msgType).forM fun required =>
    if (message.get required).isNone then
      .error (.missingRequiredField message.msgType.code required)
    else .ok ()

def checkSendable (message : OutboundMessage) : Except OutboundError Unit :=
  if message.msgType.isAdmin then .error (.reservedMsgType message.msgType.code)
  else checkBody message

/-! ## What the check leaves out -/

namespace OutboundField

/-- The write the encoder is given. -/
def toWrite : OutboundField → Write
  | .raw tag value => .raw tag value
  | .data lengthTag dataTag value => .data lengthTag dataTag value

/-- What the encoder checks and `check_body` does not: a field is no half of a
pair, and a pair is one the specification makes, with a payload. -/
def Countable : OutboundField → Prop
  | .raw tag _ => pairedDataTag tag.toNat = none ∧ isDataTag tag.toNat = false
  | .data lengthTag dataTag value =>
      pairedDataTag lengthTag.toNat = some dataTag.toNat ∧ value ≠ []

instance (field : OutboundField) : Decidable field.Countable := by
  cases field <;> exact inferInstanceAs (Decidable (_ ∧ _))

/-- The tags of the fields a body field is written as. -/
def tags : OutboundField → List UInt32
  | .raw tag _ => [tag]
  | .data lengthTag dataTag _ => [lengthTag, dataTag]

end OutboundField

/-- A tag the check lets through. -/
def Free (tag : UInt32) : Prop := tag ≠ 0 ∧ tag ∉ RESERVED_TAGS

theorem free_of_checkBodyTag {tag : UInt32} (passed : checkBodyTag tag = .ok ()) : Free tag := by
  unfold checkBodyTag at passed
  split at passed
  · cases passed
  · rename_i positive
    split at passed
    · cases passed
    · rename_i free
      exact ⟨positive, fun member => free (List.contains_iff_mem.mpr member)⟩

/-- What the check leaves of a field. -/
structure Passed (field : OutboundField) : Prop where
  free : ∀ tag ∈ field.tags, Free tag
  value : ∀ tag value, field = .raw tag value → value ≠ [] ∧ SOH ∉ value

theorem passed_of_checkField {field : OutboundField} (passed : checkField field = .ok ()) :
    Passed field := by
  cases field with
  | raw tag value =>
      unfold checkField at passed
      simp only [bind, Except.bind] at passed
      split at passed
      · cases passed
      · rename_i free
        split at passed
        · cases passed
        · rename_i nonempty
          split at passed
          · cases passed
          · rename_i clean
            refine ⟨?_, ?_⟩
            · intro other member
              rw [List.mem_singleton.mp member]
              exact free_of_checkBodyTag free
            · rintro _ _ ⟨⟩
              exact ⟨nonempty, fun member => clean (List.contains_iff_mem.mpr member)⟩
  | data lengthTag dataTag value =>
      unfold checkField at passed
      simp only [bind, Except.bind] at passed
      split at passed
      · cases passed
      · rename_i free
        refine ⟨?_, nofun⟩
        intro other member
        rcases List.mem_cons.mp member with rfl | member
        · exact free_of_checkBodyTag free
        · rw [List.mem_singleton.mp member]
          exact free_of_checkBodyTag passed

theorem passed_of_checkBody {message : OutboundMessage} (passed : checkBody message = .ok ()) :
    ∀ field ∈ message.fields, Passed field := by
  intro field member
  unfold checkBody at passed
  cases fields : message.fields.forM checkField with
  | error error =>
      rw [fields] at passed
      cases passed
  | ok _ => exact passed_of_checkField (ok_of_forM fields field member)

theorem free_toNat {tag : UInt32} (free : Free tag) :
    tag.toNat ≠ 0 ∧ tag.toNat ∉ RESERVED_TAGS.map UInt32.toNat := by
  refine ⟨fun zero => free.1 (UInt32.toNat_inj.mp zero), fun member => ?_⟩
  obtain ⟨reserved, listed, same⟩ := List.mem_map.mp member
  exact free.2 (UInt32.toNat_inj.mp same ▸ listed)

/-- The encoder takes a checked field exactly when it is countable. -/
theorem accepted_iff {field : OutboundField} (passed : Passed field) :
    field.toWrite.Accepted ↔ field.Countable := by
  cases field with
  | raw tag value =>
      obtain ⟨nonempty, clean⟩ := passed.value tag value rfl
      obtain ⟨positive, free⟩ := free_toNat (passed.free tag List.mem_cons_self)
      have unframed : ¬(8 ≤ tag.toNat ∧ tag.toNat ≤ 10) := by
        rintro ⟨low, high⟩
        refine free ?_
        have among : tag.toNat = 8 ∨ tag.toNat = 9 ∨ tag.toNat = 10 := by omega
        rcases among with same | same | same <;> rw [same] <;> decide
      have notMsgType : tag.toNat ≠ 35 := fun same => free (same ▸ by decide)
      constructor
      · intro accepted
        cases accepted with
        | raw legal =>
            unfold TagValue.checkBodyTag TagValue.checkTag at legal
            rw [if_neg positive] at legal
            simp only [bind, Except.bind, if_neg unframed] at legal
            split at legal
            · cases legal
            · rename_i alone
              obtain ⟨unpaired, notData⟩ := not_or.mp alone
              refine ⟨?_, ?_⟩
              · simpa using unpaired
              · simpa using notData
      · rintro ⟨unpaired, notData⟩
        refine .raw ?_ nonempty clean fun same => absurd same notMsgType
        unfold TagValue.checkBodyTag TagValue.checkTag
        rw [if_neg positive]
        simp only [bind, Except.bind, if_neg unframed]
        rw [if_neg]
        simp [unpaired, notData]
  | data lengthTag dataTag value =>
      constructor
      · intro accepted
        cases accepted with
        | data paired nonempty => exact ⟨paired, nonempty⟩
      · rintro ⟨paired, nonempty⟩
        exact .data paired nonempty

end IronFix.Engine.Outbound
