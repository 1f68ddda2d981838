import IronFix.Core.Bytes
import Mathlib.Data.List.Basic

/-!
# Whose Logon it is

A session is routed by its configured identity, turned into the Logon's
orientation: the pattern its counterparty's Logon must match. Two patterns
overlap exactly when some Logon matches both.
-/

namespace IronFix.Engine

/-! ## Identities -/

def COMP_ID_MAX_LEN : Nat := 32

def MAX_ID_LEN : Nat := COMP_ID_MAX_LEN

/-- `is_ascii_graphic` or a space. -/
def isPrintable (byte : UInt8) : Bool := 0x20 ≤ byte && byte ≤ 0x7e

/-- What `bounded_value` accepts, and `CompId::new`. -/
structure Bounded (value : Bytes) : Prop where
  nonempty : value ≠ []
  short : value.length ≤ MAX_ID_LEN
  printable : value.all isPrintable = true

structure CompId where
  value : Bytes
  bounded : Bounded value
  deriving DecidableEq

/-- A text of printable ASCII. -/
def asciiText (value : Bytes) : String := String.ofList (value.map fun byte => Char.ofNat byte.toNat)

/-- The optional identity fields of a Logon, with their tags. -/
def optionalTags : List Nat := [50, 57, 142, 143]

/-- The identity an inbound Logon claims, in its own orientation. -/
structure LogonIdentity where
  senderCompId : CompId
  targetCompId : CompId
  senderSubId : Option Bytes
  targetSubId : Option Bytes
  senderLocationId : Option Bytes
  targetLocationId : Option Bytes
  bounded : ∀ value, some value ∈ [senderSubId, targetSubId, senderLocationId, targetLocationId] → Bounded value

def LogonIdentity.optional (identity : LogonIdentity) : List (Option Bytes) :=
  [identity.senderSubId, identity.targetSubId, identity.senderLocationId, identity.targetLocationId]

/-- `Display`: the CompIDs, and the optional fields that are there. -/
def identityText (senderCompId targetCompId : CompId) (optional : List (Option Bytes)) : String :=
  (optionalTags.zip optional).foldl
    (fun text entry => match entry.2 with
      | some value => text ++ s!" {entry.1}={asciiText value}"
      | none => text)
    s!"49={asciiText senderCompId.value} 56={asciiText targetCompId.value}"

def LogonIdentity.text (identity : LogonIdentity) : String :=
  identityText identity.senderCompId identity.targetCompId identity.optional

/-! ## Configurations -/

inductive SessionConfigError where
  | emptyField (field : String)
  | fieldTooLong (field : String) (len maxLen : Nat)
  | illegalByte (field : String) (byte : UInt8) (position : Nat)
  /-- A knob that is no identity. -/
  | other (reason : String)
  deriving DecidableEq, Repr

/-- The first byte that `validate_id` refuses. -/
def illegalIdByte (value : Bytes) : Option (UInt8 × Nat) :=
  value.zipIdx.find? fun entry => !isPrintable entry.1 || entry.1 == 0x3d

def validateId (field : String) (value : Bytes) : Except SessionConfigError Unit :=
  if value = [] then .error (.emptyField field)
  else if MAX_ID_LEN < value.length then .error (.fieldTooLong field value.length MAX_ID_LEN)
  else match illegalIdByte value with
    | some (byte, position) => .error (.illegalByte field byte position)
    | none => .ok ()

/-- A session's configured identity, with the verdicts on its other knobs. -/
structure SessionConfig where
  beginString : Bytes
  senderCompId : CompId
  targetCompId : CompId
  senderSubId : Option Bytes
  targetSubId : Option Bytes
  senderLocationId : Option Bytes
  targetLocationId : Option Bytes
  /-- The verdict on the knobs checked before the optional identities. -/
  limits : Except SessionConfigError Unit
  /-- The verdict on those checked after them. -/
  features : Except SessionConfigError Unit

namespace SessionConfig

def optional (config : SessionConfig) : List (String × Option Bytes) :=
  [("sender_sub_id", config.senderSubId), ("target_sub_id", config.targetSubId),
    ("sender_location_id", config.senderLocationId), ("target_location_id", config.targetLocationId)]

def validateOptional (config : SessionConfig) : Except SessionConfigError Unit :=
  config.optional.forM fun (field, value) =>
    match value with
    | some value => validateId field value
    | none => .ok ()

def validate (config : SessionConfig) : Except SessionConfigError Unit := do
  validateId "begin_string" config.beginString
  config.limits
  config.validateOptional
  config.features

end SessionConfig

/-! ## Patterns -/

/-- What a session's counterparty must claim to be routed to it. -/
structure RoutePattern where
  senderCompId : CompId
  targetCompId : CompId
  senderSubId : Option Bytes
  targetSubId : Option Bytes
  senderLocationId : Option Bytes
  targetLocationId : Option Bytes
  deriving DecidableEq

namespace RoutePattern

def forSession (config : SessionConfig) : RoutePattern where
  senderCompId := config.targetCompId
  targetCompId := config.senderCompId
  senderSubId := config.targetSubId
  targetSubId := config.senderSubId
  senderLocationId := config.targetLocationId
  targetLocationId := config.senderLocationId

/-- The bucket the pattern lives in. -/
def compIds (pattern : RoutePattern) : CompId × CompId := (pattern.senderCompId, pattern.targetCompId)

def optional (pattern : RoutePattern) : List (Option Bytes) :=
  [pattern.senderSubId, pattern.targetSubId, pattern.senderLocationId, pattern.targetLocationId]

/-- Every field the pattern requires is claimed with the same value. -/
def admits (pattern : RoutePattern) (identity : LogonIdentity) : Bool :=
  pattern.senderCompId == identity.senderCompId && pattern.targetCompId == identity.targetCompId &&
    (pattern.optional.zip identity.optional).all fun entry =>
      entry.1.all fun required => entry.2 == some required

/-- No field is required by both with different values. -/
def overlaps (pattern other : RoutePattern) : Bool :=
  pattern.senderCompId == other.senderCompId && pattern.targetCompId == other.targetCompId &&
    (pattern.optional.zip other.optional).all fun entry =>
      match entry with
      | (some mine, some theirs) => mine == theirs
      | _ => true

def text (pattern : RoutePattern) : String :=
  identityText pattern.senderCompId pattern.targetCompId pattern.optional

end RoutePattern

/-! ## Overlapping -/

/-- What `validate_id` accepts, a Logon can claim. -/
theorem bounded_of_validateId {field : String} {value : Bytes} (accepted : validateId field value = .ok ()) :
    Bounded value := by
  unfold validateId at accepted
  split at accepted
  · cases accepted
  · rename_i nonempty
    split at accepted
    · cases accepted
    · rename_i short
      split at accepted
      · cases accepted
      · rename_i legal
        refine ⟨nonempty, Nat.le_of_not_lt short, ?_⟩
        rw [List.all_eq_true]
        intro byte inside
        obtain ⟨i, here⟩ := List.mem_iff_getElem?.mp inside
        have refused := List.find?_eq_none.mp legal (byte, i) (List.mem_zipIdx_iff_getElem?.mpr here)
        simp only [Bool.or_eq_true, Bool.not_eq_true', not_or, Bool.not_eq_false] at refused
        exact refused.1

theorem ok_of_forM {ε α : Type} {check : α → Except ε Unit} {items : List α}
    (passed : items.forM check = .ok ()) : ∀ item ∈ items, check item = .ok () := by
  induction items with
  | nil =>
      intro item inside
      cases inside
  | cons first rest ih =>
      change (do check first; rest.forM check) = .ok () at passed
      cases checked : check first with
      | error error =>
          rw [checked] at passed
          cases passed
      | ok _ =>
          rw [checked] at passed
          intro item inside
          rcases List.mem_cons.mp inside with rfl | later
          · exact checked
          · exact ih passed item later

/-- Every identity of a usable configuration is one a Logon can claim. -/
theorem SessionConfig.bounded (config : SessionConfig) (usable : config.validate = .ok ()) (field : String)
    {value : Bytes} (configured : (field, some value) ∈ config.optional) : Bounded value := by
  unfold SessionConfig.validate at usable
  cases begin : validateId "begin_string" config.beginString with
  | error error =>
      rw [begin] at usable
      cases usable
  | ok _ =>
      rw [begin] at usable
      cases limits : config.limits with
      | error error =>
          rw [limits] at usable
          cases usable
      | ok _ =>
          rw [limits] at usable
          cases ids : config.validateOptional with
          | error error =>
              rw [ids] at usable
              cases usable
          | ok _ => exact bounded_of_validateId (ok_of_forM ids _ configured)

namespace RoutePattern

/-- One field of `overlaps`. -/
def compatible : Option Bytes × Option Bytes → Bool
  | (some mine, some theirs) => mine == theirs
  | _ => true

theorem compatible_comm (mine theirs : Option Bytes) : compatible (mine, theirs) = compatible (theirs, mine) := by
  cases mine with
  | none => cases theirs <;> rfl
  | some mine =>
      cases theirs with
      | none => rfl
      | some theirs => exact Bool.beq_comm

/-- A claim satisfies what one pattern requires of the field. -/
def satisfies (claimed required : Option Bytes) : Bool := required.all fun value => claimed == some value

theorem compatible_of_satisfies {claimed mine theirs : Option Bytes} (isMine : satisfies claimed mine = true)
    (isTheirs : satisfies claimed theirs = true) : compatible (mine, theirs) = true := by
  cases mine with
  | none => rfl
  | some mine =>
      cases theirs with
      | none => rfl
      | some theirs =>
          have isMine : claimed = some mine := eq_of_beq isMine
          have isTheirs : claimed = some theirs := eq_of_beq isTheirs
          rw [isMine] at isTheirs
          exact beq_iff_eq.mpr (Option.some.inj isTheirs)

/-- What either requires satisfies both. -/
theorem satisfies_of_compatible {mine theirs : Option Bytes} (agree : compatible (mine, theirs) = true) :
    satisfies (mine.or theirs) mine = true ∧ satisfies (mine.or theirs) theirs = true := by
  cases mine with
  | none => exact ⟨rfl, by cases theirs <;> simp [satisfies]⟩
  | some mine =>
      cases theirs with
      | none => exact ⟨by simp [satisfies], rfl⟩
      | some theirs =>
          obtain rfl : mine = theirs := eq_of_beq agree
          exact ⟨by simp [satisfies], by simp [satisfies]⟩

theorem overlaps_eq (pattern other : RoutePattern) : pattern.overlaps other =
    (pattern.senderCompId == other.senderCompId && pattern.targetCompId == other.targetCompId &&
      (compatible (pattern.senderSubId, other.senderSubId) &&
        (compatible (pattern.targetSubId, other.targetSubId) &&
          (compatible (pattern.senderLocationId, other.senderLocationId) &&
            compatible (pattern.targetLocationId, other.targetLocationId))))) := by
  rw [← Bool.and_true (compatible (pattern.targetLocationId, other.targetLocationId))]
  rfl

theorem overlaps_comm (pattern other : RoutePattern) : pattern.overlaps other = other.overlaps pattern := by
  rw [overlaps_eq, overlaps_eq, compatible_comm pattern.senderSubId, compatible_comm pattern.targetSubId,
    compatible_comm pattern.senderLocationId, compatible_comm pattern.targetLocationId,
    Bool.beq_comm (a := pattern.senderCompId), Bool.beq_comm (a := pattern.targetCompId)]

theorem admits_iff (pattern : RoutePattern) (identity : LogonIdentity) : pattern.admits identity = true ↔
    pattern.senderCompId = identity.senderCompId ∧ pattern.targetCompId = identity.targetCompId ∧
      satisfies identity.senderSubId pattern.senderSubId = true ∧
      satisfies identity.targetSubId pattern.targetSubId = true ∧
      satisfies identity.senderLocationId pattern.senderLocationId = true ∧
      satisfies identity.targetLocationId pattern.targetLocationId = true := by
  simp [admits, satisfies, optional, LogonIdentity.optional, and_assoc]

/-- What the pattern requires, a Logon can claim. -/
def Claimable (pattern : RoutePattern) : Prop := ∀ value, some value ∈ pattern.optional → Bounded value

theorem claimable_forSession {config : SessionConfig} (usable : config.validate = .ok ()) :
    (forSession config).Claimable := by
  intro value required
  simp only [optional, forSession, List.mem_cons, List.not_mem_nil, or_false] at required
  rcases required with is | is | is | is
  · exact config.bounded usable "target_sub_id" (by simp [SessionConfig.optional, is])
  · exact config.bounded usable "sender_sub_id" (by simp [SessionConfig.optional, is])
  · exact config.bounded usable "target_location_id" (by simp [SessionConfig.optional, is])
  · exact config.bounded usable "sender_location_id" (by simp [SessionConfig.optional, is])

/-- A Logon that both patterns admit shows that they overlap. -/
theorem overlaps_of_admits {pattern other : RoutePattern} {identity : LogonIdentity}
    (mine : pattern.admits identity = true) (theirs : other.admits identity = true) :
    pattern.overlaps other = true := by
  obtain ⟨sender, target, sub, targetSub, location, targetLocation⟩ := (pattern.admits_iff identity).mp mine
  obtain ⟨sender', target', sub', targetSub', location', targetLocation'⟩ := (other.admits_iff identity).mp theirs
  rw [overlaps_eq, sender, sender', target, target', compatible_of_satisfies sub sub',
    compatible_of_satisfies targetSub targetSub', compatible_of_satisfies location location',
    compatible_of_satisfies targetLocation targetLocation']
  simp

theorem bounded_or {mine theirs : Option Bytes} {value : Bytes} (claimed : some value = mine.or theirs)
    (isMine : some value = mine → Bounded value) (isTheirs : some value = theirs → Bounded value) :
    Bounded value := by
  cases mine with
  | none => exact isTheirs claimed
  | some required => exact isMine claimed

/-- The Logon that claims whatever either pattern requires. -/
def bothClaimed (pattern other : RoutePattern) (mine : pattern.Claimable) (theirs : other.Claimable) :
    LogonIdentity where
  senderCompId := pattern.senderCompId
  targetCompId := pattern.targetCompId
  senderSubId := pattern.senderSubId.or other.senderSubId
  targetSubId := pattern.targetSubId.or other.targetSubId
  senderLocationId := pattern.senderLocationId.or other.senderLocationId
  targetLocationId := pattern.targetLocationId.or other.targetLocationId
  bounded := by
    intro value claimed
    simp only [List.mem_cons, List.not_mem_nil, or_false] at claimed
    rcases claimed with is | is | is | is
    · exact bounded_or is (fun h => mine value (by simp [optional, h])) (fun h => theirs value (by simp [optional, h]))
    · exact bounded_or is (fun h => mine value (by simp [optional, h])) (fun h => theirs value (by simp [optional, h]))
    · exact bounded_or is (fun h => mine value (by simp [optional, h])) (fun h => theirs value (by simp [optional, h]))
    · exact bounded_or is (fun h => mine value (by simp [optional, h])) (fun h => theirs value (by simp [optional, h]))

/-- Patterns overlap exactly when some Logon would be admitted by both. -/
theorem overlaps_iff {pattern other : RoutePattern} (mine : pattern.Claimable) (theirs : other.Claimable) :
    pattern.overlaps other = true ↔
      ∃ identity, pattern.admits identity = true ∧ other.admits identity = true := by
  constructor
  · intro overlapping
    rw [overlaps_eq] at overlapping
    simp only [Bool.and_eq_true, beq_iff_eq] at overlapping
    obtain ⟨⟨sender, target⟩, sub, targetSub, location, targetLocation⟩ := overlapping
    refine ⟨bothClaimed pattern other mine theirs, ?_, ?_⟩
    · refine (admits_iff _ _).mpr ⟨rfl, rfl, ?_, ?_, ?_, ?_⟩
      · exact (satisfies_of_compatible sub).1
      · exact (satisfies_of_compatible targetSub).1
      · exact (satisfies_of_compatible location).1
      · exact (satisfies_of_compatible targetLocation).1
    · refine (admits_iff _ _).mpr ⟨sender.symm, target.symm, ?_, ?_, ?_, ?_⟩
      · exact (satisfies_of_compatible sub).2
      · exact (satisfies_of_compatible targetSub).2
      · exact (satisfies_of_compatible location).2
      · exact (satisfies_of_compatible targetLocation).2
  · rintro ⟨identity, isMine, isTheirs⟩
    exact overlaps_of_admits isMine isTheirs

/-- Patterns for different CompIDs, the key of their buckets, do not overlap. -/
theorem overlaps_of_compIds_ne {pattern other : RoutePattern} (different : pattern.compIds ≠ other.compIds) :
    pattern.overlaps other = false := by
  cases overlapping : pattern.overlaps other with
  | false => rfl
  | true =>
      rw [overlaps_eq] at overlapping
      simp only [Bool.and_eq_true, beq_iff_eq] at overlapping
      exact absurd (Prod.ext overlapping.1.1 overlapping.1.2) different

/-- A pattern overlaps itself. -/
theorem overlaps_self (pattern : RoutePattern) : pattern.overlaps pattern = true := by
  have same (value : Option Bytes) : compatible (value, value) = true := by
    cases value with
    | none => rfl
    | some value => exact beq_self_eq_true value
  rw [overlaps_eq, same, same, same, same]
  simp

end RoutePattern

end IronFix.Engine
