import IronFix.Dictionary.GroupGraph

/-!
# Checked graphs

What the two graph checks promise: they refuse exactly the graphs that are not
sound, in every order of declaration, and after them neither resolving a
component nor expanding a group fails for a reason they have ruled out.
-/

namespace IronFix.Dict.Orchestra

open Loader

/-- The graph checks are exact, and what comes after them relies on that. -/
theorem graph_checks_exact :
    (∀ irs : ComponentIrs, checkComponentGraph irs.items irs.order = .ok () ↔ SoundGraph irs.items) ∧
    (∀ irs irs' : ComponentIrs, (∀ name, irs.items.lookup name = irs'.items.lookup name) →
      (checkComponentGraph irs.items irs.order = .ok () ↔
        checkComponentGraph irs'.items irs'.order = .ok ())) ∧
    (∀ raw groups, byId raw RawGroup.id .group = .ok groups →
      (checkGroupGraph groups raw = .ok () ↔ SoundGroups groups)) ∧
    (∀ raw raw' groups groups', raw.Perm raw' → byId raw RawGroup.id .group = .ok groups →
      byId raw' RawGroup.id .group = .ok groups' →
      (checkGroupGraph groups raw = .ok () ↔ checkGroupGraph groups' raw' = .ok ())) ∧
    (∀ (irs : ComponentIrs) (resolver : Resolver), resolver.components = irs.items →
      checkComponentGraph irs.items irs.order = .ok () →
      ∀ name items, irs.items.lookup name = some items → ∀ known error,
        (resolver.componentFirstTag MAX_COMPONENT_DEPTH name known = .error error ∨
          resolver.firstTag MAX_COMPONENT_DEPTH items known = .error error ∨
          resolver.members items known = .error error) → error.ofComponents = false) ∧
    ∀ (x : Expander) (raw : List RawGroup), byId raw RawGroup.id .group = .ok x.groups →
      checkGroupGraph x.groups raw = .ok () →
      (∀ component member owner,
        Calm (fun error => error.ofNesting = false) [] (x.group component Expander.firstRoom member owner)) ∧
      (∀ scope, scope ≠ .envelope → ∀ owner members,
        Calm (fun error => error.ofNesting = false) [] (x.membersOf owner scope members)) ∧
      ∀ referenced, Calm (fun error => ∀ name, error ≠ .groupCycle name) []
        (x.envelopeComponent MAX_COMPONENT_DEPTH referenced) := by
  have components := fun irs : ComponentIrs => checkComponentGraph_ok_iff irs.complete
  have groups : ∀ raw groups, byId raw RawGroup.id .group = .ok groups →
      (checkGroupGraph groups raw = .ok () ↔ SoundGroups groups) :=
    fun raw groups isIndex => checkGroupGraph_ok_iff (indexed_of_byId isIndex)
  refine ⟨components, fun irs irs' same => ?_, groups, fun raw raw' index index' perm isIndex isIndex' => ?_,
    fun irs resolver isComponents checked name items found known error failed => ?_,
    fun x raw isIndex checked => ?_⟩
  · rw [components, components]
    exact ⟨soundGraph_congr same, soundGraph_congr fun name => (same name).symm⟩
  · have same := (indexed_of_byId isIndex).lookup_perm (indexed_of_byId isIndex') perm
    rw [groups _ _ isIndex, groups _ _ isIndex']
    exact ⟨soundGroups_congr same, soundGroups_congr fun id => (same id).symm⟩
  · have sound : SoundGraph resolver.components := isComponents ▸ (components irs).mp checked
    rw [← isComponents] at found
    have fits : Fits resolver MAX_COMPONENT_DEPTH items := by
      refine ⟨sound.defined name items found, fun n walks => ?_⟩
      have := sound.shallow name items found n walks
      omega
    rcases failed with component | first | members
    · have reference : Fits resolver MAX_COMPONENT_DEPTH [.component name true] := by
        refine ⟨?_, fun n walks => ?_⟩
        · intro other mentions
          cases mentions with
          | component listed =>
              cases List.mem_singleton.mp listed
              exact Option.isSome_of_mem found
          | group listed _ => cases List.mem_singleton.mp listed
        · cases walks with
          | here => exact Nat.zero_le _
          | step crosses rest =>
              obtain rfl := (crosses_component found _).mp crosses
              have := sound.shallow name _ found _ rest
              omega
      exact componentFirstTag_sound sound known reference component
    · exact firstTag_sound (fun known _ fits => componentFirstTag_sound sound known fits) fits known first
    · exact members_sound sound items known error fits members
  · have sound := (groups raw x.groups isIndex).mp checked
    have keyed := (indexed_of_byId isIndex).keyed
    exact ⟨fun component member owner => group_first_calm sound keyed member owner,
      fun scope notEnvelope owner members => membersOf_calm sound keyed notEnvelope owner members,
      fun referenced => envelopeComponent_calm sound keyed _ referenced⟩

section Parties

/-- Parties, whose group of entries references PtysSubGrp. -/
def partiesItems : List Item :=
  [.group "NoPartyIDs" false [.field "PartyID" true, .component "PtysSubGrp" false]]

def subItems : List Item := [.group "NoPartySubIDs" false [.field "PartySubID" true]]

/-- Parties, declared ahead of what it references. -/
def partiesIrs : ComponentIrs where
  items := [("PtysSubGrp", subItems), ("Parties", partiesItems)]
  order := ["Parties", "PtysSubGrp"]
  complete := by
    intro name
    rw [List.lookup_cons]
    by_cases sub : name = "PtysSubGrp"
    · simp [sub]
    · rw [beq_false_of_ne sub, List.lookup_cons]
      by_cases parties : name = "Parties"
      · simp [parties]
      · simp [sub, parties, beq_false_of_ne parties]

/-- A group that nests another. -/
def rawParties : RawGroup := ⟨1012, "Parties", some 453, [⟨.field, 448, true⟩, ⟨.group, 2077, false⟩]⟩

def rawSubs : RawGroup := ⟨2077, "PtysSubGrp", some 802, [⟨.field, 523, true⟩]⟩

def partiesExpander : Expander where
  fields := [(448, "PartyID"), (453, "NoPartyIDs"), (523, "PartySubID"), (802, "NoPartySubIDs")]
  components := []
  groups := [(2077, rawSubs), (1012, rawParties)]
  header := none
  trailer := none

theorem graph_checks_exact_parties :
    SoundGraph partiesIrs.items ∧ SoundGroups partiesExpander.groups ∧
      checkGroupGraph [(1012, rawParties), (2077, rawSubs)] [rawSubs, rawParties] = .ok () ∧
      (DictionaryError.unknownFieldName "NoPartyIDs").ofComponents = false ∧
      ∀ component, Calm (fun error => error.ofNesting = false) []
        (partiesExpander.group component Expander.firstRoom ⟨.group, 1012, true⟩ "message Logon") := by
  obtain ⟨exactComponents, _, exactGroups, order, resolves, expands⟩ := graph_checks_exact
  have indexed : byId [rawParties, rawSubs] RawGroup.id .group = .ok partiesExpander.groups := rfl
  refine ⟨(exactComponents partiesIrs).mp rfl, (exactGroups _ _ indexed).mp rfl,
    (order _ _ _ _ (List.Perm.swap rawSubs rawParties []) indexed rfl).mp rfl,
    resolves partiesIrs ⟨[], partiesIrs.items⟩ rfl rfl "Parties" partiesItems rfl [] _ (.inr (.inr rfl)),
    fun component => (expands partiesExpander _ indexed rfl).1 component _ _⟩

end Parties

end IronFix.Dict.Orchestra
