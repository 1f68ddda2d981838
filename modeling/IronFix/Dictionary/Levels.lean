import IronFix.Dictionary.Expansion

/-!
# Every level is what its members say

The levels of an expanded message, each with the member lists it comes from:
header, trailer and body for the message level, the members of the group for
the level of its entries. Of the groups that share a count tag at a level the
first one's entries are the level below.
-/

namespace IronFix.Dict

open Lib.FirstWins

/-- The member lists a level is expanded from, each with the dictionary its
references resolve against, and the delimiter of an entry. -/
structure Origin where
  parts : List (Dictionary × List Member)
  delimiterTag : Option Nat

/-- Fields and groups as a member list. -/
def listed (fields : List FieldRef) (groups : List GroupDef) : List Member :=
  fields.map .field ++ groups.map .group

namespace Origin

def message (transport body : Dictionary) (msgDef : MessageDef) : Origin where
  parts := [(transport, listed transport.header transport.headerGroups),
    (transport, listed transport.trailer transport.trailerGroups), (body, msgDef.members)]
  delimiterTag := none

def entry (opening : Opening) : Origin where
  parts := [(opening.dict, opening.group.members)]
  delimiterTag := some opening.group.delimiterTag

def Contributes (origin : Origin) (tag : Nat) : Prop :=
  origin.delimiterTag = some tag ∨ ∃ part ∈ origin.parts, Dict.Contributes part.1 part.2 tag

def DemandsField (origin : Origin) (tag : Nat) : Prop :=
  ∃ part ∈ origin.parts, Dict.DemandsField part.1 part.2 tag

def DemandsGroup (origin : Origin) (tag : Nat) : Prop :=
  ∃ part ∈ origin.parts, Dict.DemandsGroup part.1 part.2 tag

end Origin

/-- The contents of member lists, one after the other. -/
inductive UnrollsParts : List (Dictionary × List Member) → Contents → Prop
  | nil : UnrollsParts [] .empty
  | cons {dict : Dictionary} {members : List Member} {parts : List (Dictionary × List Member)}
      {contents rest : Contents} (first : Unrolls dict true members contents)
      (others : UnrollsParts parts rest) :
      UnrollsParts ((dict, members) :: parts) (contents.append rest)

namespace Origin

def Unrolls (origin : Origin) (contents : Contents) : Prop := UnrollsParts origin.parts contents

/-- The first group that opens at `countTag`, in the order of the schema. -/
def FirstOpens (origin : Origin) (countTag : Nat) (opening : Opening) : Prop :=
  ∃ contents, origin.Unrolls contents ∧ lookup Opening.countTag contents.opens countTag = some opening

/-- The groups that open at `countTag` agree whether they are required. -/
def OpensAlike (origin : Origin) (countTag : Nat) : Prop :=
  ∀ contents, origin.Unrolls contents → ∀ one ∈ contents.opens, ∀ two ∈ contents.opens,
    one.countTag = countTag → two.countTag = countTag → one.required = two.required

end Origin

/-- `level` is a level of the expanded message, expanded from `origin`. -/
inductive LevelAt (transport body : Dictionary) (msgDef : MessageDef) : Origin → Level → Prop
  | message : LevelAt transport body msgDef (.message transport body msgDef)
      (ScopeBuilder.expand transport body msgDef).1.level
  | entry {origin : Origin} {level : Level} {layout : LayoutGroup} {opening : Opening}
      (above : LevelAt transport body msgDef origin level) (opens : layout ∈ level.groups)
      (first : origin.FirstOpens layout.countTag opening) :
      LevelAt transport body msgDef (.entry opening) layout.entry

/-- A field or a group must appear at a level. -/
def Level.Requires (level : Level) (tag : Nat) : Prop :=
  tag ∈ level.required.map Prod.fst ∨
    ∃ layout, level.group tag = some layout ∧ layout.required = true

/-! ## Contents are determined, and have what their members do -/

theorem UnrollsAll.unique {dict : Dictionary} {required : Bool} {references : List ComponentRef}
    {one two : Contents} (first : UnrollsAll dict required references one)
    (second : UnrollsAll dict required references two) : one = two := by
  induction first generalizing two with
  | nil =>
      cases second
      rfl
  | cons found _ _ ihInside ihOthers =>
      cases second with
      | cons found' inside' others' =>
          rw [found] at found'
          cases found'
          rw [ihInside inside', ihOthers others']

theorem Unrolls.unique {dict : Dictionary} {required : Bool} {members : List Member}
    {one two : Contents} (first : Unrolls dict required members one)
    (second : Unrolls dict required members two) : one = two := by
  obtain ⟨inner, all, rfl⟩ := first
  obtain ⟨inner', all', rfl⟩ := second
  rw [all.unique all']

section Parts

variable {parts : List (Dictionary × List Member)} {contents : Contents} {tag : Nat}

theorem UnrollsParts.unique {two : Contents} (first : UnrollsParts parts contents)
    (second : UnrollsParts parts two) : contents = two := by
  induction first generalizing two with
  | nil =>
      cases second
      rfl
  | cons first _ ih =>
      cases second with
      | cons first' others' => rw [first.unique first', ih others']

theorem UnrollsParts.tags (unrolls : UnrollsParts parts contents) :
    tag ∈ contents.tags ↔ ∃ part ∈ parts, Contributes part.1 part.2 tag := by
  induction unrolls with
  | nil => exact ⟨fun mem => absurd mem List.not_mem_nil, fun ⟨_, mem, _⟩ => absurd mem List.not_mem_nil⟩
  | cons first _ ih =>
      show tag ∈ _ ++ _ ↔ _
      rw [List.mem_append, first.tags, ih, List.exists_mem_cons_iff]

theorem UnrollsParts.needs (unrolls : UnrollsParts parts contents) :
    tag ∈ contents.needs.map Prod.fst ↔ ∃ part ∈ parts, DemandsField part.1 part.2 tag := by
  induction unrolls with
  | nil => exact ⟨fun mem => absurd mem List.not_mem_nil, fun ⟨_, mem, _⟩ => absurd mem List.not_mem_nil⟩
  | cons first _ ih =>
      show tag ∈ List.map Prod.fst (_ ++ _) ↔ _
      rw [List.map_append, List.mem_append, first.needs, ih, List.exists_mem_cons_iff]

theorem UnrollsParts.opens (unrolls : UnrollsParts parts contents) :
    (∃ opening ∈ contents.opens, opening.countTag = tag ∧ opening.required = true) ↔
      ∃ part ∈ parts, DemandsGroup part.1 part.2 tag := by
  induction unrolls with
  | nil => exact ⟨fun ⟨_, mem, _⟩ => absurd mem List.not_mem_nil, fun ⟨_, mem, _⟩ => absurd mem List.not_mem_nil⟩
  | cons first _ ih =>
      show (∃ opening ∈ _ ++ _, _) ↔ _
      rw [List.exists_mem_cons_iff, ← first.opens, ← ih]
      simp only [List.mem_append, or_and_right, exists_or]

end Parts

/-! ## A finished level -/

/-- `level` is its contents with the groups laid out, sorted. -/
inductive Finished : Origin → Level → Prop
  | mk {origin : Origin} {contents : Contents} {layouts : List LayoutGroup}
      {required : List (Nat × String)} (unrolls : origin.Unrolls contents)
      (lays : List.Forall₂ Lays contents.opens layouts)
      (needs : required = match origin.delimiterTag with
        | none => contents.needs
        | some delimiterTag => entryRequired delimiterTag [] contents.needs) :
      Finished origin (Level.finish {
        members := origin.delimiterTag.toList ++ contents.tags
        required := required
        groups := layouts
        groupTags := [] })

/-- The level of a group's entries. -/
theorem Lays.finished {opening : Opening} {layout : LayoutGroup} (lays : Lays opening layout) :
    Finished (.entry opening) layout.entry := by
  cases lays with
  | @mk _ contents _ unrolls below =>
      refine @Finished.mk _ contents _ _ ?_ below rfl
      have whole := UnrollsParts.cons unrolls .nil
      rwa [show contents.append .empty = contents by
        cases contents
        simp [Contents.append, Contents.empty]] at whole

/-- Searching openings and their layouts by count tag finds the same place. -/
theorem lookup_lays {opens : List Opening} {layouts : List LayoutGroup}
    (lays : List.Forall₂ Lays opens layouts) (tag : Nat) :
    Option.Rel Lays (lookup Opening.countTag opens tag) (lookup LayoutGroup.countTag layouts tag) := by
  induction lays with
  | nil => exact .none
  | cons first _ ih =>
      rw [lookup_cons, lookup_cons, first.countTag]
      split
      · exact .some first
      · exact ih

theorem entryRequired_tags {delimiterTag tag : Nat} {unique : List Nat} {needs : List (Nat × String)} :
    tag ∈ (entryRequired delimiterTag unique needs).map Prod.fst ↔
      tag ≠ delimiterTag ∧ tag ∉ unique ∧ tag ∈ needs.map Prod.fst := by
  induction needs generalizing unique with
  | nil => simp [entryRequired]
  | cons need rest ih =>
      obtain ⟨head, name⟩ := need
      rw [entryRequired]
      split
      · rename_i dropped
        rw [ih, List.map_cons, List.mem_cons]
        constructor
        · rintro ⟨notDelimiter, fresh, mem⟩
          exact ⟨notDelimiter, fresh, .inr mem⟩
        · rintro ⟨notDelimiter, fresh, rfl | mem⟩
          · exact absurd dropped (not_or.mpr ⟨notDelimiter, fresh⟩)
          · exact ⟨notDelimiter, fresh, mem⟩
      · rename_i kept
        obtain ⟨notDelimiter, fresh⟩ := not_or.mp kept
        rw [List.map_cons, List.mem_cons, ih, List.map_cons, List.mem_cons, List.mem_cons]
        constructor
        · rintro (rfl | ⟨notDelimiter, fresh, mem⟩)
          · exact ⟨notDelimiter, fresh, .inl rfl⟩
          · exact ⟨notDelimiter, fun here => fresh (.inr here), .inr mem⟩
        · rintro ⟨notDelimiter, fresh, rfl | mem⟩
          · exact .inl rfl
          · by_cases same : tag = head
            · exact .inl same
            · exact .inr ⟨notDelimiter, fun here => here.elim same fresh, mem⟩

section Finished

variable {origin : Origin} {level : Level} (finished : Finished origin level)

include finished

theorem Finished.ascending : level.members.Pairwise (· < ·) := by
  cases finished
  exact ascending_firsts

theorem Finished.members (tag : Nat) : tag ∈ level.members ↔ origin.Contributes tag := by
  cases finished with
  | @mk contents _ _ unrolls _ _ =>
      refine mem_firsts_self.trans ?_
      rw [List.mem_append, UnrollsParts.tags unrolls]
      unfold Origin.Contributes
      exact or_congr_left Option.mem_toList

theorem Finished.required (tag : Nat) : tag ∈ level.required.map Prod.fst ↔
    origin.delimiterTag ≠ some tag ∧ origin.DemandsField tag := by
  cases finished with
  | @mk contents _ required unrolls _ needs =>
      show tag ∈ required.map Prod.fst ↔ _
      unfold Origin.DemandsField
      rw [← UnrollsParts.needs unrolls, needs]
      cases origin.delimiterTag with
      | none => simp
      | some delimiterTag =>
          rw [entryRequired_tags]
          simp [eq_comm]

theorem Finished.group (tag : Nat) : ∃ contents, origin.Unrolls contents ∧
    Option.Rel Lays (lookup Opening.countTag contents.opens tag) (level.group tag) := by
  cases finished with
  | @mk contents layouts _ unrolls lays _ =>
      refine ⟨contents, unrolls, ?_⟩
      have found : lookup LayoutGroup.countTag (firsts LayoutGroup.countTag layouts) tag = _ := lookup_firsts
      show Option.Rel Lays _ (lookup LayoutGroup.countTag (firsts LayoutGroup.countTag layouts) tag)
      rw [found]
      exact lookup_lays lays tag

theorem Finished.group_of_mem {layout : LayoutGroup} (opens : layout ∈ level.groups) :
    level.group layout.countTag = some layout := by
  cases finished
  exact lookup_of_mem ascending_firsts opens

end Finished

/-! ## The message level -/

theorem fieldsOf_listed (fields : List FieldRef) (groups : List GroupDef) :
    fieldsOf (listed fields groups) = fields := by
  unfold fieldsOf listed
  rw [List.filterMap_append, List.filterMap_map, List.filterMap_map]
  have groupless : ∀ groups : List GroupDef, groups.filterMap (Member.asField ∘ Member.group) = [] := by
    intro groups
    induction groups with
    | nil => rfl
    | cons group rest ih => exact ih
  rw [groupless, List.append_nil]
  exact List.filterMap_some

theorem groupsOf_listed (fields : List FieldRef) (groups : List GroupDef) :
    groupsOf (listed fields groups) = groups := by
  unfold groupsOf listed
  rw [List.filterMap_append, List.filterMap_map, List.filterMap_map]
  have fieldless : ∀ fields : List FieldRef, fields.filterMap (Member.asGroup ∘ Member.field) = [] := by
    intro fields
    induction fields with
    | nil => rfl
    | cons field rest ih => exact ih
  rw [fieldless, List.nil_append]
  exact List.filterMap_some

theorem componentsOf_listed (fields : List FieldRef) (groups : List GroupDef) :
    componentsOf (listed fields groups) = [] := by
  unfold componentsOf listed
  rw [List.filterMap_eq_nil_iff]
  intro member mem
  rcases List.mem_append.mp mem with isField | isGroup
  · obtain ⟨field, _, rfl⟩ := List.mem_map.mp isField
    rfl
  · obtain ⟨group, _, rfl⟩ := List.mem_map.mp isGroup
    rfl

section Message

variable {dict : Dictionary} (acyclic : Acyclic dict)

include acyclic

/-- A member list added at the message level without errors adds its contents. -/
theorem atMessage_faithful (members : List Member) (level : Level) (b : ScopeBuilder)
    (clean : ((componentsOf members).foldl (fun state reference =>
      addComponent dict fullRoom state reference true []) ((groupsOf members).foldl (fun state group =>
        addGroup dict fullRoom state group group.required true [])
          (level.addFields (fieldsOf members) true, b))).2.errors = []) :
    ∃ contents layouts, Unrolls dict true members contents ∧
      List.Forall₂ Lays contents.opens layouts ∧
      ((componentsOf members).foldl (fun state reference =>
        addComponent dict fullRoom state reference true []) ((groupsOf members).foldl (fun state group =>
          addGroup dict fullRoom state group group.required true [])
            (level.addFields (fieldsOf members) true, b))).1 = level.extend contents layouts :=
  members_faithful (add_faithful acyclic fullRoom).1 (add_faithful acyclic fullRoom).2 members level b
    (fun _ _ _ onPath => absurd onPath List.not_mem_nil) clean

/-- So with the fields and groups of a header or trailer. -/
theorem envelope_faithful (fields : List FieldRef) (groups : List GroupDef) (level : Level)
    (b : ScopeBuilder) (clean : (groups.foldl (fun state group =>
      addGroup dict fullRoom state group group.required true [])
        (level.addFields fields true, b)).2.errors = []) :
    ∃ contents layouts, Unrolls dict true (listed fields groups) contents ∧
      List.Forall₂ Lays contents.opens layouts ∧
      (groups.foldl (fun state group => addGroup dict fullRoom state group group.required true [])
        (level.addFields fields true, b)).1 = level.extend contents layouts := by
  have added := atMessage_faithful acyclic (listed fields groups) level b
  rw [fieldsOf_listed, groupsOf_listed, componentsOf_listed] at added
  exact added clean

end Message

/-- An expansion that reports nothing, of components that do not reach
themselves, finishes the message level. -/
theorem expand_finished {transport body : Dictionary} {msgDef : MessageDef}
    (acyclicTransport : Acyclic transport) (acyclicBody : Acyclic body)
    (clean : (ScopeBuilder.expand transport body msgDef).2.errors = []) :
    Finished (.message transport body msgDef) (ScopeBuilder.expand transport body msgDef).1.level := by
  unfold ScopeBuilder.expand ScopeBuilder.build at clean ⊢
  dsimp only [MessageDef.fields, MessageDef.groups, MessageDef.components] at clean ⊢
  have groupsKeep : ∀ (dict : Dictionary) (groups : List GroupDef) (state : Level × ScopeBuilder),
      state.2.errors ≠ [] → (groups.foldl (fun state group =>
        addGroup dict fullRoom state group group.required true []) state).2.errors ≠ [] :=
    fun dict groups state failed => foldl_keeps (P := fun s => s.2.errors ≠ []) (fun s group _ =>
      (add_keeps failed_kept fullRoom).1 s group group.required true []) failed
  have componentsKeep : ∀ (references : List ComponentRef) (state : Level × ScopeBuilder),
      state.2.errors ≠ [] → (references.foldl (fun state reference =>
        addComponent body fullRoom state reference true []) state).2.errors ≠ [] :=
    fun references state failed => foldl_keeps (P := fun s => s.2.errors ≠ []) (fun s reference _ =>
      (add_keeps failed_kept fullRoom).2 s reference true []) failed
  -- Errors stay, so none was reported in the header or the trailer either.
  have cleanTrailer := of_not_not fun failed => componentsKeep _ _ (groupsKeep body _ _ failed) clean
  have cleanHeader := of_not_not fun failed => groupsKeep transport _ _ failed cleanTrailer
  obtain ⟨header, headerLayouts, headerUnrolls, headerLays, addedHeader⟩ :=
    envelope_faithful acyclicTransport _ _ _ _ cleanHeader
  generalize transport.headerGroups.foldl (fun state group =>
    addGroup transport fullRoom state group group.required true [])
      (Level.empty.addFields transport.header true, ScopeBuilder.start) = state at *
  obtain ⟨level, b⟩ := state
  obtain rfl : level = _ := addedHeader
  obtain ⟨trailer, trailerLayouts, trailerUnrolls, trailerLays, addedTrailer⟩ :=
    envelope_faithful acyclicTransport _ _ _ _ cleanTrailer
  generalize transport.trailerGroups.foldl (fun state group =>
    addGroup transport fullRoom state group group.required true [])
      ((Level.empty.extend header headerLayouts).addFields transport.trailer true, b) = state at *
  obtain ⟨level, b'⟩ := state
  obtain rfl : level = _ := addedTrailer
  obtain ⟨contents, layouts, unrolls, lays, added⟩ :=
    atMessage_faithful acyclicBody msgDef.members _ b' clean
  rw [added, Level.extend_extend, Level.extend_extend]
  have whole : (Origin.message transport body msgDef).Unrolls
      (header.append (trailer.append (contents.append .empty))) :=
    .cons headerUnrolls (.cons trailerUnrolls (.cons unrolls .nil))
  have allLays := List.rel_append headerLays (List.rel_append trailerLays lays)
  rw [show contents.append .empty = contents by
    cases contents
    simp [Contents.append, Contents.empty]] at whole
  exact .mk whole allLays rfl

/-- So is every level below. -/
theorem levelAt_finished {transport body : Dictionary} {msgDef : MessageDef}
    (acyclicTransport : Acyclic transport) (acyclicBody : Acyclic body)
    (clean : (ScopeBuilder.expand transport body msgDef).2.errors = []) {origin : Origin} {level : Level}
    (levelAt : LevelAt transport body msgDef origin level) : Finished origin level := by
  induction levelAt with
  | message => exact expand_finished acyclicTransport acyclicBody clean
  | @entry origin level layout opening _ opens first ih =>
      obtain ⟨contents, unrolls, found⟩ := first
      obtain ⟨contents', unrolls', laid⟩ := ih.group layout.countTag
      rw [ih.group_of_mem opens, unrolls'.unique unrolls, found] at laid
      cases laid with
      | some lays => exact lays.finished

/-! ## What a level requires -/

theorem demandsGroup_iff {origin : Origin} {contents : Contents} (unrolls : origin.Unrolls contents)
    (tag : Nat) : origin.DemandsGroup tag ↔
      ∃ opening ∈ contents.opens, opening.countTag = tag ∧ opening.required = true :=
  unrolls.opens.symm

section Required

variable {transport body : Dictionary} {msgDef : MessageDef} {origin : Origin} {level : Level}
  (finished : Finished origin level)

include finished

/-- A tag is required by a chain to a field, or by the first group of its
count tag. -/
theorem Finished.requires (tag : Nat) : level.Requires tag ↔
    (origin.delimiterTag ≠ some tag ∧ origin.DemandsField tag) ∨
      ∃ opening, origin.FirstOpens tag opening ∧ opening.required = true := by
  unfold Level.Requires
  rw [finished.required]
  refine or_congr_right ?_
  obtain ⟨contents, unrolls, laid⟩ := finished.group tag
  constructor
  · rintro ⟨layout, found, isRequired⟩
    rw [found] at laid
    cases first : lookup Opening.countTag contents.opens tag with
    | none =>
        rw [first] at laid
        cases laid
    | some opening =>
        rw [first] at laid
        cases laid with
        | some lays => exact ⟨opening, ⟨contents, unrolls, first⟩, lays.required.symm.trans isRequired⟩
  · rintro ⟨opening, ⟨contents', unrolls', first⟩, isRequired⟩
    rw [unrolls.unique unrolls', first] at laid
    cases found : level.group tag with
    | none =>
        rw [found] at laid
        cases laid
    | some layout =>
        rw [found] at laid
        cases laid with
        | some lays => exact ⟨layout, rfl, lays.required.trans isRequired⟩

/-- Where the groups of a count tag agree, the chains decide. -/
theorem Finished.requires_of_alike {tag : Nat} (alike : origin.OpensAlike tag) : level.Requires tag ↔
    (origin.delimiterTag ≠ some tag ∧ origin.DemandsField tag) ∨ origin.DemandsGroup tag := by
  rw [finished.requires]
  refine or_congr_right ?_
  obtain ⟨contents, unrolls, _⟩ := finished.group tag
  rw [demandsGroup_iff unrolls]
  constructor
  · rintro ⟨opening, ⟨contents', unrolls', first⟩, isRequired⟩
    rw [← unrolls.unique unrolls'] at first
    obtain ⟨mem, isTag⟩ := lookup_some first
    exact ⟨opening, mem, isTag, isRequired⟩
  · rintro ⟨opening, mem, isTag, isRequired⟩
    have some : (lookup Opening.countTag contents.opens tag).isSome := lookup_isSome.mpr ⟨opening, mem, isTag⟩
    obtain ⟨first, found⟩ := Option.isSome_iff_exists.mp some
    obtain ⟨firstMem, firstTag⟩ := lookup_some found
    exact ⟨first, ⟨contents, unrolls, found⟩,
      (alike contents unrolls first firstMem opening mem firstTag isTag).trans isRequired⟩

end Required

/-- An expansion charges at most the nodes of its budget, none below its
ceiling; and without errors, where no component reaches itself, each level has
exactly the tags of its members, and requires what chains of required
references lead to, of the groups of one count tag the first deciding. -/
theorem expansion_faithful (transport body : Dictionary) (msgDef : MessageDef) :
    (ScopeBuilder.expand transport body msgDef).2.expanded.length ≤ MAX_SCOPE_NODES ∧
    (∀ node ∈ (ScopeBuilder.expand transport body msgDef).2.expanded, node.2 ≤ MAX_SCOPE_DEPTH) ∧
    (Acyclic transport → Acyclic body → (ScopeBuilder.expand transport body msgDef).2.errors = [] →
      ∀ origin level, LevelAt transport body msgDef origin level →
        level.members.Pairwise (· < ·) ∧ (∀ tag, tag ∈ level.members ↔ origin.Contributes tag) ∧
        ∀ tag, (level.Requires tag ↔ (origin.delimiterTag ≠ some tag ∧ origin.DemandsField tag) ∨
            ∃ opening, origin.FirstOpens tag opening ∧ opening.required = true) ∧
          (origin.OpensAlike tag → (level.Requires tag ↔
            (origin.delimiterTag ≠ some tag ∧ origin.DemandsField tag) ∨ origin.DemandsGroup tag))) := by
  have accounted : Accounted (ScopeBuilder.expand transport body msgDef).2 := by
    have started : Accounted ScopeBuilder.start := ⟨rfl, fun _ mem => absurd mem List.not_mem_nil⟩
    unfold ScopeBuilder.expand ScopeBuilder.build
    dsimp only
    refine foldl_keeps (P := fun s => Accounted s.2)
      (fun s component _ => (add_keeps accounted_kept fullRoom).2 s component true []) ?_
    refine foldl_keeps (P := fun s => Accounted s.2)
      (fun s group _ => (add_keeps accounted_kept fullRoom).1 s group group.required true []) ?_
    refine foldl_keeps (P := fun s => Accounted s.2)
      (fun s group _ => (add_keeps accounted_kept fullRoom).1 s group group.required true []) ?_
    refine foldl_keeps (P := fun s => Accounted s.2)
      (fun s group _ => (add_keeps accounted_kept fullRoom).1 s group group.required true []) ?_
    exact started
  refine ⟨?_, accounted.shallow, ?_⟩
  · have charged := accounted.charged
    omega
  · intro acyclicTransport acyclicBody clean origin level levelAt
    have finished := levelAt_finished acyclicTransport acyclicBody clean levelAt
    exact ⟨finished.ascending, finished.members, fun tag =>
      ⟨finished.requires tag, finished.requires_of_alike⟩⟩

section Parties

/-- A NoLegs (555) group. -/
def legs (required : Bool) : GroupDef := ⟨555, "NoLegs", 600, required, [.field ⟨600, "LegSymbol", true⟩]⟩

/-- Entries that list the group as optional, and require a component that
requires it. -/
def parties : GroupDef :=
  ⟨453, "NoPartyIDs", 448, true,
    [.field ⟨448, "PartyID", true⟩, .group (legs false), .component ⟨"InstrumentLegs", true⟩]⟩

def legsDictionary : Dictionary where
  fields := []
  messages := []
  components := [("InstrumentLegs", ⟨"InstrumentLegs", [.group (legs true)]⟩)]
  header := []
  headerGroups := []
  trailer := []
  trailerGroups := []

def partiesMessage : MessageDef := ⟨"D", "NewOrderSingle", .app, [.group parties]⟩

theorem legsDictionary_acyclic : Acyclic legsDictionary := by
  have leaf : ∀ one two, ¬References legsDictionary one two := by
    rintro one two ⟨component, found, mentioned⟩
    obtain ⟨l, r, bindings, _⟩ := List.lookup_eq_some_iff.mp found
    have listed : (one, component) ∈ legsDictionary.components := by
      rw [bindings]
      exact List.mem_append_right l List.mem_cons_self
    obtain ⟨rfl, rfl⟩ := Prod.mk.inj (List.mem_singleton.mp listed)
    cases mentioned with
    | component isComponent => cases List.mem_singleton.mp isComponent
    | group isGroup inside =>
        cases List.mem_singleton.mp isGroup
        cases inside with
        | component isComponent => cases List.mem_singleton.mp isComponent
        | group isGroup _ => cases List.mem_singleton.mp isGroup
  intro name reaches
  cases reaches with
  | single step => exact leaf _ _ step
  | tail _ step => exact leaf _ _ step

/-- The expanded NoPartyIDs (453). -/
def partiesLayout : LayoutGroup :=
  ⟨453, "NoPartyIDs", 448, true,
    ⟨[448, 555], [], [⟨555, "NoLegs", 600, false, ⟨[600], [], [], []⟩⟩], [555]⟩⟩

theorem expansion_faithful_parties :
    (453 ∈ (ScopeBuilder.expand legsDictionary legsDictionary partiesMessage).1.level.members ↔
      (Origin.message legsDictionary legsDictionary partiesMessage).Contributes 453) ∧
    (ScopeBuilder.expand legsDictionary legsDictionary partiesMessage).1.level.members = [453] :=
  ⟨((expansion_faithful legsDictionary legsDictionary partiesMessage).2.2 legsDictionary_acyclic
    legsDictionary_acyclic rfl _ _ .message).2.1 453, rfl⟩

/-- Of two groups of one count tag the first decides: the component's NoLegs
(555) is required by a chain of required references, and an entry without it
is complete. -/
theorem first_group_decides : ¬∀ (transport body : Dictionary) (msgDef : MessageDef),
    Acyclic transport → Acyclic body → (ScopeBuilder.expand transport body msgDef).2.errors = [] →
      ∀ opening level, LevelAt transport body msgDef (.entry opening) level →
        ∀ tag, tag ≠ opening.group.delimiterTag → (level.Requires tag ↔
          (Origin.entry opening).DemandsField tag ∨ (Origin.entry opening).DemandsGroup tag) := by
  intro claim
  have opens : (Origin.message legsDictionary legsDictionary partiesMessage).FirstOpens 453
      ⟨legsDictionary, parties, true⟩ :=
    ⟨_, .cons ⟨_, .nil, rfl⟩ (.cons ⟨_, .nil, rfl⟩ (.cons ⟨_, .nil, rfl⟩ .nil)), rfl⟩
  have levelAt : LevelAt legsDictionary legsDictionary partiesMessage
      (.entry ⟨legsDictionary, parties, true⟩) partiesLayout.entry :=
    .entry .message (show partiesLayout ∈ [partiesLayout] from List.mem_singleton_self _) opens
  have chain : (Origin.entry ⟨legsDictionary, parties, true⟩).DemandsGroup 555 := by
    refine ⟨_, List.mem_singleton_self _, ?_⟩
    have listed : Member.component ⟨"InstrumentLegs", true⟩ ∈ parties.members := .tail _ (.tail _ (.head _))
    exact .component listed (fun _ => rfl) rfl (.here ⟨legs true, .head _, rfl, rfl⟩)
  have required := (claim legsDictionary legsDictionary partiesMessage legsDictionary_acyclic
    legsDictionary_acyclic rfl _ _ levelAt 555 (by decide)).mpr (.inr chain)
  rcases required with field | ⟨layout, found, isRequired⟩
  · exact absurd field List.not_mem_nil
  · have same : layout = ⟨555, "NoLegs", 600, false, ⟨[600], [], [], []⟩⟩ := by
      have found : some _ = some layout := found
      exact (Option.some.inj found).symm
    rw [same] at isRequired
    cases isRequired

end Parties

end IronFix.Dict
