import IronFix.Dictionary.ComponentGraph
import IronFix.Dictionary.Orchestra

/-!
# The group graph check is exact

The check of Orchestra groups succeeds on exactly the groups that do not reach
themselves and start no chain too long for a message. After it, expanding a
group reference in place fails neither for a cycle nor for its nesting.
-/

namespace IronFix.Dict.Orchestra

open Lib.Heights Relation Loader

/-! ## Groups by id -/

section ById

variable {T : Type} {id : T → Nat} {kind : OrchestraKind}

/-- What an index holds: every definition by its id, and nothing else. -/
theorem byIdFrom_lookup {definitions : List T} {map indexed : List (Nat × T)}
    (isIndex : byIdFrom id kind definitions map = .ok indexed)
    (keyed : ∀ key found, map.lookup key = some found → id found = key) :
    (∀ key found, indexed.lookup key = some found → id found = key) ∧
    (∀ key found, map.lookup key = some found → indexed.lookup key = some found) ∧
    (∀ definition ∈ definitions, indexed.lookup (id definition) = some definition) ∧
    ∀ key found, indexed.lookup key = some found → map.lookup key = some found ∨ found ∈ definitions := by
  induction definitions generalizing map with
  | nil =>
      obtain rfl := Except.ok.inj isIndex
      exact ⟨keyed, fun _ _ found => found, nofun, fun _ _ found => .inl found⟩
  | cons definition rest ih =>
      rw [byIdFrom] at isIndex
      split at isIndex
      · cases isIndex
      · rename_i fresh
        have lookup : ∀ key found, ((id definition, definition) :: map).lookup key = some found →
            key = id definition ∧ found = definition ∨ map.lookup key = some found := by
          intro key found isFound
          rw [List.lookup_cons] at isFound
          by_cases same : key = id definition
          · subst same
            rw [beq_self_eq_true] at isFound
            exact .inl ⟨rfl, (Option.some.inj isFound).symm⟩
          · rw [beq_false_of_ne same] at isFound
            exact .inr isFound
        obtain ⟨isKeyed, keeps, holds, only⟩ := ih isIndex (by
          intro key found isFound
          rcases lookup key found isFound with ⟨rfl, rfl⟩ | old
          · rfl
          · exact keyed key found old)
        refine ⟨isKeyed, fun key found isFound => keeps key found ?_, ?_, fun key found isFound => ?_⟩
        · have differs : key ≠ id definition := by
            intro same
            rw [← same, isFound] at fresh
            exact fresh rfl
          rw [List.lookup_cons, beq_false_of_ne differs]
          exact isFound
        · intro other mem
          rcases List.mem_cons.mp mem with rfl | later
          · exact keeps _ _ List.lookup_cons_self
          · exact holds other later
        · rcases only key found isFound with inMap | later
          · rcases lookup key found inMap with ⟨rfl, rfl⟩ | old
            · exact .inr List.mem_cons_self
            · exact .inl old
          · exact .inr (List.mem_cons_of_mem _ later)

end ById

/-- The groups of a repository, and their index. -/
structure Indexed (raw : List RawGroup) (groups : List (Nat × RawGroup)) : Prop where
  keyed : ∀ id group, groups.lookup id = some group → group.id = id
  holds : ∀ group ∈ raw, groups.lookup group.id = some group
  only : ∀ id group, groups.lookup id = some group → group ∈ raw

theorem indexed_of_byId {raw : List RawGroup} {groups : List (Nat × RawGroup)}
    (isIndex : byId raw RawGroup.id .group = .ok groups) : Indexed raw groups := by
  obtain ⟨keyed, _, holds, only⟩ := byIdFrom_lookup isIndex fun _ _ => nofun
  refine ⟨keyed, holds, fun id group found => ?_⟩
  rcases only id group found with inEmpty | mem
  · cases inEmpty
  · exact mem

/-! ## Chains -/

section Graph

variable (groups : List (Nat × RawGroup))

/-- From a member list into that of a group it references. -/
def Nests (members inner : List RawRef) : Prop :=
  ∃ ref ∈ members, ref.kind = .group ∧ ∃ group, groups.lookup ref.id = some group ∧ inner = group.members

/-- One group references another. -/
def References (one two : Nat) : Prop :=
  ∃ group, groups.lookup one = some group ∧ ∃ ref ∈ group.members, ref.kind = .group ∧ ref.id = two

/-- What the check is for: a group and the `n` nested below it are a chain. -/
structure SoundGroups : Prop where
  acyclic : ∀ id, ¬TransGen (References groups) id id
  short : ∀ id group, groups.lookup id = some group →
    ∀ n, Walks (Nests groups) n group.members → 1 + n ≤ MAX_GROUP_CHAIN

variable {groups} {rest inner : List RawRef} {member : RawRef}

theorem not_nests_nil (q : List RawRef) : ¬Nests groups [] q := by
  rintro ⟨ref, listed, _⟩
  cases listed

theorem nests_cons (q : List RawRef) :
    Nests groups (member :: rest) q ↔ Nests groups [member] q ∨ Nests groups rest q := by
  constructor
  · rintro ⟨ref, listed, isGroup⟩
    rcases List.mem_cons.mp listed with rfl | later
    · exact .inl ⟨ref, List.mem_singleton_self _, isGroup⟩
    · exact .inr ⟨ref, later, isGroup⟩
  · rintro (⟨ref, listed, isGroup⟩ | ⟨ref, listed, isGroup⟩)
    · exact ⟨ref, List.mem_singleton.mp listed ▸ List.mem_cons_self, isGroup⟩
    · exact ⟨ref, List.mem_cons_of_mem _ listed, isGroup⟩

theorem nests_group {child : RawGroup} (isGroup : member.kind = .group)
    (found : groups.lookup member.id = some child) (q : List RawRef) :
    Nests groups [member] q ↔ q = child.members := by
  constructor
  · rintro ⟨ref, listed, _, group, isFound, rfl⟩
    obtain rfl := List.mem_singleton.mp listed
    rw [Option.some.inj (isFound.symm.trans found)]
  · rintro rfl
    exact ⟨member, List.mem_singleton_self _, isGroup, child, found, rfl⟩

/-- A member that references no group of the index. -/
theorem not_nests_other (other : member.kind = .group → groups.lookup member.id = none) (q : List RawRef) :
    ¬Nests groups [member] q := by
  rintro ⟨ref, listed, isGroup, group, found, _⟩
  obtain rfl := List.mem_singleton.mp listed
  rw [other isGroup] at found
  cases found

theorem references_nests {one two : Nat} {group : RawGroup} (reaches : TransGen (References groups) one two)
    (found : groups.lookup two = some group) :
    ∃ first, groups.lookup one = some first ∧ TransGen (Nests groups) first.members group.members := by
  induction reaches using TransGen.head_induction_on with
  | single step =>
      obtain ⟨first, isFirst, ref, listed, isGroup, rfl⟩ := step
      exact ⟨first, isFirst, .single ⟨ref, listed, isGroup, group, found, rfl⟩⟩
  | head step _ ih =>
      obtain ⟨first, isFirst, ref, listed, isGroup, rfl⟩ := step
      obtain ⟨next, isNext, nests⟩ := ih
      exact ⟨first, isFirst, .head ⟨ref, listed, isGroup, next, isNext, rfl⟩ nests⟩

theorem acyclic_of_short (short : ∀ id group, groups.lookup id = some group →
    ∀ n, Walks (Nests groups) n group.members → 1 + n ≤ MAX_GROUP_CHAIN) (id : Nat) :
    ¬TransGen (References groups) id id := by
  intro cycle
  obtain ⟨_, ⟨group, found, _⟩, _⟩ := TransGen.head'_iff.mp cycle
  obtain ⟨first, isFirst, nests⟩ := references_nests cycle found
  obtain rfl := Option.some.inj (isFirst.symm.trans found)
  refine not_reaches_self MAX_GROUP_CHAIN (fun n walks => ?_) nests
  have := short id first found n walks
  omega

end Graph

/-! ## What is remembered is exact -/

section Exact

variable (groups : List (Nat × RawGroup))

/-- A group visited to its end, with the length of its longest chain. -/
def Finished (id chain : Nat) : Prop :=
  ∃ group nested, groups.lookup id = some group ∧ Height (Nests groups) group.members nested ∧
    chain = nested + 1

def Remembered (state : GroupVisits) : Prop :=
  ∀ id chain, state.lookup id = some (.done chain) → Finished groups id chain

/-- A visit that succeeds measures the group's chains, and they fit. -/
def Measures (visit : RawGroup → GroupVisits → Except DictionaryError (Nat × GroupVisits)) (room : Nat) :
    Prop :=
  ∀ group state chain after, groups.lookup group.id = some group → Remembered groups state →
    visit group state = .ok (chain, after) →
    Remembered groups after ∧ Finished groups group.id chain ∧ positionAt room + chain - 1 ≤ MAX_GROUP_CHAIN

variable {groups} {visit : RawGroup → GroupVisits → Except DictionaryError (Nat × GroupVisits)} {room : Nat}

theorem Remembered.cons {state : GroupVisits} (remembered : Remembered groups state) {id : Nat}
    {visited : GroupVisit} (finished : ∀ chain, visited = .done chain → Finished groups id chain) :
    Remembered groups ((id, visited) :: state) := by
  intro other chain found
  rw [List.lookup_cons] at found
  by_cases same : other = id
  · subst same
    rw [beq_self_eq_true] at found
    exact finished chain (Option.some.inj found)
  · rw [beq_false_of_ne same] at found
    exact remembered other chain found

theorem chainFits_ok {group : RawGroup} {chain chain' : Nat} {state after : GroupVisits}
    (fits : chainFits room group chain state = .ok (chain', after)) :
    chain' = chain ∧ after = state ∧ positionAt room + chain - 1 ≤ MAX_GROUP_CHAIN := by
  unfold chainFits at fits
  split at fits
  · cases fits
  · rename_i notTooDeep
    obtain ⟨rfl, rfl⟩ := Prod.mk.inj (Except.ok.inj fits)
    exact ⟨rfl, rfl, Nat.le_of_not_lt notTooDeep⟩

theorem nestedEach_exact (keyed : ∀ id group, groups.lookup id = some group → group.id = id)
    (measures : Measures groups visit room) {members : List RawRef} {state after : GroupVisits}
    {start nested : Nat} (remembered : Remembered groups state)
    (visited : nestedEach groups visit members start state = .ok (nested, after)) :
    Remembered groups after ∧ ∃ tallest, Height (Nests groups) members tallest ∧ nested = max start tallest := by
  induction members generalizing state start with
  | nil =>
      obtain ⟨rfl, rfl⟩ := Prod.mk.inj (Except.ok.inj visited)
      exact ⟨remembered, 0, .leaf not_nests_nil, (Nat.max_zero _).symm⟩
  | cons member rest ih =>
      have passed (other : member.kind = .group → groups.lookup member.id = none)
          (visited : nestedEach groups visit rest start state = .ok (nested, after)) :
          Remembered groups after ∧ ∃ tallest, Height (Nests groups) (member :: rest) tallest ∧
            nested = max start tallest := by
        obtain ⟨remembers, tallest, height, isMax⟩ := ih remembered visited
        refine ⟨remembers, max 0 tallest, (Height.leaf (not_nests_other other)).union nests_cons height, ?_⟩
        rw [isMax, Nat.zero_max]
      rw [nestedEach] at visited
      split at visited
      · rename_i isGroup
        split at visited
        · rename_i child found
          split at visited
          · cases visited
          · rename_i chain between isChain
            have isId := keyed _ _ found
            obtain ⟨remembers, ⟨group, below, isFound, height, rfl⟩, _⟩ :=
              measures child state chain between (by rw [isId, found]) remembered isChain
            obtain rfl : group = child := by
              rw [isId] at isFound
              exact Option.some.inj (isFound.symm.trans found)
            obtain ⟨remembers, tallest, later, isMax⟩ := ih remembers visited
            refine ⟨remembers, max (below + 1) tallest,
              (height.succ (nests_group isGroup found)).union nests_cons later, ?_⟩
            rw [isMax, Nat.max_assoc]
        · rename_i unknown
          exact passed (fun _ => unknown) visited
      · rename_i notGroup
        exact passed (fun isGroup => absurd isGroup notGroup) visited

theorem nestedChain_measures (keyed : ∀ id group, groups.lookup id = some group → group.id = id)
    (room : Nat) : Measures groups (nestedChain groups room) room := by
  induction room with
  | zero =>
      intro group state chain after _ remembered visited
      unfold nestedChain at visited
      split at visited
      · cases visited
      · rename_i known isKnown
        obtain ⟨rfl, rfl, fits⟩ := chainFits_ok visited
        exact ⟨remembered, remembered _ _ isKnown, fits⟩
      · cases visited
  | succ room ih =>
      intro group state chain after defined remembered visited
      unfold nestedChain at visited
      split at visited
      · cases visited
      · rename_i known isKnown
        obtain ⟨rfl, rfl, fits⟩ := chainFits_ok visited
        exact ⟨remembered, remembered _ _ isKnown, fits⟩
      · dsimp only at visited
        split at visited
        · cases visited
        · rename_i nested between isNested
          have opened : Remembered groups ((group.id, .inProgress) :: state) := by
            refine remembered.cons fun chain isDone => ?_
            cases isDone
          obtain ⟨remembers, tallest, height, isMax⟩ := nestedEach_exact keyed ih opened isNested
          obtain ⟨rfl, rfl, fits⟩ := chainFits_ok visited
          rw [Nat.zero_max] at isMax
          subst isMax
          have finished : Finished groups group.id (nested + 1) := ⟨group, nested, defined, height, rfl⟩
          refine ⟨remembers.cons fun chain isDone => ?_, finished, fits⟩
          cases isDone
          exact finished

theorem checkGroupsFrom_exact (keyed : ∀ id group, groups.lookup id = some group → group.id = id)
    {raw : List RawGroup} (holds : ∀ group ∈ raw, groups.lookup group.id = some group)
    {state : GroupVisits} (remembered : Remembered groups state)
    (checked : checkGroupsFrom groups raw state = .ok ()) :
    ∀ group ∈ raw, ∃ chain, Finished groups group.id chain ∧ chain ≤ MAX_GROUP_CHAIN := by
  induction raw generalizing state with
  | nil => exact nofun
  | cons group rest ih =>
      rw [checkGroupsFrom] at checked
      split at checked
      · cases checked
      · rename_i chain after isChain
        obtain ⟨remembers, finished, fits⟩ := nestedChain_measures keyed MAX_GROUP_CHAIN group state chain
          after (holds group List.mem_cons_self) remembered isChain
        intro other mem
        rcases List.mem_cons.mp mem with rfl | later
        · refine ⟨chain, finished, ?_⟩
          have first : positionAt MAX_GROUP_CHAIN = 1 := rfl
          omega
        · exact ih (fun other mem => holds other (List.mem_cons_of_mem _ mem)) remembers checked other later

end Exact

/-! ## Sound groups pass -/

section Passes

variable (groups : List (Nat × RawGroup))

/-- The groups on the current path lead to the list being visited. -/
def Pending (state : GroupVisits) (members : List RawRef) : Prop :=
  ∀ id, state.lookup id = some .inProgress → ∃ entered, groups.lookup id = some entered ∧
    ReflTransGen (Nests groups) entered.members members

/-- The same groups are on the path. -/
def SameOpen (state after : GroupVisits) : Prop :=
  ∀ id, after.lookup id = some .inProgress ↔ state.lookup id = some .inProgress

/-- With room for a group's chains, its visit succeeds. -/
def Succeeds (visit : RawGroup → GroupVisits → Except DictionaryError (Nat × GroupVisits)) (room : Nat) :
    Prop :=
  ∀ group state, groups.lookup group.id = some group → Remembered groups state →
    state.lookup group.id ≠ some .inProgress →
    Pending groups ((group.id, .inProgress) :: state) group.members →
    (∀ n, Walks (Nests groups) n group.members → n < room) →
    ∃ chain after, visit group state = .ok (chain, after) ∧ SameOpen state after

variable {groups} {visit : RawGroup → GroupVisits → Except DictionaryError (Nat × GroupVisits)} {room : Nat}

theorem Pending.cons {state : GroupVisits} {group : RawGroup} (defined : groups.lookup group.id = some group)
    (pending : Pending groups state group.members) :
    Pending groups ((group.id, .inProgress) :: state) group.members := by
  intro other isOpen
  rw [List.lookup_cons] at isOpen
  by_cases same : other = group.id
  · exact ⟨group, same ▸ defined, .refl⟩
  · rw [beq_false_of_ne same] at isOpen
    exact pending other isOpen

theorem chainFits_of_le {group : RawGroup} {chain : Nat} {state : GroupVisits} (low : room ≤ MAX_GROUP_CHAIN)
    (fits : chain ≤ room) : chainFits room group chain state = .ok (chain, state) := by
  unfold chainFits positionAt
  rw [if_neg (by omega)]

variable (sound : SoundGroups groups) (keyed : ∀ id group, groups.lookup id = some group → group.id = id)

include sound in
theorem Pending.closed {state : GroupVisits} {members : List RawRef} {id : Nat} {group : RawGroup}
    (pending : Pending groups state members) (defined : groups.lookup id = some group)
    (nests : Nests groups members group.members) : state.lookup id ≠ some .inProgress := by
  intro isOpen
  obtain ⟨entered, isEntered, leads⟩ := pending id isOpen
  obtain rfl := Option.some.inj (isEntered.symm.trans defined)
  refine not_reaches_self MAX_GROUP_CHAIN (fun n walks => ?_) (.tail' leads nests)
  have := sound.short id entered defined n walks
  omega

include sound keyed

theorem nestedEach_succeeds (measures : Measures groups visit room) (succeeds : Succeeds groups visit room)
    {members whole : List RawRef} {state : GroupVisits} (start : Nat)
    (remembered : Remembered groups state) (pending : Pending groups state whole)
    (fits : ∀ n, Walks (Nests groups) n whole → n < room + 1) (listed : ∀ ref ∈ members, ref ∈ whole) :
    ∃ nested after, nestedEach groups visit members start state = .ok (nested, after) ∧
      SameOpen state after := by
  induction members generalizing state start with
  | nil => exact ⟨start, state, rfl, fun _ => Iff.rfl⟩
  | cons member rest ih =>
      have later := fun ref mem => listed ref (List.mem_cons_of_mem _ mem)
      rw [nestedEach]
      split
      · rename_i isGroup
        split
        · rename_i child found
          have isId := keyed _ _ found
          have defined : groups.lookup child.id = some child := by rw [isId, found]
          have nests : Nests groups whole child.members :=
            ⟨member, listed member List.mem_cons_self, isGroup, child, found, rfl⟩
          have inside : Pending groups state child.members := by
            intro id isOpen
            obtain ⟨entered, isEntered, leads⟩ := pending id isOpen
            exact ⟨entered, isEntered, leads.tail nests⟩
          obtain ⟨chain, between, visited, same⟩ := succeeds child state defined remembered
            (pending.closed sound defined nests) (inside.cons defined)
            (fun n walks => Nat.lt_of_succ_lt_succ (fits (n + 1) (.step nests walks)))
          have remembers := (measures _ _ _ _ defined remembered visited).1
          obtain ⟨nested, after, visitedLater, sameLater⟩ := ih (max start chain) remembers
            (fun id isOpen => pending id ((same id).mp isOpen)) later
          refine ⟨nested, after, ?_, fun id => (sameLater id).trans (same id)⟩
          rw [visited]
          exact visitedLater
        · exact ih start remembered pending later
      · exact ih start remembered pending later

theorem nestedChain_succeeds (room : Nat) (low : room ≤ MAX_GROUP_CHAIN) :
    Succeeds groups (nestedChain groups room) room := by
  induction room with
  | zero => exact fun group _ _ _ _ _ fits => absurd (fits 0 (.here group.members)) (Nat.lt_irrefl 0)
  | succ room ih =>
      intro group state defined remembered closed pending fits
      have chainBound : ∀ chain, Finished groups group.id chain → chain ≤ room + 1 := by
        rintro chain ⟨found, nested, isFound, height, rfl⟩
        obtain rfl := Option.some.inj (isFound.symm.trans defined)
        exact fits nested height.reached
      unfold nestedChain
      split
      · rename_i isOpen
        exact absurd isOpen closed
      · rename_i known isKnown
        exact ⟨known, state, chainFits_of_le low (chainBound known (remembered _ _ isKnown)),
          fun _ => Iff.rfl⟩
      · rename_i unseen
        have opened : Remembered groups ((group.id, .inProgress) :: state) := by
          refine remembered.cons fun chain isDone => ?_
          cases isDone
        have measures := nestedChain_measures keyed room
        obtain ⟨nested, after, visited, same⟩ := nestedEach_succeeds sound keyed measures
          (ih (Nat.le_of_succ_le low)) 0 opened pending fits fun _ mem => mem
        obtain ⟨_, tallest, height, isMax⟩ := nestedEach_exact keyed measures opened visited
        rw [Nat.zero_max] at isMax
        subst isMax
        dsimp only
        rw [visited]
        refine ⟨nested + 1, _, chainFits_of_le low (fits nested height.reached), fun other => ?_⟩
        by_cases isId : other = group.id
        · subst isId
          rw [List.lookup_cons_self, unseen]
          exact ⟨nofun, nofun⟩
        · rw [List.lookup_cons, beq_false_of_ne isId]
          dsimp only
          rw [same other, List.lookup_cons, beq_false_of_ne isId]

theorem checkGroupsFrom_succeeds {raw : List RawGroup}
    (holds : ∀ group ∈ raw, groups.lookup group.id = some group) {state : GroupVisits}
    (remembered : Remembered groups state) (idle : ∀ id, state.lookup id ≠ some .inProgress) :
    checkGroupsFrom groups raw state = .ok () := by
  induction raw generalizing state with
  | nil => rfl
  | cons group rest ih =>
      have defined := holds group List.mem_cons_self
      have nothing : Pending groups state group.members := fun id isOpen => absurd isOpen (idle id)
      have fits : ∀ n, Walks (Nests groups) n group.members → n < MAX_GROUP_CHAIN := by
        intro n walks
        have := sound.short group.id group defined n walks
        omega
      obtain ⟨chain, after, visited, same⟩ := nestedChain_succeeds sound keyed MAX_GROUP_CHAIN
        (Nat.le_refl _) group state defined remembered (idle _) (nothing.cons defined) fits
      have remembers := (nestedChain_measures keyed _ _ _ _ _ defined remembered visited).1
      rw [checkGroupsFrom, visited]
      exact ih (fun other mem => holds other (List.mem_cons_of_mem _ mem)) remembers
        fun id isOpen => idle id ((same id).mp isOpen)

end Passes

/-- The check succeeds on the sound groups. -/
theorem checkGroupGraph_ok_iff {raw : List RawGroup} {groups : List (Nat × RawGroup)}
    (indexed : Indexed raw groups) : checkGroupGraph groups raw = .ok () ↔ SoundGroups groups := by
  obtain ⟨keyed, holds, only⟩ := indexed
  have fresh : Remembered groups [] := fun _ _ => nofun
  constructor
  · intro checked
    have finished := checkGroupsFrom_exact keyed holds fresh checked
    have short : ∀ id group, groups.lookup id = some group →
        ∀ n, Walks (Nests groups) n group.members → 1 + n ≤ MAX_GROUP_CHAIN := by
      intro id group found n walks
      obtain ⟨_, ⟨found', nested, isFound, height, rfl⟩, fits⟩ := finished group (only id group found)
      rw [keyed id group found] at isFound
      obtain rfl := Option.some.inj (isFound.symm.trans found)
      have := height.bound n walks
      omega
    exact ⟨acyclic_of_short short, short⟩
  · exact fun sound => checkGroupsFrom_succeeds sound keyed holds fresh fun _ => nofun

/-! ## Expanding in place -/

section Expand

/-- Steps that leave the open groups as they are, or fail as `P` says. -/
def Calm {β : Type} (P : DictionaryError → Prop) (opened : List Nat)
    (f : Expansion → Except DictionaryError (β × Expansion)) : Prop :=
  ∀ state, state.openGroups = opened →
    (∀ error, f state = .error error → P error) ∧ ∀ b after, f state = .ok (b, after) → after.openGroups = opened

/-- Failures that are neither for cycles nor for nesting are as `P` says. -/
def Allows (P : DictionaryError → Prop) : Prop := ∀ error, error.ofNesting = false → P error

variable {x : Expander} {P : DictionaryError → Prop} {opened : List Nat}
  {component : RawComponent → Expansion → Except DictionaryError (List Item × Expansion)}
  {group : RawRef → String → Expansion → Except DictionaryError (Item × Expansion)}

theorem field_error {id : Nat} {owner : String} {error : DictionaryError}
    (failed : x.field id owner = .error error) : error.ofNesting = false := by
  unfold Expander.field at failed
  split at failed
  · cases failed
  · cases failed
    rfl

theorem item_calm (allows : Allows P) {owner : String} {scope : Scope} {member : RawRef}
    (components : scope = .envelope → ∀ referenced, Calm P opened (component referenced))
    (groups : member.kind = .group → Calm P opened (group member owner)) :
    Calm P opened (x.item component group owner scope member) := by
  intro state isOpen
  unfold Expander.item
  split
  · split
    · rename_i isError
      refine ⟨fun error failed => ?_, nofun⟩
      cases failed
      exact allows _ (field_error isError)
    · refine ⟨nofun, fun b after done => ?_⟩
      cases done
      exact isOpen
  · split
    · refine ⟨fun error failed => ?_, nofun⟩
      cases failed
      exact allows _ rfl
    · rename_i referenced _
      split
      · split
        · refine ⟨nofun, fun b after done => ?_⟩
          cases done
          exact isOpen
        · refine ⟨fun error failed => ?_, nofun⟩
          cases failed
          exact allows _ rfl
      · split
        · rename_i isEnvelope
          obtain ⟨fails, keeps⟩ := components isEnvelope referenced state isOpen
          split
          · rename_i isError
            refine ⟨fun error failed => ?_, nofun⟩
            cases failed
            exact fails _ isError
          · rename_i isDone
            refine ⟨nofun, fun b after done => ?_⟩
            cases done
            exact keeps _ _ isDone
        · refine ⟨nofun, fun b after done => ?_⟩
          cases done
          exact isOpen
  · rename_i isGroup
    obtain ⟨fails, keeps⟩ := groups isGroup state isOpen
    split
    · rename_i isError
      refine ⟨fun error failed => ?_, nofun⟩
      cases failed
      exact fails _ isError
    · rename_i isDone
      refine ⟨nofun, fun b after done => ?_⟩
      cases done
      exact keeps _ _ isDone

theorem items_calm (allows : Allows P) {owner : String} {scope : Scope} {members : List RawRef}
    (components : scope = .envelope → ∀ referenced, Calm P opened (component referenced))
    (groups : ∀ member ∈ members, member.kind = .group → Calm P opened (group member owner)) :
    Calm P opened (x.items component group owner scope members) := by
  induction members with
  | nil =>
      intro state isOpen
      refine ⟨nofun, fun b after done => ?_⟩
      cases done
      exact isOpen
  | cons member rest ih =>
      intro state isOpen
      rw [Expander.items]
      split
      · rename_i isError
        refine ⟨fun error failed => ?_, nofun⟩
        cases failed
        unfold Expander.spend at isError
        split at isError
        · cases isError
          exact allows _ rfl
        · cases isError
      · rename_i spent isSpent
        have spentOpen : spent.openGroups = opened := by
          unfold Expander.spend at isSpent
          split at isSpent
          · cases isSpent
          · cases isSpent
            exact isOpen
        obtain ⟨fails, keeps⟩ := item_calm (x := x) allows components
          (groups member List.mem_cons_self) spent spentOpen
        split
        · rename_i isError
          refine ⟨fun error failed => ?_, nofun⟩
          cases failed
          exact fails _ isError
        · rename_i first between isFirst
          obtain ⟨failsLater, keepsLater⟩ :=
            ih (fun other mem => groups other (List.mem_cons_of_mem _ mem)) between (keeps _ _ isFirst)
          split
          · rename_i isError
            refine ⟨fun error failed => ?_, nofun⟩
            cases failed
            exact failsLater _ isError
          · rename_i isLater
            refine ⟨nofun, fun b after done => ?_⟩
            cases done
            exact keepsLater _ _ isLater

/-- After the check, expanding a group with room for its chains fails neither
for a cycle nor for its nesting. -/
theorem group_calm (sound : SoundGroups x.groups)
    (keyed : ∀ id group, x.groups.lookup id = some group → group.id = id) (room : Nat) {member : RawRef}
    (owner : String) {opened : List Nat}
    (pending : ∀ referenced, x.groups.lookup member.id = some referenced → ∀ id ∈ opened, ∃ entered,
      x.groups.lookup id = some entered ∧
        TransGen (Nests x.groups) entered.members referenced.members)
    (fits : ∀ referenced, x.groups.lookup member.id = some referenced →
      ∀ n, Walks (Nests x.groups) n referenced.members → n < room) :
    Calm (fun error => error.ofNesting = false) opened (x.group component room member owner) := by
  induction room generalizing member owner opened with
  | zero =>
      intro state isOpen
      unfold Expander.group
      split
      · refine ⟨fun error failed => ?_, nofun⟩
        cases failed
        rfl
      · rename_i referenced found
        exact absurd (fits referenced found 0 (.here _)) (Nat.lt_irrefl 0)
  | succ room ih =>
      intro state isOpen
      unfold Expander.group
      split
      · refine ⟨fun error failed => ?_, nofun⟩
        cases failed
        rfl
      · rename_i referenced found
        have isId := keyed _ _ found
        -- The group is not open: what is open leads to it, and it not to itself.
        have closed : referenced.id ∉ state.openGroups := by
          intro mem
          obtain ⟨entered, isEntered, leads⟩ := pending referenced found _ (isOpen ▸ mem)
          rw [isId] at isEntered
          obtain rfl := Option.some.inj (isEntered.symm.trans found)
          refine not_reaches_self MAX_GROUP_CHAIN (fun n walks => ?_) leads
          have := sound.short _ entered found n walks
          omega
        rw [if_neg closed]
        dsimp only
        split
        · refine ⟨fun error failed => ?_, nofun⟩
          cases failed
          rfl
        · split
          · rename_i isError
            refine ⟨fun error failed => ?_, nofun⟩
            cases failed
            exact field_error isError
          · have inside : Calm (fun error => error.ofNesting = false) (opened ++ [referenced.id])
                (x.items component (x.group component room) ("group " ++ referenced.name) .definition
                  referenced.members) := by
              refine items_calm (fun _ ofOther => ofOther) nofun fun ref listed isGroup => ih _ ?_ ?_
              · intro inner isInner id mem
                have nests : Nests x.groups referenced.members inner.members :=
                  ⟨ref, listed, isGroup, inner, isInner, rfl⟩
                rcases List.mem_append.mp mem with old | new
                · obtain ⟨entered, isEntered, leads⟩ := pending referenced found id old
                  exact ⟨entered, isEntered, leads.tail nests⟩
                · rw [List.mem_singleton.mp new, isId]
                  exact ⟨referenced, found, .single nests⟩
              · intro inner isInner n walks
                have nests : Nests x.groups referenced.members inner.members :=
                  ⟨ref, listed, isGroup, inner, isInner, rfl⟩
                exact Nat.lt_of_succ_lt_succ (fits referenced found (n + 1) (.step nests walks))
            obtain ⟨fails, keeps⟩ := inside
              { state with openGroups := state.openGroups ++ [referenced.id] } (by rw [isOpen])
            split
            · rename_i isError
              refine ⟨fun error failed => ?_, nofun⟩
              cases failed
              exact fails _ isError
            · rename_i isDone
              refine ⟨nofun, fun b after done => ?_⟩
              cases done
              show List.dropLast _ = opened
              rw [keeps _ _ isDone, List.dropLast_concat]

theorem Calm.mono {β : Type} {Q : DictionaryError → Prop} {f : Expansion → Except DictionaryError (β × Expansion)}
    (calm : Calm P opened f) (implies : ∀ error, P error → Q error) : Calm Q opened f :=
  fun state isOpen => ⟨fun error failed => implies error ((calm state isOpen).1 error failed), (calm state isOpen).2⟩

/-- So at the top of a definition. -/
theorem group_first_calm (sound : SoundGroups x.groups)
    (keyed : ∀ id group, x.groups.lookup id = some group → group.id = id) (member : RawRef) (owner : String) :
    Calm (fun error => error.ofNesting = false) [] (x.group component Expander.firstRoom member owner) := by
  refine group_calm sound keyed _ owner nofun fun referenced found n walks => ?_
  have short := sound.short _ referenced found n walks
  rw [Nat.add_comm] at short
  exact short

/-- Expanding the header or the trailer meets no group cycle. -/
theorem envelopeComponent_calm (sound : SoundGroups x.groups)
    (keyed : ∀ id group, x.groups.lookup id = some group → group.id = id) (room : Nat)
    (referenced : RawComponent) :
    Calm (fun error => ∀ name, error ≠ .groupCycle name) [] (x.envelopeComponent room referenced) := by
  have other : ∀ error : DictionaryError, error.ofNesting = false → ∀ name, error ≠ .groupCycle name := by
    rintro error ofOther name rfl
    cases ofOther
  induction room generalizing referenced with
  | zero =>
      intro state isOpen
      unfold Expander.envelopeComponent
      split
      · refine ⟨fun error failed => ?_, nofun⟩
        cases failed
        exact nofun
      · refine ⟨fun error failed => ?_, nofun⟩
        cases failed
        exact nofun
  | succ room ih =>
      intro state isOpen
      unfold Expander.envelopeComponent
      split
      · refine ⟨fun error failed => ?_, nofun⟩
        cases failed
        exact nofun
      · dsimp only
        have inside : Calm (fun error => ∀ name, error ≠ .groupCycle name) [] (x.items
            (x.envelopeComponent room) (x.group (x.envelopeComponent room) Expander.firstRoom)
            ("component " ++ referenced.name) .envelope referenced.members) :=
          items_calm other (fun _ nested => ih nested) fun member _ _ =>
            (group_first_calm sound keyed member _).mono other
        obtain ⟨fails, keeps⟩ := inside
          { state with openComponents := state.openComponents ++ [referenced.id] } isOpen
        split
        · rename_i isError
          refine ⟨fun error failed => ?_, nofun⟩
          cases failed
          exact fails _ isError
        · rename_i expanded after' isDone
          refine ⟨nofun, fun b after done => ?_⟩
          cases done
          exact keeps expanded after' isDone

/-- Messages and definitions expand without a failure of either kind. -/
theorem membersOf_calm (sound : SoundGroups x.groups)
    (keyed : ∀ id group, x.groups.lookup id = some group → group.id = id) {scope : Scope}
    (notEnvelope : scope ≠ .envelope) (owner : String) (members : List RawRef) :
    Calm (fun error => error.ofNesting = false) [] (x.membersOf owner scope members) :=
  items_calm (fun _ ofOther => ofOther) (fun isEnvelope => absurd isEnvelope notEnvelope)
    fun member _ _ => group_first_calm sound keyed member owner

end Expand

/-! ## The order of declaration -/

theorem soundGraph_congr {one two : List (String × List Item)}
    (same : ∀ name, one.lookup name = two.lookup name) (sound : SoundGraph one) : SoundGraph two := by
  have crosses : Crosses one = Crosses two := by
    funext items inner
    apply propext
    constructor
    · rintro (listed | ⟨listed, defined⟩)
      · exact .group listed
      · exact .component listed (same _ ▸ defined)
    · rintro (listed | ⟨listed, defined⟩)
      · exact .group listed
      · exact .component listed (same _ ▸ defined)
  have refers : Refers one = Refers two := by
    funext first second
    unfold Refers
    rw [same first]
  obtain ⟨defined, acyclic, shallow⟩ := sound
  refine ⟨fun name items found other mentions => ?_, refers ▸ acyclic, fun name items found => ?_⟩
  · rw [← same] at found ⊢
    exact defined name items found other mentions
  · rw [← same] at found
    rw [← crosses]
    exact shallow name items found

theorem soundGroups_congr {one two : List (Nat × RawGroup)}
    (same : ∀ id, one.lookup id = two.lookup id) (sound : SoundGroups one) : SoundGroups two := by
  have nests : Nests one = Nests two := by
    funext members inner
    unfold Nests
    simp only [same]
  have references : References one = References two := by
    funext first second
    unfold References
    rw [same first]
  obtain ⟨acyclic, short⟩ := sound
  refine ⟨references ▸ acyclic, fun id group found => ?_⟩
  rw [← same] at found
  rw [← nests]
  exact short id group found

/-- The index of the same groups in another order finds the same. -/
theorem Indexed.lookup_perm {raw raw' : List RawGroup} {groups groups' : List (Nat × RawGroup)}
    (indexed : Indexed raw groups) (indexed' : Indexed raw' groups') (perm : raw.Perm raw') (id : Nat) :
    groups.lookup id = groups'.lookup id := by
  have finds : ∀ {raw raw' : List RawGroup} {groups groups' : List (Nat × RawGroup)}, Indexed raw groups →
      Indexed raw' groups' → raw.Perm raw' → ∀ group, groups.lookup id = some group →
      groups'.lookup id = some group := by
    intro raw raw' groups groups' indexed indexed' perm group found
    have here := indexed'.holds group (perm.mem_iff.mp (indexed.only id group found))
    rwa [indexed.keyed id group found] at here
  apply Option.ext
  intro group
  exact ⟨finds indexed indexed' perm group, finds indexed' indexed perm.symm group⟩

end IronFix.Dict.Orchestra
