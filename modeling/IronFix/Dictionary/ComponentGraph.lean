import IronFix.Dictionary.Loader
import IronFix.Lib.Heights

/-!
# The component graph check is exact

The check succeeds on exactly the definitions whose references are defined,
that do not reach themselves, and below which no path crosses too many
components and groups, whatever the order of declaration: what it remembers of
a component is the height of its definition.
-/

namespace IronFix.Dict.Loader

open Lib.Heights Relation

section Graph

variable (components : List (String × List Item))

/-- A group or a component crossed: from a member list into that of a group in
it, or of a component it references. -/
inductive Crosses : List Item → List Item → Prop
  | group {items inner : List Item} {name : String} {required : Bool}
      (listed : .group name required inner ∈ items) : Crosses items inner
  | component {items inner : List Item} {name : String} {required : Bool}
      (listed : .component name required ∈ items) (defined : components.lookup name = some inner) :
      Crosses items inner

/-- A component referenced in a member list, the entries of its groups
included. -/
inductive Mentions : List Item → String → Prop
  | component {items : List Item} {name : String} {required : Bool}
      (listed : .component name required ∈ items) : Mentions items name
  | group {items inner : List Item} {groupName name : String} {required : Bool}
      (listed : .group groupName required inner ∈ items) (inside : Mentions inner name) :
      Mentions items name

/-- One component references another, through the entries of groups too. -/
def Refers (one two : String) : Prop := ∃ items, components.lookup one = some items ∧ Mentions items two

/-- Every component referenced in a member list is defined. -/
def Resolves (items : List Item) : Prop := ∀ name, Mentions items name → (components.lookup name).isSome

/-- What the check is for. -/
structure SoundGraph : Prop where
  defined : ∀ name items, components.lookup name = some items → Resolves components items
  acyclic : ∀ name, ¬TransGen (Refers components) name name
  shallow : ∀ name items, components.lookup name = some items →
    ∀ n, Walks (Crosses components) n items → 1 + n ≤ MAX_COMPONENT_DEPTH

end Graph

section Members

variable {components : List (String × List Item)} {items rest inner : List Item} {name : String}
  {required : Bool}

theorem not_crosses_nil {q : List Item} : ¬Crosses components [] q := by
  intro crosses
  cases crosses with
  | group listed => cases listed
  | component listed _ => cases listed

theorem crosses_cons {item : Item} (q : List Item) :
    Crosses components (item :: rest) q ↔ Crosses components [item] q ∨ Crosses components rest q := by
  constructor
  · intro crosses
    cases crosses with
    | group listed =>
        rcases List.mem_cons.mp listed with rfl | later
        · exact .inl (.group (List.mem_singleton_self _))
        · exact .inr (.group later)
    | component listed defined =>
        rcases List.mem_cons.mp listed with rfl | later
        · exact .inl (.component (List.mem_singleton_self _) defined)
        · exact .inr (.component later defined)
  · rintro (first | later)
    · cases first with
      | group listed =>
          obtain rfl := List.mem_singleton.mp listed
          exact .group List.mem_cons_self
      | component listed defined =>
          obtain rfl := List.mem_singleton.mp listed
          exact .component List.mem_cons_self defined
    · cases later with
      | group listed => exact .group (List.mem_cons_of_mem _ listed)
      | component listed defined => exact .component (List.mem_cons_of_mem _ listed) defined

theorem not_crosses_field (q : List Item) : ¬Crosses components [.field name required] q := by
  intro crosses
  cases crosses with
  | group listed => cases List.mem_singleton.mp listed
  | component listed _ => cases List.mem_singleton.mp listed

theorem crosses_group (q : List Item) :
    Crosses components [.group name required inner] q ↔ q = inner := by
  constructor
  · intro crosses
    cases crosses with
    | group listed =>
        cases List.mem_singleton.mp listed
        rfl
    | component listed _ => cases List.mem_singleton.mp listed
  · rintro rfl
    exact .group (List.mem_singleton_self _)

theorem crosses_component (defined : components.lookup name = some inner) (q : List Item) :
    Crosses components [.component name required] q ↔ q = inner := by
  constructor
  · intro crosses
    cases crosses with
    | group listed => cases List.mem_singleton.mp listed
    | component listed found =>
        cases List.mem_singleton.mp listed
        exact Option.some.inj (found.symm.trans defined)
  · rintro rfl
    exact .component (List.mem_singleton_self _) defined

theorem resolves_cons {item : Item} (first : Resolves components [item])
    (later : Resolves components rest) : Resolves components (item :: rest) := by
  intro other mentions
  cases mentions with
  | component listed =>
      rcases List.mem_cons.mp listed with rfl | mem
      · exact first other (.component (List.mem_singleton_self _))
      · exact later other (.component mem)
  | group listed inside =>
      rcases List.mem_cons.mp listed with rfl | mem
      · exact first other (.group (List.mem_singleton_self _) inside)
      · exact later other (.group mem inside)

/-- A mentioned component is reached by crossing groups, then it. -/
theorem Mentions.crosses (mentions : Mentions items name) (defined : components.lookup name = some inner) :
    TransGen (Crosses components) items inner := by
  induction mentions with
  | component listed => exact .single (.component listed defined)
  | group listed _ ih => exact .head (.group listed) (ih defined)

theorem refers_crosses {one two : String} (reaches : TransGen (Refers components) one two)
    (defined : components.lookup two = some inner) :
    ∃ items, components.lookup one = some items ∧ TransGen (Crosses components) items inner := by
  induction reaches using TransGen.head_induction_on with
  | single first =>
      obtain ⟨items, found, mentions⟩ := first
      exact ⟨items, found, mentions.crosses defined⟩
  | head first _ ih =>
      obtain ⟨items, found, mentions⟩ := first
      obtain ⟨next, isNext, crosses⟩ := ih
      exact ⟨items, found, (mentions.crosses isNext).trans crosses⟩

/-- Where no path is too long, no component reaches itself. -/
theorem acyclic_of_shallow (shallow : ∀ name items, components.lookup name = some items →
    ∀ n, Walks (Crosses components) n items → 1 + n ≤ MAX_COMPONENT_DEPTH) (name : String) :
    ¬TransGen (Refers components) name name := by
  intro cycle
  obtain ⟨_, ⟨items, found, _⟩, _⟩ := TransGen.head'_iff.mp cycle
  obtain ⟨items', found', crosses⟩ := refers_crosses cycle found
  obtain rfl := Option.some.inj (found'.symm.trans found)
  refine not_reaches_self MAX_COMPONENT_DEPTH (fun n walks => ?_) crosses
  have := shallow name items' found n walks
  omega

end Members

/-! ## What is remembered is exact -/

section Exact

variable (components : List (String × List Item))

/-- A component visited to its end, of height `height`. -/
structure Finished (name : String) (height : Nat) : Prop where
  exact_ : ∃ items below, components.lookup name = some items ∧ Resolves components items ∧
    Height (Crosses components) items below ∧ height = 1 + below
  shallow : height ≤ MAX_COMPONENT_DEPTH

def Remembered (state : Visits) : Prop :=
  ∀ name height, state.lookup name = some (.done height) → Finished components name height

/-- A visit that succeeds measures the list. -/
def Measures (visit : List Item → Visits → Except DictionaryError (Nat × Visits)) : Prop :=
  ∀ items state height after, Remembered components state → visit items state = .ok (height, after) →
    Remembered components after ∧ Height (Crosses components) items height ∧ Resolves components items

variable {components} {visit : List Item → Visits → Except DictionaryError (Nat × Visits)}

theorem Remembered.cons {state : Visits} (remembered : Remembered components state) {name : String}
    {visited : VisitState} (finished : ∀ height, visited = .done height → Finished components name height) :
    Remembered components ((name, visited) :: state) := by
  intro other height found
  rw [List.lookup_cons] at found
  by_cases same : other = name
  · subst same
    rw [beq_self_eq_true] at found
    exact finished height (Option.some.inj found)
  · rw [beq_false_of_ne same] at found
    exact remembered other height found

theorem visitComponent_exact (measures : Measures components visit) {name : String} {state after : Visits}
    {height : Nat} (remembered : Remembered components state)
    (visited : visitComponent components visit name state = .ok (height, after)) :
    Remembered components after ∧ Finished components name height := by
  unfold visitComponent at visited
  split at visited
  · rename_i known isKnown
    obtain ⟨rfl, rfl⟩ := Prod.mk.inj (Except.ok.inj visited)
    exact ⟨remembered, remembered name known isKnown⟩
  · cases visited
  · split at visited
    · cases visited
    · rename_i items isItems
      split at visited
      · cases visited
      · rename_i below inside isBelow
        have opened : Remembered components ((name, .inProgress) :: state) := by
          refine remembered.cons fun height isDone => ?_
          cases isDone
        obtain ⟨inner, height_, resolves⟩ := measures _ _ _ _ opened isBelow
        dsimp only at visited
        split at visited
        · cases visited
        · rename_i notTooDeep
          obtain ⟨rfl, rfl⟩ := Prod.mk.inj (Except.ok.inj visited)
          have finished : Finished components name (1 + below) :=
            ⟨⟨items, below, isItems, resolves, height_, rfl⟩, Nat.le_of_not_lt notTooDeep⟩
          refine ⟨inner.cons fun height isDone => ?_, finished⟩
          cases isDone
          exact finished

theorem visitItem_exact (measures : Measures components visit) {item : Item} {state after : Visits}
    {reach : Nat} (remembered : Remembered components state)
    (visited : visitItem components visit item state = .ok (reach, after)) :
    Remembered components after ∧ Height (Crosses components) [item] reach ∧ Resolves components [item] := by
  cases item with
  | field name required =>
      obtain ⟨rfl, rfl⟩ := Prod.mk.inj (Except.ok.inj visited)
      refine ⟨remembered, .leaf not_crosses_field, ?_⟩
      intro other mentions
      cases mentions with
      | component listed => cases List.mem_singleton.mp listed
      | group listed _ => cases List.mem_singleton.mp listed
  | group name required inner =>
      unfold visitItem at visited
      dsimp only at visited
      split at visited
      · cases visited
      · rename_i below inside isBelow
        obtain ⟨rfl, rfl⟩ := Prod.mk.inj (Except.ok.inj visited)
        obtain ⟨remembers, height, resolves⟩ := measures _ _ _ _ remembered isBelow
        rw [Nat.add_comm]
        refine ⟨remembers, height.succ crosses_group, fun other mentions => ?_⟩
        cases mentions with
        | component listed => cases List.mem_singleton.mp listed
        | group listed inside =>
            cases List.mem_singleton.mp listed
            exact resolves other inside
  | component name required =>
      obtain ⟨remembers, ⟨items, below, isItems, _, height, rfl⟩, _⟩ :=
        visitComponent_exact measures remembered visited
      rw [Nat.add_comm]
      refine ⟨remembers, height.succ (crosses_component isItems), fun other mentions => ?_⟩
      cases mentions with
      | component listed =>
          cases List.mem_singleton.mp listed
          exact Option.isSome_of_mem isItems
      | group listed _ => cases List.mem_singleton.mp listed

theorem visitEach_exact (measures : Measures components visit) {items : List Item} {state after : Visits}
    {start height : Nat} (remembered : Remembered components state)
    (visited : visitEach (visitItem components visit) items start state = .ok (height, after)) :
    Remembered components after ∧ Resolves components items ∧
      ∃ tallest, Height (Crosses components) items tallest ∧ height = max start tallest := by
  induction items generalizing state start with
  | nil =>
      obtain ⟨rfl, rfl⟩ := Prod.mk.inj (Except.ok.inj visited)
      refine ⟨remembered, fun other mentions => ?_, 0, .leaf fun _ => not_crosses_nil, ?_⟩
      · cases mentions with
        | component listed => cases listed
        | group listed _ => cases listed
      · exact (Nat.max_zero _).symm
  | cons item rest ih =>
      rw [visitEach] at visited
      split at visited
      · cases visited
      · rename_i reach inside isReach
        obtain ⟨remembers, first, resolvesFirst⟩ := visitItem_exact measures remembered isReach
        obtain ⟨remembers, resolvesLater, tallest, later, isMax⟩ := ih remembers visited
        refine ⟨remembers, resolves_cons resolvesFirst resolvesLater, max reach tallest,
          first.union crosses_cons later, ?_⟩
        rw [isMax]
        split <;> omega

theorem visitItems_measures (components : List (String × List Item)) (room : Nat) :
    Measures components (visitItems components room) := by
  induction room with
  | zero =>
      intro items state height after _ visited
      cases visited
  | succ room ih =>
      intro items state height after remembered visited
      obtain ⟨remembers, resolves, tallest, isHeight, isMax⟩ := visitEach_exact ih remembered visited
      rw [isMax, Nat.zero_max]
      exact ⟨remembers, isHeight, resolves⟩

theorem visitAll_exact {order : List String} {state : Visits} (remembered : Remembered components state)
    (visited : visitAll components order state = .ok ()) :
    ∀ name ∈ order, ∃ height, Finished components name height := by
  induction order generalizing state with
  | nil => exact nofun
  | cons name rest ih =>
      rw [visitAll] at visited
      split at visited
      · cases visited
      · rename_i height after isHeight
        obtain ⟨remembers, finished⟩ := visitComponent_exact (visitItems_measures _ _) remembered isHeight
        intro other mem
        rcases List.mem_cons.mp mem with rfl | later
        · exact ⟨height, finished⟩
        · exact ih remembers visited other later

end Exact

/-! ## A sound graph passes -/

section Passes

variable (components : List (String × List Item))

/-- The components on the current path lead to the list being visited. -/
def Pending (state : Visits) (items : List Item) : Prop :=
  ∀ name, state.lookup name = some .inProgress → ∃ entered, components.lookup name = some entered ∧
    ReflTransGen (Crosses components) entered items

/-- The same components are on the path. -/
def SameOpen (state after : Visits) : Prop :=
  ∀ name, after.lookup name = some .inProgress ↔ state.lookup name = some .inProgress

/-- With room for the paths of a list, its visit succeeds. -/
def Succeeds (visit : List Item → Visits → Except DictionaryError (Nat × Visits)) (room : Nat) : Prop :=
  ∀ items state, Remembered components state → Pending components state items →
    (∀ n, Walks (Crosses components) n items → n < room) → Resolves components items →
    ∃ height after, visit items state = .ok (height, after) ∧ SameOpen state after

variable {components} (sound : SoundGraph components)
  {visit : List Item → Visits → Except DictionaryError (Nat × Visits)} {room : Nat}

theorem SameOpen.pending {state after : Visits} {items : List Item} (same : SameOpen state after)
    (pending : Pending components state items) : Pending components after items :=
  fun name isOpen => pending name ((same name).mp isOpen)

theorem Pending.inside {state : Visits} {items inner : List Item} (pending : Pending components state items)
    (crosses : Crosses components items inner) : Pending components state inner := by
  intro name isOpen
  obtain ⟨entered, defined, leads⟩ := pending name isOpen
  exact ⟨entered, defined, leads.tail crosses⟩

include sound

/-- No component on the path is referenced from where it leads. -/
theorem Pending.closed {state : Visits} {items inner : List Item} {name : String}
    (pending : Pending components state items) (defined : components.lookup name = some inner)
    (crosses : Crosses components items inner) : state.lookup name ≠ some .inProgress := by
  intro isOpen
  obtain ⟨entered, isEntered, leads⟩ := pending name isOpen
  obtain rfl := Option.some.inj (isEntered.symm.trans defined)
  have cycle : TransGen (Crosses components) entered entered := .tail' leads crosses
  refine not_reaches_self MAX_COMPONENT_DEPTH (fun n walks => ?_) cycle
  have := sound.shallow name entered defined n walks
  omega

theorem visitComponent_succeeds (measures : Measures components visit)
    (succeeds : Succeeds components visit room) {name : String} {items : List Item} {state : Visits}
    (remembered : Remembered components state) (defined : components.lookup name = some items)
    (closed : state.lookup name ≠ some .inProgress)
    (pending : Pending components ((name, .inProgress) :: state) items)
    (fits : ∀ n, Walks (Crosses components) n items → n < room) :
    ∃ height after, visitComponent components visit name state = .ok (height, after) ∧
      SameOpen state after := by
  unfold visitComponent
  split
  · exact ⟨_, _, rfl, fun _ => Iff.rfl⟩
  · rename_i isOpen
    exact absurd isOpen closed
  · rename_i unseen
    have opened : Remembered components ((name, .inProgress) :: state) := by
      refine remembered.cons fun height isDone => ?_
      cases isDone
    obtain ⟨below, after, visited, same⟩ :=
      succeeds items _ opened pending fits (sound.defined name items defined)
    obtain ⟨_, height, _⟩ := measures _ _ _ _ opened visited
    have shallow := sound.shallow name items defined below height.reached
    rw [defined]
    dsimp only
    rw [visited]
    dsimp only
    rw [if_neg (Nat.not_lt.mpr shallow)]
    refine ⟨_, _, rfl, fun other => ?_⟩
    by_cases isName : other = name
    · subst isName
      rw [List.lookup_cons_self, unseen]
      exact ⟨nofun, nofun⟩
    · rw [List.lookup_cons, beq_false_of_ne isName]
      dsimp only
      rw [same other, List.lookup_cons, beq_false_of_ne isName]

theorem visitItem_succeeds (measures : Measures components visit) (succeeds : Succeeds components visit room)
    {item : Item} {whole : List Item} {state : Visits} (remembered : Remembered components state)
    (pending : Pending components state whole)
    (fits : ∀ n, Walks (Crosses components) n whole → n < room + 1) (resolves : Resolves components whole)
    (listed : item ∈ whole) :
    ∃ reach after, visitItem components visit item state = .ok (reach, after) ∧ SameOpen state after := by
  cases item with
  | field name required => exact ⟨0, state, rfl, fun _ => Iff.rfl⟩
  | group name required inner =>
      have crosses : Crosses components whole inner := .group listed
      obtain ⟨below, after, visited, same⟩ := succeeds inner state remembered (pending.inside crosses)
        (fun n walks => Nat.lt_of_succ_lt_succ (fits (n + 1) (.step crosses walks)))
        (fun other mentions => resolves other (.group listed mentions))
      refine ⟨1 + below, after, ?_, same⟩
      unfold visitItem
      dsimp only
      rw [visited]
  | component name required =>
      obtain ⟨inner, defined⟩ := Option.isSome_iff_exists.mp (resolves name (.component listed))
      have crosses : Crosses components whole inner := .component listed defined
      refine visitComponent_succeeds sound measures succeeds remembered defined
        (pending.closed sound defined crosses) ?_
        (fun n walks => Nat.lt_of_succ_lt_succ (fits (n + 1) (.step crosses walks)))
      intro other isOpen
      rw [List.lookup_cons] at isOpen
      by_cases same : other = name
      · exact ⟨inner, same ▸ defined, .refl⟩
      · rw [beq_false_of_ne same] at isOpen
        exact pending.inside crosses other isOpen

theorem visitEach_succeeds (measures : Measures components visit) (succeeds : Succeeds components visit room)
    {items whole : List Item} {state : Visits} (start : Nat) (remembered : Remembered components state)
    (pending : Pending components state whole)
    (fits : ∀ n, Walks (Crosses components) n whole → n < room + 1) (resolves : Resolves components whole)
    (listed : ∀ item ∈ items, item ∈ whole) :
    ∃ height after, visitEach (visitItem components visit) items start state = .ok (height, after) ∧
      SameOpen state after := by
  induction items generalizing state start with
  | nil => exact ⟨start, state, rfl, fun _ => Iff.rfl⟩
  | cons item rest ih =>
      obtain ⟨reach, between, visited, same⟩ := visitItem_succeeds sound measures succeeds remembered
        pending fits resolves (listed item List.mem_cons_self)
      have remembers := (visitItem_exact measures remembered visited).1
      obtain ⟨height, after, visitedLater, sameLater⟩ := ih (if reach > start then reach else start)
        remembers (same.pending pending) fun other mem => listed other (List.mem_cons_of_mem _ mem)
      refine ⟨height, after, ?_, fun name => (sameLater name).trans (same name)⟩
      rw [visitEach, visited]
      exact visitedLater

theorem visitItems_succeeds (room : Nat) : Succeeds components (visitItems components room) room := by
  induction room with
  | zero => exact fun items _ _ _ fits _ => absurd (fits 0 (.here items)) (Nat.lt_irrefl 0)
  | succ room ih =>
      intro items state remembered pending fits resolves
      exact visitEach_succeeds sound (visitItems_measures components room) ih 0 remembered pending fits
        resolves fun _ mem => mem

theorem visitAll_succeeds {order : List String} {state : Visits} (remembered : Remembered components state)
    (idle : ∀ name, state.lookup name ≠ some .inProgress)
    (defined : ∀ name ∈ order, (components.lookup name).isSome) :
    visitAll components order state = .ok () := by
  induction order generalizing state with
  | nil => rfl
  | cons name rest ih =>
      obtain ⟨items, isItems⟩ := Option.isSome_iff_exists.mp (defined name List.mem_cons_self)
      obtain ⟨height, after, visited, same⟩ := visitComponent_succeeds sound
        (visitItems_measures components _) (visitItems_succeeds sound MAX_COMPONENT_DEPTH) remembered
        isItems (idle name) (by
          intro other isOpen
          rw [List.lookup_cons] at isOpen
          by_cases isName : other = name
          · exact ⟨items, isName ▸ isItems, .refl⟩
          · rw [beq_false_of_ne isName] at isOpen
            exact absurd isOpen (idle other))
        (fun n walks => by
          have := sound.shallow name items isItems n walks
          omega)
      rw [visitAll, visited]
      exact ih (visitComponent_exact (visitItems_measures components _) remembered visited).1
        (fun other isOpen => idle other ((same other).mp isOpen))
        fun other mem => defined other (List.mem_cons_of_mem _ mem)

end Passes

/-- The check succeeds on the sound graphs. -/
theorem checkComponentGraph_ok_iff {components : List (String × List Item)} {order : List String}
    (complete : ∀ name, name ∈ order ↔ (components.lookup name).isSome) :
    checkComponentGraph components order = .ok () ↔ SoundGraph components := by
  have fresh : Remembered components [] := fun _ _ => nofun
  constructor
  · intro checked
    have finished := visitAll_exact fresh checked
    have shallow : ∀ name items, components.lookup name = some items →
        ∀ n, Walks (Crosses components) n items → 1 + n ≤ MAX_COMPONENT_DEPTH := by
      intro name items isItems n walks
      obtain ⟨_, ⟨found, below, isFound, _, height, rfl⟩, fits⟩ :=
        finished name ((complete name).mpr (Option.isSome_of_mem isItems))
      obtain rfl := Option.some.inj (isFound.symm.trans isItems)
      have := height.bound n walks
      omega
    refine ⟨fun name items isItems => ?_, acyclic_of_shallow shallow, shallow⟩
    obtain ⟨_, ⟨found, _, isFound, resolves, _⟩, _⟩ :=
      finished name ((complete name).mpr (Option.isSome_of_mem isItems))
    obtain rfl := Option.some.inj (isFound.symm.trans isItems)
    exact resolves
  · intro sound
    exact visitAll_succeeds sound fresh (fun _ => nofun) fun name mem => (complete name).mp mem

/-! ## Resolving over a sound graph -/

section Resolving

variable {resolver : Resolver} {error : DictionaryError}

theorem tag_error {name : String} (failed : resolver.tag name = .error error) : error.ofComponents = false := by
  unfold Resolver.tag at failed
  split at failed
  · cases failed
  · cases failed
    rfl

/-- Components that can be expanded `room` levels down. -/
def Fits (resolver : Resolver) (room : Nat) (items : List Item) : Prop :=
  Resolves resolver.components items ∧ ∀ n, Walks (Crosses resolver.components) n items → n ≤ room

theorem Fits.of_cons {item : Item} {rest : List Item} {room : Nat} (fits : Fits resolver room (item :: rest)) :
    Fits resolver room [item] ∧ Fits resolver room rest := by
  obtain ⟨resolves, bound⟩ := fits
  refine ⟨⟨fun name mentions => resolves name ?_, fun n walks => bound n ?_⟩,
    fun name mentions => resolves name ?_, fun n walks => bound n ?_⟩
  · cases mentions with
    | component listed =>
        obtain rfl := List.mem_singleton.mp listed
        exact .component List.mem_cons_self
    | group listed inside =>
        obtain rfl := List.mem_singleton.mp listed
        exact .group List.mem_cons_self inside
  · exact walks.of_steps fun q crosses => (crosses_cons q).mpr (.inl crosses)
  · cases mentions with
    | component listed => exact .component (List.mem_cons_of_mem _ listed)
    | group listed inside => exact .group (List.mem_cons_of_mem _ listed) inside
  · exact walks.of_steps fun q crosses => (crosses_cons q).mpr (.inr crosses)

theorem Fits.of_group {name : String} {required : Bool} {inner : List Item} {room : Nat}
    (fits : Fits resolver room [.group name required inner]) : Fits resolver room inner := by
  obtain ⟨resolves, bound⟩ := fits
  refine ⟨fun other mentions => resolves other (.group (List.mem_singleton_self _) mentions),
    fun n walks => ?_⟩
  have := bound (n + 1) (.step (.group (List.mem_singleton_self _)) walks)
  omega

/-- A scan for the first tag fails on a field's or a group's name only, if the
first tags of components do. -/
theorem firstTag_sound {room : Nat} (ofComponent : ∀ {name : String} {required : Bool} (known : FirstTags)
      {error : DictionaryError}, Fits resolver room [.component name required] →
      resolver.componentFirstTag room name known = .error error → error.ofComponents = false)
    {items : List Item} (fits : Fits resolver room items) (known : FirstTags)
    (failed : resolver.firstTag room items known = .error error) : error.ofComponents = false := by
  unfold Resolver.firstTag at failed
  induction items generalizing known with
  | nil => cases failed
  | cons item rest ih =>
      obtain ⟨first, later⟩ := fits.of_cons
      cases item with
      | field name _ | group name _ _ =>
          rw [Resolver.firstTagWith] at failed
          split at failed
          · cases failed
          · rename_i isError
            cases failed
            exact tag_error isError
      | component name _ =>
          rw [Resolver.firstTagWith] at failed
          split at failed
          · rename_i isError
            cases failed
            exact ofComponent known first isError
          · cases failed
          · exact ih later _ failed

variable (sound : SoundGraph resolver.components)

include sound

/-- A component of a list that fits is defined, and fits one level below. -/
theorem Fits.of_component {name : String} {required : Bool} {room : Nat}
    (fits : Fits resolver room [.component name required]) :
    ∃ inner below, resolver.components.lookup name = some inner ∧ room = below + 1 ∧
      Fits resolver below inner := by
  obtain ⟨resolves, bound⟩ := fits
  obtain ⟨inner, defined⟩ :=
    Option.isSome_iff_exists.mp (resolves name (.component (List.mem_singleton_self _)))
  have crosses : Crosses resolver.components [.component name required] inner :=
    .component (List.mem_singleton_self _) defined
  have some : 1 ≤ room := bound 1 (.step crosses (.here inner))
  refine ⟨inner, room - 1, defined, by omega, sound.defined name inner defined, fun n walks => ?_⟩
  have := bound (n + 1) (.step crosses walks)
  omega

theorem componentFirstTag_sound {name : String} {required : Bool} {room : Nat} (known : FirstTags)
    (fits : Fits resolver room [.component name required])
    (failed : resolver.componentFirstTag room name known = .error error) :
    error.ofComponents = false := by
  induction room generalizing name required known error with
  | zero =>
      obtain ⟨_, _, _, isRoom, _⟩ := fits.of_component sound
      cases isRoom
  | succ room ih =>
      obtain ⟨inner, below, defined, isRoom, fitsInner⟩ := fits.of_component sound
      obtain rfl := Nat.succ.inj isRoom
      rw [Resolver.componentFirstTag] at failed
      split at failed
      · cases failed
      · rw [defined] at failed
        dsimp only at failed
        split at failed
        · rename_i isError
          cases failed
          exact firstTag_sound (fun known _ fits => ih known fits) fitsInner known isError
        · cases failed

mutual

theorem member_sound : ∀ (item : Item) (known : FirstTags) (error : DictionaryError),
    Fits resolver MAX_COMPONENT_DEPTH [item] → resolver.member item known = .error error →
    error.ofComponents = false
  | .field name required, known, error, _, failed => by
      rw [Resolver.member] at failed
      split at failed
      · rename_i isError
        cases failed
        unfold Resolver.fieldRef at isError
        split at isError
        · cases isError
        · rename_i tagError
          cases isError
          exact tag_error tagError
      · cases failed
  | .group name required items, known, error, fits, failed => by
      have inner := fits.of_group
      rw [Resolver.member] at failed
      split at failed
      · rename_i isError
        cases failed
        unfold Resolver.group at isError
        split at isError
        · rename_i tagError
          cases isError
          exact tag_error tagError
        · split at isError
          · rename_i firstError
            cases isError
            exact firstTag_sound (fun known _ fits => componentFirstTag_sound sound known fits)
              inner known firstError
          · cases isError
            rfl
          · split at isError
            · rename_i membersError
              cases isError
              exact members_sound items _ _ inner membersError
            · cases isError
      · cases failed
  | .component name required, known, error, fits, failed => by
      obtain ⟨inner, _, defined, _⟩ := fits.of_component sound
      rw [Resolver.member, defined] at failed
      cases failed

/-- Resolving members does not fail for a component. -/
theorem members_sound : ∀ (items : List Item) (known : FirstTags) (error : DictionaryError),
    Fits resolver MAX_COMPONENT_DEPTH items → resolver.members items known = .error error →
    error.ofComponents = false
  | [], known, error, _, failed => by cases failed
  | item :: rest, known, error, fits, failed => by
      obtain ⟨first, later⟩ := fits.of_cons
      rw [Resolver.members] at failed
      split at failed
      · rename_i isError
        cases failed
        exact member_sound item _ _ first isError
      · split at failed
        · rename_i isError
          cases failed
          exact members_sound rest _ _ later isError
        · cases failed

end

end Resolving

end IronFix.Dict.Loader
