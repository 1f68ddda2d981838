import IronFix.Dictionary.Unrolling

/-!
# The expansion is bounded and faithful

What the expansion charges stays within its budget and its ceiling. Where no
error is reported and no component reaches itself, each level is its member
list unrolled in place: sorted, without duplicates, and of the groups that
share a count tag the first.
-/

namespace IronFix.Dict

open Lib.FirstWins Relation

/-! ## What every step keeps -/

theorem foldl_keeps {α β : Type*} {P : β → Prop} {f : β → α → β} {l : List α}
    (step : ∀ state, ∀ x ∈ l, P state → P (f state x)) {state : β} (holds : P state) :
    P (l.foldl f state) := by
  induction l generalizing state with
  | nil => exact holds
  | cons x rest ih =>
      exact ih (fun state y mem => step state y (List.mem_cons_of_mem _ mem))
        (step state x List.mem_cons_self holds)

/-- What a charge and an error keep. -/
structure Kept (P : ScopeBuilder → Prop) : Prop where
  spend : ∀ b name depth, P b → P (b.spend name depth).2
  fail : ∀ b error, P b → P (b.fail error)

section Keeping

variable {dict : Dictionary} {P : ScopeBuilder → Prop} (kept : Kept P)

include kept

/-- A whole expansion keeps what its charges and errors keep. -/
theorem add_keeps (room : Nat) :
    (∀ state group required collect path, P state.2 →
      P (addGroup dict room state group required collect path).2) ∧
    ∀ state reference collect path, P state.2 → P (addComponent dict room state reference collect path).2 := by
  induction room with
  | zero =>
      refine ⟨fun state group required collect path holds => ?_,
        fun state reference collect path holds => ?_⟩
      · rw [addGroup]
        exact kept.spend _ _ _ holds
      · rw [addComponent]
        exact kept.spend _ _ _ holds
  | succ room ih =>
      obtain ⟨groupKeeps, componentKeeps⟩ := ih
      refine ⟨fun state group required collect path holds => ?_,
        fun state reference collect path holds => ?_⟩
      · rw [addGroup]
        have charged := kept.spend _ group.name (depthOf (room + 1)) holds
        split
        · rename_i ends
          rw [ends] at charged
          exact charged
        · rename_i b goes
          rw [goes] at charged
          refine foldl_keeps (P := fun s => P s.2)
            (fun s component _ => componentKeeps s component true path) ?_
          refine foldl_keeps (P := fun s => P s.2)
            (fun s nested _ => groupKeeps s nested nested.required true path) ?_
          exact charged
      · rw [addComponent]
        have charged := kept.spend _ reference.name (depthOf (room + 1)) holds
        split
        · rename_i ends
          rw [ends] at charged
          exact charged
        · rename_i b goes
          rw [goes] at charged
          split
          · exact kept.fail _ _ charged
          · rename_i component _
            split
            · exact charged
            · refine foldl_keeps (P := fun s => P s.2)
                (fun s nested _ => componentKeeps s nested _ _) ?_
              refine foldl_keeps (P := fun s => P s.2)
                (fun s group _ => groupKeeps s group group.required _ _) ?_
              exact charged

end Keeping

/-- What was let through was charged, and lies within the ceiling. -/
structure Accounted (b : ScopeBuilder) : Prop where
  charged : b.budget + b.expanded.length = MAX_SCOPE_NODES
  shallow : ∀ node ∈ b.expanded, node.2 ≤ MAX_SCOPE_DEPTH

theorem accounted_kept : Kept Accounted where
  spend b name depth accounted := by
    unfold ScopeBuilder.spend
    by_cases deep : depth > MAX_SCOPE_DEPTH
    · rw [if_pos deep]
      exact ⟨accounted.charged, accounted.shallow⟩
    · rw [if_neg deep]
      split
      · rename_i remaining budget
        refine ⟨?_, ?_⟩
        · have charged := accounted.charged
          rw [budget] at charged
          show remaining + (b.expanded ++ [(name, depth)]).length = _
          rw [List.length_append, List.length_singleton]
          omega
        · intro node mem
          rcases List.mem_append.mp mem with before | now
          · exact accounted.shallow node before
          · rw [List.mem_singleton.mp now]
            exact Nat.le_of_not_lt deep
      · split
        · exact accounted
        · exact ⟨accounted.charged, accounted.shallow⟩
  fail _ _ accounted := ⟨accounted.charged, accounted.shallow⟩

/-- An error once reported stays. -/
theorem failed_kept : Kept (fun b => b.errors ≠ []) where
  spend b name depth failed := by
    unfold ScopeBuilder.spend
    split
    · exact List.append_ne_nil_of_left_ne_nil failed _
    · split
      · exact failed
      · split
        · exact failed
        · exact List.append_ne_nil_of_left_ne_nil failed _
  fail _ _ failed := List.append_ne_nil_of_left_ne_nil failed _

/-! ## What an expansion without errors adds -/

/-- A group laid out as its entries unroll. -/
inductive Lays : Opening → LayoutGroup → Prop
  | mk {opening : Opening} {contents : Contents} {layouts : List LayoutGroup}
      (unrolls : Unrolls opening.dict true opening.group.members contents)
      (below : List.Forall₂ Lays contents.opens layouts) :
      Lays opening {
        countTag := opening.group.countTag
        name := opening.group.name
        delimiterTag := opening.group.delimiterTag
        required := opening.required
        entry := Level.finish {
          members := opening.group.delimiterTag :: contents.tags
          required := entryRequired opening.group.delimiterTag [] contents.needs
          groups := layouts
          groupTags := [] } }

theorem Lays.countTag {opening : Opening} {layout : LayoutGroup} (lays : Lays opening layout) :
    layout.countTag = opening.countTag := by
  cases lays
  rfl

theorem Lays.required {opening : Opening} {layout : LayoutGroup} (lays : Lays opening layout) :
    layout.required = opening.required := by
  cases lays
  rfl

namespace Level

/-- A level with what contents add, their groups laid out. -/
def extend (level : Level) (contents : Contents) (layouts : List LayoutGroup) : Level :=
  { level with
    members := level.members ++ contents.tags
    required := level.required ++ contents.needs
    groups := level.groups ++ layouts }

variable {level : Level} {one two : Contents} {layouts layouts' : List LayoutGroup}

theorem extend_extend :
    (level.extend one layouts).extend two layouts' = level.extend (one.append two) (layouts ++ layouts') := by
  unfold extend Contents.append
  simp only [List.append_assoc]

theorem extend_empty : level.extend .empty [] = level := by
  cases level
  unfold extend Contents.empty
  simp only [List.append_nil]

/-- Fields are added as the contents of a list of fields. -/
theorem addFields_eq (level : Level) (fields : List FieldRef) (required : Bool) :
    level.addFields fields required =
      level.extend ⟨fields.map FieldRef.tag, needsOf required fields, []⟩ [] := by
  unfold addFields
  induction fields generalizing level with
  | nil => exact extend_empty.symm
  | cons field rest ih =>
      rw [List.foldl_cons, ih]
      unfold extend addField needsOf
      by_cases asked : (required && field.required) = true
      · simp [asked]
      · simp [asked]

end Level

/-- The components on the path all lead to `name`. -/
def Behind (dict : Dictionary) (path : List String) (name : String) : Prop :=
  ∀ earlier ∈ path, TransGen (References dict) earlier name

section Faithful

variable {dict : Dictionary} (acyclic : Acyclic dict)

/-- What groups opening at a level add. -/
def opened (dict : Dictionary) (collect : Bool) (groups : List GroupDef) : Contents where
  tags := groups.map GroupDef.countTag
  needs := []
  opens := groups.map fun group => ⟨dict, group, group.required && collect⟩

/-- What `addGroup` does where it reports nothing, with `room`. -/
def GroupFaithful (dict : Dictionary) (room : Nat) : Prop :=
  ∀ level b group required collect path, (∀ name, Mentions group.members name → Behind dict path name) →
    (addGroup dict room (level, b) group required collect path).2.errors = [] →
    ∃ layout, Lays ⟨dict, group, required && collect⟩ layout ∧
      (addGroup dict room (level, b) group required collect path).1 =
        level.extend ⟨[group.countTag], [], []⟩ [layout]

/-- What `addComponent` does where it reports nothing, with `room`. -/
def ComponentFaithful (dict : Dictionary) (room : Nat) : Prop :=
  ∀ level b reference collect path, Behind dict path reference.name →
    (addComponent dict room (level, b) reference collect path).2.errors = [] →
    ∃ component contents layouts, dict.getComponent reference.name = some component ∧
      Unrolls dict (collect && reference.required) component.members contents ∧
      List.Forall₂ Lays contents.opens layouts ∧
      (addComponent dict room (level, b) reference collect path).1 = level.extend contents layouts

theorem foldGroups_faithful {room : Nat} (faithful : GroupFaithful dict room) {collect : Bool}
    {path : List String} (groups : List GroupDef) (level : Level) (b : ScopeBuilder)
    (behind : ∀ group ∈ groups, ∀ name, Mentions group.members name → Behind dict path name)
    (clean : (groups.foldl (fun state group =>
      addGroup dict room state group group.required collect path) (level, b)).2.errors = []) :
    ∃ layouts, List.Forall₂ Lays (opened dict collect groups).opens layouts ∧
      (groups.foldl (fun state group =>
        addGroup dict room state group group.required collect path) (level, b)).1 =
        level.extend (opened dict collect groups) layouts := by
  induction groups generalizing level b with
  | nil => exact ⟨[], .nil, Level.extend_empty.symm⟩
  | cons group rest ih =>
      rw [List.foldl_cons] at clean ⊢
      have cleanFirst : (addGroup dict room (level, b) group group.required collect path).2.errors = [] := by
        by_contra failed
        exact foldl_keeps (P := fun s => s.2.errors ≠ []) (fun s group _ =>
          (add_keeps failed_kept room).1 s group group.required collect path) failed clean
      obtain ⟨layout, lays, added⟩ :=
        faithful level b group group.required collect path (behind group List.mem_cons_self) cleanFirst
      generalize addGroup dict room (level, b) group group.required collect path = state at *
      obtain ⟨level', b'⟩ := state
      obtain rfl : level' = _ := added
      obtain ⟨layouts, all, added'⟩ := ih _ b' (fun g mem => behind g (List.mem_cons_of_mem _ mem)) clean
      refine ⟨layout :: layouts, .cons lays all, added'.trans ?_⟩
      rw [Level.extend_extend]
      rfl

theorem foldComponents_faithful {room : Nat} (faithful : ComponentFaithful dict room) {collect : Bool}
    {path : List String} (references : List ComponentRef) (level : Level) (b : ScopeBuilder)
    (behind : ∀ reference ∈ references, Behind dict path reference.name)
    (clean : (references.foldl (fun state reference =>
      addComponent dict room state reference collect path) (level, b)).2.errors = []) :
    ∃ contents layouts, UnrollsAll dict collect references contents ∧
      List.Forall₂ Lays contents.opens layouts ∧
      (references.foldl (fun state reference =>
        addComponent dict room state reference collect path) (level, b)).1 =
        level.extend contents layouts := by
  induction references generalizing level b with
  | nil => exact ⟨.empty, [], .nil, .nil, Level.extend_empty.symm⟩
  | cons reference rest ih =>
      rw [List.foldl_cons] at clean ⊢
      have cleanFirst : (addComponent dict room (level, b) reference collect path).2.errors = [] := by
        by_contra failed
        exact foldl_keeps (P := fun s => s.2.errors ≠ []) (fun s reference _ =>
          (add_keeps failed_kept room).2 s reference collect path) failed clean
      obtain ⟨component, contents, layouts, found, ⟨inner, inside, rfl⟩, lays, added⟩ :=
        faithful level b reference collect path (behind reference List.mem_cons_self) cleanFirst
      generalize addComponent dict room (level, b) reference collect path = state at *
      obtain ⟨level', b'⟩ := state
      obtain rfl : level' = _ := added
      obtain ⟨others, layouts', all, lays', added'⟩ :=
        ih _ b' (fun r mem => behind r (List.mem_cons_of_mem _ mem)) clean
      refine ⟨_, layouts ++ layouts', .cons found inside all, List.rel_append lays lays', ?_⟩
      rw [added', Level.extend_extend]

theorem own_eq {required : Bool} {members : List Member} : own dict required members =
    Contents.append ⟨(fieldsOf members).map FieldRef.tag, needsOf required (fieldsOf members), []⟩
      (opened dict required (groupsOf members)) := by
  unfold own opened Contents.append
  simp

/-- A member list added without errors adds its contents. -/
theorem members_faithful {room : Nat} (groupFaithful : GroupFaithful dict room)
    (componentFaithful : ComponentFaithful dict room) {collect : Bool} {path : List String}
    (members : List Member) (level : Level) (b : ScopeBuilder)
    (behind : ∀ name, Mentions members name → Behind dict path name)
    (clean : ((componentsOf members).foldl (fun state reference =>
      addComponent dict room state reference collect path) ((groupsOf members).foldl (fun state group =>
        addGroup dict room state group group.required collect path)
          (level.addFields (fieldsOf members) collect, b))).2.errors = []) :
    ∃ contents layouts, Unrolls dict collect members contents ∧
      List.Forall₂ Lays contents.opens layouts ∧
      ((componentsOf members).foldl (fun state reference =>
        addComponent dict room state reference collect path) ((groupsOf members).foldl (fun state group =>
          addGroup dict room state group group.required collect path)
            (level.addFields (fieldsOf members) collect, b))).1 = level.extend contents layouts := by
  have cleanGroups : ((groupsOf members).foldl (fun state group =>
      addGroup dict room state group group.required collect path)
        (level.addFields (fieldsOf members) collect, b)).2.errors = [] := by
    by_contra failed
    exact foldl_keeps (P := fun s => s.2.errors ≠ []) (fun s reference _ =>
      (add_keeps failed_kept room).2 s reference collect path) failed clean
  obtain ⟨layouts, lays, added⟩ := foldGroups_faithful groupFaithful (groupsOf members) _ b
    (fun group mem name inside => behind name (.group (mem_groupsOf.mp mem) inside)) cleanGroups
  generalize (groupsOf members).foldl (fun state group =>
    addGroup dict room state group group.required collect path)
      (level.addFields (fieldsOf members) collect, b) = state at *
  obtain ⟨level', b'⟩ := state
  obtain rfl : level' = _ := added
  obtain ⟨inner, layouts', all, lays', added'⟩ := foldComponents_faithful componentFaithful
    (componentsOf members) _ b'
    (fun reference mem => behind _ (.component (mem_componentsOf.mp mem))) clean
  refine ⟨_, layouts ++ layouts', ⟨inner, all, rfl⟩, ?_, ?_⟩
  · rw [own_eq]
    exact List.rel_append lays lays'
  · rw [added', Level.addFields_eq, own_eq, Level.extend_extend, Level.extend_extend, Contents.append_assoc]
    rfl

theorem spend_refused {b b' : ScopeBuilder} {name : String} {depth : Nat}
    (refused : b.spend name depth = (false, b')) : b'.errors ≠ [] := by
  unfold ScopeBuilder.spend at refused
  split at refused
  · cases refused
    exact List.append_ne_nil_of_right_ne_nil _ (List.cons_ne_nil _ _)
  · split at refused
    · cases refused
    · split at refused
      · rename_i reported
        cases refused
        exact List.ne_nil_of_mem reported
      · cases refused
        exact List.append_ne_nil_of_right_ne_nil _ (List.cons_ne_nil _ _)

theorem spend_shallow {b : ScopeBuilder} {name : String} : (b.spend name (depthOf 0)).2.errors ≠ [] :=
  List.append_ne_nil_of_right_ne_nil _ (List.cons_ne_nil _ _)

include acyclic

/-- Whatever room there is, an expansion that reports nothing is faithful. -/
theorem add_faithful (room : Nat) : GroupFaithful dict room ∧ ComponentFaithful dict room := by
  induction room with
  | zero =>
      refine ⟨fun level b group required collect path _ clean => ?_,
        fun level b reference collect path _ clean => ?_⟩
      · rw [addGroup] at clean
        exact absurd clean spend_shallow
      · rw [addComponent] at clean
        exact absurd clean spend_shallow
  | succ room ih =>
      obtain ⟨groupFaithful, componentFaithful⟩ := ih
      refine ⟨fun level b group required collect path behind clean => ?_,
        fun level b reference collect path behind clean => ?_⟩
      · rw [addGroup] at clean ⊢
        rcases charged : b.spend group.name (depthOf (room + 1)) with ⟨allowed, b'⟩
        rw [charged] at clean
        cases allowed with
        | false => exact absurd clean (spend_refused charged)
        | true =>
            obtain ⟨contents, layouts, unrolls, lays, added⟩ := members_faithful groupFaithful
              componentFaithful group.members { Level.empty with members := [group.delimiterTag] } b'
              behind clean
            refine ⟨_, .mk unrolls lays, ?_⟩
            dsimp only [GroupDef.components, GroupDef.groups, GroupDef.fields]
            rw [added]
            simp only [Level.extend, Level.empty, List.nil_append, List.append_nil, List.singleton_append]
      · rw [addComponent] at clean ⊢
        rcases charged : b.spend reference.name (depthOf (room + 1)) with ⟨allowed, b'⟩
        rw [charged] at clean
        cases allowed with
        | false => exact absurd clean (spend_refused charged)
        | true =>
            cases found : dict.getComponent reference.name with
            | none =>
                dsimp only at clean
                rw [found] at clean
                exact absurd clean (List.append_ne_nil_of_right_ne_nil _ (List.cons_ne_nil _ _))
            | some component =>
                dsimp only at clean ⊢
                rw [found] at clean
                dsimp only at clean ⊢
                -- On the path, it would reach itself.
                have fresh : reference.name ∉ path := fun onPath => acyclic _ (behind _ onPath)
                rw [if_neg fresh] at clean ⊢
                have behind' : ∀ name, Mentions component.members name →
                    Behind dict (reference.name :: path) name := by
                  intro name mentioned earlier listed
                  have step : References dict reference.name name := ⟨component, found, mentioned⟩
                  rcases List.mem_cons.mp listed with rfl | before
                  · exact .single step
                  · exact .tail (behind earlier before) step
                obtain ⟨contents, layouts, unrolls, lays, added⟩ := members_faithful groupFaithful
                  componentFaithful component.members level b' behind' clean
                exact ⟨component, contents, layouts, rfl, unrolls, lays, added⟩

end Faithful

end IronFix.Dict
