import IronFix.Dictionary.Expansion
import IronFix.Dictionary.Validator
import IronFix.Dictionary.Group

/-!
# Message layouts

The layout of a message type: the groups its expanded schema opens at the
message level, and the tags accepted there. What an expansion lays out is
sound, whatever the dictionary lists.
-/

namespace IronFix.Dict

open Lib.FirstWins

/-! ## What is laid out -/

/-- A level under construction: its groups are sound, it lists their count
fields, and `kept`. -/
structure Laid (kept : List Nat) (level : Level) : Prop where
  sound : ∀ group ∈ level.groups, Sound group
  counts : ∀ group ∈ level.groups, group.countTag ∈ level.members
  keeps : ∀ tag ∈ kept, tag ∈ level.members

theorem Laid.addFields {kept : List Nat} {level : Level} (laid : Laid kept level)
    (fields : List FieldRef) (required : Bool) : Laid kept (level.addFields fields required) := by
  rw [Level.addFields_eq]
  obtain ⟨sound, counts, keeps⟩ := laid
  refine ⟨?_, ?_, fun tag mem => List.mem_append_left _ (keeps tag mem)⟩
  · intro group mem
    exact sound group (by simpa [Level.extend] using mem)
  · intro group mem
    exact List.mem_append_left _ (counts group (by simpa [Level.extend] using mem))

/-- What is required is of no account. -/
theorem Laid.requiring {kept : List Nat} {level : Level} (laid : Laid kept level)
    (required : List (Nat × String)) : Laid kept { level with required := required } :=
  ⟨laid.sound, laid.counts, laid.keeps⟩

/-- A finished level keeps its groups, sorted, and its tags. -/
theorem Laid.finish {kept : List Nat} {level : Level} (laid : Laid kept level) :
    Laid kept level.finish := by
  have listed : ∀ group ∈ level.finish.groups, group ∈ level.groups :=
    fun group mem => (lookup_some (mem_firsts.mp mem)).1
  exact ⟨fun group mem => laid.sound group (listed group mem),
    fun group mem => mem_firsts_self.mpr (laid.counts group (listed group mem)),
    fun tag mem => mem_firsts_self.mpr (laid.keeps tag mem)⟩

/-- A group whose entries are laid out, delimiter and all, is sound. -/
theorem Laid.group {group : GroupDef} {entry : Level} (laid : Laid [group.delimiterTag] entry)
    (required : Bool) : Sound {
      countTag := group.countTag
      name := group.name
      delimiterTag := group.delimiterTag
      required := required
      entry := entry.finish } := by
  have finished := laid.finish
  exact .mk ascending_firsts (finished.keeps _ List.mem_cons_self) ascending_firsts finished.counts
    finished.sound

/-- Expanding a group or a component keeps a level laid out. -/
theorem add_laid (dict : Dictionary) (room : Nat) :
    (∀ kept state group required collect path, Laid kept state.1 →
      Laid kept (addGroup dict room state group required collect path).1) ∧
    ∀ kept state reference collect path, Laid kept state.1 →
      Laid kept (addComponent dict room state reference collect path).1 := by
  induction room with
  | zero =>
      refine ⟨fun kept state group required collect path laid => ?_,
        fun kept state reference collect path laid => ?_⟩
      · rw [addGroup]
        exact laid
      · rw [addComponent]
        exact laid
  | succ room ih =>
      obtain ⟨groupLaid, componentLaid⟩ := ih
      refine ⟨fun kept state group required collect path laid => ?_,
        fun kept state reference collect path laid => ?_⟩
      · rw [addGroup]
        split
        · exact laid
        · rename_i b _
          -- The entry's level starts with the delimiter, and the folds keep it.
          have start : Laid [group.delimiterTag] { Level.empty with members := [group.delimiterTag] } :=
            ⟨by rintro layout ⟨⟩, by rintro layout ⟨⟩, fun _ mem => mem⟩
          have whole : Laid [group.delimiterTag] (group.components.foldl (fun state component =>
              addComponent dict room state component true path) (group.groups.foldl (fun state nested =>
                addGroup dict room state nested nested.required true path)
                  (Level.addFields { Level.empty with members := [group.delimiterTag] } group.fields true,
                    b))).1 := by
            refine foldl_keeps (P := fun s => Laid [group.delimiterTag] s.1)
              (fun s component _ => componentLaid _ s component true path) ?_
            refine foldl_keeps (P := fun s => Laid [group.delimiterTag] s.1)
              (fun s nested _ => groupLaid _ s nested nested.required true path) ?_
            exact start.addFields group.fields true
          refine ⟨?_, ?_, fun tag mem => List.mem_append_left _ (laid.keeps tag mem)⟩
          · intro layout mem
            rcases List.mem_append.mp mem with old | new
            · exact laid.sound layout old
            · rw [List.mem_singleton.mp new]
              exact (whole.requiring _).group _
          · intro layout mem
            rcases List.mem_append.mp mem with old | new
            · exact List.mem_append_left _ (laid.counts layout old)
            · rw [List.mem_singleton.mp new]
              exact List.mem_append_right _ List.mem_cons_self
      · rw [addComponent]
        split
        · exact laid
        · split
          · exact laid
          · rename_i b _ component _
            split
            · exact laid
            · refine foldl_keeps (P := fun s => Laid kept s.1)
                (fun s nested _ => componentLaid _ s nested _ _) ?_
              refine foldl_keeps (P := fun s => Laid kept s.1)
                (fun s group _ => groupLaid _ s group group.required _ _) ?_
              exact laid.addFields _ _

/-- The message level of an expansion is laid out. -/
theorem expand_laid (transport body : Dictionary) (msgDef : MessageDef) :
    Laid [] (ScopeBuilder.expand transport body msgDef).1.level := by
  have groups : ∀ (dict : Dictionary) (groups : List GroupDef) (state : Level × ScopeBuilder),
      Laid [] state.1 → Laid [] (groups.foldl (fun state group =>
        addGroup dict fullRoom state group group.required true []) state).1 :=
    fun dict groups state laid => foldl_keeps (P := fun s => Laid [] s.1) (fun s group _ =>
      (add_laid dict fullRoom).1 [] s group group.required true []) laid
  have components : ∀ (references : List ComponentRef) (state : Level × ScopeBuilder),
      Laid [] state.1 → Laid [] (references.foldl (fun state reference =>
        addComponent body fullRoom state reference true []) state).1 :=
    fun references state laid => foldl_keeps (P := fun s => Laid [] s.1) (fun s reference _ =>
      (add_laid body fullRoom).2 [] s reference true []) laid
  have empty : Laid [] Level.empty := ⟨nofun, nofun, nofun⟩
  unfold ScopeBuilder.expand ScopeBuilder.build
  dsimp only
  refine Laid.finish (components _ _ (groups _ _ _ ?_))
  refine Laid.addFields (groups _ _ _ ?_) _ _
  refine Laid.addFields (groups _ _ _ ?_) _ _
  exact empty.addFields _ _

/-! ## The layout of a message type -/

/-- The repeating groups of one message type. -/
structure MessageLayout where
  msgType : String
  /-- Top-level groups, sorted by count tag. -/
  opens : List LayoutGroup
  /-- Every tag the message level accepts. -/
  members : List Nat
  sound : ∀ group ∈ opens, Sound group

namespace MessageLayout

/-- Builds the layout of `msgType`, header and trailer from `transport`, the
body from the dictionary that defines it. -/
def resolved (transport application : Dictionary) (msgType : String) :
    Except GroupError MessageLayout :=
  let validator : Validator := ⟨transport, some application, none⟩
  match validator.resolve msgType with
  | none => .error (.unknownMsgType msgType)
  | some (msgDef, body) =>
      let expanded := ScopeBuilder.expand transport (validator.dict body) msgDef
      match expanded.2.errors with
      | error :: _ => .error (.invalidSchema error)
      | [] => .ok ⟨msgType, expanded.1.level.groups, expanded.1.level.members,
          (expand_laid transport (validator.dict body) msgDef).sound⟩

/-- The groups that may open at the message level. -/
def groups (layout : MessageLayout) : GroupSet := ⟨layout.opens, layout.members, layout.sound⟩

/-- Reads a group of `message` at the message level. -/
def read (layout : MessageLayout) (message : TagValue.RawMessage) (countTag : Nat) :
    Except GroupError (Option GroupEntries) :=
  let found := fromUtf8Lossy message.msgType.code
  if found ≠ layout.msgType then .error (.msgTypeMismatch layout.msgType found)
  else layout.groups.read message.fields countTag

end MessageLayout

end IronFix.Dict
