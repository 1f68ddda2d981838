import IronFix.Dictionary.GroupSound
import IronFix.Dictionary.MessageLayout
import IronFix.Dictionary.Truncation

/-!
# The validator and the group reader agree

Both walk the groups of a message, the validator once and with every entry
tracked, the reader on demand and entry by entry. A message the validator
accepts has been walked without an error; so it parses, and the reader hands
out the parse.
-/

namespace IronFix.Dict

/-! ## A validation that finds nothing -/

/-- What a limit of at least one cuts off leaves no success. -/
theorem unlimited_of_valid {validator : Validator} {message : TagValue.RawMessage}
    (valid : validator.validate message = .ok ()) : validator.validateWith none message = .ok () := by
  obtain ⟨bounded, unbounded, cut, one, other⟩ :=
    @validateWith_cut MAX_VALIDATION_ERRORS validator message
  obtain ⟨whole, limited⟩ := cut.finish
  rw [other, whole]
  have isOk : bounded.finish = .ok () := one ▸ valid
  rw [limited] at isOk
  by_cases empty : unbounded.errors = []
  · rw [if_pos empty]
  · rw [if_neg empty] at isOk
    split at isOk <;> cases isOk

theorem finish_ok {sink : ErrorSink} (isOk : sink.finish = .ok ()) : sink.errors = [] := by
  unfold ErrorSink.finish at isOk
  by_contra some
  have full : (if sink.truncated = true then sink.errors ++ [.errorLimitReached MAX_VALIDATION_ERRORS]
      else sink.errors).isEmpty = false := by
    split
    · simp
    · exact List.isEmpty_eq_false_iff.mpr some
  dsimp only at isOk
  rw [full] at isOk
  cases isOk

/-- Without a limit every error pushed stays. -/
theorem push_none_ne (sink : ErrorSink) (error : ValidationError) : (sink.push none error).errors ≠ [] :=
  List.append_ne_nil_of_right_ne_nil _ (List.cons_ne_nil _ _)

theorem pushAll_nil {sink : ErrorSink} {errors : List ValidationError}
    (nothing : (errors.foldl (ErrorSink.push none) sink).errors = []) :
    sink.errors = [] ∧ errors = [] := by
  rw [(pushAll_none sink errors).1] at nothing
  exact List.append_eq_nil_iff.mp nothing

theorem commit_nil {sink : ErrorSink} {pending : Pending}
    (nothing : (sink.commit none pending).errors = []) : sink.errors = [] := by
  unfold ErrorSink.commit at nothing
  dsimp only at nothing
  have empty := (pushAll_nil nothing).1
  split at empty
  · exact empty
  · exact empty

/-- Every field of a message without errors is defined. -/
theorem checkValues_nil {tags : TagResolver} {fields : List TagValue.FieldRef} {sink : ErrorSink}
    (nothing : (fields.foldl (tags.checkValue none) sink).errors = []) :
    sink.errors = [] ∧ ∀ field ∈ fields, (tags.field field.tag).isSome := by
  induction fields generalizing sink with
  | nil => exact ⟨nothing, nofun⟩
  | cons field rest ih =>
      obtain ⟨here, later⟩ := ih nothing
      unfold TagResolver.checkValue at here
      cases isField : tags.field field.tag with
      | none =>
          rw [isField] at here
          exact absurd here (push_none_ne _ _)
      | some definition =>
          rw [isField] at here
          refine ⟨?_, fun other mem => ?_⟩
          · dsimp only at here
            split at here
            · exact absurd here (push_none_ne _ _)
            · split at here
              · exact here
              · split at here
                · exact here
                · exact absurd here (push_none_ne _ _)
          · rcases List.mem_cons.mp mem with rfl | mem
            · rw [isField]
              rfl
            · exact later other mem

/-! ## The walk of a validation that finds nothing -/

theorem holdAll_errors (checks : Checks) (errors : List ValidationError) :
    (errors.foldl (Checks.hold none) checks).sink.errors = checks.sink.errors := by
  induction errors generalizing checks with
  | nil => rfl
  | cons error rest ih =>
      refine (ih _).trans ?_
      obtain ⟨sink, stack, accepted⟩ := checks
      cases stack with
      | nil => rfl
      | cons pending outer => rfl

theorem leaveGroup_errors (checks : Checks) (wellFormed : Bool) :
    (checks.leaveGroup wellFormed).sink.errors = checks.sink.errors := by
  obtain ⟨sink, stack, accepted⟩ := checks
  cases stack with
  | nil => rfl
  | cons pending outer =>
      cases wellFormed with
      | false => rfl
      | true =>
          cases outer with
          | nil => rfl
          | cons parent outer => rfl

/-- An event that is no error leaves the errors as they are; any other adds
one. -/
theorem visit_nil {tags : TagResolver} {checks : Checks} {event : Event}
    (nothing : (checks.visit none tags event).sink.errors = []) :
    checks.sink.errors = [] ∧ event.clean = true := by
  cases event with
  | enterGroup group => exact ⟨nothing, rfl⟩
  | entryClosed group entry seen => exact ⟨(holdAll_errors _ _).symm.trans nothing, rfl⟩
  | leaveGroup group wellFormed entries => exact ⟨(leaveGroup_errors _ _).symm.trans nothing, rfl⟩
  | invalidCount group value => exact absurd nothing (push_none_ne _ _)
  | delimiterMismatch group found => exact absurd nothing (push_none_ne _ _)
  | repeatedTag group tag => exact absurd nothing (push_none_ne _ _)
  | countMismatch group declared actual => exact absurd nothing (push_none_ne _ _)
  | tooDeep group => exact absurd nothing (push_none_ne _ _)

theorem visitAll_nil {tags : TagResolver} {checks : Checks} {events : List Event}
    (nothing : (events.foldl (Checks.visit none tags) checks).sink.errors = []) :
    checks.sink.errors = [] ∧ Clean events := by
  induction events generalizing checks with
  | nil => exact ⟨nothing, nofun⟩
  | cons event rest ih =>
      obtain ⟨here, later⟩ := ih nothing
      obtain ⟨before, isClean⟩ := visit_nil here
      refine ⟨before, fun other mem => ?_⟩
      rcases List.mem_cons.mp mem with rfl | mem
      · exact isClean
      · exact later other mem

/-- What the tag's own check leaves. -/
theorem duplicate_nil {checks : Checks} {seen : List Nat} {tag : Nat} {name : String}
    (nothing : (if seen.contains tag then checks.push none (.duplicateTag tag name) else checks).sink.errors =
      []) : checks.sink.errors = [] ∧ tag ∉ seen := by
  split at nothing
  · exact absurd nothing (push_none_ne _ _)
  · rename_i notSeen
    exact ⟨nothing, fun mem => notSeen (List.contains_iff_mem.mpr mem)⟩

/-- The errors of a walk are there at its end. -/
theorem walkMessage_nil {tags : TagResolver} {level : Level} {msgType : String} {fuel : Nat}
    {checks : Checks} {seen : List Nat} {fields : List TagValue.FieldRef}
    (nothing : (Checks.walkMessage none tags level msgType fuel checks seen fields).1.sink.errors = []) :
    checks.sink.errors = [] := by
  induction fuel generalizing checks seen fields with
  | zero => exact nothing
  | succ fuel ih =>
      cases fields with
      | nil => exact nothing
      | cons field rest =>
          rw [Checks.walkMessage] at nothing
          split at nothing
          · exact ih nothing
          · dsimp only at nothing
            split at nothing
            · exact (duplicate_nil (visitAll_nil (ih nothing)).1).1
            · have allowed := ih nothing
              split at allowed
              · exact (duplicate_nil allowed).1
              · exact absurd allowed (push_none_ne _ _)

/-- A message whose walk finds nothing wrong parses, and has no tag twice at
its level. -/
theorem walkMessage_parses {set : GroupSet} {tags : TagResolver} {level : Level} {msgType : String}
    (groups : set.groups = level.groups) (members : set.levelTags = level.members) {fuel : Nat}
    {checks : Checks} {seen : List Nat} {fields : List TagValue.FieldRef}
    (enough : fields.length ≤ fuel) (defined : ∀ field ∈ fields, (tags.field field.tag).isSome)
    (nothing : (Checks.walkMessage none tags level msgType fuel checks seen fields).1.sink.errors = []) :
    ∃ items, fields = flattenItems items ∧ ParsesMessage set [] items ∧
      (items.map Item.tag).Nodup ∧ ∀ item ∈ items, item.tag ∉ seen := by
  induction fuel generalizing checks seen fields with
  | zero =>
      obtain rfl := List.length_eq_zero_iff.mp (Nat.le_zero.mp enough)
      exact ⟨[], rfl, .nil, List.nodup_nil, nofun⟩
  | succ fuel ih =>
      cases fields with
      | nil => exact ⟨[], rfl, .nil, List.nodup_nil, nofun⟩
      | cons field rest =>
          obtain ⟨definition, isField⟩ := Option.isSome_iff_exists.mp (defined field List.mem_cons_self)
          have enough := Nat.le_of_succ_le_succ enough
          rw [Checks.walkMessage, isField] at nothing
          dsimp only at nothing
          -- The item that starts here, ahead of items of other tags.
          have adds : ∀ (item : Item) (items : List Item), item.head = field → field.tag ∉ seen →
              (items.map Item.tag).Nodup → (∀ other ∈ items, other.tag ∉ field.tag :: seen) →
              ((item :: items).map Item.tag).Nodup ∧ ∀ other ∈ item :: items, other.tag ∉ seen := by
            intro item items isHead notSeen once fresh
            have isTag : item.tag = field.tag := congrArg _ isHead
            refine ⟨List.nodup_cons.mpr ⟨fun mem => ?_, once⟩, fun other mem => ?_⟩
            · obtain ⟨other, listed, same⟩ := List.mem_map.mp mem
              exact fresh other listed (List.mem_cons.mpr (.inl (same.trans isTag)))
            · rcases List.mem_cons.mp mem with rfl | mem
              · rw [isTag]
                exact notSeen
              · exact fun old => fresh other mem (List.mem_cons_of_mem _ old)
          have sameGroup : set.get field.tag = level.group field.tag := by
            unfold GroupSet.get Level.group
            rw [groups]
          cases isGroup : level.group field.tag with
          | none =>
              rw [isGroup] at nothing
              dsimp only at nothing
              have allowed := walkMessage_nil nothing
              obtain ⟨items, isRest, parses, once, fresh⟩ :=
                ih enough (fun other mem => defined other (List.mem_cons_of_mem _ mem)) nothing
              split at allowed
              · obtain ⟨-, notSeen⟩ := duplicate_nil allowed
                refine ⟨.field field :: items, ?_, .field (sameGroup.trans isGroup) parses,
                  adds _ items rfl notSeen once fresh⟩
                rw [flattenItems, flattenItem, isRest]
                rfl
              · exact absurd allowed (push_none_ne _ _)
          | some group =>
              rw [isGroup] at nothing
              dsimp only at nothing
              obtain ⟨checked, clean⟩ := visitAll_nil (walkMessage_nil nothing)
              obtain ⟨-, notSeen⟩ := duplicate_nil checked
              have opens : set.get field.tag = some group := sameGroup.trans isGroup
              have shorter := walkGroup_shrinks true fullRoom level.members group field rest
              obtain ⟨entries, isRun, run⟩ :=
                walkGroup_accepts fullRoom level.members group field rest (get_sound opens) clean
              have among : ∀ other ∈ (walkGroup true fullRoom level.members group (field :: rest)).rest,
                  (tags.field other.tag).isSome := by
                intro other mem
                refine defined other (List.mem_cons_of_mem _ ?_)
                rw [isRun]
                exact List.mem_append_right _ mem
              obtain ⟨items, isRest, parses, once, fresh⟩ := ih (shorter.trans enough) among nothing
              rw [isRest] at isRun run
              refine ⟨.group field entries :: items, ?_, .group opens ?_ parses,
                adds _ items rfl notSeen once fresh⟩
              · rw [flattenItems, flattenItem, List.cons_append, ← isRun]
              · rw [members, List.append_nil]
                exact run

/-! ## What is accepted is read -/

theorem ParsesMessage.plain_of_mem {set : GroupSet} {items : List Item} {after : List TagValue.FieldRef}
    (message : ParsesMessage set after items) {f : TagValue.FieldRef} (listed : .field f ∈ items) :
    set.get f.tag = none := by
  induction message with
  | nil => cases listed
  | field plain _ ih =>
      rcases List.mem_cons.mp listed with same | later
      · cases same
        exact plain
      · exact ih later
  | group _ _ _ ih =>
      rcases List.mem_cons.mp listed with same | later
      · cases same
      · exact ih later

theorem ParsesMessage.instance_of_mem {set : GroupSet} {items : List Item}
    {after : List TagValue.FieldRef} (message : ParsesMessage set after items) {count : TagValue.FieldRef}
    {entries : List (List Item)} (listed : .group count entries ∈ items) :
    ∃ spec, set.get count.tag = some spec ∧ IsInstance fullRoom spec count entries := by
  induction message with
  | nil => cases listed
  | field _ _ ih =>
      rcases List.mem_cons.mp listed with same | later
      · cases same
      · exact ih later
  | group opens parses _ ih =>
      rcases List.mem_cons.mp listed with same | later
      · cases same
        exact ⟨_, opens, parses.isInstance⟩
      · exact ih later

/-- A message that parses is read, every group of the layout. -/
theorem ParsesMessage.read {set : GroupSet} {items : List Item} (message : ParsesMessage set [] items)
    (once : (items.map Item.tag).Nodup) {countTag : Nat} {spec : LayoutGroup}
    (opens : set.get countTag = some spec) :
    (∃ count entries found, .group count entries ∈ items ∧ count.tag = countTag ∧
        IsInstance fullRoom spec count entries ∧
        set.read (flattenItems items) countTag = .ok (some found) ∧ ReadsBack fullRoom found entries) ∨
      countTag ∉ items.map Item.tag ∧ set.read (flattenItems items) countTag = .ok none := by
  have clear : set.read [] countTag = .ok none := by
    unfold GroupSet.read
    rw [opens]
    rfl
  by_cases holds : countTag ∈ items.map Item.tag
  · obtain ⟨item, listed, isTag⟩ := List.mem_map.mp holds
    cases item with
    | field f =>
        have plain := message.plain_of_mem listed
        rw [show f.tag = countTag from isTag, opens] at plain
        cases plain
    | group count entries =>
        obtain ⟨spec', isSpec, instance_⟩ := message.instance_of_mem listed
        obtain rfl : count.tag = countTag := isTag
        obtain rfl := Option.some.inj (opens.symm.trans isSpec)
        obtain ⟨before, later, rfl⟩ := List.append_of_mem listed
        rw [List.map_append, List.map_cons] at once
        have apart := List.nodup_append.mp once
        obtain ⟨found, isRead, reads⟩ := message.read_parsed
          (fun item mem same => apart.2.2 _ (List.mem_map_of_mem mem) _ List.mem_cons_self same)
          (fun item mem same => (List.nodup_cons.mp apart.2.1).1
            (List.mem_map.mpr ⟨item, mem, same⟩)) clear
        rw [List.append_nil] at isRead
        exact .inl ⟨count, entries, found, listed, rfl, instance_, isRead, reads⟩
  · refine .inr ⟨holds, ?_⟩
    have passes : set.readFrom (flattenItems items) spec countTag (flattenItems items ++ []).length none
        (flattenItems items ++ []) = .ok none :=
      message.readFrom_passes (fun item mem same => holds (List.mem_map.mpr ⟨item, mem, same⟩))
        (Nat.le_refl _) none
    rw [List.append_nil] at passes
    unfold GroupSet.read
    rw [opens]
    exact passes

/-- A message the validator accepts is the flattening of one tree, and the
reader hands it out: for every group of the layout its one instance, every
entry of it and of the groups nested there, or that there is none. -/
theorem validated_reads_back (validator : Validator) (message : TagValue.RawMessage)
    (valid : validator.validate message = .ok ()) :
    ∃ layout items, MessageLayout.resolved validator.transport (validator.dict .application)
        (fromUtf8Lossy message.msgType.code) = .ok layout ∧
      message.fields = flattenItems items ∧ (items.map Item.tag).Nodup ∧
      (∀ countTag spec, layout.groups.get countTag = some spec →
        (∃ count entries found, .group count entries ∈ items ∧ count.tag = countTag ∧
          IsInstance fullRoom spec count entries ∧
          layout.read message countTag = .ok (some found) ∧ ReadsBack fullRoom found entries) ∨
        countTag ∉ items.map Item.tag ∧ layout.read message countTag = .ok none) ∧
      ∀ tag, layout.groups.field message.fields tag = (items.find? (·.tag == tag)).map Item.head := by
  have isOk := unlimited_of_valid valid
  unfold Validator.validateWith at isOk
  dsimp only at isOk
  cases isResolved : validator.resolve (fromUtf8Lossy message.msgType.code) with
  | none =>
      rw [isResolved] at isOk
      exact absurd (finish_ok isOk) (push_none_ne _ _)
  | some resolved =>
      obtain ⟨definition, body⟩ := resolved
      rw [isResolved] at isOk
      have nothing := finish_ok isOk
      unfold Validator.checkMessage at nothing
      generalize isExpanded : ScopeBuilder.expand validator.transport (validator.dict body) definition =
        expanded at nothing
      obtain ⟨scope, builder⟩ := expanded
      dsimp only at nothing
      -- The layout, which has no schema error.
      have walked := commit_nil (pushAll_nil (pushAll_nil nothing).1).1
      obtain ⟨values, defined⟩ := checkValues_nil (walkMessage_nil walked)
      have noErrors := (pushAll_nil values).2
      let layout : MessageLayout := ⟨fromUtf8Lossy message.msgType.code, scope.level.groups,
        scope.level.members, by
          have laid := (expand_laid validator.transport (validator.dict body) definition).sound
          rw [isExpanded] at laid
          exact laid⟩
      have isLayout : MessageLayout.resolved validator.transport (validator.dict .application)
          (fromUtf8Lossy message.msgType.code) = .ok layout := by
        unfold MessageLayout.resolved
        dsimp only
        split
        · rename_i unresolved
          cases unresolved.symm.trans isResolved
        · rename_i definition' body' isResolved'
          cases isResolved'.symm.trans isResolved
          split
          · rename_i error more isErrors
            have errors : builder.errors = error :: more := by
              rw [← isErrors]
              exact congrArg (·.2.errors) isExpanded.symm
            cases noErrors.symm.trans errors
          · have sameDict : (⟨validator.transport, some (validator.dict .application), none⟩ : Validator).dict
                body = validator.dict body := by
              cases body <;> rfl
            simp only [layout, sameDict, isExpanded]
      obtain ⟨items, isFields, parses, once, -⟩ := @walkMessage_parses layout.groups _ _ _ rfl rfl _ _ _ _
        (Nat.le_refl _) defined walked
      refine ⟨layout, items, isLayout, isFields, once, fun countTag spec opens => ?_, fun tag => ?_⟩
      · have reads := parses.read once opens
        have isRead : layout.read message countTag = layout.groups.read (flattenItems items) countTag := by
          unfold MessageLayout.read
          rw [if_neg (not_not.mpr rfl), isFields]
        rw [isRead]
        exact reads
      · have finds : layout.groups.fieldFrom tag (flattenItems items ++ []).length (flattenItems items ++ []) =
            ((items.find? (·.tag == tag)).map Item.head).or (layout.groups.field [] tag) :=
          parses.fieldFrom_items (Nat.le_refl _)
        rw [List.append_nil] at finds
        rw [isFields]
        refine finds.trans ?_
        exact Option.or_none

section Party

/-- A trade report that may name its parties. -/
def partyDictionary : Dictionary where
  fields := [(35, ⟨35, "MsgType", .string, none, none⟩), (448, ⟨448, "PartyID", .string, none, none⟩),
    (453, ⟨453, "NoPartyIDs", .numInGroup, none, none⟩)]
  messages := [("AE", ⟨"AE", "TradeCaptureReport", .app,
    [.group ⟨453, "NoPartyIDs", 448, false, [.field ⟨448, "PartyID", true⟩]⟩]⟩)]
  components := []
  header := [⟨35, "MsgType", true⟩]
  headerGroups := []
  trailer := []
  trailerGroups := []

/-- One that names one. -/
def partyReport : TagValue.RawMessage where
  buffer := []
  beginString := ⟨0, 0⟩
  body := ⟨0, 0⟩
  msgType := ⟨[0x41, 0x45], by decide, by decide, by decide⟩
  fields := [⟨35, [0x41, 0x45]⟩, digitField 453 1, digitField 448 7]

theorem validated_reads_back_party :
    (Validator.new partyDictionary).validate partyReport = .ok () ∧
      ∃ layout items, MessageLayout.resolved partyDictionary partyDictionary "AE" = .ok layout ∧
        partyReport.fields = flattenItems items ∧ (items.map Item.tag).Nodup := by
  have valid : (Validator.new partyDictionary).validate partyReport = .ok () := by decide
  obtain ⟨layout, items, isLayout, isFields, once, -, -⟩ :=
    validated_reads_back (Validator.new partyDictionary) partyReport valid
  exact ⟨valid, layout, items, isLayout, isFields, once⟩

end Party

end IronFix.Dict
