import IronFix.Dictionary.GroupRead

/-!
# Groups of a message, flattened and read

A message whose groups are flattened trees reads as these trees, whatever
follows them: `read` finds the instance of a group, `field` the fields of the
message level, and neither takes a field of a group's run for its own.
-/

namespace IronFix.Dict

/-! ## Levels that are apart -/

section Apart

variable {nests : LayoutGroup → TagValue.FieldRef → List (List Item) → Prop} {parses : Nests}
  {group : LayoutGroup}

/-- What an entry's items are followed by starts outside the groups nested
there. -/
theorem startsOutside_behind {items : List Item} {behind : List TagValue.FieldRef} (apart : Apart group)
    (isItems : ∀ item ∈ items, IsItem nests group item)
    (ends : ∀ field, behind.head? = some field →
      field.tag ∈ group.entry.members ∨ field.tag ∉ group.allTags)
    {nested : LayoutGroup} (below : nested ∈ group.entry.groups) :
    StartsOutside nested.allTags (flattenItems items ++ behind) := by
  cases items with
  | nil =>
      intro field isHead
      rw [flattenItems, List.nil_append] at isHead
      rcases ends field isHead with member | outside
      · obtain ⟨rest, rfl⟩ := List.head?_eq_some_iff.mp isHead
        have outside : StartsOutside nested.allTags (field :: rest) :=
          startsOutside_of_member apart below member
        exact outside field rfl
      · exact fun mem => outside (mem_allTags.mpr (.inr ⟨nested, below, mem⟩))
  | cons item items =>
      obtain ⟨more, same⟩ := flattenItem_cons item
      rw [flattenItems, same]
      refine startsOutside_of_member apart below (isMember_iff.mp ?_)
      have isItem := isItems item List.mem_cons_self
      cases item with
      | field f => exact isItem.1
      | group count entries => exact isItem.1

/-- Instances of nested groups parse, where what is behind starts outside
them. -/
def Delimits (nests : LayoutGroup → TagValue.FieldRef → List (List Item) → Prop) (parses : Nests) : Prop :=
  ∀ enclosing group count entries behind, Sound group → Apart group → nests group count entries →
    StartsOutside group.allTags behind → parses enclosing group count entries behind

variable (delimits : Delimits nests parses) (sound : Sound group) (apart : Apart group)

include delimits sound apart

theorem items_parse {items : List Item} {behind : List TagValue.FieldRef}
    (isItems : ∀ item ∈ items, IsItem nests group item)
    (ends : ∀ field, behind.head? = some field →
      field.tag ∈ group.entry.members ∨ field.tag ∉ group.allTags) :
    ParsesItems parses group behind items := by
  induction items with
  | nil => trivial
  | cons item items ih =>
      have later := fun other mem => isItems other (List.mem_cons_of_mem _ mem)
      refine ⟨?_, ih later⟩
      have isItem := isItems item List.mem_cons_self
      cases item with
      | field f => exact isItem
      | group count entries =>
          obtain ⟨member, nested, isNested, instance_⟩ := isItem
          have below := (nested_mem isNested).1
          exact ⟨member, nested, isNested, delimits _ _ _ _ _ (sound.nested below) (apart.nested below)
            instance_ (startsOutside_behind apart later ends below)⟩

/-- An entry is followed by another or by what is outside. -/
theorem entries_parse {entries : List (List Item)} {behind : List TagValue.FieldRef}
    (isEntries : ∀ entry ∈ entries, IsEntry nests group entry)
    (outside : StartsOutside group.allTags behind) : ParsesEntries parses group behind entries := by
  induction entries with
  | nil => trivial
  | cons items entries ih =>
      have later := fun other mem => isEntries other (List.mem_cons_of_mem _ mem)
      obtain ⟨led, once, isItems⟩ := isEntries items List.mem_cons_self
      have follows : ∀ field, (flattenEntries entries ++ behind).head? = some field →
          field.tag = group.delimiterTag ∨ field.tag ∉ group.allTags := by
        intro field isHead
        cases entries with
        | nil =>
            rw [flattenEntries, List.nil_append] at isHead
            exact .inr (outside field isHead)
        | cons next entries =>
            obtain ⟨first, more, same, isDelimiter⟩ := flattenItems_led (later next List.mem_cons_self).led
            rw [flattenEntries, same] at isHead
            cases isHead
            exact .inl isDelimiter
      refine ⟨⟨led, once, ?_, fun field isHead => ?_⟩, ih later⟩
      · refine items_parse delimits sound apart isItems fun field isHead => ?_
        rcases follows field isHead with isDelimiter | outside
        · exact .inl (isDelimiter ▸ sound.delimiter)
        · exact .inr outside
      · refine (follows field isHead).symm.imp_left fun outside : field.tag ∉ group.allTags => ?_
        exact Bool.eq_false_iff.mpr fun has => outside (mem_allTags.mpr (.inl (isMember_iff.mp has)))

end Apart

/-- An instance parses where its levels are apart and what is behind starts
outside them. -/
theorem instance_parses (room : Nat) : Delimits (IsInstance room) (Parses room) := by
  induction room with
  | zero => exact fun _ _ _ _ _ _ _ instance_ => instance_.elim
  | succ room ih =>
      intro enclosing group count entries behind sound apart instance_ outside
      obtain ⟨declared, isEntries⟩ := instance_
      refine ⟨declared, entries_parse ih sound apart isEntries outside, fun field isHead => .inl ?_⟩
      exact Bool.eq_false_iff.mpr fun has =>
        outside field isHead (mem_allTags.mpr (.inl (isMember_iff.mp has)))

/-! ## A walk gets on -/

section Shrinks

variable {track : Bool} {walkNested : List Nat → LayoutGroup → List TagValue.FieldRef → Walked}
  {group : LayoutGroup}

/-- Walks take the count field at least. -/
def Shrinks (walkNested : List Nat → LayoutGroup → List TagValue.FieldRef → Walked) : Prop :=
  ∀ enclosing group field rest, (walkNested enclosing group (field :: rest)).rest.length ≤ rest.length

theorem scanEntry_length (shrinks : Shrinks walkNested) (fuel : Nat) (opened : Bool) (seen : List Nat)
    (unparseable : Bool) (fields : List TagValue.FieldRef) :
    (scanEntry track walkNested group fuel opened seen unparseable fields).rest.length ≤ fields.length := by
  induction fuel generalizing opened seen unparseable fields with
  | zero => exact Nat.le_refl _
  | succ fuel ih =>
      cases fields with
      | nil => exact Nat.le_refl _
      | cons field rest =>
          rw [scanEntry]
          split
          · exact Nat.le_refl _
          · split
            · exact Nat.le_refl _
            · refine (ih _ _ _ _).trans ?_
              rw [List.length_cons]
              split
              · exact (shrinks _ _ _ _).trans (Nat.le_succ _)
              · exact Nat.le_succ _

theorem scanEntries_length (shrinks : Shrinks walkNested) (declared : Option Nat) (enclosing : List Nat)
    (fuel entries : Nat) (unparseable : Bool) (fields : List TagValue.FieldRef) :
    (scanEntries track walkNested group declared enclosing fuel entries unparseable fields).rest.length ≤
      fields.length := by
  induction fuel generalizing entries unparseable fields with
  | zero => exact Nat.le_refl _
  | succ fuel ih =>
      cases fields with
      | nil => exact Nat.le_refl _
      | cons field rest =>
          rw [scanEntries]
          split
          · exact Nat.le_refl _
          · split
            · exact Nat.le_refl _
            · exact (ih _ _ _).trans (scanEntry_length shrinks _ _ _ _ _)

theorem leadEntry_length (shrinks : Shrinks walkNested) (declared : Option Nat) (enclosing : List Nat)
    (fields : List TagValue.FieldRef) :
    (leadEntry track walkNested group declared enclosing fields).rest.length ≤ fields.length := by
  cases fields with
  | nil => exact Nat.le_refl _
  | cons field rest =>
      unfold leadEntry
      dsimp only
      split
      · exact scanEntry_length shrinks _ _ _ _ _
      · exact Nat.le_refl _

end Shrinks

theorem walkGroup_shrinks (track : Bool) (room : Nat) : Shrinks (walkGroup track room) := by
  induction room with
  | zero => exact fun _ _ _ _ => Nat.le_refl _
  | succ room ih =>
      intro enclosing group field rest
      rw [walkGroup, walkWith]
      exact (scanEntries_length ih _ _ _ _ _ _).trans (leadEntry_length ih _ _ _)

theorem walkAt_shrinks (track : Bool) (depth : Nat) : Shrinks (walkAt track depth) :=
  walkGroup_shrinks track _

/-! ## Fuel and what was found -/

section Message

variable (set : GroupSet)

/-- Fuel for every field is enough. -/
theorem readFrom_enough (fields : List TagValue.FieldRef) (spec : LayoutGroup) (countTag : Nat)
    {fuel more : Nat} (found : Option GroupEntries) (rest : List TagValue.FieldRef)
    (enough : rest.length ≤ fuel) (enoughMore : rest.length ≤ more) :
    set.readFrom fields spec countTag fuel found rest = set.readFrom fields spec countTag more found rest := by
  induction fuel generalizing more found rest with
  | zero =>
      obtain rfl := List.length_eq_zero_iff.mp (Nat.le_zero.mp enough)
      cases more <;> rfl
  | succ fuel ih =>
      cases rest with
      | nil => cases more <;> rfl
      | cons field rest =>
          obtain ⟨more, rfl⟩ := Nat.exists_eq_succ_of_ne_zero
            (Nat.ne_of_gt (Nat.lt_of_lt_of_le (Nat.succ_pos _) enoughMore))
          have enough := Nat.le_of_succ_le_succ enough
          have enoughMore := Nat.le_of_succ_le_succ enoughMore
          rw [GroupSet.readFrom, GroupSet.readFrom]
          split
          · split
            · rfl
            · dsimp only
              have shorter := walkAt_shrinks true 0 set.levelTags spec field rest
              split
              · rfl
              · exact ih _ _ (shorter.trans enough) (shorter.trans enoughMore)
          · split
            · rename_i group _
              dsimp only
              have shorter := walkAt_shrinks false 0 set.levelTags group field rest
              split
              · rfl
              · exact ih _ _ (shorter.trans enough) (shorter.trans enoughMore)
            · exact ih _ _ enough enoughMore

theorem fieldFrom_enough (tag : Nat) {fuel more : Nat} (rest : List TagValue.FieldRef)
    (enough : rest.length ≤ fuel) (enoughMore : rest.length ≤ more) :
    set.fieldFrom tag fuel rest = set.fieldFrom tag more rest := by
  induction fuel generalizing more rest with
  | zero =>
      obtain rfl := List.length_eq_zero_iff.mp (Nat.le_zero.mp enough)
      cases more <;> rfl
  | succ fuel ih =>
      cases rest with
      | nil => cases more <;> rfl
      | cons field rest =>
          obtain ⟨more, rfl⟩ := Nat.exists_eq_succ_of_ne_zero
            (Nat.ne_of_gt (Nat.lt_of_lt_of_le (Nat.succ_pos _) enoughMore))
          have enough := Nat.le_of_succ_le_succ enough
          have enoughMore := Nat.le_of_succ_le_succ enoughMore
          rw [GroupSet.fieldFrom, GroupSet.fieldFrom]
          split
          · rfl
          · split
            · rename_i group _
              dsimp only
              have shorter := walkAt_shrinks false 0 set.levelTags group field rest
              split
              · rfl
              · exact ih _ (shorter.trans enough) (shorter.trans enoughMore)
            · exact ih _ enough enoughMore

/-- With an instance found, a scan ends with it or an error. -/
theorem readFrom_some (fields : List TagValue.FieldRef) (spec : LayoutGroup) (countTag fuel : Nat)
    (entries : GroupEntries) (rest : List TagValue.FieldRef) :
    set.readFrom fields spec countTag fuel (some entries) rest ≠ .ok none := by
  induction fuel generalizing rest with
  | zero => exact nofun
  | succ fuel ih =>
      cases rest with
      | nil => exact nofun
      | cons field rest =>
          rw [GroupSet.readFrom]
          split
          · exact nofun
          · split
            · dsimp only
              split
              · exact nofun
              · exact ih _
            · exact ih _

/-- Behind a found instance, fields without another leave it found; what
the message's fields are in full is of no account. -/
theorem readFrom_clear (fields whole : List TagValue.FieldRef) (spec : LayoutGroup) (countTag fuel : Nat)
    (found : Option GroupEntries) (rest : List TagValue.FieldRef)
    (clear : set.readFrom fields spec countTag fuel none rest = .ok none) :
    set.readFrom whole spec countTag fuel found rest = .ok found := by
  induction fuel generalizing rest with
  | zero => rfl
  | succ fuel ih =>
      cases rest with
      | nil => rfl
      | cons field rest =>
          rw [GroupSet.readFrom] at clear ⊢
          split at clear
          · rw [if_neg (by exact Bool.false_ne_true)] at clear
            dsimp only at clear
            split at clear
            · cases clear
            · exact absurd clear (readFrom_some set _ _ _ _ _ _)
          · rename_i other
            rw [if_neg other]
            split at clear
            · dsimp only at clear ⊢
              split at clear
              · cases clear
              · exact ih _ clear
            · exact ih _ clear

/-! ## What a clean walk tells its visitors -/

theorem clean_error {events : List Event} (clean : ∀ event ∈ events, event.clean = true)
    (first : FirstError) : (events.foldl FirstError.visit first).error = first.error := by
  induction events generalizing first with
  | nil => rfl
  | cons event events ih =>
      rw [List.foldl_cons, ih fun later mem => clean later (List.mem_cons_of_mem _ mem)]
      have isClean := clean event List.mem_cons_self
      cases event with
      | enterGroup | entryClosed | leaveGroup => rfl
      | invalidCount | delimiterMismatch | repeatedTag | countMismatch | tooDeep => cases isClean

theorem clean_depth {events : List Event} (clean : ∀ event ∈ events, event.clean = true) :
    events.foldl depthGuard none = none := by
  induction events with
  | nil => rfl
  | cons event events ih =>
      have isClean := clean event List.mem_cons_self
      have later := ih fun later mem => clean later (List.mem_cons_of_mem _ mem)
      cases event with
      | enterGroup | entryClosed | leaveGroup => exact later
      | invalidCount | delimiterMismatch | repeatedTag | countMismatch | tooDeep => cases isClean

/-- The entries counted are those of the group walked. -/
theorem left_entries {events : List Event} {group : LayoutGroup} {wellFormed : Bool} {entries : Nat}
    (left : events.getLast? = some (.leaveGroup group wellFormed entries)) (first : FirstError) :
    (events.foldl FirstError.visit first).entries = entries := by
  obtain ⟨front, rfl⟩ := List.getLast?_eq_some_iff.mp left
  rw [List.foldl_append]
  rfl

/-! ## Messages -/

/-- Fields and group instances of the message level, then `after`: no field
opens a group, and an instance is followed by a tag of none of its entries. -/
inductive IsMessage (after : List TagValue.FieldRef) : List Item → Prop
  | nil : IsMessage after []
  | field {f : TagValue.FieldRef} {items : List Item} (plain : set.get f.tag = none)
      (behind : IsMessage after items) : IsMessage after (.field f :: items)
  | group {spec : LayoutGroup} {count : TagValue.FieldRef} {entries : List (List Item)}
      {items : List Item} (opens : set.get count.tag = some spec) (apart : Apart spec)
      (instance_ : IsInstance fullRoom spec count entries)
      (outside : StartsOutside spec.allTags (flattenItems items ++ after))
      (behind : IsMessage after items) : IsMessage after (.group count entries :: items)

variable {set}

theorem get_sound {countTag : Nat} {spec : LayoutGroup} (opens : set.get countTag = some spec) :
    Sound spec := set.sound spec (List.mem_of_find?_eq_some opens)

theorem flattenItems_append (front rest : List Item) :
    flattenItems (front ++ rest) = flattenItems front ++ flattenItems rest := by
  induction front with
  | nil => rfl
  | cons item front ih => rw [List.cons_append, flattenItems, flattenItems, ih, List.append_assoc]

/-- Fields and parsed runs of the message level, then `after`. -/
inductive ParsesMessage (set : GroupSet) (after : List TagValue.FieldRef) : List Item → Prop
  | nil : ParsesMessage set after []
  | field {f : TagValue.FieldRef} {items : List Item} (plain : set.get f.tag = none)
      (behind : ParsesMessage set after items) : ParsesMessage set after (.field f :: items)
  | group {spec : LayoutGroup} {count : TagValue.FieldRef} {entries : List (List Item)}
      {items : List Item} (opens : set.get count.tag = some spec)
      (parses : Parses fullRoom set.levelTags spec count entries (flattenItems items ++ after))
      (behind : ParsesMessage set after items) : ParsesMessage set after (.group count entries :: items)

theorem IsMessage.parses {after : List TagValue.FieldRef} {items : List Item}
    (message : IsMessage set after items) : ParsesMessage set after items := by
  induction message with
  | nil => exact .nil
  | field plain _ ih => exact .field plain ih
  | group opens apart instance_ outside _ ih =>
      exact .group opens (instance_parses fullRoom _ _ _ _ _ (get_sound opens) apart instance_ outside) ih

theorem find_head {i : Item} {tag : Nat} (items : List Item) (same : i.tag = tag) :
    (i :: items).find? (·.tag == tag) = some i := List.find?_cons_of_pos (beq_iff_eq.mpr same)

theorem find_behind {i : Item} {tag : Nat} (items : List Item) (other : i.tag ≠ tag) :
    (i :: items).find? (·.tag == tag) = items.find? (·.tag == tag) :=
  List.find?_cons_of_neg (mt beq_iff_eq.mp other)

namespace ParsesMessage

theorem append {after : List TagValue.FieldRef} {front rest : List Item}
    (message : ParsesMessage set after (front ++ rest)) :
    ParsesMessage set (flattenItems rest ++ after) front ∧ ParsesMessage set after rest := by
  induction front with
  | nil => exact ⟨.nil, message⟩
  | cons item front ih =>
      cases message with
      | field plain behind =>
          obtain ⟨inFront, inRest⟩ := ih behind
          exact ⟨.field plain inFront, inRest⟩
      | group opens parses behind =>
          obtain ⟨inFront, inRest⟩ := ih behind
          rw [List.append_eq, flattenItems_append, List.append_assoc] at parses
          exact ⟨.group opens parses inFront, inRest⟩

/-- A group's run is walked to its end, and nothing is wrong with it. -/
theorem run_walked {spec : LayoutGroup} {count : TagValue.FieldRef} {entries : List (List Item)}
    {rest : List TagValue.FieldRef} (opens : set.get count.tag = some spec)
    (parses : Parses fullRoom set.levelTags spec count entries rest) (track : Bool) :
    WalksTo (walkAt track 0 set.levelTags spec (count :: (flattenEntries entries ++ rest))) spec
      entries.length rest := by
  have walks := walkAt_takes track 0 set.levelTags spec count entries rest (get_sound opens) parses
  rwa [List.cons_append] at walks

/-- Items of other tags are passed. -/
theorem readFrom_passes {spec : LayoutGroup} {countTag : Nat} {fields after : List TagValue.FieldRef}
    {items : List Item} (message : ParsesMessage set after items)
    (others : ∀ item ∈ items, item.tag ≠ countTag) {fuel : Nat}
    (enough : (flattenItems items ++ after).length ≤ fuel) (found : Option GroupEntries) :
    set.readFrom fields spec countTag fuel found (flattenItems items ++ after) =
      set.readFrom fields spec countTag after.length found after := by
  induction message generalizing fuel with
  | nil => exact readFrom_enough set fields spec countTag found after enough (Nat.le_refl _)
  | @field f items plain behind ih =>
      rw [flattenItems, flattenItem, List.cons_append, List.nil_append, List.cons_append] at enough ⊢
      obtain ⟨fuel, rfl⟩ := Nat.exists_eq_succ_of_ne_zero
        (Nat.ne_of_gt (Nat.lt_of_lt_of_le (Nat.succ_pos _) enough))
      have other : f.tag ≠ countTag := others _ List.mem_cons_self
      rw [GroupSet.readFrom, if_neg other, plain]
      exact ih (fun item mem => others item (List.mem_cons_of_mem _ mem)) (Nat.le_of_succ_le_succ enough)
  | @group nested count entries items opens parses behind ih =>
      rw [flattenItems, flattenItem, List.cons_append, List.cons_append, List.append_assoc] at enough ⊢
      obtain ⟨fuel, rfl⟩ := Nat.exists_eq_succ_of_ne_zero
        (Nat.ne_of_gt (Nat.lt_of_lt_of_le (Nat.succ_pos _) enough))
      have other : count.tag ≠ countTag := others _ List.mem_cons_self
      have walks := run_walked opens parses false
      rw [GroupSet.readFrom, if_neg other, opens]
      dsimp only
      rw [clean_depth walks.clean, walks.rest]
      refine ih (fun item mem => others item (List.mem_cons_of_mem _ mem)) ?_
      rw [List.length_cons, List.length_append] at enough
      omega

/-- The fields of the message level are found, and none of a group's run. -/
theorem fieldFrom_items {tag : Nat} {after : List TagValue.FieldRef} {items : List Item}
    (message : ParsesMessage set after items) {fuel : Nat}
    (enough : (flattenItems items ++ after).length ≤ fuel) :
    set.fieldFrom tag fuel (flattenItems items ++ after) =
      ((items.find? (·.tag == tag)).map Item.head).or (set.field after tag) := by
  induction message generalizing fuel with
  | nil => exact fieldFrom_enough set tag after enough (Nat.le_refl _)
  | @field f items plain behind ih =>
      rw [flattenItems, flattenItem, List.cons_append, List.nil_append, List.cons_append] at enough ⊢
      obtain ⟨fuel, rfl⟩ := Nat.exists_eq_succ_of_ne_zero
        (Nat.ne_of_gt (Nat.lt_of_lt_of_le (Nat.succ_pos _) enough))
      rw [GroupSet.fieldFrom]
      by_cases same : f.tag = tag
      · rw [if_pos same, find_head (i := .field f) items same]
        rfl
      · rw [if_neg same, plain, find_behind (i := .field f) items same]
        exact ih (Nat.le_of_succ_le_succ enough)
  | @group nested count entries items opens parses behind ih =>
      rw [flattenItems, flattenItem, List.cons_append, List.cons_append, List.append_assoc] at enough ⊢
      obtain ⟨fuel, rfl⟩ := Nat.exists_eq_succ_of_ne_zero
        (Nat.ne_of_gt (Nat.lt_of_lt_of_le (Nat.succ_pos _) enough))
      rw [GroupSet.fieldFrom]
      by_cases same : count.tag = tag
      · rw [if_pos same, find_head (i := .group count entries) items same]
        rfl
      · have walks := run_walked opens parses false
        rw [if_neg same, opens, find_behind (i := .group count entries) items same]
        dsimp only
        rw [clean_depth walks.clean, walks.rest]
        refine ih ?_
        rw [List.length_cons, List.length_append] at enough
        omega

/-- The one instance of a group is found, and is the tree. -/
theorem read_parsed {before later : List Item} {count : TagValue.FieldRef}
    {entries : List (List Item)} {after : List TagValue.FieldRef}
    (message : ParsesMessage set after (before ++ .group count entries :: later))
    (noneBefore : ∀ item ∈ before, item.tag ≠ count.tag)
    (noneLater : ∀ item ∈ later, item.tag ≠ count.tag) (clear : set.read after count.tag = .ok none) :
    ∃ found, set.read (flattenItems (before ++ .group count entries :: later) ++ after) count.tag =
      .ok (some found) ∧ ReadsBack fullRoom found entries := by
  obtain ⟨inFront, inRest⟩ := message.append
  cases inRest with
  | @group spec _ _ _ opens parses behind =>
      have walks := run_walked opens parses true
      unfold GroupSet.read at clear ⊢
      rw [opens] at clear ⊢
      dsimp only at clear ⊢
      rw [flattenItems_append, List.append_assoc, readFrom_passes inFront noneBefore (Nat.le_refl _)]
      generalize isWhole : flattenItems before ++ (flattenItems (.group count entries :: later) ++ after) = whole
      have isRest : flattenItems (.group count entries :: later) ++ after =
          count :: (flattenEntries entries ++ (flattenItems later ++ after)) := by
        rw [flattenItems, flattenItem, List.cons_append, List.cons_append, List.append_assoc]
      rw [isRest] at isWhole ⊢
      rw [List.length_cons, GroupSet.readFrom, if_pos rfl, if_neg (by exact Bool.false_ne_true)]
      dsimp only
      have located : ((walkAt true 0 set.levelTags spec (count :: (flattenEntries entries ++
          (flattenItems later ++ after)))).events.foldl FirstError.visit .start).intoEntries whole
            (positionOf whole (count :: (flattenEntries entries ++ (flattenItems later ++ after))))
            (positionOf whole (walkAt true 0 set.levelTags spec (count :: (flattenEntries entries ++
              (flattenItems later ++ after)))).rest) spec 0 =
          .ok ⟨whole, spec, (flattenItems before).length + 1,
            (flattenItems before).length + 1 + (flattenEntries entries).length, 0, entries.length, 0⟩ := by
        unfold FirstError.intoEntries
        rw [clean_error walks.clean, left_entries walks.left, walks.rest, ← isWhole, positionOf_append]
        have ends : positionOf (flattenItems before ++ (count :: (flattenEntries entries ++
            (flattenItems later ++ after)))) (flattenItems later ++ after) =
            (flattenItems before).length + 1 + (flattenEntries entries).length := by
          unfold positionOf
          simp only [List.length_append, List.length_cons]
          omega
        rw [ends]
        rfl
      rw [located]
      dsimp only
      have enough : (flattenItems later ++ after).length ≤
          (flattenEntries entries ++ (flattenItems later ++ after)).length := by
        simp only [List.length_append]
        omega
      rw [walks.rest, readFrom_passes behind noneLater enough, readFrom_clear set after whole spec count.tag _ _ after clear]
      refine ⟨_, rfl, readsBack fullRoom (get_sound opens) parses rfl rfl rfl rfl ?_ (Nat.le_refl _)⟩
      show whole.drop ((flattenItems before).length + 1) = _
      rw [← isWhole, ← List.drop_drop, List.drop_left' rfl]
      rfl

end ParsesMessage

/-- The fields of a message of instances are found. -/
theorem fieldFrom_message {tag : Nat} {after : List TagValue.FieldRef} {items : List Item}
    (message : IsMessage set after items) {fuel : Nat}
    (enough : (flattenItems items ++ after).length ≤ fuel) :
    set.fieldFrom tag fuel (flattenItems items ++ after) =
      ((items.find? (·.tag == tag)).map Item.head).or (set.field after tag) :=
  message.parses.fieldFrom_items enough

/-- And its instances. -/
theorem read_instance {before later : List Item} {count : TagValue.FieldRef}
    {entries : List (List Item)} {after : List TagValue.FieldRef}
    (message : IsMessage set after (before ++ .group count entries :: later))
    (noneBefore : ∀ item ∈ before, item.tag ≠ count.tag)
    (noneLater : ∀ item ∈ later, item.tag ≠ count.tag) (clear : set.read after count.tag = .ok none) :
    ∃ found, set.read (flattenItems (before ++ .group count entries :: later) ++ after) count.tag =
      .ok (some found) ∧ ReadsBack fullRoom found entries :=
  message.parses.read_parsed noneBefore noneLater clear

end Message

/-- A message whose groups are flattened trees reads as these trees: a group
that it holds once, and that does not follow, as its instance; a field as the
first item it starts, or what follows. -/
theorem message_reads_back (set : GroupSet) (items : List Item) (after : List TagValue.FieldRef)
    (message : IsMessage set after items) :
    (∀ count entries, .group count entries ∈ items → (items.map Item.tag).count count.tag = 1 →
      set.read after count.tag = .ok none →
        ∃ found, set.read (flattenItems items ++ after) count.tag = .ok (some found) ∧
          ReadsBack fullRoom found entries) ∧
    ∀ tag, set.field (flattenItems items ++ after) tag =
      ((items.find? (·.tag == tag)).map Item.head).or (set.field after tag) := by
  refine ⟨fun count entries listed once clear => ?_,
    fun tag => fieldFrom_message message (Nat.le_refl _)⟩
  obtain ⟨before, later, rfl⟩ := List.append_of_mem listed
  have isTag : (Item.group count entries).tag = count.tag := rfl
  rw [List.map_append, List.count_append, List.map_cons, isTag, List.count_cons_self] at once
  have none : ∀ items : List Item, (items.map Item.tag).count count.tag = 0 →
      ∀ item ∈ items, item.tag ≠ count.tag := by
    intro items zero item mem same
    exact List.count_eq_zero.mp zero (same ▸ List.mem_map_of_mem mem)
  exact read_instance message (none before (by omega)) (none later (by omega)) clear

section NoPartyIds

/-- NoPartySubIDs (802). -/
def noPartySubIds : LayoutGroup := ⟨802, "NoPartySubIDs", 523, false, ⟨[523, 803], [], [], []⟩⟩

/-- NoPartyIDs (453), NoPartySubIDs (802) nested in its entries. -/
def noPartyIds : LayoutGroup :=
  ⟨453, "NoPartyIDs", 448, false, ⟨[448, 452, 802], [], [noPartySubIds], [802]⟩⟩

theorem noPartySubIds_sound : Sound noPartySubIds :=
  .mk (by decide) (by decide) .nil nofun nofun

theorem noPartyIds_sound : Sound noPartyIds := by
  refine .mk (by decide) (by decide) (List.pairwise_singleton _ _) ?_ ?_
  · intro nested mem
    obtain rfl := List.mem_singleton.mp mem
    decide
  · intro nested mem
    obtain rfl := List.mem_singleton.mp mem
    exact noPartySubIds_sound

theorem noPartyIds_apart : Apart noPartyIds := by
  refine .mk ?_ ?_
  · intro nested mem
    obtain rfl := List.mem_singleton.mp mem
    decide
  · intro nested mem
    obtain rfl := List.mem_singleton.mp mem
    exact .mk nofun nofun

def partyGroups : GroupSet where
  groups := [noPartyIds]
  levelTags := [11, 54, 453]
  sound := by
    intro group mem
    rw [List.mem_singleton.mp mem]
    exact noPartyIds_sound

/-- A field whose value is one digit. -/
def digitField (tag : Nat) (value : UInt8) : TagValue.FieldRef := ⟨tag, [0x30 + value]⟩

/-- One party with one sub-identifier. -/
def oneParty : List (List Item) :=
  [[.field (digitField 448 7), .group (digitField 802 1) [[.field (digitField 523 8)]]]]

theorem oneParty_instance : IsInstance fullRoom noPartyIds (digitField 453 1) oneParty := by
  refine ⟨rfl, fun entry mem => ?_⟩
  obtain rfl := List.mem_singleton.mp mem
  refine ⟨rfl, by decide, fun item mem => ?_⟩
  rcases List.mem_cons.mp mem with rfl | mem
  · exact ⟨rfl, rfl⟩
  · obtain rfl := List.mem_singleton.mp mem
    refine ⟨rfl, noPartySubIds, rfl, rfl, fun entry mem => ?_⟩
    obtain rfl := List.mem_singleton.mp mem
    refine ⟨rfl, by decide, fun item mem => ?_⟩
    obtain rfl := List.mem_singleton.mp mem
    exact ⟨rfl, rfl⟩

theorem message_reads_back_party :
    IsMessage partyGroups [digitField 54 1]
        [.field (digitField 11 5), .group (digitField 453 1) oneParty] ∧
      (∃ found, partyGroups.read (digitField 11 5 :: digitField 453 1 :: digitField 448 7 ::
          digitField 802 1 :: digitField 523 8 :: [digitField 54 1]) 453 = .ok (some found) ∧
        ReadsBack fullRoom found oneParty) ∧
      partyGroups.field (digitField 11 5 :: digitField 453 1 :: digitField 448 7 ::
          digitField 802 1 :: digitField 523 8 :: [digitField 54 1]) 523 = none := by
  have outside : StartsOutside noPartyIds.allTags [digitField 54 1] := by
    rintro field isHead
    obtain rfl := Option.some.inj isHead
    decide
  have message : IsMessage partyGroups [digitField 54 1]
      [.field (digitField 11 5), .group (digitField 453 1) oneParty] :=
    .field rfl (.group rfl noPartyIds_apart oneParty_instance outside .nil)
  obtain ⟨reads, finds⟩ := message_reads_back partyGroups _ [digitField 54 1] message
  exact ⟨message, reads _ _ (.tail _ (.head _)) rfl rfl, finds 523⟩

/-! ### What may follow -/

/-- No tag of a nested group's entries is a member of the one level around
them. -/
inductive NextApart : LayoutGroup → Prop
  | mk {group : LayoutGroup} (disjoint : ∀ nested ∈ group.entry.groups,
      ∀ tag ∈ nested.entry.members, tag ∉ group.entry.members)
      (below : ∀ nested ∈ group.entry.groups, NextApart nested) : NextApart group

/-- Details of a sub-identifier; 452 is a tag of a party, too. -/
def noDetails : LayoutGroup := ⟨5003, "NoDetails", 5004, false, ⟨[452, 5004], [], [], []⟩⟩

def detailedSubIds : LayoutGroup :=
  ⟨802, "NoPartySubIDs", 523, false, ⟨[523, 5003], [], [noDetails], [5003]⟩⟩

def detailedPartyIds : LayoutGroup :=
  ⟨453, "NoPartyIDs", 448, false, ⟨[448, 452, 802], [], [detailedSubIds], [802]⟩⟩

theorem detailedPartyIds_apart : NextApart detailedPartyIds := by
  refine .mk (fun nested mem => ?_) fun nested mem => ?_
  · obtain rfl := List.mem_singleton.mp mem
    decide
  · obtain rfl := List.mem_singleton.mp mem
    refine .mk (fun nested mem => ?_) fun nested mem => ?_
    · obtain rfl := List.mem_singleton.mp mem
      decide
    · obtain rfl := List.mem_singleton.mp mem
      exact .mk nofun nofun

theorem detailedPartyIds_sound : Sound detailedPartyIds := by
  refine .mk (by decide) (by decide) (List.pairwise_singleton _ _) ?_ fun nested mem => ?_
  · decide
  · obtain rfl := List.mem_singleton.mp mem
    refine .mk (by decide) (by decide) (List.pairwise_singleton _ _) ?_ fun nested mem => ?_
    · decide
    · obtain rfl := List.mem_singleton.mp mem
      exact .mk (by decide) (by decide) .nil nofun nofun

def detailedGroups : GroupSet where
  groups := [detailedPartyIds]
  levelTags := [453]
  sound := by
    intro group mem
    rw [List.mem_singleton.mp mem]
    exact detailedPartyIds_sound

/-- One party: a sub-identifier with one detail, and 452 behind them. -/
def detailedParty : List (List Item) :=
  [[.field (digitField 448 7),
    .group (digitField 802 1) [[.field (digitField 523 8),
      .group (digitField 5003 1) [[.field (digitField 5004 9)]]]],
    .field (digitField 452 3)]]

theorem detailedParty_instance : IsInstance fullRoom detailedPartyIds (digitField 453 1) detailedParty := by
  refine ⟨rfl, fun entry mem => ?_⟩
  obtain rfl := List.mem_singleton.mp mem
  refine ⟨rfl, by decide, fun item mem => ?_⟩
  rcases List.mem_cons.mp mem with rfl | mem
  · exact ⟨rfl, rfl⟩
  · rcases List.mem_cons.mp mem with rfl | mem
    · refine ⟨rfl, detailedSubIds, rfl, rfl, fun entry mem => ?_⟩
      obtain rfl := List.mem_singleton.mp mem
      refine ⟨rfl, by decide, fun item mem => ?_⟩
      rcases List.mem_cons.mp mem with rfl | mem
      · exact ⟨rfl, rfl⟩
      · obtain rfl := List.mem_singleton.mp mem
        refine ⟨rfl, noDetails, rfl, rfl, fun entry mem => ?_⟩
        obtain rfl := List.mem_singleton.mp mem
        refine ⟨rfl, by decide, fun item mem => ?_⟩
        obtain rfl := List.mem_singleton.mp mem
        exact ⟨rfl, rfl⟩
    · obtain rfl := List.mem_singleton.mp mem
      exact ⟨rfl, rfl⟩

theorem reads_map {β : Type*} {nested : GroupEntries → List (List Item) → Prop} {views : List GroupEntry}
    {tree : List (List Item)} (reads : List.Forall₂ (EntryReads nested) views tree)
    {f : GroupEntry → β} {g : List Item → β}
    (same : ∀ view items, EntryReads nested view items → f view = g items) : views.map f = tree.map g := by
  induction reads with
  | nil => rfl
  | cons first _ ih => rw [List.map_cons, List.map_cons, same _ _ first, ih]

/-- What follows an instance may not hold the group again, nor start with a
tag of a nested group's entries; and of two levels that share a tag, however
far apart, the inner one takes it. -/
theorem what_follows_bears :
    (¬∀ (set : GroupSet) (spec : LayoutGroup) (count : TagValue.FieldRef) (entries : List (List Item))
      (after : List TagValue.FieldRef), set.get count.tag = some spec → Apart spec →
      IsInstance fullRoom spec count entries → StartsOutside spec.entry.members after →
      ∃ found, set.read (count :: flattenEntries entries ++ after) count.tag = .ok (some found) ∧
        ReadsBack fullRoom found entries) ∧
    (¬∀ (set : GroupSet) (spec : LayoutGroup) (count : TagValue.FieldRef) (entries : List (List Item))
      (after : List TagValue.FieldRef), set.get count.tag = some spec → Apart spec →
      IsInstance fullRoom spec count entries → StartsOutside spec.entry.members after →
      set.read after count.tag = .ok none →
      ∃ found, set.read (count :: flattenEntries entries ++ after) count.tag = .ok (some found) ∧
        ReadsBack fullRoom found entries) ∧
    ¬∀ (set : GroupSet) (spec : LayoutGroup) (count : TagValue.FieldRef) (entries : List (List Item))
      (after : List TagValue.FieldRef), set.get count.tag = some spec → NextApart spec →
      IsInstance fullRoom spec count entries → StartsOutside spec.allTags after →
      set.read after count.tag = .ok none →
      ∃ found, set.read (count :: flattenEntries entries ++ after) count.tag = .ok (some found) ∧
        ReadsBack fullRoom found entries := by
  refine ⟨fun claim => ?_, fun claim => ?_, fun claim => ?_⟩
  · obtain ⟨found, isRead, _⟩ := claim partyGroups noPartyIds (digitField 453 1) oneParty
      [digitField 54 1, digitField 453 0] rfl noPartyIds_apart oneParty_instance (by
        rintro field isHead
        obtain rfl := Option.some.inj isHead
        decide)
    have again : partyGroups.read (digitField 453 1 :: flattenEntries oneParty ++
        [digitField 54 1, digitField 453 0]) 453 = .error (.duplicateGroup 453) := rfl
    cases again.symm.trans isRead
  · obtain ⟨found, isRead, reads, _⟩ := claim partyGroups noPartyIds (digitField 453 1) oneParty
      [digitField 803 4] rfl noPartyIds_apart oneParty_instance (by
        rintro field isHead
        obtain rfl := Option.some.inj isHead
        decide) rfl
    obtain rfl := Option.some.inj (Except.ok.inj isRead)
    have fields := reads_map reads fun view items reads => reads.fields
    exact absurd fields (by decide)
  · obtain ⟨found, isRead, reads, _⟩ := claim detailedGroups detailedPartyIds (digitField 453 1)
      detailedParty [] rfl detailedPartyIds_apart detailedParty_instance nofun rfl
    obtain rfl := Option.some.inj (Except.ok.inj isRead)
    have found := reads_map reads fun view items reads => reads.get 452
    exact absurd found (by decide)

end NoPartyIds

end IronFix.Dict
