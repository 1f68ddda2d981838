import IronFix.Dictionary.GroupRoundTrip

/-!
# What a walk accepts

A walk that tracks tags and reports nothing wrong has taken a run that parses:
its events are the only place where it tells a run from another, and the tree
is read off them.
-/

namespace IronFix.Dict

/-- Whether a walk reports nothing wrong. -/
def Clean (events : List Event) : Prop := ∀ event ∈ events, event.clean = true

theorem clean_append {front rest : List Event} : Clean (front ++ rest) ↔ Clean front ∧ Clean rest :=
  List.forall_mem_append

/-- Nested walks that report nothing wrong take runs that parse. -/
def Accepts (nests : Nests) (walkNested : List Nat → LayoutGroup → List TagValue.FieldRef → Walked) : Prop :=
  ∀ enclosing group count rest, Sound group → Clean (walkNested enclosing group (count :: rest)).events →
    ∃ entries, rest = flattenEntries entries ++ (walkNested enclosing group (count :: rest)).rest ∧
      nests enclosing group count entries (walkNested enclosing group (count :: rest)).rest

section Scan

variable {nests : Nests} {walkNested : List Nat → LayoutGroup → List TagValue.FieldRef → Walked}
  {group : LayoutGroup} (accepts : Accepts nests walkNested) (sound : Sound group)

include accepts sound

/-- A step of the scan takes one item. -/
theorem scanEntry_takes {fuel : Nat} {opened : Bool} {seen : List Nat} {unparseable : Bool}
    {field : TagValue.FieldRef} {rest : List TagValue.FieldRef}
    (member : group.isMember field.tag = true)
    (proceeds : (opened && field.tag == group.delimiterTag) = false)
    (clean : Clean (scanEntry true walkNested group (fuel + 1) opened seen unparseable
      (field :: rest)).events) :
    ∃ item behind, item.head = field ∧ field :: rest = flattenItem item ++ behind ∧
      ParsesItem nests group behind item ∧ item.tag ∉ seen ∧
      Clean (scanEntry true walkNested group fuel true (item.tag :: seen) unparseable behind).events ∧
      (scanEntry true walkNested group (fuel + 1) opened seen unparseable (field :: rest)).rest =
        (scanEntry true walkNested group fuel true (item.tag :: seen) unparseable behind).rest ∧
      (scanEntry true walkNested group (fuel + 1) opened seen unparseable (field :: rest)).unparseable =
        (scanEntry true walkNested group fuel true (item.tag :: seen) unparseable behind).unparseable := by
  rw [scanEntry, member, proceeds] at clean ⊢
  simp only [Bool.not_true, Bool.false_eq_true, if_false, if_true, Bool.true_and] at clean ⊢
  obtain ⟨before, later⟩ := clean_append.mp clean
  obtain ⟨reported, walked⟩ := clean_append.mp before
  have fresh : seen.contains field.tag = false := by
    by_contra repeated
    rw [Bool.not_eq_false] at repeated
    rw [if_pos repeated] at reported
    cases reported _ List.mem_cons_self
  rw [fresh, Bool.or_false] at later ⊢
  have unseen : field.tag ∉ seen := fun mem => by
    rw [List.contains_iff_mem.mpr mem] at fresh
    cases fresh
  cases isNested : group.nested field.tag with
  | none =>
      rw [isNested] at later
      exact ⟨.field field, rest, rfl, by rw [flattenItem]; rfl, ⟨member, isNested⟩, unseen, later, rfl, rfl⟩
  | some nested =>
      rw [isNested] at walked later
      obtain ⟨entries, isRest, parses⟩ := accepts _ _ _ _ (sound.nested (nested_mem isNested).1) walked
      refine ⟨.group field entries, _, rfl, ?_, ⟨member, nested, isNested, parses⟩, unseen, later, rfl, rfl⟩
      rw [flattenItem, List.cons_append, ← isRest]

/-- What a scan took that met nothing wrong, up to `rest`: items that parse,
of tags not `seen` before, and no delimiter among them. -/
structure TookItems (nests : Nests) (group : LayoutGroup) (seen : List Nat)
    (fields : List TagValue.FieldRef) (items : List Item) (rest : List TagValue.FieldRef) : Prop where
  fields : fields = flattenItems items ++ rest
  parses : ParsesItems nests group rest items
  once : (items.map Item.tag).Nodup
  fresh : ∀ item ∈ items, item.tag ∉ seen
  proceeds : group.delimiterTag ∉ items.map Item.tag
  stops : StopsEntry group rest

theorem scanEntry_parses {fuel : Nat} {seen : List Nat} {unparseable : Bool}
    {fields : List TagValue.FieldRef} (enough : fields.length ≤ fuel)
    (clean : Clean (scanEntry true walkNested group fuel true seen unparseable fields).events) :
    (∃ items, TookItems nests group seen fields items
      (scanEntry true walkNested group fuel true seen unparseable fields).rest) ∧
    (scanEntry true walkNested group fuel true seen unparseable fields).unparseable = unparseable := by
  induction fuel generalizing seen fields with
  | zero =>
      obtain rfl := List.length_eq_zero_iff.mp (Nat.le_zero.mp enough)
      exact ⟨⟨[], rfl, trivial, List.nodup_nil, nofun, List.not_mem_nil, nofun⟩, rfl⟩
  | succ fuel ih =>
      cases fields with
      | nil => exact ⟨⟨[], rfl, trivial, List.nodup_nil, nofun, List.not_mem_nil, nofun⟩, rfl⟩
      | cons field rest =>
          by_cases ends : group.isMember field.tag = false ∨ field.tag = group.delimiterTag
          · -- The entry ends ahead of this field.
            have stops : StopsEntry group (field :: rest) := by
              intro head isHead
              cases isHead
              exact ends
            rw [scanEntry_end stops]
            exact ⟨⟨[], rfl, trivial, List.nodup_nil, nofun, List.not_mem_nil, stops⟩, rfl⟩
          · obtain ⟨member, notDelimiter⟩ := not_or.mp ends
            rw [Bool.not_eq_false] at member
            obtain ⟨item, behind, isHead, isFields, parsesItem, fresh, cleanLater, isRest, isUnparseable⟩ :=
              scanEntry_takes accepts sound member (by rw [Bool.true_and, beq_false_of_ne notDelimiter]) clean
            have shorter : behind.length ≤ fuel := by
              obtain ⟨more, same⟩ := flattenItem_cons item
              have length := congrArg List.length isFields
              rw [same, List.cons_append, List.length_cons, List.length_cons, List.length_append] at length
              rw [List.length_cons] at enough
              omega
            obtain ⟨⟨items, took⟩, parseable⟩ := ih shorter cleanLater
            rw [isRest, isUnparseable]
            refine ⟨⟨item :: items, ?_, ⟨?_, took.parses⟩, ?_, ?_, ?_, took.stops⟩, parseable⟩
            · rw [flattenItems, List.append_assoc, ← took.fields]
              exact isFields
            · rw [← took.fields]
              exact parsesItem
            · refine List.nodup_cons.mpr ⟨fun mem => ?_, took.once⟩
              obtain ⟨other, listed, same⟩ := List.mem_map.mp mem
              exact took.fresh other listed (List.mem_cons.mpr (.inl same))
            · intro other mem
              rcases List.mem_cons.mp mem with rfl | mem
              · exact fresh
              · exact fun old => took.fresh other mem (List.mem_cons_of_mem _ old)
            · intro mem
              rcases List.mem_cons.mp mem with same | mem
              · exact notDelimiter (by rw [same, ← isHead]; rfl)
              · exact took.proceeds mem

/-- A scan that starts at the delimiter takes an entry. -/
theorem scanFrom_parses {unparseable : Bool} {field : TagValue.FieldRef}
    {rest : List TagValue.FieldRef} (isDelimiter : field.tag = group.delimiterTag)
    (clean : Clean (scanFrom true walkNested group unparseable (field :: rest)).events) :
    (∃ items, field :: rest =
        flattenItems items ++ (scanFrom true walkNested group unparseable (field :: rest)).rest ∧
      ParsesEntry nests group (scanFrom true walkNested group unparseable (field :: rest)).rest items) ∧
    (scanFrom true walkNested group unparseable (field :: rest)).unparseable = unparseable := by
  have member : group.isMember field.tag = true :=
    isMember_iff.mpr (isDelimiter ▸ sound.delimiter)
  unfold scanFrom at clean ⊢
  rw [List.length_cons] at clean ⊢
  obtain ⟨item, behind, isHead, isFields, parsesItem, -, cleanLater, isRest, isUnparseable⟩ :=
    scanEntry_takes accepts sound member (Bool.false_and _) clean
  have isTag : item.tag = group.delimiterTag := by
    rw [← isDelimiter, ← isHead]
    rfl
  have shorter : behind.length ≤ rest.length := by
    obtain ⟨more, same⟩ := flattenItem_cons item
    have length := congrArg List.length isFields
    rw [same, List.cons_append, List.length_cons, List.length_cons, List.length_append] at length
    omega
  obtain ⟨⟨items, took⟩, parseable⟩ := scanEntry_parses accepts sound shorter cleanLater
  rw [isRest, isUnparseable]
  refine ⟨⟨item :: items, ?_, ⟨?_, ?_, ⟨?_, took.parses⟩, took.stops⟩⟩, parseable⟩
  · rw [flattenItems, List.append_assoc, ← took.fields]
    exact isFields
  · exact congrArg some isTag
  · refine List.nodup_cons.mpr ⟨fun mem => ?_, took.once⟩
    exact took.proceeds (isTag ▸ mem)
  · rw [← took.fields]
    exact parsesItem

/-- The entries of a group, one for every delimiter, parse. -/
theorem scanEntries_parses {declared : Option Nat} {enclosing : List Nat}
    {fuel count : Nat} {unparseable : Bool} {fields : List TagValue.FieldRef}
    (enough : fields.length ≤ fuel)
    (clean : Clean (scanEntries true walkNested group declared enclosing fuel count unparseable
      fields).events) :
    let found := scanEntries true walkNested group declared enclosing fuel count unparseable fields
    (∃ entries, fields = flattenEntries entries ++ found.rest ∧ ParsesEntries nests group found.rest entries ∧
      found.entries = count + entries.length) ∧
    found.unparseable = unparseable ∧
    ∀ field, found.rest.head? = some field → field.tag = group.delimiterTag →
      endsGroup declared enclosing found.entries field.tag = true := by
  intro found
  show (∃ entries, fields = flattenEntries entries ++ found.rest ∧ _) ∧ _
  induction fuel generalizing count fields with
  | zero =>
      obtain rfl := List.length_eq_zero_iff.mp (Nat.le_zero.mp enough)
      exact ⟨⟨[], rfl, trivial, rfl⟩, rfl, nofun⟩
  | succ fuel ih =>
      cases fields with
      | nil => exact ⟨⟨[], rfl, trivial, rfl⟩, rfl, nofun⟩
      | cons field rest =>
          have step : found = scanEntries true walkNested group declared enclosing (fuel + 1) count
            unparseable (field :: rest) := rfl
          rw [scanEntries] at step clean
          by_cases notDelimiter : field.tag ≠ group.delimiterTag
          · rw [if_pos notDelimiter] at step
            rw [step]
            refine ⟨⟨[], rfl, trivial, rfl⟩, rfl, fun head isHead isDelimiter => ?_⟩
            cases isHead
            exact absurd isDelimiter notDelimiter
          · rw [if_neg notDelimiter] at step clean
            by_cases ends : endsGroup declared enclosing count field.tag = true
            · rw [if_pos ends] at step
              rw [step]
              refine ⟨⟨[], rfl, trivial, rfl⟩, rfl, fun head isHead _ => ?_⟩
              cases isHead
              exact ends
            · rw [if_neg ends] at step clean
              dsimp only at step clean
              obtain ⟨before, cleanMore⟩ := clean_append.mp clean
              obtain ⟨cleanEntry, -⟩ := clean_append.mp before
              obtain ⟨⟨items, isFields, parses⟩, parseable⟩ :=
                scanFrom_parses accepts sound (not_not.mp notDelimiter) cleanEntry
              rw [parseable] at cleanMore step
              have shorter : (scanFrom true walkNested group unparseable (field :: rest)).rest.length ≤
                  fuel := by
                obtain ⟨first, more, same, -⟩ := flattenItems_led parses.led
                have length := congrArg List.length isFields
                rw [same, List.cons_append, List.length_cons, List.length_cons, List.length_append] at length
                rw [List.length_cons] at enough
                omega
              obtain ⟨⟨entries, isRest, parsesMore, counted⟩, parseableMore, stops⟩ := ih shorter cleanMore
              rw [step]
              refine ⟨⟨items :: entries, ?_, ⟨?_, parsesMore⟩, ?_⟩, parseableMore, stops⟩
              · rw [flattenEntries, List.append_assoc, ← isRest]
                exact isFields
              · rw [← isRest]
                exact parses
              · rw [counted, List.length_cons]
                omega

end Scan

/-- Behind the last entry is where it stops. -/
theorem ParsesEntries.stops {nests : Nests} {group : LayoutGroup} {behind : List TagValue.FieldRef}
    {entries : List (List Item)} (parses : ParsesEntries nests group behind entries)
    (some : entries ≠ []) : StopsEntry group behind := by
  induction entries with
  | nil => exact absurd rfl some
  | cons items entries ih =>
      obtain ⟨first, later⟩ := parses
      cases entries with
      | nil =>
          have stops := first.stops
          rwa [flattenEntries, List.nil_append] at stops
      | cons next entries => exact ih later (List.cons_ne_nil _ _)

/-- Nothing wrong is reported of what leads the entries only where nothing
does. -/
theorem leadEntry_clean {walkNested : List Nat → LayoutGroup → List TagValue.FieldRef → Walked}
    {group : LayoutGroup} {declared : Option Nat} {enclosing : List Nat} {fields : List TagValue.FieldRef}
    (clean : Clean (leadEntry true walkNested group declared enclosing fields).events) :
    leadEntry true walkNested group declared enclosing fields = ⟨[], fields, 0, false⟩ ∧
      ∀ field, fields.head? = some field → field.tag ≠ group.delimiterTag →
        group.isMember field.tag = true → endsGroup declared enclosing 0 field.tag = true := by
  cases fields with
  | nil => exact ⟨rfl, nofun⟩
  | cons field rest =>
      unfold leadEntry at clean ⊢
      dsimp only at clean ⊢
      split at clean
      · cases clean _ List.mem_cons_self
      · rename_i noLead
        rw [if_neg noLead]
        refine ⟨rfl, fun head isHead notDelimiter member => ?_⟩
        cases isHead
        by_contra ends
        rw [Bool.not_eq_true] at ends
        exact noLead (by simp [notDelimiter, member, ends])

/-- A walk that reports nothing wrong takes a run that parses. -/
theorem walkGroup_accepts (room : Nat) : Accepts (Parses room) (walkGroup true room) := by
  induction room with
  | zero =>
      intro enclosing group count rest sound clean
      cases clean (.tooDeep group) List.mem_cons_self
  | succ room ih =>
      intro enclosing group count rest sound clean
      rw [walkGroup, walkWith] at clean ⊢
      dsimp only at clean ⊢
      obtain ⟨front, -⟩ := clean_append.mp clean
      obtain ⟨front, mismatch⟩ := clean_append.mp front
      obtain ⟨front, inEntries⟩ := clean_append.mp front
      obtain ⟨front, leading⟩ := clean_append.mp front
      -- The count is a number.
      obtain ⟨declared, isDeclared⟩ : ∃ declared, parseCount count.value = some declared := by
        cases isCount : parseCount count.value with
        | some declared => exact ⟨declared, rfl⟩
        | none =>
            rw [isCount] at front
            cases front (.invalidCount group count.value) (List.mem_cons_of_mem _ List.mem_cons_self)
      rw [isDeclared] at leading inEntries mismatch ⊢
      obtain ⟨noLead, leads⟩ := leadEntry_clean leading
      rw [noLead] at inEntries mismatch ⊢
      obtain ⟨⟨entries, isRest, parses, counted⟩, parseable, ends⟩ :=
        scanEntries_parses ih sound (Nat.le_refl _) inEntries
      dsimp only at isRest parses counted parseable ends mismatch ⊢
      rw [Nat.zero_add] at counted
      -- It is the number of the entries.
      have isCount : declared = entries.length := by
        by_contra differs
        rw [counted, parseable, if_pos (by simp [differs])] at mismatch
        cases mismatch _ List.mem_cons_self
      refine ⟨entries, isRest, isDeclared.trans (congrArg some isCount), parses, fun field isHead => ?_⟩
      have accepted : endsGroup (some declared) enclosing entries.length field.tag = true →
          enclosing.contains field.tag = true := fun ends => by
        unfold endsGroup at ends
        exact (Bool.and_eq_true _ _ ▸ ends).2
      by_cases isDelimiter : field.tag = group.delimiterTag
      · rw [← counted] at accepted
        exact .inr (accepted (ends field isHead isDelimiter))
      · cases entries with
        | cons items entries =>
            have stops := parses.stops (List.cons_ne_nil _ _) field isHead
            exact .inl (stops.resolve_right isDelimiter)
        | nil =>
            cases member : group.isMember field.tag with
            | false => exact .inl rfl
            | true =>
                rw [flattenEntries, List.nil_append] at isRest
                rw [← isRest] at isHead
                exact .inr (accepted (leads field isHead isDelimiter member))

/-! ## One parse -/

/-- Nested runs parse in one way. -/
def Unambiguous (nests : Nests) : Prop :=
  ∀ enclosing group count entries entries' behind behind', Sound group →
    nests enclosing group count entries behind → nests enclosing group count entries' behind' →
    flattenEntries entries ++ behind = flattenEntries entries' ++ behind' → entries = entries' ∧ behind = behind'

section Unambiguous

variable {nests : Nests} {group : LayoutGroup} (one : Unambiguous nests) (sound : Sound group)

include one sound

/-- Two parses of an item agree on it, and on what is behind. -/
theorem ParsesItem.unique {item item' : Item} {behind behind' : List TagValue.FieldRef}
    (parses : ParsesItem nests group behind item) (parses' : ParsesItem nests group behind' item')
    (same : flattenItem item ++ behind = flattenItem item' ++ behind') : item = item' ∧ behind = behind' := by
  cases item with
  | field f =>
      cases item' with
      | field f' =>
          rw [flattenItem, flattenItem] at same
          obtain ⟨rfl, rfl⟩ := List.cons.inj same
          exact ⟨rfl, rfl⟩
      | group count' entries' =>
          rw [flattenItem, flattenItem] at same
          obtain ⟨rfl, -⟩ := List.cons.inj same
          obtain ⟨-, nested, isNested, -⟩ := parses'
          cases parses.2.symm.trans isNested
  | group count entries =>
      cases item' with
      | field f' =>
          rw [flattenItem, flattenItem] at same
          obtain ⟨rfl, -⟩ := List.cons.inj same
          obtain ⟨-, nested, isNested, -⟩ := parses
          cases parses'.2.symm.trans isNested
      | group count' entries' =>
          rw [flattenItem, flattenItem, List.cons_append, List.cons_append] at same
          obtain ⟨rfl, rest⟩ := List.cons.inj same
          obtain ⟨-, nested, isNested, instance_⟩ := parses
          obtain ⟨-, nested', isNested', instance'⟩ := parses'
          obtain rfl := Option.some.inj (isNested.symm.trans isNested')
          obtain ⟨rfl, rfl⟩ := one _ _ _ _ _ _ _ (sound.nested (nested_mem isNested).1) instance_ instance' rest
          exact ⟨rfl, rfl⟩

theorem ParsesItems.unique {items items' : List Item} {behind : List TagValue.FieldRef}
    (parses : ParsesItems nests group behind items) (parses' : ParsesItems nests group behind items')
    (same : flattenItems items = flattenItems items') : items = items' := by
  induction items generalizing items' with
  | nil =>
      cases items' with
      | nil => rfl
      | cons item' items' =>
          obtain ⟨more, isFlat⟩ := flattenItem_cons item'
          rw [flattenItems, flattenItems, isFlat] at same
          cases same
  | cons item items ih =>
      cases items' with
      | nil =>
          obtain ⟨more, isFlat⟩ := flattenItem_cons item
          rw [flattenItems, flattenItems, isFlat] at same
          cases same
      | cons item' items' =>
          rw [flattenItems, flattenItems] at same
          have whole := congrArg (· ++ behind) same
          simp only [List.append_assoc] at whole
          obtain ⟨rfl, rest⟩ := ParsesItem.unique one sound parses.1 parses'.1 whole
          rw [ih parses.2 parses'.2 (List.append_cancel_right rest)]

theorem ParsesEntries.unique {walkNested : List Nat → LayoutGroup → List TagValue.FieldRef → Walked}
    (takes : Takes nests walkNested) {entries entries' : List (List Item)}
    {behind : List TagValue.FieldRef} (parses : ParsesEntries nests group behind entries)
    (parses' : ParsesEntries nests group behind entries') (counted : entries.length = entries'.length)
    (same : flattenEntries entries = flattenEntries entries') : entries = entries' := by
  induction entries generalizing entries' with
  | nil => exact (List.length_eq_zero_iff.mp counted.symm).symm
  | cons items entries ih =>
      cases entries' with
      | nil => cases counted
      | cons items' entries' =>
          rw [flattenEntries, flattenEntries] at same
          have whole := congrArg (· ++ behind) same
          simp only [List.append_assoc] at whole
          -- One scan takes the first entry of both.
          obtain ⟨events, seen, -, scanned⟩ := scanFrom_entry takes sound parses.1 false
          obtain ⟨events', seen', -, scanned'⟩ := scanFrom_entry takes sound parses'.1 false
          rw [whole, scanned'] at scanned
          have rest : flattenEntries entries' ++ behind = flattenEntries entries ++ behind :=
            congrArg Scanned.rest scanned
          have later : flattenEntries entries = flattenEntries entries' :=
            (List.append_cancel_right rest).symm
          rw [later] at same
          have first := parses.1.items
          rw [later] at first
          rw [ParsesItems.unique one sound first parses'.1.items (List.append_cancel_right same),
            ih parses.2 parses'.2 (Nat.succ.inj counted) later]

end Unambiguous

/-- A run parses in one way. -/
theorem parses_unambiguous (room : Nat) : Unambiguous (Parses room) := by
  induction room with
  | zero => exact fun _ _ _ _ _ _ _ _ parses => parses.elim
  | succ room ih =>
      intro enclosing group count entries entries' behind behind' sound parses parses' same
      have walks := walkGroup_takes false (room + 1) enclosing group count entries behind sound parses
      have walks' := walkGroup_takes false (room + 1) enclosing group count entries' behind' sound parses'
      rw [List.cons_append, same] at walks
      obtain rfl : behind = behind' := walks.rest.symm.trans walks'.rest
      obtain ⟨declared, inner, -⟩ := parses
      obtain ⟨declared', inner', -⟩ := parses'
      exact ⟨ParsesEntries.unique ih sound (walkGroup_takes false room) inner inner'
        (Option.some.inj (declared.symm.trans declared')) (List.append_cancel_right same), rfl⟩

/-- The walk finds nothing wrong with a run exactly where it parses, in one
way, and it stops behind the run. -/
theorem walk_clean_iff_parses (room : Nat) (enclosing : List Nat) (group : LayoutGroup) (sound : Sound group)
    (count : TagValue.FieldRef) (rest : List TagValue.FieldRef) :
    (∀ event ∈ (walkGroup true room enclosing group (count :: rest)).events, event.clean = true) ↔
      ∃! tree : List (List Item) × List TagValue.FieldRef, rest = flattenEntries tree.1 ++ tree.2 ∧
        Parses room enclosing group count tree.1 tree.2 := by
  constructor
  · intro clean
    obtain ⟨entries, isRest, parses⟩ := walkGroup_accepts room enclosing group count rest sound clean
    refine ⟨(entries, _), ⟨isRest, parses⟩, fun ⟨other, behind⟩ ⟨isOther, parsesOther⟩ => ?_⟩
    obtain ⟨rfl, rfl⟩ := parses_unambiguous room _ _ _ _ _ _ _ sound parsesOther parses
      (isOther.symm.trans isRest)
    rfl
  · rintro ⟨⟨entries, behind⟩, ⟨isRest, parses⟩, -⟩
    obtain rfl := isRest
    exact (walkGroup_takes true room enclosing group count entries behind sound parses).clean

theorem walk_clean_iff_parses_party :
    Parses fullRoom [11, 54, 453] noPartyIds (digitField 453 1) oneParty [digitField 54 1] ∧
      ∃! tree : List (List Item) × List TagValue.FieldRef,
        flattenEntries oneParty ++ [digitField 54 1] = flattenEntries tree.1 ++ tree.2 ∧
          Parses fullRoom [11, 54, 453] noPartyIds (digitField 453 1) tree.1 tree.2 := by
  have outside : StartsOutside noPartyIds.allTags [digitField 54 1] := by
    rintro field isHead
    obtain rfl := Option.some.inj isHead
    decide
  have parses := instance_parses fullRoom [11, 54, 453] noPartyIds (digitField 453 1) oneParty
    [digitField 54 1] noPartyIds_sound noPartyIds_apart oneParty_instance outside
  have clean := (walkGroup_takes true fullRoom _ _ _ _ _ noPartyIds_sound parses).clean
  exact ⟨parses, (walk_clean_iff_parses fullRoom [11, 54, 453] noPartyIds noPartyIds_sound
    (digitField 453 1) _).mp clean⟩

end IronFix.Dict
