import IronFix.Dictionary.GroupTree

/-!
# Parses of a group's run

A run parses into a tree where every instance and every entry of it stops at
what is behind. Such a run the walk takes to its end and finds nothing wrong
with; and a run it finds nothing wrong with parses. What is behind bears on a
parse by its first field only.
-/

namespace IronFix.Dict

/-- Which trees are instances of a group nested in a scope that accepts the
tags `enclosing`, and what may be behind them. -/
abbrev Nests :=
  (enclosing : List Nat) → LayoutGroup → TagValue.FieldRef → List (List Item) → List TagValue.FieldRef → Prop

/-- An entry stops at a tag that is no member, or at the next delimiter. -/
def StopsEntry (group : LayoutGroup) (behind : List TagValue.FieldRef) : Prop :=
  ∀ field, behind.head? = some field → group.isMember field.tag = false ∨ field.tag = group.delimiterTag

/-- A run with the declared entries stops at a tag that is no member, or that
the enclosing scope accepts. -/
def StopsRun (enclosing : List Nat) (group : LayoutGroup) (behind : List TagValue.FieldRef) : Prop :=
  ∀ field, behind.head? = some field →
    group.isMember field.tag = false ∨ enclosing.contains field.tag = true

/-! ## Parses -/

section Parses

variable (nests : Nests) (group : LayoutGroup) (behind : List TagValue.FieldRef)

/-- An item of an entry of `group`, with `behind` behind it. -/
def ParsesItem : Item → Prop
  | .field f => group.isMember f.tag = true ∧ group.nested f.tag = none
  | .group count entries => group.isMember count.tag = true ∧ ∃ nested,
      group.nested count.tag = some nested ∧ nests group.entry.members nested count entries behind

def ParsesItems : List Item → Prop
  | [] => True
  | item :: items => ParsesItem nests group (flattenItems items ++ behind) item ∧ ParsesItems items

/-- An entry of `group`: led by the delimiter, no tag twice at its level. -/
structure ParsesEntry (items : List Item) : Prop where
  led : (items.map Item.tag).head? = some group.delimiterTag
  once : (items.map Item.tag).Nodup
  items : ParsesItems nests group behind items
  stops : StopsEntry group behind

def ParsesEntries : List (List Item) → Prop
  | [] => True
  | items :: entries =>
      ParsesEntry nests group (flattenEntries entries ++ behind) items ∧ ParsesEntries entries

end Parses

/-- The run of an instance of `group`, `room` levels deep at most. -/
def Parses : (room : Nat) → Nests
  | 0, _, _, _, _, _ => False
  | room + 1, enclosing, group, count, entries, behind =>
      parseCount count.value = some entries.length ∧ ParsesEntries (Parses room) group behind entries ∧
        StopsRun enclosing group behind

/-! ## A parse is an instance -/

section Instance

variable {nests : Nests} {group : LayoutGroup} {behind : List TagValue.FieldRef}
  (isInstance : LayoutGroup → TagValue.FieldRef → List (List Item) → Prop)
  (inner : ∀ enclosing nested count entries behind, nests enclosing nested count entries behind →
    isInstance nested count entries)

include inner

theorem ParsesItems.isItem {items : List Item} (parses : ParsesItems nests group behind items) :
    ∀ item ∈ items, IsItem isInstance group item := by
  induction items with
  | nil =>
      intro item mem
      cases mem
  | cons item items ih =>
      obtain ⟨first, later⟩ := parses
      intro other mem
      rcases List.mem_cons.mp mem with rfl | mem
      · cases other with
        | field f => exact first
        | group count entries =>
            obtain ⟨member, nested, isNested, instance_⟩ := first
            exact ⟨member, nested, isNested, inner _ _ _ _ _ instance_⟩
      · exact ih later other mem

theorem ParsesEntries.isEntry {entries : List (List Item)}
    (parses : ParsesEntries nests group behind entries) :
    ∀ items ∈ entries, IsEntry isInstance group items := by
  induction entries with
  | nil =>
      intro items mem
      cases mem
  | cons items entries ih =>
      obtain ⟨first, later⟩ := parses
      intro other mem
      rcases List.mem_cons.mp mem with rfl | mem
      · exact ⟨first.led, first.once, first.items.isItem isInstance inner⟩
      · exact ih later other mem

end Instance

theorem Parses.isInstance {room : Nat} {enclosing : List Nat} {group : LayoutGroup}
    {count : TagValue.FieldRef} {entries : List (List Item)} {behind : List TagValue.FieldRef}
    (parses : Parses room enclosing group count entries behind) : IsInstance room group count entries := by
  induction room generalizing enclosing group count entries behind with
  | zero => exact parses.elim
  | succ room ih =>
      obtain ⟨declared, parses, _⟩ := parses
      exact ⟨declared, parses.isEntry (IsInstance room) fun _ _ _ _ _ => ih⟩

/-! ## What is behind may be cut -/

theorem head_of_front {front more : List TagValue.FieldRef} {field : TagValue.FieldRef}
    (isHead : front.head? = some field) : (front ++ more).head? = some field := by
  rw [List.head?_append, isHead]
  rfl

section Cut

variable {nests : Nests} {group : LayoutGroup} {front more : List TagValue.FieldRef}
  (inner : ∀ enclosing nested count entries front, nests enclosing nested count entries (front ++ more) →
    nests enclosing nested count entries front)

include inner

theorem ParsesItems.cut {items : List Item} (parses : ParsesItems nests group (front ++ more) items) :
    ParsesItems nests group front items := by
  induction items with
  | nil => trivial
  | cons item items ih =>
      obtain ⟨first, later⟩ := parses
      refine ⟨?_, ih later⟩
      cases item with
      | field f => exact first
      | group count entries =>
          obtain ⟨member, nested, isNested, instance_⟩ := first
          rw [← List.append_assoc] at instance_
          exact ⟨member, nested, isNested, inner _ _ _ _ _ instance_⟩

theorem ParsesEntries.cut {entries : List (List Item)}
    (parses : ParsesEntries nests group (front ++ more) entries) :
    ParsesEntries nests group front entries := by
  induction entries with
  | nil => trivial
  | cons items entries ih =>
      obtain ⟨⟨led, once, isItems, stops⟩, later⟩ := parses
      rw [← List.append_assoc] at isItems stops
      exact ⟨⟨led, once, isItems.cut inner, fun field isHead => stops field (head_of_front isHead)⟩,
        ih later⟩

end Cut

theorem Parses.cut {room : Nat} {enclosing : List Nat} {group : LayoutGroup} {count : TagValue.FieldRef}
    {entries : List (List Item)} {front more : List TagValue.FieldRef}
    (parses : Parses room enclosing group count entries (front ++ more)) :
    Parses room enclosing group count entries front := by
  induction room generalizing enclosing group count entries front with
  | zero => exact parses.elim
  | succ room ih =>
      obtain ⟨declared, parses, stops⟩ := parses
      exact ⟨declared, parses.cut fun _ _ _ _ _ => ih, fun field isHead => stops field (head_of_front isHead)⟩

/-! ## The walk takes what parses -/

/-- Walking nested groups takes the runs that parse, and no more. -/
def Takes (nests : Nests) (walkNested : List Nat → LayoutGroup → List TagValue.FieldRef → Walked) : Prop :=
  ∀ enclosing group count entries behind, Sound group → nests enclosing group count entries behind →
    WalksTo (walkNested enclosing group (count :: flattenEntries entries ++ behind)) group
      entries.length behind

theorem length_le_flattenItems (items : List Item) : items.length ≤ (flattenItems items).length := by
  induction items with
  | nil => exact Nat.zero_le _
  | cons item items ih =>
      obtain ⟨more, same⟩ := flattenItem_cons item
      rw [flattenItems, same, List.cons_append, List.length_cons, List.length_cons, List.length_append]
      omega

section Walk

variable {track : Bool} {nests : Nests}
  {walkNested : List Nat → LayoutGroup → List TagValue.FieldRef → Walked} {group : LayoutGroup}

theorem ParsesItem.member {item : Item} {behind : List TagValue.FieldRef}
    (parses : ParsesItem nests group behind item) : group.isMember item.tag = true := by
  cases item with
  | field f => exact parses.1
  | group count entries => exact parses.1

/-- A step of the scan over one item. -/
theorem scanEntry_item (takes : Takes nests walkNested) (sound : Sound group) {item : Item}
    {behind : List TagValue.FieldRef} (parses : ParsesItem nests group behind item)
    (track opened : Bool) (seen : List Nat) (unparseable : Bool) (fuel : Nat)
    (proceeds : opened = true → item.tag ≠ group.delimiterTag) (fresh : item.tag ∉ seen) :
    ∃ events, (∀ event ∈ events, event.clean = true) ∧
      scanEntry track walkNested group (fuel + 1) opened seen unparseable (flattenItem item ++ behind) =
        { scanEntry track walkNested group fuel true (if track then item.tag :: seen else seen)
            unparseable behind with
          events := events ++ (scanEntry track walkNested group fuel true
            (if track then item.tag :: seen else seen) unparseable behind).events } := by
  have member := parses.member
  obtain ⟨more, same⟩ := flattenItem_cons item
  have notDelimiter : (opened && item.head.tag == group.delimiterTag) = false := by
    cases opened with
    | false => rfl
    | true => exact beq_false_of_ne (proceeds rfl)
  have notRepeated : (track && seen.contains item.head.tag) = false := by
    have unseen : seen.contains item.head.tag = false :=
      Bool.eq_false_iff.mpr fun has => fresh (List.contains_iff_mem.mp has)
    rw [unseen, Bool.and_false]
  rw [same, List.cons_append, scanEntry]
  dsimp only
  rw [if_neg (by rw [show item.head.tag = item.tag from rfl, member]; decide),
    if_neg (by rw [notDelimiter]; exact Bool.false_ne_true), notRepeated, Bool.or_false,
    if_neg Bool.false_ne_true]
  cases item with
  | field f =>
      obtain ⟨-, plain⟩ := parses
      rw [flattenItem] at same
      obtain rfl : more = [] := (List.cons.inj same).2.symm
      refine ⟨[], fun _ mem => absurd mem List.not_mem_nil, ?_⟩
      show _ = _
      rw [show (Item.field f).head = f from rfl, plain]
      rfl
  | group count entries =>
      obtain ⟨-, nested, found, instance_⟩ := parses
      rw [flattenItem] at same
      obtain rfl : more = flattenEntries entries := (List.cons.inj same).2.symm
      have walks := takes group.entry.members nested count entries behind
        (sound.nested (nested_mem found).1) instance_
      refine ⟨_, walks.clean, ?_⟩
      rw [show (Item.group count entries).head = count from rfl, found]
      dsimp only
      rw [← List.cons_append, walks.rest]
      rfl

/-- At its end a scan stops. -/
theorem scanEntry_end {fuel : Nat} {seen : List Nat} {unparseable : Bool}
    {behind : List TagValue.FieldRef} (stops : StopsEntry group behind) :
    scanEntry track walkNested group fuel true seen unparseable behind = ⟨[], behind, seen, unparseable⟩ := by
  cases fuel with
  | zero => rfl
  | succ fuel =>
      cases behind with
      | nil => rfl
      | cons field rest =>
          rw [scanEntry]
          rcases stops field rfl with notMember | isDelimiter
          · rw [notMember]
            rfl
          · cases isMember : group.isMember field.tag with
            | false => rfl
            | true =>
                rw [if_neg (by decide), isDelimiter, if_pos (by simp)]

/-- A scan takes the items of an entry behind its first. -/
theorem scanEntry_items (takes : Takes nests walkNested) (sound : Sound group) {items : List Item}
    {behind : List TagValue.FieldRef} (parses : ParsesItems nests group behind items)
    (once : (items.map Item.tag).Nodup) (proceeds : group.delimiterTag ∉ items.map Item.tag)
    (stops : StopsEntry group behind) {fuel : Nat} (enough : items.length ≤ fuel) {seen : List Nat}
    (fresh : ∀ item ∈ items, item.tag ∉ seen) (unparseable : Bool) :
    ∃ events seen', (∀ event ∈ events, event.clean = true) ∧
      scanEntry track walkNested group fuel true seen unparseable (flattenItems items ++ behind) =
        ⟨events, behind, seen', unparseable⟩ := by
  induction items generalizing fuel seen with
  | nil =>
      rw [flattenItems, List.nil_append]
      exact ⟨[], seen, fun _ mem => absurd mem List.not_mem_nil, scanEntry_end stops⟩
  | cons item items ih =>
      obtain ⟨fuel, rfl⟩ := Nat.exists_eq_succ_of_ne_zero
        (Nat.ne_of_gt (Nat.lt_of_lt_of_le (Nat.succ_pos _) enough))
      have ⟨firstOnce, laterOnce⟩ := List.nodup_cons.mp once
      have ⟨notFirst, notLater⟩ := not_or.mp (mt List.mem_cons.mpr proceeds)
      obtain ⟨first, later⟩ := parses
      obtain ⟨events, clean, step⟩ := scanEntry_item takes sound first track true seen unparseable fuel
        (fun _ => Ne.symm notFirst) (fresh item List.mem_cons_self)
      have fresh' : ∀ other ∈ items, other.tag ∉ (if track then item.tag :: seen else seen) := by
        intro other mem
        have old := fresh other (List.mem_cons_of_mem _ mem)
        have differs : other.tag ≠ item.tag :=
          fun same => firstOnce (same ▸ List.mem_map_of_mem mem)
        split
        · exact fun mem => (List.mem_cons.mp mem).elim differs old
        · exact old
      obtain ⟨more, seen', cleanMore, scanned⟩ :=
        ih later laterOnce notLater (Nat.le_of_succ_le_succ enough) fresh'
      rw [flattenItems, List.append_assoc, step, scanned]
      refine ⟨events ++ more, seen', fun event mem => ?_, rfl⟩
      rcases List.mem_append.mp mem with first | second
      · exact clean event first
      · exact cleanMore event second

/-- A scan takes one entry. -/
theorem scanFrom_entry (takes : Takes nests walkNested) (sound : Sound group) {items : List Item}
    {behind : List TagValue.FieldRef} (parses : ParsesEntry nests group behind items) (track : Bool) :
    ∃ events seen, (∀ event ∈ events, event.clean = true) ∧
      scanFrom track walkNested group false (flattenItems items ++ behind) =
        ⟨events, behind, seen, false⟩ := by
  obtain ⟨led, once, isItems, stops⟩ := parses
  cases items with
  | nil => cases led
  | cons item items =>
      have isDelimiter : item.tag = group.delimiterTag := Option.some.inj led
      have ⟨firstOnce, laterOnce⟩ := List.nodup_cons.mp once
      have counted := length_le_flattenItems (item :: items)
      obtain ⟨fuel, isFuel⟩ := Nat.exists_eq_succ_of_ne_zero
        (show (flattenItems (item :: items) ++ behind).length ≠ 0 by
          rw [List.length_append]
          rw [List.length_cons] at counted
          omega)
      obtain ⟨first, later⟩ := isItems
      obtain ⟨events, clean, step⟩ := scanEntry_item takes sound first track false [] false fuel
        (fun opened => absurd opened Bool.false_ne_true) List.not_mem_nil
      have enough : items.length ≤ fuel := by
        rw [List.length_append] at isFuel
        rw [List.length_cons] at counted
        omega
      have fresh : ∀ other ∈ items, other.tag ∉ (if track then [item.tag] else []) := by
        intro other mem
        have differs : other.tag ≠ item.tag :=
          fun same => firstOnce (same ▸ List.mem_map_of_mem mem)
        split
        · exact fun mem => differs (List.mem_singleton.mp mem)
        · exact List.not_mem_nil
      obtain ⟨more, seen', cleanMore, scanned⟩ := scanEntry_items takes sound later laterOnce
        (isDelimiter ▸ firstOnce) stops enough fresh false
      unfold scanFrom
      rw [isFuel, flattenItems, List.append_assoc, step, scanned]
      refine ⟨events ++ more, seen', fun event mem => ?_, rfl⟩
      rcases List.mem_append.mp mem with first | second
      · exact clean event first
      · exact cleanMore event second

/-- An entry starts with the delimiter. -/
theorem flattenItems_led {items : List Item}
    (led : (items.map Item.tag).head? = some group.delimiterTag) :
    ∃ field more, flattenItems items = field :: more ∧ field.tag = group.delimiterTag := by
  cases items with
  | nil => cases led
  | cons item items =>
      obtain ⟨more, same⟩ := flattenItem_cons item
      refine ⟨item.head, more ++ flattenItems items, ?_, Option.some.inj led⟩
      rw [flattenItems, same]
      rfl

/-- The entries of an instance, one after the other, up to what is behind. -/
theorem scanEntries_entries (takes : Takes nests walkNested) (sound : Sound group)
    {entries : List (List Item)} {behind : List TagValue.FieldRef}
    (parses : ParsesEntries nests group behind entries) {enclosing : List Nat}
    (stops : StopsRun enclosing group behind) (track : Bool) (count fuel : Nat)
    (enough : entries.length ≤ fuel) :
    ∃ events, (∀ event ∈ events, event.clean = true) ∧
      scanEntries track walkNested group (some (count + entries.length)) enclosing fuel count false
        (flattenEntries entries ++ behind) = ⟨events, behind, count + entries.length, false⟩ := by
  induction entries generalizing count fuel with
  | nil =>
      refine ⟨[], fun _ mem => absurd mem List.not_mem_nil, ?_⟩
      rw [flattenEntries, List.nil_append]
      cases fuel with
      | zero => rfl
      | succ fuel =>
          cases behind with
          | nil => rfl
          | cons field rest =>
              rw [scanEntries]
              by_cases isDelimiter : field.tag = group.delimiterTag
              · have accepted : enclosing.contains field.tag = true := by
                  refine (stops field rfl).resolve_left fun notMember => ?_
                  rw [isDelimiter, isMember_iff.mpr sound.delimiter] at notMember
                  cases notMember
                have ends : endsGroup (some (count + 0)) enclosing count field.tag = true := by
                  unfold endsGroup
                  rw [accepted, Nat.add_zero]
                  simp
                rw [if_neg (not_not.mpr isDelimiter), List.length_nil, if_pos ends]
                rfl
              · rw [if_pos isDelimiter]
                rfl
  | cons entry entries ih =>
      obtain ⟨fuel, rfl⟩ := Nat.exists_eq_succ_of_ne_zero
        (Nat.ne_of_gt (Nat.lt_of_lt_of_le (Nat.succ_pos _) enough))
      obtain ⟨first, later⟩ := parses
      obtain ⟨field, more, same, isDelimiter⟩ := flattenItems_led first.led
      obtain ⟨events, seen, clean, scanned⟩ := scanFrom_entry takes sound first track
      obtain ⟨events', clean', scanned'⟩ := ih later (count + 1) fuel (Nat.le_of_succ_le_succ enough)
      have total : count + (entry :: entries).length = count + 1 + entries.length := by
        rw [List.length_cons]
        omega
      -- There are entries to come, so the declared count is not reached.
      have short : endsGroup (some (count + 1 + entries.length)) enclosing count field.tag = false := by
        unfold endsGroup
        rw [show (some (count + 1 + entries.length) == some count) = false from
          beq_false_of_ne fun same => absurd (Option.some.inj same) (by omega), Bool.false_and]
      rw [flattenEntries, List.append_assoc, same, List.cons_append, scanEntries, total,
        if_neg (not_not.mpr isDelimiter), if_neg (by rw [short]; exact Bool.false_ne_true)]
      rw [same, List.cons_append] at scanned
      dsimp only
      rw [scanned, scanned']
      refine ⟨_, fun event mem => ?_, rfl⟩
      rcases List.mem_append.mp mem with first | second
      · rcases List.mem_append.mp first with inEntry | closing
        · exact clean event inEntry
        · unfold closed at closing
          split at closing
          · rw [List.mem_singleton.mp closing]
            rfl
          · exact absurd closing List.not_mem_nil
      · exact clean' event second

theorem length_le_flattenEntries {entries : List (List Item)} {behind : List TagValue.FieldRef}
    (parses : ParsesEntries nests group behind entries) :
    entries.length ≤ (flattenEntries entries).length := by
  induction entries with
  | nil => exact Nat.zero_le _
  | cons entry entries ih =>
      obtain ⟨field, more, same, _⟩ := flattenItems_led parses.1.led
      have rest := ih parses.2
      rw [flattenEntries, same, List.cons_append, List.length_cons, List.length_cons, List.length_append]
      omega

/-- Nothing leads the first entry but its delimiter. -/
theorem leadEntry_entries {entries : List (List Item)} {behind : List TagValue.FieldRef}
    (parses : ParsesEntries nests group behind entries) {enclosing : List Nat}
    (stops : StopsRun enclosing group behind) (track : Bool) :
    leadEntry track walkNested group (some entries.length) enclosing (flattenEntries entries ++ behind) =
      ⟨[], flattenEntries entries ++ behind, 0, false⟩ := by
  cases entries with
  | nil =>
      rw [flattenEntries, List.nil_append]
      cases behind with
      | nil => rfl
      | cons field rest =>
          unfold leadEntry
          dsimp only
          have noLead : (group.isMember field.tag && !endsGroup (some 0) enclosing 0 field.tag) = false := by
            rcases stops field rfl with notMember | accepted
            · rw [notMember, Bool.false_and]
            · have ends : endsGroup (some 0) enclosing 0 field.tag = true := by
                unfold endsGroup
                rw [accepted]
                rfl
              rw [ends, Bool.not_true, Bool.and_false]
          rw [List.length_nil, Bool.and_assoc, noLead, Bool.and_false, if_neg Bool.false_ne_true]
  | cons entry entries =>
      obtain ⟨field, more, same, isDelimiter⟩ := flattenItems_led parses.1.led
      rw [flattenEntries, same]
      unfold leadEntry
      rw [List.cons_append, List.cons_append]
      dsimp only
      rw [if_neg (by simp [isDelimiter])]

end Walk

/-- With room for a run that parses, the walk takes it, and no more. -/
theorem walkGroup_takes (track : Bool) (room : Nat) : Takes (Parses room) (walkGroup track room) := by
  induction room with
  | zero => exact fun _ _ _ _ _ _ parses => parses.elim
  | succ room ih =>
      intro enclosing group count entries behind sound parses
      obtain ⟨declared, parses, stops⟩ := parses
      have enough : entries.length ≤ (flattenEntries entries ++ behind).length := by
        have counted := length_le_flattenEntries parses
        rw [List.length_append]
        omega
      obtain ⟨events, clean, scanned⟩ := scanEntries_entries ih sound parses stops track 0 _ enough
      rw [Nat.zero_add] at scanned
      have walked : walkGroup track (room + 1) enclosing group (count :: flattenEntries entries ++ behind) =
          ⟨.enterGroup group :: events ++ [.leaveGroup group true entries.length], behind⟩ := by
        rw [List.cons_append, walkGroup, walkWith]
        rw [declared, leadEntry_entries parses stops]
        dsimp only
        rw [scanned]
        simp
      rw [walked]
      refine ⟨rfl, fun event mem => ?_, List.getLast?_concat⟩
      rcases List.mem_append.mp mem with first | last
      · rcases List.mem_cons.mp first with rfl | inside
        · rfl
        · exact clean event inside
      · rw [List.mem_singleton.mp last]
        rfl

end IronFix.Dict
