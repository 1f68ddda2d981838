import IronFix.Dictionary.GroupParse

/-!
# Reading a tree back

What the reader hands out for a flattened tree is the tree: iterating yields
its entries, looking a tag up finds the item that starts with it, and a nested
read is the nested instance.
-/

namespace IronFix.Dict

/-! ## What a reader sees -/

/-- An entry view shows the items: their fields, each found by its tag, and
each nested instance as `nested` says. -/
structure EntryReads (nested : GroupEntries → List (List Item) → Prop) (view : GroupEntry)
    (items : List Item) : Prop where
  fields : view.fields = flattenItems items
  get : ∀ tag, view.get tag = (items.find? (·.tag == tag)).map Item.head
  group : ∀ count entries, .group count entries ∈ items →
    ∃ found, view.group count.tag = .ok (some found) ∧ nested found entries
  absent : ∀ tag, tag ∉ items.map Item.tag → (view.spec.nested tag).isSome →
    view.group tag = .ok none

/-- Reading yields the entries of a tree, in order, with `room` levels left. -/
def ReadsBack : (room : Nat) → GroupEntries → List (List Item) → Prop
  | 0, _, _ => False
  | room + 1, entries, tree =>
      List.Forall₂ (EntryReads (ReadsBack room)) entries.toList tree ∧
        entries.toList.map GroupEntry.index = List.range tree.length

/-! ## Iterating -/

/-- The views of a tree's entries, numbered from `index`. -/
def viewsFrom (spec : LayoutGroup) (depth : Nat) : (index : Nat) → List (List Item) → List GroupEntry
  | _, [] => []
  | index, items :: tree => ⟨flattenItems items, spec, index, depth⟩ :: viewsFrom spec depth (index + 1) tree

theorem viewsFrom_index (spec : LayoutGroup) (depth index : Nat) (tree : List (List Item)) :
    (viewsFrom spec depth index tree).map GroupEntry.index = List.range' index tree.length := by
  induction tree generalizing index with
  | nil => rfl
  | cons items tree ih =>
      rw [viewsFrom, List.map_cons, ih, List.length_cons, List.range'_succ]

theorem walkAt_takes (track : Bool) (depth : Nat) :
    Takes (Parses (fullRoom - depth)) (walkAt track depth) := walkGroup_takes track _

theorem drop_length {fields front : List TagValue.FieldRef} {start : Nat} (dropped : fields.drop start = front)
    (some : front ≠ []) : fields.length = start + front.length := by
  have length := congrArg List.length dropped
  rw [List.length_drop] at length
  have := List.length_pos_of_ne_nil some
  omega

section Iterate

variable {spec : LayoutGroup} {depth : Nat} (sound : Sound spec)

include sound

/-- An entry ends behind its items. -/
theorem entryEnd_entry {fields : List TagValue.FieldRef} {start : Nat} {items : List Item}
    {behind : List TagValue.FieldRef}
    (parses : ParsesEntry (Parses (fullRoom - (depth + 1))) spec behind items)
    (here : fields.drop start = flattenItems items ++ behind) :
    entryEnd fields start spec depth = start + (flattenItems items).length := by
  obtain ⟨events, seen, _, scanned⟩ := scanFrom_entry (walkAt_takes false (depth + 1)) sound parses false
  obtain ⟨field, more, same, _⟩ := flattenItems_led parses.led
  have length := drop_length here (by
    rw [same]
    exact List.cons_ne_nil _ _)
  unfold entryEnd positionOf
  rw [here, scanned]
  dsimp only
  rw [List.length_append] at length
  omega

/-- Iterating yields the entries of a tree. -/
theorem collect_tree {tree : List (List Item)} {entries : GroupEntries}
    (isSpec : entries.spec = spec) (isDepth : entries.depth = depth) {behind : List TagValue.FieldRef}
    (parses : ParsesEntries (Parses (fullRoom - (depth + 1))) spec behind tree)
    (here : entries.fields.drop entries.cursor = flattenEntries tree ++ behind)
    (remaining : entries.remaining = tree.length)
    (within : entries.cursor + (flattenEntries tree).length ≤ entries.stop) :
    entries.collect tree.length = viewsFrom spec depth entries.nextIndex tree := by
  induction tree generalizing entries with
  | nil => rfl
  | cons items tree ih =>
      obtain ⟨first, later⟩ := parses
      obtain ⟨field, more, same, _⟩ := flattenItems_led first.led
      rw [flattenEntries, List.append_assoc] at here
      have stops := entryEnd_entry sound first here
      rw [flattenEntries, List.length_append] at within
      have nonempty : 0 < (flattenItems items).length := by
        rw [same, List.length_cons]
        exact Nat.succ_pos _
      have next : entries.next = some (⟨flattenItems items, spec, entries.nextIndex, depth⟩,
          { entries with
            cursor := entries.cursor + (flattenItems items).length
            nextIndex := entries.nextIndex + 1
            remaining := tree.length }) := by
        unfold GroupEntries.next
        rw [if_neg (by omega), remaining]
        dsimp only [List.length_cons]
        rw [isSpec, isDepth, stops, here, Nat.add_sub_cancel_left, List.take_left' rfl]
      rw [List.length_cons, GroupEntries.collect, next]
      dsimp only
      rw [viewsFrom]
      refine congrArg _ (ih isSpec isDepth later ?_ rfl ?_)
      · show entries.fields.drop (entries.cursor + (flattenItems items).length) = _
        rw [← List.drop_drop, here, List.drop_left' rfl]
      · show entries.cursor + (flattenItems items).length + _ ≤ entries.stop
        omega

end Iterate

/-! ## Looking up in an entry -/

section Find

variable {entry : GroupEntry}

theorem positionOf_append (front rest : List TagValue.FieldRef) :
    positionOf (front ++ rest) rest = front.length := by
  unfold positionOf
  rw [List.length_append, Nat.add_sub_cancel]

/-- Looking a tag up finds the first item that starts with it. -/
theorem findFrom_items (sound : Sound entry.spec) {items : List Item}
    (parses : ParsesItems (Parses (fullRoom - (entry.depth + 1))) entry.spec [] items)
    (front : List TagValue.FieldRef) (here : entry.fields = front ++ flattenItems items) {fuel : Nat}
    (enough : items.length ≤ fuel) (tag : Nat) :
    (items.find? (·.tag == tag) = none → entry.findFrom tag fuel (flattenItems items) = none) ∧
    ∀ item, items.find? (·.tag == tag) = some item → ∃ index later,
      entry.findFrom tag fuel (flattenItems items) = some index ∧
        entry.fields.drop index = flattenItem item ++ flattenItems later ∧
        ParsesItem (Parses (fullRoom - (entry.depth + 1))) entry.spec (flattenItems later) item := by
  induction items generalizing front fuel with
  | nil =>
      rw [List.find?_nil, flattenItems]
      refine ⟨fun _ => ?_, by rintro item ⟨⟩⟩
      cases fuel with
      | zero => rfl
      | succ fuel => rfl
  | cons item items ih =>
      obtain ⟨fuel, rfl⟩ := Nat.exists_eq_succ_of_ne_zero
        (Nat.ne_of_gt (Nat.lt_of_lt_of_le (Nat.succ_pos _) enough))
      obtain ⟨first, later⟩ := parses
      rw [List.append_nil] at first
      have enough := Nat.le_of_succ_le_succ enough
      obtain ⟨more, same⟩ := flattenItem_cons item
      rw [flattenItems] at here ⊢
      by_cases isTag : item.tag = tag
      · have isHead : item.head.tag = tag := isTag
        rw [List.find?_cons_of_pos (by simpa using isTag)]
        refine ⟨by rintro ⟨⟩, fun found isFound => ?_⟩
        obtain rfl := Option.some.inj isFound
        refine ⟨front.length, items, ?_, ?_, first⟩
        · rw [same, List.cons_append, GroupEntry.findFrom, if_pos isHead, here, same, List.cons_append,
            positionOf_append]
        · rw [here, List.drop_left' rfl]
      · have notHead : ¬item.head.tag = tag := isTag
        rw [List.find?_cons_of_neg (by simpa using isTag)]
        have step : entry.findFrom tag (fuel + 1) (flattenItem item ++ flattenItems items) =
            entry.findFrom tag fuel (flattenItems items) := by
          rw [same, List.cons_append, GroupEntry.findFrom, if_neg notHead]
          cases item with
          | field f =>
              rw [flattenItem] at same
              obtain rfl : more = [] := (List.cons.inj same).2.symm
              rw [show (Item.field f).head = f from rfl, first.2]
              rfl
          | group count entries =>
              obtain ⟨-, nested, found, instance_⟩ := first
              rw [flattenItem] at same
              obtain rfl : more = flattenEntries entries := (List.cons.inj same).2.symm
              have walks := walkAt_takes false (entry.depth + 1) entry.spec.entry.members nested count
                entries _ (sound.nested (nested_mem found).1) instance_
              rw [show (Item.group count entries).head = count from rfl, found]
              dsimp only
              rw [← List.cons_append, walks.rest]
        obtain ⟨absent, present⟩ := ih later (front ++ flattenItem item)
          (by rw [here, List.append_assoc]) enough
        rw [step]
        exact ⟨absent, present⟩

/-- So with a view of the items. -/
theorem find_items (sound : Sound entry.spec) {items : List Item}
    (parses : ParsesItems (Parses (fullRoom - (entry.depth + 1))) entry.spec [] items)
    (fields : entry.fields = flattenItems items) (tag : Nat) :
    (items.find? (·.tag == tag) = none → entry.find tag = none) ∧
    ∀ item, items.find? (·.tag == tag) = some item → ∃ index later, entry.find tag = some index ∧
      entry.fields.drop index = flattenItem item ++ flattenItems later ∧
      ParsesItem (Parses (fullRoom - (entry.depth + 1))) entry.spec (flattenItems later) item := by
  unfold GroupEntry.find
  have found := findFrom_items sound parses [] fields
    (fields ▸ length_le_flattenItems items : items.length ≤ entry.fields.length) tag
  rw [← fields] at found
  exact found

theorem get_items (sound : Sound entry.spec) {items : List Item}
    (parses : ParsesItems (Parses (fullRoom - (entry.depth + 1))) entry.spec [] items)
    (fields : entry.fields = flattenItems items) (tag : Nat) :
    entry.get tag = (items.find? (·.tag == tag)).map Item.head := by
  obtain ⟨absent, present⟩ := find_items sound parses fields tag
  unfold GroupEntry.get
  cases isFound : items.find? (·.tag == tag) with
  | none =>
      rw [absent isFound]
      rfl
  | some item =>
      obtain ⟨index, later, at_, there, _⟩ := present item isFound
      obtain ⟨more, same⟩ := flattenItem_cons item
      rw [at_]
      show entry.fields[index]? = some item.head
      rw [← List.head?_drop, there, same]
      rfl

end Find

/-! ## The tree is read back -/

/-- A view of an entry's items shows them, if nested instances are read back. -/
theorem entryReads {room : Nat} {view : GroupEntry} {items : List Item} (sound : Sound view.spec)
    (isRoom : fullRoom - (view.depth + 1) = room)
    (once : (items.map Item.tag).Nodup) (parses : ParsesItems (Parses room) view.spec [] items)
    (fields : view.fields = flattenItems items)
    (nestedReads : ∀ {enclosing : List Nat} {nested : LayoutGroup} {count : TagValue.FieldRef}
      {entries : List (List Item)} {found : GroupEntries} {behind : List TagValue.FieldRef}, Sound nested →
      Parses room enclosing nested count entries behind →
      found.spec = nested → fullRoom - found.depth = room → found.nextIndex = 0 →
      found.remaining = entries.length → found.fields.drop found.cursor = flattenEntries entries ++ behind →
      found.cursor + (flattenEntries entries).length ≤ found.stop → ReadsBack room found entries) :
    EntryReads (ReadsBack room) view items := by
  subst isRoom
  refine ⟨fields, get_items sound parses fields, fun count entries listed => ?_, fun tag notThere some => ?_⟩
  · -- No other item has the tag, so it is this one that is found.
    have isFound : items.find? (·.tag == count.tag) = some (.group count entries) := by
      have some : (items.find? (·.tag == count.tag)).isSome :=
        List.find?_isSome.mpr ⟨Item.group count entries, listed, beq_self_eq_true count.tag⟩
      obtain ⟨item, isFound⟩ := Option.isSome_iff_exists.mp some
      have isTag : item.tag = count.tag := by simpa using List.find?_some isFound
      rw [isFound]
      exact congrArg _ (List.inj_on_of_nodup_map once (List.mem_of_find?_eq_some isFound) listed isTag)
    obtain ⟨index, later, at_, there, -, nested, isNested, instance_⟩ :=
      (find_items sound parses fields count.tag).2 _ isFound
    have below := (nested_mem isNested).1
    have atCount : view.fields[index]? = some count := by
      rw [← List.head?_drop, there, flattenItem]
      rfl
    have behind : view.fields.drop (index + 1) = flattenEntries entries ++ flattenItems later := by
      rw [← List.drop_drop, there, flattenItem]
      rfl
    refine ⟨.trusted view.fields index nested (view.depth + 1), ?_, ?_⟩
    · unfold GroupEntry.group
      rw [isNested, at_]
      rfl
    · have declared : parseCount count.value = some entries.length := by
        cases isRoom : fullRoom - (view.depth + 1) with
        | zero =>
            rw [isRoom] at instance_
            exact instance_.elim
        | succ room =>
            rw [isRoom] at instance_
            exact instance_.1
      refine nestedReads (sound.nested below) instance_ rfl rfl rfl ?_ behind ?_
      · show ((view.fields[index]?).bind fun field => parseCount field.value).getD 0 = entries.length
        rw [atCount]
        show (parseCount count.value).getD 0 = entries.length
        rw [declared]
        rfl
      · show index + 1 + _ ≤ view.fields.length
        have length := congrArg List.length there
        rw [List.length_drop, flattenItem, List.cons_append, List.length_cons, List.length_append] at length
        omega
  · have isNone : items.find? (·.tag == tag) = none := by
      rw [List.find?_eq_none]
      intro item mem isTag
      exact notThere (List.mem_map.mpr ⟨item, mem, by simpa using isTag⟩)
    unfold GroupEntry.group
    obtain ⟨nested, isNested⟩ := Option.isSome_iff_exists.mp some
    rw [isNested, (find_items sound parses fields tag).1 isNone]
    rfl

/-- What the reader iterates, from where an instance's entries start, is the
instance. -/
theorem readsBack (room : Nat) {enclosing : List Nat} {nested : LayoutGroup} {count : TagValue.FieldRef}
    {tree : List (List Item)} {found : GroupEntries} {behind : List TagValue.FieldRef}
    (sound : Sound nested) (parses : Parses room enclosing nested count tree behind)
    (isSpec : found.spec = nested) (isRoom : fullRoom - found.depth = room) (first : found.nextIndex = 0)
    (remaining : found.remaining = tree.length)
    (here : found.fields.drop found.cursor = flattenEntries tree ++ behind)
    (within : found.cursor + (flattenEntries tree).length ≤ found.stop) : ReadsBack room found tree := by
  induction room generalizing enclosing nested count tree found behind with
  | zero => exact parses.elim
  | succ room ih =>
      obtain ⟨_, parses, _⟩ := parses
      have inner : fullRoom - (found.depth + 1) = room := by omega
      have views : found.toList = viewsFrom nested found.depth 0 tree := by
        unfold GroupEntries.toList
        rw [remaining, collect_tree sound isSpec rfl (inner ▸ parses) here remaining within, first]
      refine ⟨?_, ?_⟩
      · rw [views]
        have shows : ∀ (index : Nat) (entries : List (List Item)),
            ParsesEntries (Parses room) nested behind entries →
            List.Forall₂ (EntryReads (ReadsBack room)) (viewsFrom nested found.depth index entries) entries := by
          intro index entries parses
          induction entries generalizing index with
          | nil => exact .nil
          | cons items entries ihEntries =>
              obtain ⟨one, later⟩ := parses
              refine .cons ?_ (ihEntries _ later)
              -- A view ends where its entry does: nothing is behind it.
              have alone : ParsesItems (Parses room) nested [] items :=
                ParsesItems.cut (fun _ _ _ _ _ => Parses.cut) one.items
              exact entryReads sound inner one.once alone rfl
                fun {enclosing nested count entries found behind} =>
                  @ih enclosing nested count entries found behind
        exact shows 0 tree parses
      · rw [views, viewsFrom_index, List.range_eq_range']

end IronFix.Dict
