import Mathlib.Algebra.BigOperators.Group.List.Basic
import Mathlib.Data.List.Basic
import Mathlib.Data.Nat.Basic
import Mathlib.Algebra.GroupWithZero.Nat

/-!
# Lanes

Items in one order of arrival, each in a lane. Lane by lane they are queues,
each in the order of arrival (`laneOf`); an item is taken from the front of its
lane (`takeFrom`).
-/

namespace Lib.Lanes

variable {κ α : Type} [DecidableEq κ] (lane : α → κ)

/-- The items of a lane, in the order of arrival. -/
def laneOf (key : κ) (items : List α) : List α := items.filter fun item => lane item = key

/-- The items without the first of a lane. -/
def takeFrom (key : κ) (items : List α) : List α := items.eraseP fun item => lane item = key

@[simp] theorem laneOf_nil (key : κ) : laneOf lane key [] = [] := rfl

theorem laneOf_append (key : κ) (items more : List α) :
    laneOf lane key (items ++ more) = laneOf lane key items ++ laneOf lane key more :=
  List.filter_append _ _

theorem laneOf_cons_self {item : α} {items : List α} :
    laneOf lane (lane item) (item :: items) = item :: laneOf lane (lane item) items := by
  simp [laneOf]

theorem laneOf_cons_other {key : κ} {item : α} {items : List α} (other : lane item ≠ key) :
    laneOf lane key (item :: items) = laneOf lane key items := by
  simp [laneOf, other]

theorem mem_laneOf {key : κ} {item : α} {items : List α} :
    item ∈ laneOf lane key items ↔ item ∈ items ∧ lane item = key := by
  simp [laneOf]

/-- The lane an item is taken from loses its head. -/
theorem laneOf_takeFrom_self (key : κ) (items : List α) :
    laneOf lane key (takeFrom lane key items) = (laneOf lane key items).tail := by
  induction items with
  | nil => rfl
  | cons item rest ih =>
      by_cases here : lane item = key
      · subst here
        rw [laneOf_cons_self, List.tail_cons, takeFrom, List.eraseP_cons_of_pos (by simp)]
      · have kept : takeFrom lane key (item :: rest) = item :: takeFrom lane key rest :=
          List.eraseP_cons_of_neg (by simp [here])
        rw [kept, laneOf_cons_other lane here, laneOf_cons_other lane here, ih]

/-- The other lanes stay. -/
theorem laneOf_takeFrom_other {key other : κ} (differ : other ≠ key) (items : List α) :
    laneOf lane other (takeFrom lane key items) = laneOf lane other items := by
  induction items with
  | nil => rfl
  | cons item rest ih =>
      by_cases here : lane item = key
      · have elsewhere : lane item ≠ other := fun same => differ (same.symm.trans here)
        rw [laneOf_cons_other lane elsewhere, takeFrom, List.eraseP_cons_of_pos (by simp [here])]
      · have kept : takeFrom lane key (item :: rest) = item :: takeFrom lane key rest :=
          List.eraseP_cons_of_neg (by simp [here])
        rw [kept]
        by_cases own : lane item = other
        · subst own
          rw [laneOf_cons_self, laneOf_cons_self, ih]
        · rw [laneOf_cons_other lane own, laneOf_cons_other lane own, ih]

theorem takeFrom_sublist (key : κ) (items : List α) : (takeFrom lane key items).Sublist items :=
  List.eraseP_sublist

theorem length_takeFrom {key : κ} {item : α} {items : List α} (member : item ∈ items)
    (own : lane item = key) : (takeFrom lane key items).length + 1 = items.length := by
  have positive := List.length_pos_of_mem member
  rw [takeFrom, List.length_eraseP_of_mem member (by simp [own])]
  omega

/-- The first item whose lane is ready is the one of lowest rank among the heads
of the ready lanes, the ranks ascending in the order of arrival. -/
theorem find_of_least (rank : α → Nat) (ready : κ → Bool) {items : List α} {first : α}
    (ascending : items.Pairwise fun earlier later => rank earlier < rank later)
    (member : first ∈ items) (isReady : ready (lane first) = true)
    (least : ∀ item ∈ items, ready (lane item) = true →
      (laneOf lane (lane item) items).head? = some item → rank first ≤ rank item) :
    items.find? (fun item => ready (lane item)) = some first := by
  obtain ⟨before, after, rfl⟩ := List.append_of_mem member
  refine List.find?_eq_some_iff_append.mpr ⟨isReady, before, after, rfl, ?_⟩
  intro earlier listed
  rw [Bool.not_eq_true', Bool.eq_false_iff]
  intro earlierReady
  -- the head of the lane of an earlier item arrived no later than it
  have nonempty : earlier ∈ laneOf lane (lane earlier) before :=
    (mem_laneOf lane).mpr ⟨listed, rfl⟩
  obtain ⟨head, rest, lane_eq⟩ := List.exists_cons_of_ne_nil (List.ne_nil_of_mem nonempty)
  have inLane : head ∈ laneOf lane (lane earlier) before := lane_eq ▸ List.mem_cons_self
  obtain ⟨headBefore, headLane⟩ := (mem_laneOf lane).mp inLane
  have isHead : (laneOf lane (lane head) (before ++ first :: after)).head? = some head := by
    rw [headLane, laneOf_append, lane_eq]
    rfl
  have bounded := least head (List.mem_append_left _ headBefore) (headLane ▸ earlierReady) isHead
  have earlierRank := (List.pairwise_append.mp ascending).2.2 head headBefore first List.mem_cons_self
  omega

theorem sum_indicator (key count : Nat) :
    ((List.range count).map fun other => if key = other then 1 else 0).sum =
      if key < count then 1 else 0 := by
  induction count with
  | zero => rfl
  | succ count ih =>
      rw [List.range_succ, List.map_append, List.sum_append, ih]
      simp only [List.map_singleton, List.sum_singleton]
      split_ifs <;> omega

/-- The items are those of their lanes. -/
theorem sum_lanes {lane : α → Nat} {count : Nat} {items : List α}
    (bounded : ∀ item ∈ items, lane item < count) :
    ((List.range count).map fun key => (laneOf lane key items).length).sum = items.length := by
  induction items with
  | nil => simp
  | cons item rest ih =>
      have counted : (fun key => (laneOf lane key (item :: rest)).length) =
          fun key => (laneOf lane key rest).length + if lane item = key then 1 else 0 := by
        funext key
        by_cases here : lane item = key
        · subst here
          rw [laneOf_cons_self, List.length_cons, if_pos rfl]
        · rw [laneOf_cons_other lane here, if_neg here, Nat.add_zero]
      have once : ((List.range count).map fun key => if lane item = key then 1 else 0).sum = 1 := by
        rw [sum_indicator, if_pos (bounded item List.mem_cons_self)]
      rw [counted, List.sum_map_add, ih fun other listed => bounded other (List.mem_cons_of_mem _ listed),
        once, List.length_cons]

/-- Groups of items one after another, each item with the key of its group: the
lane of a key is its group. -/
theorem lane_of_groups (key : Nat → Nat) {groups : List (List α)} {start : Nat}
    (named : ∀ index group, groups[index]? = some group → group ≠ [] →
      key (start + index) = start + index) (slot : Nat) :
    (laneOf Prod.fst slot ((groups.zipIdx start).flatMap fun entry =>
        entry.1.map fun item => (key entry.2, item))).map Prod.snd =
      if slot < start then [] else groups[slot - start]?.getD [] := by
  induction groups generalizing start with
  | nil => simp
  | cons group groups ih =>
      have shifted : ∀ index group, groups[index]? = some group → group ≠ [] →
          key (start + 1 + index) = start + 1 + index := by
        intro index group at_index nonempty
        have same := named (index + 1) group at_index nonempty
        rwa [Nat.add_assoc, Nat.add_comm 1]
      have rest := ih shifted
      rw [List.zipIdx_cons, List.flatMap_cons, laneOf_append, List.map_append, rest]
      dsimp only
      have first : (laneOf Prod.fst slot (group.map fun item => (key start, item))).map Prod.snd =
          if slot = start then group else [] := by
        by_cases empty : group = []
        · subst empty
          simp
        · have own : key start = start := named 0 group rfl empty
          rw [own]
          by_cases here : slot = start
          · subst here
            simp [laneOf, List.filter_map, Function.comp_def]
          · simp [laneOf, List.filter_map, Function.comp_def, here, Ne.symm here]
      rw [first]
      rcases lt_trichotomy slot start with before | rfl | after
      · rw [if_neg before.ne, if_pos (Nat.lt_succ_of_lt before), if_pos before]
        rfl
      · rw [if_pos rfl, if_pos (Nat.lt_succ_self _), if_neg (lt_irrefl _), Nat.sub_self]
        simp
      · rw [if_neg after.ne', if_neg (by omega), if_neg (by omega)]
        obtain ⟨offset, rfl⟩ := Nat.exists_eq_add_of_lt after
        simp [show start + offset + 1 - start = offset + 1 by omega,
          show start + offset + 1 - (start + 1) = offset by omega]

end Lib.Lanes
