import IronFix.Store.Index
import Mathlib.Data.List.Nodup

/-!
# The index is a map

Whatever is filed, in whatever order, the index answers as an ordered map does:
adding chunks moves no entry, a slot that is set answers for its own number
only, and the dense index never has more holes than its limit.
-/

namespace IronFix.Store

open Lib.Decimal Lib.Ordered

/-- An entry a slot can hold, and a hole is not. -/
structure IndexEntry.Fits (entry : IndexEntry) : Prop where
  offset : entry.offset ≤ u64Max
  positive : 0 < entry.bodyLen

/-- The halves of an offset make it up again. -/
theorem IndexSlot.new_entry {entry : IndexEntry} (fits : entry.Fits) :
    (IndexSlot.new entry).entry = some entry := by
  have low : entry.offset % 2 ^ 32 < 2 ^ 32 := Nat.mod_lt _ (by decide)
  have high : entry.offset / 2 ^ 32 < 2 ^ 32 := by
    have bound := fits.offset
    unfold u64Max at bound
    omega
  unfold IndexSlot.entry IndexSlot.new
  dsimp only
  rw [if_neg (Nat.ne_of_gt fits.positive), ← Nat.shiftLeft_add_eq_or_of_lt low,
    Nat.shiftRight_eq_div_pow, Nat.mod_eq_of_lt high, Nat.shiftLeft_eq, Nat.div_add_mod']

theorem chunk_positive : 0 < CHUNK_SLOTS := by decide

/-- The first number of a chunk is a multiple of the chunk length. -/
theorem Dense.aligned_eq (seq : Nat) : Dense.aligned seq = CHUNK_SLOTS * (seq / CHUNK_SLOTS) := by
  have place : seq &&& CHUNK_MASK = seq % CHUNK_SLOTS := Nat.and_two_pow_sub_one_eq_mod seq CHUNK_SHIFT
  have whole := Nat.div_add_mod seq CHUNK_SLOTS
  unfold Dense.aligned
  rw [place]
  omega

namespace Dense

/-! ## Slots -/

/-- What the slot of a number holds. -/
def find (dense : Dense) (seq : Nat) : Option IndexEntry := (dense.slot seq).bind IndexSlot.entry

variable {dense : Dense} {seq : Nat}

theorem position_eq (reached : dense.start ≤ seq) : dense.position seq =
    some ((seq - dense.start) / CHUNK_SLOTS, (seq - dense.start) % CHUNK_SLOTS) := by
  have place : ∀ n, n &&& CHUNK_MASK = n % CHUNK_SLOTS := fun n =>
    Nat.and_two_pow_sub_one_eq_mod n CHUNK_SHIFT
  unfold position
  rw [if_pos reached, place, Nat.shiftRight_eq_div_pow]
  rfl

theorem slot_eq (reached : dense.start ≤ seq) :
    dense.slot seq = (dense.chunks[(seq - dense.start) / CHUNK_SLOTS]?).bind fun chunk =>
      chunk.slots[(seq - dense.start) % CHUNK_SLOTS]? := by
  unfold slot
  rw [position_eq reached]
  rfl

theorem slot_chunks (chunks : List Chunk) (reached : dense.start ≤ seq) :
    slot { dense with chunks := chunks } seq =
      (chunks[(seq - dense.start) / CHUNK_SLOTS]?).bind fun chunk =>
        chunk.slots[(seq - dense.start) % CHUNK_SLOTS]? := slot_eq reached

theorem slot_before (before : seq < dense.start) : dense.slot seq = none := by
  unfold slot position
  rw [if_neg (Nat.not_le.mpr before)]
  rfl

theorem newChunk_hole {i : Nat} (inside : i < CHUNK_SLOTS) :
    newChunk.slots[i]? = some .HOLE := List.getElem?_replicate_of_lt inside

/-- Every number of a chunk has a slot. -/
theorem slot_some (reached : dense.start ≤ seq)
    (within : seq < dense.start + CHUNK_SLOTS * dense.chunks.length) :
    ∃ slot, dense.slot seq = some slot := by
  have chunkInside : (seq - dense.start) / CHUNK_SLOTS < dense.chunks.length := by
    rw [Nat.div_lt_iff_lt_mul chunk_positive, Nat.mul_comm]
    omega
  have slotInside : (seq - dense.start) % CHUNK_SLOTS <
      (dense.chunks[(seq - dense.start) / CHUNK_SLOTS]).slots.length := by
    rw [Chunk.full]
    exact Nat.mod_lt _ chunk_positive
  rw [slot_eq reached, List.getElem?_eq_getElem chunkInside]
  exact ⟨_, List.getElem?_eq_getElem slotInside⟩

/-- Setting a slot changes what its own number finds. -/
theorem setSlot_spec (reached : dense.start ≤ seq)
    (within : seq < dense.start + CHUNK_SLOTS * dense.chunks.length) (slot : IndexSlot) :
    ∃ chunks, dense.setSlot seq slot = some { dense with chunks := chunks } ∧
      chunks.length = dense.chunks.length ∧
      ∀ other, Dense.slot { dense with chunks := chunks } other =
        if other = seq then some slot else dense.slot other := by
  obtain ⟨before, held⟩ := slot_some reached within
  rw [slot_eq reached, Option.bind_eq_some_iff] at held
  obtain ⟨chunk, chunkHere, slotHere⟩ := held
  obtain ⟨chunkInside, -⟩ := List.getElem?_eq_some_iff.mp chunkHere
  obtain ⟨slotInside, -⟩ := List.getElem?_eq_some_iff.mp slotHere
  refine ⟨dense.chunks.set ((seq - dense.start) / CHUNK_SLOTS)
    ⟨chunk.slots.set ((seq - dense.start) % CHUNK_SLOTS) slot, (List.length_set ..).trans chunk.full⟩,
    ?_, List.length_set .., ?_⟩
  · unfold setSlot
    rw [position_eq reached]
    simp only [Option.bind_eq_bind, Option.bind_some, chunkHere, slotHere]
  · intro other
    by_cases otherReached : dense.start ≤ other
    · rw [slot_chunks _ otherReached, slot_eq otherReached]
      by_cases sameChunk : (seq - dense.start) / CHUNK_SLOTS = (other - dense.start) / CHUNK_SLOTS
      · rw [← sameChunk, List.getElem?_set_self chunkInside, chunkHere, Option.bind_some,
          Option.bind_some]
        by_cases same : other = seq
        · rw [if_pos same, same, List.getElem?_set_self slotInside]
        · -- one chunk, so the places differ
          have differ : (seq - dense.start) % CHUNK_SLOTS ≠ (other - dense.start) % CHUNK_SLOTS := by
            intro samePlace
            have one := Nat.div_add_mod (seq - dense.start) CHUNK_SLOTS
            have two := Nat.div_add_mod (other - dense.start) CHUNK_SLOTS
            rw [sameChunk, samePlace, two] at one
            omega
          rw [if_neg same, List.getElem?_set_ne differ]
      · rw [List.getElem?_set_ne sameChunk, if_neg]
        rintro rfl
        exact sameChunk rfl
    · have early : other < dense.start := Nat.lt_of_not_le otherReached
      have gone : ∀ chunks, Dense.slot { dense with chunks := chunks } other = none :=
        fun _ => slot_before early
      rw [gone, slot_before early, if_neg]
      rintro rfl
      exact otherReached reached

/-! ## Growing -/

/-- A chunk of holes in front changes nothing that is found. -/
theorem find_front (room : CHUNK_SLOTS ≤ dense.start) (seq : Nat) :
    find { dense with start := dense.start - CHUNK_SLOTS, chunks := newChunk :: dense.chunks } seq =
      dense.find seq := by
  unfold find
  by_cases reached : dense.start ≤ seq
  · have moved : seq - (dense.start - CHUNK_SLOTS) = seq - dense.start + CHUNK_SLOTS := by omega
    have down : dense.start - CHUNK_SLOTS ≤ seq := by omega
    have after : slot { dense with
        start := dense.start - CHUNK_SLOTS, chunks := newChunk :: dense.chunks } seq = _ :=
      slot_eq down
    rw [after, slot_eq reached]
    dsimp only
    rw [moved, Nat.add_div_right _ chunk_positive, Nat.add_mod_right, List.getElem?_cons_succ]
  · have early : seq < dense.start := Nat.lt_of_not_le reached
    rw [slot_before early]
    by_cases inside : dense.start - CHUNK_SLOTS ≤ seq
    · have small : seq - (dense.start - CHUNK_SLOTS) < CHUNK_SLOTS := by omega
      have after : slot { dense with
          start := dense.start - CHUNK_SLOTS, chunks := newChunk :: dense.chunks } seq = _ :=
        slot_eq inside
      rw [after]
      dsimp only
      rw [Nat.div_eq_of_lt small, Nat.mod_eq_of_lt small, List.getElem?_cons_zero, Option.bind_some,
        newChunk_hole small]
      rfl
    · have earlier : seq < dense.start - CHUNK_SLOTS := Nat.lt_of_not_le inside
      have gone : slot { dense with
          start := dense.start - CHUNK_SLOTS, chunks := newChunk :: dense.chunks } seq = none :=
        slot_before earlier
      rw [gone]

/-- A chunk of holes behind changes nothing that is found. -/
theorem find_back (seq : Nat) :
    find { dense with chunks := dense.chunks ++ [newChunk] } seq = dense.find seq := by
  unfold find
  by_cases reached : dense.start ≤ seq
  · rw [slot_chunks _ reached, slot_eq reached]
    rcases Nat.lt_trichotomy ((seq - dense.start) / CHUNK_SLOTS) dense.chunks.length with
      inside | last | beyond
    · rw [List.getElem?_append_left inside]
    · rw [last, List.getElem?_concat_length, List.getElem?_eq_none (le_refl _), Option.bind_some,
        newChunk_hole (Nat.mod_lt _ chunk_positive)]
      rfl
    · rw [List.getElem?_eq_none, List.getElem?_eq_none (Nat.le_of_lt beyond)]
      rw [List.length_append, List.length_singleton]
      exact beyond
  · have early : seq < dense.start := Nat.lt_of_not_le reached
    have gone : slot { dense with chunks := dense.chunks ++ [newChunk] } seq = none := slot_before early
    rw [gone, slot_before early]

/-- Chunks were added at either end. -/
structure Grown (dense after : Dense) : Prop where
  find : ∀ seq, after.find seq = dense.find seq
  start : after.start ≤ dense.start
  stop : dense.start + CHUNK_SLOTS * dense.chunks.length ≤
    after.start + CHUNK_SLOTS * after.chunks.length
  aligned : CHUNK_SLOTS ∣ dense.start → CHUNK_SLOTS ∣ after.start

theorem Grown.refl (dense : Dense) : Grown dense dense :=
  ⟨fun _ => rfl, le_refl _, le_refl _, id⟩

theorem Grown.trans {first second third : Dense} (one : Grown first second)
    (two : Grown second third) : Grown first third where
  find := fun seq => (two.find seq).trans (one.find seq)
  start := two.start.trans one.start
  stop := one.stop.trans two.stop
  aligned := fun aligned => two.aligned (one.aligned aligned)

theorem growFront_spec (first : Nat) (isAligned : CHUNK_SLOTS ∣ dense.start) :
    ∃ after, growFront first dense = .ok () after ∧ Grown dense after ∧ after.start ≤ first := by
  fun_induction growFront first dense with
  | case1 dense behind room ih =>
      obtain ⟨after, grows, grown, down⟩ := ih (Nat.dvd_sub isAligned (dvd_refl _))
      refine ⟨after, grows, Grown.trans ⟨find_front room, ?_, ?_, ?_⟩ grown, down⟩
      · exact Nat.sub_le _ _
      · dsimp only
        rw [List.length_cons, Nat.mul_succ]
        omega
      · exact fun aligned => Nat.dvd_sub aligned (dvd_refl _)
  | case2 dense behind crowded =>
      -- a multiple of the chunk length above another one has room below it
      have positive : 0 < dense.start := Nat.lt_of_le_of_lt (Nat.zero_le _) behind
      exact absurd (Nat.le_of_dvd positive isAligned) crowded
  | case3 dense there => exact ⟨dense, rfl, .refl dense, Nat.le_of_not_lt there⟩

theorem growBack_spec (chunk : Nat) (dense : Dense) :
    Grown dense (growBack chunk dense) ∧ chunk < (growBack chunk dense).chunks.length ∧
      (growBack chunk dense).start = dense.start := by
  fun_induction growBack chunk dense with
  | case1 dense short ih =>
      obtain ⟨grown, long, start⟩ := ih
      refine ⟨Grown.trans ⟨find_back, le_refl _, ?_, id⟩ grown, long, start⟩
      dsimp only
      rw [List.length_append, List.length_singleton, Nat.mul_succ]
      omega
  | case2 dense long => exact ⟨.refl dense, Nat.lt_of_not_le long, rfl⟩

/-! ## Filing -/

/-- Setting the slot of an entry files it, whatever the counters say. -/
theorem setSlot_files (dense : Dense) {entry : IndexEntry} (fits : entry.Fits) (reached : dense.start ≤ seq)
    (within : seq < dense.start + CHUNK_SLOTS * dense.chunks.length) :
    ∃ chunks, dense.setSlot seq (.new entry) = some { dense with chunks := chunks } ∧
      chunks.length = dense.chunks.length ∧
      ∀ other, find { dense with chunks := chunks } other =
        if other = seq then some entry else dense.find other := by
  obtain ⟨chunks, set, length, slots⟩ := setSlot_spec reached within (.new entry)
  refine ⟨chunks, set, length, ?_⟩
  intro other
  unfold find
  rw [slots other]
  by_cases same : other = seq
  · rw [if_pos same, if_pos same, Option.bind_some, IndexSlot.new_entry fits]
  · rw [if_neg same, if_neg same]

/-- What the dense index has when a number is filed. -/
structure Spans (dense : Dense) (map : OrderedMap Nat IndexEntry) : Prop where
  aligned : CHUNK_SLOTS ∣ dense.start
  low : dense.start ≤ dense.lowest
  ordered : dense.lowest ≤ dense.highest
  high : dense.highest < dense.start + CHUNK_SLOTS * dense.chunks.length
  isU64 : dense.highest ≤ u64Max
  inside : ∀ seq entry, map.get? seq = some entry → dense.lowest ≤ seq ∧ seq ≤ dense.highest
  holes : dense.highest + 1 ≤ dense.lowest + dense.filed + MAX_DENSE_HOLES

/-- The dense index answers as the map does. -/
structure Mirrors (dense : Dense) (map : OrderedMap Nat IndexEntry) : Prop where
  find : ∀ seq, dense.find seq = map.get? seq
  counted : dense.filed = map.entries.length
  spans : dense.filed ≠ 0 → Spans dense map

theorem mirrors_default : Mirrors .default .empty where
  find := by
    intro seq
    unfold find
    rw [slot_eq (Nat.zero_le _)]
    rfl
  counted := rfl
  spans := fun filed => absurd rfl filed

/-- What filing a frame comes to: it answers as the map does, or changes nothing. -/
def FilesAs (map : OrderedMap Nat IndexEntry) (seq : Nat) (entry : IndexEntry) (dense : Dense)
    (answer : EStateM.Result NotDense Dense (Option IndexEntry)) : Prop :=
  (∃ after, answer = .ok (map.get? seq) after ∧ Mirrors after (map.insert seq entry)) ∨
    answer = .error .notDense dense

section Files

variable {map : OrderedMap Nat IndexEntry} {entry : IndexEntry}

theorem chunk_holds (seq : Nat) : aligned seq ≤ seq ∧ seq < aligned seq + CHUNK_SLOTS := by
  have whole := Nat.div_add_mod seq CHUNK_SLOTS
  have small := Nat.mod_lt seq chunk_positive
  rw [aligned_eq]
  omega

theorem insert_first (mirrors : Mirrors dense map) (isU64 : seq ≤ u64Max)
    (fits : entry.Fits) (nothing : dense.filed = 0) :
    FilesAs map seq entry dense (dense.insert seq entry) := by
  have absent : ∀ other, map.get? other = none := by
    intro other
    have none_filed : map.entries = [] := List.length_eq_zero_iff.mp (mirrors.counted ▸ nothing)
    show Lib.Ordered.find other map.entries = none
    rw [none_filed]
    rfl
  have blank : ∀ other, find { dense with start := aligned seq, chunks := [newChunk] } other = none := by
    intro other
    unfold Dense.find
    by_cases reached : aligned seq ≤ other
    · have here : slot { dense with start := aligned seq, chunks := [newChunk] } other = _ :=
        slot_eq reached
      rw [here]
      dsimp only
      cases chunk : (other - aligned seq) / CHUNK_SLOTS with
      | zero =>
          rw [List.getElem?_cons_zero, Option.bind_some, newChunk_hole (Nat.mod_lt _ chunk_positive)]
          rfl
      | succ chunk => rfl
    · have gone : slot { dense with start := aligned seq, chunks := [newChunk] } other = none :=
        slot_before (Nat.lt_of_not_le reached)
      rw [gone]
      rfl
  obtain ⟨low, high⟩ := chunk_holds seq
  have within : seq < aligned seq + CHUNK_SLOTS * [newChunk].length := by
    rw [List.length_singleton, Nat.mul_one]
    exact high
  obtain ⟨chunks, set, length, found⟩ : ∃ chunks,
      setSlot { dense with start := aligned seq, chunks := [newChunk] } seq (.new entry) =
        some { dense with start := aligned seq, chunks := chunks } ∧ chunks.length = 1 ∧
      ∀ other, find { dense with start := aligned seq, chunks := chunks } other =
        if other = seq then some entry else none := by
    obtain ⟨chunks, set, length, found⟩ :=
      setSlot_files { dense with start := aligned seq, chunks := [newChunk] } fits low within
    refine ⟨chunks, set, length, fun other => ?_⟩
    rw [← blank other]
    exact found other
  refine .inl ⟨{ start := aligned seq, chunks := chunks, lowest := seq, highest := seq, filed := 1 },
    ?_, ?_, ?_, ?_⟩
  · unfold insert
    rw [if_pos nothing, absent seq]
    dsimp only
    rw [set]
  · intro other
    rw [OrderedMap.insert_get?, absent other]
    exact found other
  · rw [OrderedMap.insert_length, absent seq, ← mirrors.counted, nothing]
    rfl
  · intro _
    refine ⟨?_, low, le_refl _, ?_, isU64, ?_, ?_⟩
    · rw [aligned_eq]
      exact dvd_mul_right _ _
    · show seq < aligned seq + CHUNK_SLOTS * chunks.length
      rw [length, Nat.mul_one]
      exact high
    · intro other value held
      rw [OrderedMap.insert_get?, absent other] at held
      split at held
      · rename_i same
        exact ⟨same.ge, same.le⟩
      · cases held
    · show seq + 1 ≤ seq + 1 + MAX_DENSE_HOLES
      exact Nat.le_add_right _ _

theorem insert_within (mirrors : Mirrors dense map) (fits : entry.Fits)
    (some_filed : dense.filed ≠ 0) (within : dense.lowest ≤ seq ∧ seq ≤ dense.highest) :
    FilesAs map seq entry dense (dense.insert seq entry) := by
  have spans := mirrors.spans some_filed
  have reached : dense.start ≤ seq := spans.low.trans within.1
  have before : seq < dense.start + CHUNK_SLOTS * dense.chunks.length :=
    Nat.lt_of_le_of_lt within.2 spans.high
  obtain ⟨slot, held⟩ := slot_some reached before
  have previous : slot.entry = map.get? seq := by
    rw [← mirrors.find seq]
    unfold Dense.find
    rw [held]
    rfl
  obtain ⟨chunks, set, length, found⟩ := setSlot_files dense fits reached before
  have filing : ∀ filed,
      filed = map.entries.length + (if (map.get? seq).isSome then 0 else 1) →
      Mirrors { dense with chunks := chunks, filed := filed } (map.insert seq entry) := by
    intro filed count
    refine ⟨?_, ?_, ?_⟩
    · intro other
      rw [OrderedMap.insert_get?, ← mirrors.find other]
      exact found other
    · show filed = _
      rw [OrderedMap.insert_length, count]
      split <;> rfl
    · intro _
      refine ⟨spans.aligned, spans.low, spans.ordered, ?_, spans.isU64, ?_, ?_⟩
      · show dense.highest < dense.start + CHUNK_SLOTS * chunks.length
        rw [length]
        exact spans.high
      · intro other value isHeld
        rw [OrderedMap.insert_get?] at isHeld
        split at isHeld
        · rename_i same
          exact same ▸ within
        · exact spans.inside other value isHeld
      · have holes := spans.holes
        have counted := mirrors.counted
        show dense.highest + 1 ≤ dense.lowest + filed + MAX_DENSE_HOLES
        omega
  unfold FilesAs insert
  rw [if_neg some_filed, if_pos within, held]
  dsimp only
  rw [set, previous]
  cases already : map.get? seq with
  | some old =>
      refine .inl ⟨_, rfl, filing dense.filed ?_⟩
      rw [already]
      exact mirrors.counted
  | none =>
      cases reach : checkedAdd u64Max dense.filed 1 with
      | none => exact .inr (by simp)
      | some filed =>
          obtain ⟨rfl, -⟩ := checkedAdd_eq_some.mp reach
          refine .inl ⟨{ dense with chunks := chunks, filed := dense.filed + 1 }, by simp, ?_⟩
          refine filing (dense.filed + 1) ?_
          rw [already, mirrors.counted]
          rfl

theorem holesLeft_eq {lowest highest filed holes : Nat} (counted : holesLeft lowest highest filed = some holes) :
    highest + 1 = lowest + filed + holes := by
  unfold holesLeft at counted
  split at counted
  · rename_i ordered
    obtain ⟨span, reach, rest⟩ := Option.bind_eq_some_iff.mp counted
    obtain ⟨rfl, -⟩ := checkedAdd_eq_some.mp reach
    split at rest
    · cases rest
      omega
    · cases rest
  · cases counted

/-- A span that takes one more number in. -/
structure Widens (dense : Dense) (seq lowest highest : Nat) : Prop where
  ordered : lowest ≤ highest
  down : lowest ≤ dense.lowest
  up : dense.highest ≤ highest
  low : lowest ≤ seq
  high : seq ≤ highest
  isLow : lowest = seq ∨ lowest = dense.lowest
  isHigh : highest = seq ∨ highest = dense.highest

theorem insertOutside_spec (mirrors : Mirrors dense map) (isU64 : seq ≤ u64Max) (fits : entry.Fits)
    (spans : Spans dense map) (absent : map.get? seq = none) {lowest highest : Nat}
    (widens : Widens dense seq lowest highest)
    (room : highest + 1 ≤ lowest + (dense.filed + 1) + MAX_DENSE_HOLES) :
    ∃ after, dense.insertOutside seq lowest highest (dense.filed + 1) entry = .ok none after ∧
      Mirrors after (map.insert seq entry) := by
  obtain ⟨front, growsFront, grownFront, reached⟩ := growFront_spec (aligned seq) spans.aligned
  have start : front.start ≤ seq := reached.trans (chunk_holds seq).1
  have place : front.position seq =
      some ((seq - front.start) / CHUNK_SLOTS, (seq - front.start) % CHUNK_SLOTS) :=
    position_eq start
  obtain ⟨grownBack, long, sameStart⟩ := growBack_spec ((seq - front.start) / CHUNK_SLOTS) front
  have grown := grownFront.trans grownBack
  generalize grows : growBack ((seq - front.start) / CHUNK_SLOTS) front = back at *
  have within : seq < back.start + CHUNK_SLOTS * back.chunks.length := by
    rw [Nat.div_lt_iff_lt_mul chunk_positive, Nat.mul_comm] at long
    omega
  obtain ⟨chunks, set, length, found⟩ := setSlot_files back fits (sameStart ▸ start) within
  refine ⟨{ back with
    chunks := chunks, lowest := lowest, highest := highest, filed := dense.filed + 1 }, ?_, ?_, ?_, ?_⟩
  · unfold insertOutside
    rw [growsFront]
    dsimp only
    rw [place]
    dsimp only
    rw [grows, set]
  · intro other
    rw [OrderedMap.insert_get?, ← mirrors.find other, ← grown.find other]
    exact found other
  · rw [OrderedMap.insert_length, absent, ← mirrors.counted]
    rfl
  · intro _
    have startLow : back.start ≤ lowest := by
      rcases widens.isLow with same | same
      · rw [same, sameStart]
        exact start
      · exact same ▸ grown.start.trans spans.low
    have stopHigh : highest < back.start + CHUNK_SLOTS * back.chunks.length := by
      rcases widens.isHigh with same | same
      · exact same ▸ within
      · exact same ▸ Nat.lt_of_lt_of_le spans.high grown.stop
    refine ⟨grown.aligned spans.aligned, startLow, widens.ordered, ?_, ?_, ?_, room⟩
    · show highest < back.start + CHUNK_SLOTS * chunks.length
      rw [length]
      exact stopHigh
    · show highest ≤ u64Max
      rcases widens.isHigh with same | same
      · exact same ▸ isU64
      · exact same ▸ spans.isU64
    · intro other value held
      rw [OrderedMap.insert_get?] at held
      split at held
      · rename_i same
        exact same ▸ ⟨widens.low, widens.high⟩
      · have inside := spans.inside other value held
        exact ⟨widens.down.trans inside.1, inside.2.trans widens.up⟩

theorem insert_outside (mirrors : Mirrors dense map) (isU64 : seq ≤ u64Max) (fits : entry.Fits)
    (some_filed : dense.filed ≠ 0) (outside : ¬(dense.lowest ≤ seq ∧ seq ≤ dense.highest)) :
    FilesAs map seq entry dense (dense.insert seq entry) := by
  have spans := mirrors.spans some_filed
  have absent : map.get? seq = none := by
    cases held : map.get? seq with
    | none => rfl
    | some old => exact absurd (spans.inside seq old held) outside
  -- the new span reaches from the lower to the higher end
  have widens : Widens dense seq (if seq < dense.lowest then seq else dense.lowest)
      (if seq < dense.lowest then dense.highest else seq) := by
    have ordered := spans.ordered
    by_cases below : seq < dense.lowest
    · rw [if_pos below, if_pos below]
      constructor <;> omega
    · rw [if_neg below, if_neg below]
      constructor <;> omega
  generalize lowestEq : (if seq < dense.lowest then seq else dense.lowest) = lowest at widens
  generalize highestEq : (if seq < dense.lowest then dense.highest else seq) = highest at widens
  unfold FilesAs insert
  rw [if_neg some_filed, if_neg outside, lowestEq, highestEq]
  dsimp only
  cases reach : checkedAdd u64Max dense.filed 1 with
  | none => exact .inr rfl
  | some filed =>
      obtain ⟨rfl, -⟩ := checkedAdd_eq_some.mp reach
      dsimp only
      cases counted : holesLeft lowest highest (dense.filed + 1) with
      | none => exact .inr rfl
      | some holes =>
          dsimp only
          by_cases many : holes > MAX_DENSE_HOLES
          · rw [if_pos many]
            exact .inr rfl
          · have left := holesLeft_eq counted
            rw [if_neg many, absent]
            exact .inl (insertOutside_spec mirrors isU64 fits spans absent widens (by omega))

/-- Filing answers with what the map had, or finds no room and changes nothing. -/
theorem insert_spec (mirrors : Mirrors dense map) (isU64 : seq ≤ u64Max) (fits : entry.Fits) :
    FilesAs map seq entry dense (dense.insert seq entry) := by
  by_cases nothing : dense.filed = 0
  · exact insert_first mirrors isU64 fits nothing
  · by_cases within : dense.lowest ≤ seq ∧ seq ≤ dense.highest
    · exact insert_within mirrors fits nothing within
    · exact insert_outside mirrors isU64 fits nothing within

end Files

/-! ## Reading -/

/-- The filed frames from `next` on to `last`. -/
def pieces (dense : Dense) (next last : Nat) : List (Nat × IndexEntry) :=
  (List.range' next (last + 1 - next)).filterMap fun seq =>
    (dense.find seq).map fun entry => (seq, entry)

theorem pieces_cons {next last : Nat} (inside : next ≤ last) :
    dense.pieces next last = ((dense.find next).map fun entry => (next, entry)).toList ++
      dense.pieces (next + 1) last := by
  have count : last + 1 - next = last + 1 - (next + 1) + 1 := by omega
  unfold pieces
  rw [count, List.range'_succ, List.filterMap_cons]
  cases dense.find next with
  | none => rfl
  | some entry => rfl

theorem pieces_nil {next last : Nat} (past : last < next) : dense.pieces next last = [] := by
  unfold pieces
  rw [Nat.sub_eq_zero_of_le past]
  rfl

theorem mem_pieces {next last : Nat} {entry : IndexEntry} :
    (seq, entry) ∈ dense.pieces next last ↔
      next ≤ seq ∧ seq ≤ last ∧ dense.find seq = some entry := by
  unfold pieces
  rw [List.mem_filterMap]
  constructor
  · rintro ⟨other, inside, found⟩
    obtain ⟨value, held, same⟩ := Option.map_eq_some_iff.mp found
    obtain ⟨rfl, rfl⟩ := Prod.mk.inj same
    rw [List.mem_range'_1] at inside
    exact ⟨inside.1, by omega, held⟩
  · rintro ⟨low, high, held⟩
    refine ⟨seq, ?_, by rw [held]; rfl⟩
    rw [List.mem_range'_1]
    omega

theorem pieces_ascending (next last : Nat) : Lib.Ordered.Ascending (dense.pieces next last) := by
  unfold pieces Lib.Ordered.Ascending
  rw [List.pairwise_filterMap]
  refine List.Pairwise.imp ?_ List.pairwise_lt_range'
  intro one two below first hereOne second hereTwo
  obtain ⟨_, _, rfl⟩ := Option.map_eq_some_iff.mp hereOne
  obtain ⟨_, _, rfl⟩ := Option.map_eq_some_iff.mp hereTwo
  exact below

/-- What a step of the iteration hands out is the first piece that is left. -/
def Heads (dense : Dense) (next last : Nat) : Option (Nat × IndexEntry) × Nat × Bool → Prop
  | (none, _, ended) => dense.pieces next last = [] ∧ ended = true
  | (some frame, _, true) => dense.pieces next last = [frame]
  | (some frame, after, false) =>
      dense.pieces next last = frame :: dense.pieces after last ∧ next < after ∧ after ≤ last

theorem nextDense_heads {next last : Nat} (inside : next ≤ last) (isU64 : last ≤ u64Max) :
    Heads dense next last (Frames.nextDense dense next last false) := by
  induction left : last - next generalizing next with
  | zero =>
      have same : next = last := by omega
      have alone : dense.pieces next last =
          ((dense.find next).map fun entry => (next, entry)).toList := by
        rw [pieces_cons inside, pieces_nil (by omega), List.append_nil]
      unfold Frames.nextDense
      rw [dif_neg (by omega)]
      show Heads dense next last ((dense.find next).map _, next, true)
      unfold Heads
      cases held : dense.find next with
      | none => simp [alone, held]
      | some entry => simp [alone, held]
  | succ left ih =>
      have below : next < last := by omega
      have reach : checkedAdd u64Max next 1 = some (next + 1) :=
        checkedAdd_eq_some.mpr ⟨rfl, below.trans_le isU64⟩
      unfold Frames.nextDense
      rw [dif_pos below, reach]
      cases held : dense.find next with
      | some entry =>
          have slot : (dense.slot next).bind IndexSlot.entry = some entry := held
          dsimp only
          rw [slot]
          refine ⟨?_, Nat.lt_succ_self _, below⟩
          rw [pieces_cons inside, held]
          rfl
      | none =>
          have slot : (dense.slot next).bind IndexSlot.entry = none := held
          dsimp only
          rw [slot]
          have same : dense.pieces next last = dense.pieces (next + 1) last := by
            rw [pieces_cons inside, held]
            rfl
          have later : Heads dense (next + 1) last (Frames.nextDense dense (next + 1) last false) :=
            ih below (by omega)
          revert later
          show Heads dense (next + 1) last _ → Heads dense next last _
          rcases Frames.nextDense dense (next + 1) last false with ⟨_ | frame, after, _ | _⟩
          · exact fun later => ⟨same.trans later.1, later.2⟩
          · exact fun later => ⟨same.trans later.1, later.2⟩
          · exact fun later => ⟨same.trans later.1, Nat.lt_of_succ_lt later.2.1, later.2.2⟩
          · exact fun later => same.trans later

theorem collect_done (next last : Nat) : (Frames.slots dense next last true).collect = [] := by
  have step : (Frames.slots dense next last true).next = (none, .slots dense next last true) := by
    simp only [Frames.next, Frames.nextDense]
  exact Frames.collect_none step

/-- An iteration hands out the frames that are filed, in order. -/
theorem collect_slots {next last : Nat} (inside : next ≤ last) (isU64 : last ≤ u64Max) :
    (Frames.slots dense next last false).collect = dense.pieces next last := by
  induction left : last - next using Nat.strong_induction_on generalizing next with
  | _ left ih =>
      have heads : Heads dense next last _ := nextDense_heads inside isU64
      have step : (Frames.slots dense next last false).next =
          ((Frames.nextDense dense next last false).1,
            .slots dense (Frames.nextDense dense next last false).2.1 last
              (Frames.nextDense dense next last false).2.2) := rfl
      rcases found : Frames.nextDense dense next last false with ⟨_ | frame, after, _ | _⟩ <;>
        rw [found] at heads step
      · rw [Frames.collect_none step]
        exact heads.1.symm
      · rw [Frames.collect_none step]
        exact heads.1.symm
      · obtain ⟨first, onward, more⟩ := heads
        rw [Frames.collect_some step, first]
        exact congrArg (frame :: ·) (ih (last - after) (by omega) more rfl)
      · rw [Frames.collect_some step, collect_done]
        exact heads.symm

/-- The frames of a range are those of the map. -/
theorem Mirrors.range {map : OrderedMap Nat IndexEntry} (mirrors : Mirrors dense map)
    (first last : Nat) : (Frames.ofDense dense first last).collect = map.range first last := by
  have inside : ∀ seq entry, map.get? seq = some entry →
      dense.filed ≠ 0 ∧ dense.lowest ≤ seq ∧ seq ≤ dense.highest := by
    intro seq entry held
    have some_filed : dense.filed ≠ 0 := by
      have member := (map.mem_entries).mpr held
      rw [mirrors.counted]
      exact Nat.ne_of_gt (List.length_pos_of_mem member)
    exact ⟨some_filed, (mirrors.spans some_filed).inside seq entry held⟩
  have mem_range : ∀ seq entry, (seq, entry) ∈ map.range first last ↔
      first ≤ seq ∧ seq ≤ last ∧ map.get? seq = some entry := by
    intro seq entry
    unfold OrderedMap.range
    rw [List.mem_filter, map.mem_entries]
    simp only [decide_eq_true_eq]
    tauto
  have ascending : Lib.Ordered.Ascending (map.range first last) := map.ascending.filter _
  unfold Frames.ofDense
  dsimp only
  by_cases empty : dense.filed = 0 ∨ max first dense.lowest > min last dense.highest
  · have none_held : map.range first last = [] := by
      rw [List.eq_nil_iff_forall_not_mem]
      rintro ⟨seq, entry⟩ member
      obtain ⟨low, high, held⟩ := (mem_range seq entry).mp member
      obtain ⟨some_filed, above, below⟩ := inside seq entry held
      omega
    rw [if_pos empty, none_held]
    exact Frames.collect_none rfl
  · rw [if_neg empty]
    rw [not_or] at empty
    have spans := mirrors.spans empty.1
    have ordered : max first dense.lowest ≤ min last dense.highest := Nat.le_of_not_lt empty.2
    have bounded : min last dense.highest ≤ u64Max := (min_le_right _ _).trans spans.isU64
    rw [collect_slots ordered bounded]
    refine eq_of_mem_iff (pieces_ascending _ _) ascending ?_
    intro seq entry
    rw [mem_pieces, mem_range, mirrors.find seq]
    constructor
    · rintro ⟨low, high, held⟩
      exact ⟨(le_max_left _ _).trans low, high.trans (min_le_left _ _), held⟩
    · rintro ⟨low, high, held⟩
      obtain ⟨-, above, below⟩ := inside seq entry held
      exact ⟨max_le low above, le_min high below, held⟩

/-- The dense index is looked up as the map is. -/
theorem Mirrors.get {map : OrderedMap Nat IndexEntry} (mirrors : Mirrors dense map) (seq : Nat) :
    dense.get seq = map.get? seq := by
  have same := mirrors.find seq
  unfold Dense.get
  by_cases beyond : dense.filed = 0 ∨ seq < dense.lowest ∨ seq > dense.highest
  · rw [if_pos beyond]
    cases held : map.get? seq with
    | none => rfl
    | some entry =>
        have some_filed : dense.filed ≠ 0 := by
          rw [mirrors.counted]
          exact Nat.ne_of_gt (List.length_pos_of_mem ((map.mem_entries).mpr held))
        have inside := (mirrors.spans some_filed).inside seq entry held
        omega
  · rw [if_neg beyond]
    exact same

/-- Nothing is lost when the dense index becomes a map. -/
theorem Mirrors.toMap {map : OrderedMap Nat IndexEntry} (mirrors : Mirrors dense map) :
    dense.toMap = map := by
  refine OrderedMap.eq_of_get? fun seq => ?_
  unfold Dense.toMap
  have ascending : Lib.Ordered.Ascending (map.range 0 u64Max) := map.ascending.filter _
  rw [mirrors.range, OrderedMap.foldl_insert_get? _ ascending, OrderedMap.empty_get?, Option.or_none]
  have all : map.range 0 u64Max = map.entries := by
    unfold OrderedMap.range
    rw [List.filter_eq_self]
    rintro ⟨other, entry⟩ member
    have some_filed : dense.filed ≠ 0 := by
      rw [mirrors.counted]
      exact Nat.ne_of_gt (List.length_pos_of_mem member)
    have spans := mirrors.spans some_filed
    have inside := spans.inside other entry ((map.mem_entries).mp member)
    have bounded := spans.isU64
    simp only [Nat.zero_le, true_and, decide_eq_true_eq]
    omega
  rw [all]
  rfl

/-! ## Holes -/

/-- The numbers between the lowest and the highest with nothing filed. -/
def holes (dense : Dense) : List Nat :=
  if dense.filed = 0 then []
  else (List.range' dense.lowest (dense.highest + 1 - dense.lowest)).filter fun seq =>
    (dense.get seq).isNone

/-- The numbers filed are the ones of the map. -/
theorem Mirrors.filed_perm {map : OrderedMap Nat IndexEntry} (mirrors : Mirrors dense map)
    (some_filed : dense.filed ≠ 0) :
    ((List.range' dense.lowest (dense.highest + 1 - dense.lowest)).filter fun seq =>
      (dense.get seq).isSome).Perm (map.entries.map Prod.fst) := by
  have spans := mirrors.spans some_filed
  refine (List.perm_ext_iff_of_nodup ?_ ?_).mpr ?_
  · exact List.Nodup.filter _ List.nodup_range'
  · refine List.Nodup.of_map id ?_
    rw [List.map_id, List.Nodup, List.pairwise_map]
    exact map.ascending.imp fun below => below.ne
  · intro seq
    rw [List.mem_filter, mirrors.get seq, List.mem_map]
    constructor
    · rintro ⟨-, held⟩
      obtain ⟨entry, held⟩ := Option.isSome_iff_exists.mp held
      exact ⟨(seq, entry), (map.mem_entries).mpr held, rfl⟩
    · rintro ⟨⟨other, entry⟩, member, rfl⟩
      have held := (map.mem_entries).mp member
      have inside := spans.inside other entry held
      refine ⟨?_, by rw [held]; rfl⟩
      rw [List.mem_range'_1]
      omega

/-- The dense index has no more holes than its limit. -/
theorem Mirrors.holes_le {map : OrderedMap Nat IndexEntry} (mirrors : Mirrors dense map) :
    dense.holes.length ≤ MAX_DENSE_HOLES := by
  unfold holes
  split
  · exact Nat.zero_le _
  · rename_i some_filed
    have spans := mirrors.spans some_filed
    have room := spans.holes
    have counted := mirrors.counted
    have ordered := spans.ordered
    have filed := (mirrors.filed_perm some_filed).length_eq
    rw [List.length_map] at filed
    have split_count := List.length_eq_length_filter_add (l := List.range' dense.lowest
      (dense.highest + 1 - dense.lowest)) fun seq => (dense.get seq).isSome
    have same : (fun seq => !(dense.get seq).isSome) = fun seq => (dense.get seq).isNone := by
      funext seq
      cases dense.get seq <;> rfl
    rw [filed, List.length_range', same] at split_count
    omega

end Dense

/-! ## The index -/

namespace Index

/-- The index answers as the map does, in either form. -/
def Mirrors (index : Index) (map : OrderedMap Nat IndexEntry) : Prop :=
  match index.repr with
  | .dense dense => dense.Mirrors map
  | .sparse held => held = map

variable {index : Index} {map : OrderedMap Nat IndexEntry}

theorem Mirrors.insert (mirrors : index.Mirrors map) {seq : Nat} {entry : IndexEntry}
    (isU64 : seq ≤ u64Max) (fits : entry.Fits) :
    (index.insert seq entry).1 = map.get? seq ∧
      (index.insert seq entry).2.Mirrors (map.insert seq entry) := by
  obtain ⟨repr⟩ := index
  cases repr with
  | sparse held =>
      obtain rfl : held = map := mirrors
      exact ⟨rfl, rfl⟩
  | dense dense =>
      have mirrored : dense.Mirrors map := mirrors
      unfold Index.insert
      rcases Dense.insert_spec mirrored isU64 fits with ⟨after, files, kept⟩ | refused
      · dsimp only
        rw [files]
        exact ⟨rfl, kept⟩
      · dsimp only
        rw [refused, ← mirrored.toMap]
        exact ⟨rfl, rfl⟩

theorem Mirrors.get (mirrors : index.Mirrors map) (seq : Nat) : index.get seq = map.get? seq := by
  obtain ⟨repr⟩ := index
  cases repr with
  | sparse held => exact mirrors ▸ rfl
  | dense dense => exact Dense.Mirrors.get mirrors seq

theorem Mirrors.range (mirrors : index.Mirrors map) (first last : Nat) :
    (index.range first last).collect = map.range first last := by
  obtain ⟨repr⟩ := index
  cases repr with
  | sparse held =>
      obtain rfl : held = map := mirrors
      unfold Index.range
      dsimp only
      split
      · exact Frames.collect_sparse _
      · rename_i reversed
        rw [Frames.collect_none rfl, eq_comm, OrderedMap.range, List.filter_eq_nil_iff]
        intro entry _
        simp only [decide_eq_true_eq]
        omega
  | dense dense => exact Dense.Mirrors.range mirrors first last

/-- The index after the frames are filed, in order. -/
def filing (filings : List (Nat × IndexEntry)) : Index :=
  filings.foldl (fun index frame => (index.insert frame.1 frame.2).2) .new

/-- The map after them. -/
def mapOf (filings : List (Nat × IndexEntry)) : OrderedMap Nat IndexEntry :=
  filings.foldl (fun map frame => map.insert frame.1 frame.2) .empty

theorem filing_mirrors {filings : List (Nat × IndexEntry)}
    (legal : ∀ frame ∈ filings, frame.1 ≤ u64Max ∧ frame.2.Fits) :
    (filing filings).Mirrors (mapOf filings) := by
  induction filings using List.reverseRecOn with
  | nil => exact Dense.mirrors_default
  | append_singleton filings frame ih =>
      have before := ih fun other member => legal other (List.mem_append_left _ member)
      have last := legal frame (List.mem_append_right _ (List.mem_singleton_self _))
      unfold filing mapOf
      rw [List.foldl_concat, List.foldl_concat]
      exact (before.insert last.1 last.2).2

/-- Whatever was filed before, the index answers every filing, lookup and range
as the map of the same frames does, and its dense form is that map with no
more holes than the limit. -/
theorem index_is_map (filings : List (Nat × IndexEntry))
    (legal : ∀ frame ∈ filings, frame.1 ≤ u64Max ∧ frame.2.Fits) :
    (∀ seq entry, seq ≤ u64Max → entry.Fits →
      ((filing filings).insert seq entry).1 = (mapOf filings).get? seq) ∧
    (∀ seq, (filing filings).get seq = (mapOf filings).get? seq) ∧
    (∀ first last, ((filing filings).range first last).collect = (mapOf filings).range first last) ∧
    ∀ dense, (filing filings).repr = .dense dense →
      dense.toMap = mapOf filings ∧ dense.holes.length ≤ MAX_DENSE_HOLES := by
  have mirrors := filing_mirrors legal
  refine ⟨?_, mirrors.get, mirrors.range, ?_⟩
  · intro seq entry isU64 fits
    exact (mirrors.insert isU64 fits).1
  · intro dense isDense
    have mirrored : dense.Mirrors (mapOf filings) := by
      unfold Index.Mirrors at mirrors
      rw [isDense] at mirrors
      exact mirrors
    exact ⟨mirrored.toMap, mirrored.holes_le⟩

/-- A frame filed again, and one filed at the end of the numbers. -/
theorem index_is_map_apart :
    let index := filing [(7, ⟨12288, 30⟩), (7, ⟨12330, 20⟩), (u64Max, ⟨12362, 40⟩)]
    (index.insert 7 ⟨12414, 30⟩).1 = some ⟨12330, 20⟩ ∧
      (index.range 0 u64Max).collect = [(7, ⟨12330, 20⟩), (u64Max, ⟨12362, 40⟩)] := by
  have legal : ∀ frame ∈ ([(7, ⟨12288, 30⟩), (7, ⟨12330, 20⟩), (u64Max, ⟨12362, 40⟩)] :
      List (Nat × IndexEntry)), frame.1 ≤ u64Max ∧ frame.2.Fits := by
    intro frame member
    simp only [List.mem_cons, List.not_mem_nil, or_false] at member
    rcases member with rfl | rfl | rfl <;> exact ⟨by decide, by decide, by decide⟩
  obtain ⟨replaced, -, ranges, -⟩ := index_is_map _ legal
  refine ⟨?_, ?_⟩
  · rw [replaced 7 ⟨12414, 30⟩ (by decide) ⟨by decide, by decide⟩]
    decide
  · rw [ranges 0 u64Max]
    decide

end Index

end IronFix.Store
