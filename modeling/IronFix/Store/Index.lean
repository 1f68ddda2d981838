import IronFix.Lib.OrderedMap
import IronFix.Core.Bytes

/-!
# The index of a journal

Where the record of each filed frame is. The index is dense, chunks of slots
from an aligned number on, until a frame would leave too many holes between
its lowest and its highest number; from then on it is a map.
-/

namespace IronFix.Store

open Lib.Decimal Lib.Ordered

def CHUNK_SHIFT : Nat := 12

/-- Slots per chunk. -/
def CHUNK_SLOTS : Nat := 2 ^ CHUNK_SHIFT

def CHUNK_MASK : Nat := CHUNK_SLOTS - 1

/-- Most holes the dense index has between its lowest and its highest number. -/
def MAX_DENSE_HOLES : Nat := 65536

/-- Where the record of a filed frame is. -/
structure IndexEntry where
  offset : Nat
  bodyLen : Nat
  deriving DecidableEq, Repr

/-- A dense slot: a file offset in two halves, and the length of a body. -/
structure IndexSlot where
  offsetLow : Nat
  offsetHigh : Nat
  bodyLen : Nat
  deriving DecidableEq, Repr

namespace IndexSlot

def HOLE : IndexSlot := ⟨0, 0, 0⟩

def new (entry : IndexEntry) : IndexSlot :=
  ⟨entry.offset % 2 ^ 32, (entry.offset >>> 32) % 2 ^ 32, entry.bodyLen⟩

def entry (slot : IndexSlot) : Option IndexEntry :=
  if slot.bodyLen = 0 then none else some ⟨(slot.offsetHigh <<< 32) ||| slot.offsetLow, slot.bodyLen⟩

end IndexSlot

structure Chunk where
  slots : List IndexSlot
  full : slots.length = CHUNK_SLOTS

def newChunk : Chunk := ⟨List.replicate CHUNK_SLOTS .HOLE, List.length_replicate⟩

/-- The dense representation. -/
structure Dense where
  /-- The number of the first slot of the first chunk. -/
  start : Nat
  chunks : List Chunk
  /-- The lowest and the highest number filed, if any is. -/
  lowest : Nat
  highest : Nat
  filed : Nat

/-- A frame that cannot go into the dense index. -/
inductive NotDense where
  | notDense

namespace Dense

def default : Dense := ⟨0, [], 0, 0, 0⟩

/-- The chunk of a number, and its place there. -/
def position (dense : Dense) (seq : Nat) : Option (Nat × Nat) :=
  if dense.start ≤ seq then
    some ((seq - dense.start) >>> CHUNK_SHIFT, (seq - dense.start) &&& CHUNK_MASK)
  else none

def slot (dense : Dense) (seq : Nat) : Option IndexSlot := do
  let (chunk, offset) ← dense.position seq
  let chunk ← dense.chunks[chunk]?
  chunk.slots[offset]?

/-- `*self.slot_mut(seq)? = slot`. -/
def setSlot (dense : Dense) (seq : Nat) (slot : IndexSlot) : Option Dense := do
  let (chunk, offset) ← dense.position seq
  let held ← dense.chunks[chunk]?
  let _ ← held.slots[offset]?
  some
    { dense with
      chunks := dense.chunks.set chunk
        ⟨held.slots.set offset slot, (List.length_set ..).trans held.full⟩ }

def get (dense : Dense) (seq : Nat) : Option IndexEntry :=
  if dense.filed = 0 ∨ seq < dense.lowest ∨ seq > dense.highest then none
  else (dense.slot seq).bind IndexSlot.entry

/-- The number of the first slot of a number's chunk. -/
def aligned (seq : Nat) : Nat := seq - (seq &&& CHUNK_MASK)

/-- Chunks in front, down to the one that begins at `first`. -/
def growFront (first : Nat) (dense : Dense) : EStateM.Result NotDense Dense Unit :=
  if _ : dense.start > first then
    if CHUNK_SLOTS ≤ dense.start then
      growFront first
        { dense with start := dense.start - CHUNK_SLOTS, chunks := newChunk :: dense.chunks }
    else .error .notDense dense
  else .ok () dense
termination_by dense.start - first
decreasing_by
  show dense.start - CHUNK_SLOTS - first < dense.start - first
  have : 0 < CHUNK_SLOTS := by decide
  omega

/-- Chunks behind, until there are more than `chunk`. -/
def growBack (chunk : Nat) (dense : Dense) : Dense :=
  if _ : dense.chunks.length ≤ chunk then
    growBack chunk { dense with chunks := dense.chunks ++ [newChunk] }
  else dense
termination_by chunk + 1 - dense.chunks.length
decreasing_by
  rw [List.length_append, List.length_singleton]
  omega

/-- The holes left between `lowest` and `highest` when `filed` numbers are filed. -/
def holesLeft (lowest highest filed : Nat) : Option Nat :=
  if lowest ≤ highest then
    (checkedAdd u64Max (highest - lowest) 1).bind fun span =>
      if filed ≤ span then some (span - filed) else none
  else none

/-- Files a number outside the span, in chunks that may have to be added. -/
def insertOutside (dense : Dense) (seq lowest highest filed : Nat) (entry : IndexEntry) :
    EStateM.Result NotDense Dense (Option IndexEntry) :=
  match growFront (aligned seq) dense with
  | .error refused dense => .error refused dense
  | .ok () dense =>
      match dense.position seq with
      | none => .error .notDense dense
      | some (chunk, _) =>
          let dense := growBack chunk dense
          match dense.setSlot seq (.new entry) with
          | none => .error .notDense dense
          | some dense =>
              .ok none { dense with lowest := lowest, highest := highest, filed := filed }

/-- Files `entry` under `seq` and answers with the entry it replaced. -/
def insert (dense : Dense) (seq : Nat) (entry : IndexEntry) :
    EStateM.Result NotDense Dense (Option IndexEntry) :=
  if dense.filed = 0 then
    let dense := { dense with start := aligned seq, chunks := [newChunk] }
    match dense.setSlot seq (.new entry) with
    | none => .error .notDense dense
    | some dense => .ok none { dense with lowest := seq, highest := seq, filed := 1 }
  else if dense.lowest ≤ seq ∧ seq ≤ dense.highest then
    match dense.slot seq with
    | none => .error .notDense dense
    | some slot =>
        let filed :=
          if slot.entry.isNone then checkedAdd u64Max dense.filed 1 else some dense.filed
        match filed with
        | none => .error .notDense dense
        | some filed =>
            match dense.setSlot seq (.new entry) with
            | none => .error .notDense dense
            | some dense => .ok slot.entry { dense with filed := filed }
  else
    -- the numbers between become holes, counted before a chunk is added
    let lowest := if seq < dense.lowest then seq else dense.lowest
    let highest := if seq < dense.lowest then dense.highest else seq
    match checkedAdd u64Max dense.filed 1 with
    | none => .error .notDense dense
    | some filed =>
        match holesLeft lowest highest filed with
        | none => .error .notDense dense
        | some holes =>
            if holes > MAX_DENSE_HOLES then .error .notDense dense
            else dense.insertOutside seq lowest highest filed entry

end Dense

/-! ## Reading a range -/

/-- The filed frames of an index over a range of numbers. -/
inductive Frames where
  | empty
  | slots (dense : Dense) (next last : Nat) (done : Bool)
  | sparse (entries : List (Nat × IndexEntry))

namespace Frames

/-- The dense slots for `first..=last`, within what is filed. -/
def ofDense (dense : Dense) (first last : Nat) : Frames :=
  let next := max first dense.lowest
  let last := min last dense.highest
  if dense.filed = 0 ∨ next > last then .empty else .slots dense next last false

/-- `while !done`: the next filed frame, with where to go on. -/
def nextDense (dense : Dense) (next last : Nat) : Bool → Option (Nat × IndexEntry) × Nat × Bool
  | true => (none, next, true)
  | false =>
      if _ : next < last then
        match checkedAdd u64Max next 1 with
        | some after =>
            match (dense.slot next).bind IndexSlot.entry with
            | some entry => (some (next, entry), after, false)
            | none => nextDense dense (next + 1) last false
        | none => (((dense.slot next).bind IndexSlot.entry).map fun entry => (next, entry), next, true)
      else (((dense.slot next).bind IndexSlot.entry).map fun entry => (next, entry), next, true)
termination_by last - next

def next : Frames → Option (Nat × IndexEntry) × Frames
  | .empty => (none, .empty)
  | .slots dense next last done =>
      let (frame, next, done) := nextDense dense next last done
      (frame, .slots dense next last done)
  | .sparse [] => (none, .sparse [])
  | .sparse (entry :: entries) => (some entry, .sparse entries)

/-- How many frames may be left. -/
def left : Frames → Nat
  | .empty => 0
  | .slots _ next last done => if done then 0 else last - next + 1
  | .sparse entries => entries.length

theorem nextDense_left (dense : Dense) {next last : Nat} {done : Bool} {frame : Nat × IndexEntry}
    {after : Nat} {ended : Bool}
    (found : nextDense dense next last done = (some frame, after, ended)) :
    left (.slots dense after last ended) < left (.slots dense next last done) := by
  fun_induction nextDense dense next last done with
  | case1 => cases found
  | case2 next below after' reach entry here =>
      obtain ⟨rfl, -⟩ := checkedAdd_eq_some.mp reach
      cases found
      simp only [left, Bool.false_eq_true, if_false]
      omega
  | case3 next below after' reach none_here ih =>
      have later := ih found
      simp only [left, Bool.false_eq_true, if_false] at later ⊢
      split at later
      · rw [if_pos ‹_›]
        omega
      · rw [if_neg ‹_›]
        omega
  | case4 next below none_reach =>
      simp only [Prod.mk.injEq] at found
      obtain ⟨-, -, rfl⟩ := found
      simp [left]
  | case5 next none_below =>
      simp only [Prod.mk.injEq] at found
      obtain ⟨-, -, rfl⟩ := found
      simp [left]

theorem next_left {frames rest : Frames} {frame : Nat × IndexEntry}
    (found : frames.next = (some frame, rest)) : rest.left < frames.left := by
  cases frames with
  | empty => cases found
  | slots dense next last done =>
      rcases step : nextDense dense next last done with ⟨frame', after, ended⟩
      simp only [Frames.next, step] at found
      cases found
      exact nextDense_left dense step
  | sparse entries =>
      cases entries with
      | nil => cases found
      | cons entry entries =>
          cases found
          exact Nat.lt_succ_self _

/-- The frames an iteration hands out. -/
def collect (frames : Frames) : List (Nat × IndexEntry) :=
  match _ : frames.next with
  | (none, _) => []
  | (some frame, rest) => frame :: collect rest
termination_by frames.left
decreasing_by exact next_left ‹_›

theorem collect_none {frames rest : Frames} (ends : frames.next = (none, rest)) :
    frames.collect = [] := by
  rw [collect]
  split
  · rfl
  · rename_i frame more found
    rw [ends] at found
    cases found

theorem collect_some {frames rest : Frames} {frame : Nat × IndexEntry}
    (found : frames.next = (some frame, rest)) : frames.collect = frame :: rest.collect := by
  rw [collect]
  split
  · rename_i more ends
    rw [found] at ends
    cases ends
  · rename_i other more step
    rw [found] at step
    cases step
    rfl

theorem collect_sparse (entries : List (Nat × IndexEntry)) :
    (Frames.sparse entries).collect = entries := by
  induction entries with
  | nil => exact collect_none rfl
  | cons entry entries ih => rw [collect_some rfl, ih]

end Frames

/-! ## The index -/

/-- The two representations. -/
inductive IndexRepr where
  | dense (dense : Dense)
  | sparse (map : OrderedMap Nat IndexEntry)

namespace Dense

/-- Every filed frame, as a map. -/
def toMap (dense : Dense) : OrderedMap Nat IndexEntry :=
  (Frames.ofDense dense 0 u64Max).collect.foldl (fun map frame => map.insert frame.1 frame.2) .empty

end Dense

structure Index where
  repr : IndexRepr

namespace Index

def new : Index := ⟨.dense .default⟩

/-- Files `entry` under `seq`, with the entry it replaces. -/
def insert (index : Index) (seq : Nat) (entry : IndexEntry) : Option IndexEntry × Index :=
  match index.repr with
  | .sparse map => (map.get? seq, ⟨.sparse (map.insert seq entry)⟩)
  | .dense dense =>
      match dense.insert seq entry with
      | .ok previous dense => (previous, ⟨.dense dense⟩)
      | .error .notDense dense =>
          let map := dense.toMap
          (map.get? seq, ⟨.sparse (map.insert seq entry)⟩)

def get (index : Index) (seq : Nat) : Option IndexEntry :=
  match index.repr with
  | .dense dense => dense.get seq
  | .sparse map => map.get? seq

/-- The filed frames in `first..=last`, ascending. -/
def range (index : Index) (first last : Nat) : Frames :=
  match index.repr with
  | .dense dense => .ofDense dense first last
  | .sparse map => if first ≤ last then .sparse (map.range first last) else .empty

end Index

end IronFix.Store
