import IronFix.Lib.Patch
import IronFix.Lib.Steps

/-!
# A file behind calls that fail

A file is read and changed through calls of an operating system. What the
coming calls answer is a list of outcomes, so a run over every list is a run
with every pattern of failures. A write that fails leaves any part of itself.
-/

namespace Lib.FaultyDisk

open Lib.Patch Lib.Steps

/-- What a call answers. -/
inductive Outcome where
  | done
  /-- A write leaves its first `written` elements. -/
  | fails (written : Nat) (reason : String)
  deriving DecidableEq, Repr

structure Disk (α : Type) where
  file : List α
  /-- What the coming reads answer, and after them every one is done. -/
  reads : List Outcome
  /-- What the coming writes and flushes answer. -/
  writes : List Outcome
  /-- How often another file was renamed over this one. -/
  renames : Nat
  deriving DecidableEq, Repr

/-- `data` written over a file from `start` on; a gap is blank. -/
def overwrite {α : Type} (blank : α) (file : List α) (start : Nat) (data : List α) : List α :=
  if data.isEmpty then file else patch (file ++ List.replicate (start - file.length) blank) start data

/-- A file cut or filled to a length. -/
def resize {α : Type} (blank : α) (file : List α) (len : Nat) : List α :=
  file.take len ++ List.replicate (len - file.length) blank

section Calls

variable {α : Type}

/-- A call that reads nothing by itself. -/
def look : EStateM String (Disk α) Unit := fun disk =>
  match disk.reads with
  | [] => .ok () disk
  | .done :: later => .ok () { disk with reads := later }
  | .fails _ reason :: later => .error reason { disk with reads := later }

/-- A call that writes or flushes: `made` if it is done, `torn` if it fails. -/
def change (made : Disk α → Disk α) (torn : Nat → Disk α → Disk α) : EStateM String (Disk α) Unit :=
  fun disk =>
    match disk.writes with
    | [] => .ok () (made disk)
    | .done :: later => .ok () (made { disk with writes := later })
    | .fails written reason :: later => .error reason (torn written { disk with writes := later })

/-- A call that changes another file, or flushes one. -/
def touch : EStateM String (Disk α) Unit := change id fun _ => id

def writeAt (blank : α) (data : List α) (start : Nat) : EStateM String (Disk α) Unit :=
  change (fun disk => { disk with file := overwrite blank disk.file start data })
    fun written disk => { disk with file := overwrite blank disk.file start (data.take written) }

def setLen (blank : α) (len : Nat) : EStateM String (Disk α) Unit :=
  change (fun disk => { disk with file := resize blank disk.file len }) fun _ => id

/-- Another file, already written, renamed over this one. -/
def rename (file : List α) : EStateM String (Disk α) Unit :=
  change (fun disk => { disk with file := file, renames := disk.renames + 1 }) fun _ => id

/-- Reads `len` elements; a file that ends before them fails the read. -/
def readAt (start len : Nat) : EStateM String (Disk α) (List α) := do
  look
  let disk ← get
  if disk.file.length < start + len then throw "failed to fill whole buffer"
  return span disk.file start len

end Calls

/-! ## The bytes a call leaves -/

section Bytes

variable {α : Type} {blank : α} {file data : List α} {start len : Nat}

theorem overwrite_inside (within : start ≤ file.length) :
    overwrite blank file start data = patch file start data := by
  unfold overwrite
  split
  · rename_i empty
    rw [List.isEmpty_iff.mp empty]
    unfold patch
    simp
  · rw [Nat.sub_eq_zero_of_le within]
    simp

/-- Whatever is written from `start` on, the file before it is as it was. -/
theorem overwrite_take (early : len ≤ start) (inside : len ≤ file.length) :
    (overwrite blank file start data).take len = file.take len := by
  unfold overwrite
  split
  · rfl
  · have within : start ≤ (file ++ List.replicate (start - file.length) blank).length := by
      rw [List.length_append, List.length_replicate]
      omega
    have cut : List.take len ((patch _ start data).take start) = _ :=
      congrArg (List.take len) (patch_take within)
    rw [List.take_take, List.take_take, Nat.min_eq_left early] at cut
    rw [cut, List.take_append_of_le_length inside]

/-- Writing never shortens a file. -/
theorem overwrite_grows (file data : List α) (start : Nat) :
    file.length ≤ (overwrite blank file start data).length := by
  unfold overwrite
  split
  · exact Nat.le_refl _
  · unfold patch
    simp only [List.length_append, List.length_take, List.length_drop, List.length_replicate]
    omega

theorem overwrite_end (file data : List α) :
    overwrite blank file file.length data = file ++ data := by
  rw [overwrite_inside (Nat.le_refl _), patch_end]

theorem overwrite_length (within : start + data.length ≤ file.length) :
    (overwrite blank file start data).length = file.length := by
  rw [overwrite_inside (by omega), patch_length within]

theorem resize_short (short : len ≤ file.length) : resize blank file len = file.take len := by
  unfold resize
  rw [Nat.sub_eq_zero_of_le short]
  simp

theorem resize_take (early : start ≤ len) (inside : start ≤ file.length) :
    (resize blank file len).take start = file.take start := by
  unfold resize
  by_cases short : len ≤ file.length
  · rw [Nat.sub_eq_zero_of_le short, List.replicate_zero, List.append_nil, List.take_take,
      Nat.min_eq_left early]
  · have all : file.take len = file := List.take_of_length_le (by omega)
    rw [all, List.take_append_of_le_length inside]

theorem resize_length : (resize blank file len).length = len := by
  unfold resize
  rw [List.length_append, List.length_take, List.length_replicate]
  omega

/-- A file cut where a torn write began is the file before it. -/
theorem resize_overwrite (within : start ≤ file.length) :
    resize blank (overwrite blank file start data) start = file.take start := by
  have long : start ≤ (overwrite blank file start data).length :=
    Nat.le_trans within (overwrite_grows file data start)
  rw [resize_short long, overwrite_take (Nat.le_refl _) within]

end Bytes

/-! ## Calls that answer -/

/-- Every outcome used between two lists is a success. -/
def Clean (before after : List Outcome) : Prop :=
  ∃ used, before = used ++ after ∧ ∀ outcome ∈ used, outcome = .done

namespace Clean

theorem refl (outcomes : List Outcome) : Clean outcomes outcomes := ⟨[], rfl, by simp⟩

theorem trans {first second third : List Outcome} (one : Clean first second)
    (two : Clean second third) : Clean first third := by
  obtain ⟨used, rfl, fine⟩ := one
  obtain ⟨more, rfl, fine'⟩ := two
  refine ⟨used ++ more, (List.append_assoc ..).symm, ?_⟩
  intro outcome member
  rcases List.mem_append.mp member with early | late
  · exact fine outcome early
  · exact fine' outcome late

end Clean

section Answers

variable {α : Type} {disk after : Disk α} {made : Disk α → Disk α} {torn : Nat → Disk α → Disk α}

/-- A call that is done used up no failure. -/
theorem change_ok (done : change made torn disk = .ok () after) :
    ∃ later, Clean disk.writes later ∧ after = made { disk with writes := later } := by
  unfold change at done
  split at done
  · rename_i none_left
    cases done
    refine ⟨disk.writes, .refl _, rfl⟩
  · rename_i later outcomes
    cases done
    exact ⟨later, ⟨[.done], outcomes, by simp⟩, rfl⟩
  · cases done

theorem change_error {reason : String} (failed : change made torn disk = .error reason after) :
    ∃ written later, after = torn written { disk with writes := later } := by
  unfold change at failed
  split at failed
  · cases failed
  · cases failed
  · rename_i written _ later outcomes
    cases failed
    exact ⟨written, later, rfl⟩

theorem look_eq (answer : EStateM.Result String (Disk α) Unit) (looked : look disk = answer) :
    ∃ later, answer = .ok () { disk with reads := later } ∨
      ∃ reason, answer = .error reason { disk with reads := later } := by
  subst looked
  unfold look
  split
  · exact ⟨disk.reads, .inl rfl⟩
  · exact ⟨_, .inl rfl⟩
  · exact ⟨_, .inr ⟨_, rfl⟩⟩

end Answers

end Lib.FaultyDisk
