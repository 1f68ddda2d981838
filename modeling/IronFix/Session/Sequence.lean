import IronFix.Core.Bytes

/-!
# Sequence counters

The two counters of a session. A counter at `u64Max` allocates nothing more.
-/

namespace IronFix.Session

open Lib.Decimal

inductive SequenceCounter where
  | sender
  | target
  deriving DecidableEq, Repr

/-- The counter that reached `u64Max`. -/
structure SequenceExhausted where
  counter : SequenceCounter
  deriving DecidableEq, Repr

inductive SequenceResult where
  | ok
  | tooLow (expected received : Nat)
  | gap (expected received : Nat)
  deriving DecidableEq, Repr

/-- The next number sent, and the next number expected. -/
structure SequenceManager where
  nextSenderSeq : Nat
  nextTargetSeq : Nat
  deriving DecidableEq, Repr

namespace SequenceManager

def new : SequenceManager := ⟨1, 1⟩

def withInitial (sender target : Nat) : SequenceManager := ⟨sender, target⟩

/-- Takes the next sender number: the number, and the counters past it. -/
def tryAllocateSenderSeq (sequences : SequenceManager) :
    Except SequenceExhausted (Nat × SequenceManager) :=
  match checkedAdd u64Max sequences.nextSenderSeq 1 with
  | some next => .ok (sequences.nextSenderSeq, { sequences with nextSenderSeq := next })
  | none => .error ⟨.sender⟩

def tryIncrementTargetSeq (sequences : SequenceManager) :
    Except SequenceExhausted SequenceManager :=
  match checkedAdd u64Max sequences.nextTargetSeq 1 with
  | some next => .ok { sequences with nextTargetSeq := next }
  | none => .error ⟨.target⟩

def setSenderSeq (sequences : SequenceManager) (seq : Nat) : SequenceManager :=
  { sequences with nextSenderSeq := seq }

def setTargetSeq (sequences : SequenceManager) (seq : Nat) : SequenceManager :=
  { sequences with nextTargetSeq := seq }

def validateIncoming (sequences : SequenceManager) (received : Nat) : SequenceResult :=
  if received = sequences.nextTargetSeq then .ok
  else if received < sequences.nextTargetSeq then .tooLow sequences.nextTargetSeq received
  else .gap sequences.nextTargetSeq received

theorem tryIncrementTargetSeq_exhausted {sequences : SequenceManager}
    (bounded : sequences.nextTargetSeq ≤ u64Max) :
    sequences.tryIncrementTargetSeq = .error ⟨.target⟩ ↔ sequences.nextTargetSeq = u64Max := by
  unfold tryIncrementTargetSeq checkedAdd
  by_cases fits : sequences.nextTargetSeq + 1 ≤ u64Max
  · rw [if_pos fits]
    exact ⟨nofun, fun last => absurd last (Nat.ne_of_lt fits)⟩
  · rw [if_neg fits]
    exact ⟨fun _ => Nat.le_antisymm bounded (Nat.le_of_not_lt fits), fun _ => rfl⟩

end SequenceManager

end IronFix.Session
