import IronFix.Core.Error
import IronFix.Session.Sequence

/-!
# Routing an inbound message

How a message's number stands against the expectation, where the message goes,
and what a SequenceReset (4) asks for.
-/

namespace IronFix.Session

open Lib.Decimal

inductive InboundSequence where
  | inSequence
  | duplicate (expected received : Nat)
  | tooLow (expected received : Nat)
  | gap (expected received : Nat)
  deriving DecidableEq, Repr

/-- `possDup` matters only below the expectation. -/
def classifyInbound (sequences : SequenceManager) (seq : Nat) (possDup : Bool) : InboundSequence :=
  match sequences.validateIncoming seq with
  | .ok => .inSequence
  | .tooLow expected received =>
      if possDup then .duplicate expected received else .tooLow expected received
  | .gap expected received => .gap expected received

inductive GapDisposition where
  | queueFrame
  | keepNumber
  | dispatch
  deriving DecidableEq, Repr

inductive InboundRoute where
  | sequenceReset
  | admin (next : Nat)
  | app
  | duplicate
  | tooLow (expected received : Nat)
  | gap (expected received : Nat) (disposition : GapDisposition)
  | exhausted
  deriving DecidableEq, Repr

def MSG_SEQUENCE_RESET : Bytes := ascii "4"

def MSG_LOGOUT : Bytes := ascii "5"

def routeInbound (sequences : SequenceManager) (msgType : MsgType) (seq : Nat) (possDup : Bool) :
    InboundRoute :=
  if msgType.code = MSG_SEQUENCE_RESET then .sequenceReset
  else
    match classifyInbound sequences seq possDup with
    | .inSequence =>
        if msgType.isAdmin then
          match checkedAdd u64Max seq 1 with
          | some next => .admin next
          | none => .exhausted
        else .app
    | .duplicate _ _ => .duplicate
    | .tooLow expected received => .tooLow expected received
    | .gap expected received =>
        let disposition :=
          if msgType.isApp then .queueFrame
          else if msgType.code = MSG_LOGOUT then .dispatch
          else .keepNumber
        .gap expected received disposition

/-- The first decision on a SequenceReset, before the application sees it. -/
inductive ResetScreen where
  | badGapFillFlag
  | gappedFill (expected received : Nat)
  | duplicateFill (expected : Nat)
  | tooLowFill (expected received : Nat)
  | fillInSequence (next : Nat)
  | exhausted
  | reset
  deriving DecidableEq, Repr

def screenSequenceReset (sequences : SequenceManager) (gapFillFlag : Option String) (seq : Nat)
    (possDup : Bool) : ResetScreen :=
  if gapFillFlag = some "Y" then
    match classifyInbound sequences seq possDup with
    | .gap expected received => .gappedFill expected received
    | .duplicate expected _ => .duplicateFill expected
    | .tooLow expected received => .tooLowFill expected received
    | .inSequence =>
        match checkedAdd u64Max seq 1 with
        | some next => .fillInSequence next
        | none => .exhausted
  else if gapFillFlag = some "N" ∨ gapFillFlag = none then .reset
  else .badGapFillFlag

/-- The decision on a SequenceReset the application accepted. -/
inductive ResetDecision where
  | missingNewSeqNo
  | fillNotAdvancing (newSeq : Nat)
  | resetBelowExpected (newSeq expected : Nat)
  | apply (newSeq : Nat) (renumbers advances : Bool)
  deriving DecidableEq, Repr

def decideSequenceReset (gapFill : Bool) (seq : Nat) (newSeqNo : Option Nat) (expected : Nat) :
    ResetDecision :=
  match newSeqNo with
  | none => .missingNewSeqNo
  | some newSeq =>
      if gapFill && decide (newSeq ≤ seq) then .fillNotAdvancing newSeq
      else if !gapFill && decide (newSeq < expected) then .resetBelowExpected newSeq expected
      else .apply newSeq (!gapFill) (decide (newSeq > expected))

/-- The numbers a duplicate fill spans are requested once per expectation. -/
def spannedRerequest (expected : Nat) (newSeqNo : Option Nat) (mayRequest : Bool)
    (lastRerequested : Option Nat) : Option Nat :=
  match newSeqNo with
  | none => none
  | some newSeq =>
      if newSeq > expected ∧ mayRequest = true ∧ lastRerequested ≠ some expected then some newSeq
      else none

theorem classifyInbound_inSequence {sequences : SequenceManager} {seq : Nat} {possDup : Bool} :
    classifyInbound sequences seq possDup = .inSequence ↔ seq = sequences.nextTargetSeq := by
  unfold classifyInbound SequenceManager.validateIncoming
  by_cases same : seq = sequences.nextTargetSeq
  · simp [same]
  · rw [if_neg same]
    constructor
    · intro reached
      by_cases below : seq < sequences.nextTargetSeq
      · rw [if_pos below] at reached
        cases possDup <;> cases reached
      · rw [if_neg below] at reached
        cases reached
    · exact fun here => absurd here same

section Routes

variable {sequences : SequenceManager} {msgType : MsgType} {seq : Nat} {possDup : Bool}

theorem routeInbound_sequenceReset
    (routed : routeInbound sequences msgType seq possDup = .sequenceReset) :
    msgType.code = MSG_SEQUENCE_RESET := by
  unfold routeInbound at routed
  split at routed
  · assumption
  · split at routed
    · split at routed
      · split at routed <;> cases routed
      · cases routed
    all_goals cases routed

/-- What is consumed has the number expected. -/
theorem routeInbound_inSequence
    (routed : (∃ next, routeInbound sequences msgType seq possDup = .admin next) ∨
      routeInbound sequences msgType seq possDup = .app) : seq = sequences.nextTargetSeq := by
  unfold routeInbound at routed
  split at routed
  · simp at routed
  · cases classified : classifyInbound sequences seq possDup with
    | inSequence => exact classifyInbound_inSequence.mp classified
    | duplicate _ _ | tooLow _ _ | gap _ _ => simp [classified] at routed

theorem screenSequenceReset_fillInSequence {gapFillFlag : Option String} {next : Nat}
    (screened : screenSequenceReset sequences gapFillFlag seq possDup = .fillInSequence next) :
    seq = sequences.nextTargetSeq := by
  unfold screenSequenceReset at screened
  split at screened
  · cases classified : classifyInbound sequences seq possDup with
    | inSequence => exact classifyInbound_inSequence.mp classified
    | duplicate _ _ | tooLow _ _ | gap _ _ => simp [classified] at screened
  · split at screened <;> cases screened

theorem screenSequenceReset_reset {gapFillFlag : Option String}
    (screened : screenSequenceReset sequences gapFillFlag seq possDup = .reset) :
    gapFillFlag ≠ some "Y" := by
  unfold screenSequenceReset at screened
  split at screened
  · split at screened
    · cases screened
    · cases screened
    · cases screened
    · split at screened <;> cases screened
  · assumption

theorem screenSequenceReset_notFill {gapFillFlag : Option String} (sequences : SequenceManager)
    (seq : Nat) (possDup : Bool) (notFill : gapFillFlag ≠ some "Y") :
    screenSequenceReset sequences gapFillFlag seq possDup = .reset ∨
      screenSequenceReset sequences gapFillFlag seq possDup = .badGapFillFlag := by
  unfold screenSequenceReset
  rw [if_neg notFill]
  split
  · exact .inl rfl
  · exact .inr rfl

/-- The last number is not consumed by a fill. -/
theorem screenSequenceReset_exhausted
    (last : u64Max = sequences.nextTargetSeq) (possDup : Bool) :
    screenSequenceReset sequences (some "Y") u64Max possDup = .exhausted := by
  unfold screenSequenceReset
  rw [if_pos rfl, classifyInbound_inSequence.mpr last]
  rfl

theorem routeInbound_exhausted {msgType : MsgType} (notReset : msgType.code ≠ MSG_SEQUENCE_RESET)
    (isAdmin : msgType.isAdmin = true) (last : u64Max = sequences.nextTargetSeq)
    (possDup : Bool) : routeInbound sequences msgType u64Max possDup = .exhausted := by
  unfold routeInbound
  rw [if_neg notReset, classifyInbound_inSequence.mpr last]
  simp only [isAdmin]
  rfl

theorem routeInbound_app {msgType : MsgType} (notReset : msgType.code ≠ MSG_SEQUENCE_RESET)
    (isApp : msgType.isAdmin = false) (here : seq = sequences.nextTargetSeq) (possDup : Bool) :
    routeInbound sequences msgType seq possDup = .app := by
  unfold routeInbound
  rw [if_neg notReset, classifyInbound_inSequence.mpr here]
  simp only [isApp]
  rfl

end Routes

section ResetDecisions

variable {gapFill renumbers advances : Bool} {seq newSeq expected : Nat} {newSeqNo : Option Nat}

theorem decideSequenceReset_fillNotAdvancing
    (decided : decideSequenceReset gapFill seq newSeqNo expected = .fillNotAdvancing newSeq) :
    gapFill = true ∧ newSeqNo = some newSeq ∧ newSeq ≤ seq := by
  unfold decideSequenceReset at decided
  split at decided
  · cases decided
  · split at decided
    · rename_i stays
      cases decided
      obtain ⟨isFill, notAbove⟩ := Bool.and_eq_true_iff.mp stays
      exact ⟨isFill, rfl, of_decide_eq_true notAbove⟩
    · split at decided <;> cases decided

/-- A fill is applied past its own number, a reset from the expectation on. -/
theorem decideSequenceReset_apply
    (decided : decideSequenceReset gapFill seq newSeqNo expected = .apply newSeq renumbers advances) :
    newSeqNo = some newSeq ∧ (gapFill = true → seq < newSeq) ∧
      (gapFill = false → expected ≤ newSeq) := by
  unfold decideSequenceReset at decided
  split at decided
  · cases decided
  · split at decided
    · cases decided
    · rename_i forward
      split at decided
      · cases decided
      · rename_i notBelow
        cases decided
        refine ⟨rfl, ?_, ?_⟩
        · rintro rfl
          simpa using forward
        · rintro rfl
          simpa using notBelow

theorem decideSequenceReset_below (below : newSeq < expected) :
    decideSequenceReset false seq (some newSeq) expected = .resetBelowExpected newSeq expected := by
  unfold decideSequenceReset
  simp [below]

end ResetDecisions

end IronFix.Session
