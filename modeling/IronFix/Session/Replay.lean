import IronFix.Lib.Runs
import IronFix.Core.Bytes

/-!
# The decisions of a resend replay

`ResendReplay` walks one range: it asks the driver for pages of the store,
screens the entries of a page, and answers each verdict with what the driver
writes. Sequence numbers are naturals; a range that `new` accepts ends below
`2 ^ 64`, and every replay carries that it does.
-/

namespace IronFix.Session

open Lib.Decimal

/-- Most stored messages one store read returns. -/
def REPLAY_PAGE_LIMIT : Nat := 256

/-- What an open-ended `EndSeqNo` (16) is in a FIX version. -/
inductive EndSeqNoInfinity where
  | nines
  | zero
  deriving DecidableEq, Repr

def EndSeqNoInfinity.NINES : Nat := 999999

def EndSeqNoInfinity.isOpenEnded (infinity : EndSeqNoInfinity) (endSeq : Nat) : Bool :=
  match infinity with
  | .nines => endSeq == NINES || endSeq == 0
  | .zero => endSeq == 0

/-- What an inbound ResendRequest (2) asks of the session. -/
inductive ResendRequestDecision where
  | missingBeginSeqNo
  | missingEndSeqNo
  | beginSeqNoOutsideSent (beginSeq nextSender : Nat)
  | endSeqNoBelowBegin (beginSeq endSeq : Nat)
  | replay (beginSeq newSeq : Nat)
  deriving DecidableEq, Repr

def decideResendRequest (beginSeq endSeq : Option Nat) (nextSender : Nat)
    (infinity : EndSeqNoInfinity) : ResendRequestDecision :=
  match beginSeq, endSeq with
  | none, _ => .missingBeginSeqNo
  | some _, none => .missingEndSeqNo
  | some beginSeq, some endSeq =>
      if beginSeq = 0 ∨ beginSeq ≥ nextSender then .beginSeqNoOutsideSent beginSeq nextSender
      else
        let openEnded := infinity.isOpenEnded endSeq
        if !openEnded ∧ endSeq < beginSeq then .endSeqNoBelowBegin beginSeq endSeq
        else if openEnded then .replay beginSeq nextSender
        else
          match checkedAdd u64Max endSeq 1 with
          | some bound => .replay beginSeq (if bound < nextSender then bound else nextSender)
          | none => .replay beginSeq nextSender

/-- A SequenceReset (4) GapFill: the first number it covers, and the first it
does not. -/
structure GapFillRange where
  atSeq : Nat
  newSeq : Nat
  deriving DecidableEq, Repr

/-- Up to `limit` stored messages numbered `fromSeq..=through`, ascending. -/
structure PageRequest where
  fromSeq : Nat
  through : Nat
  limit : Nat
  deriving DecidableEq, Repr

/-- The driver's answer to a page request. -/
inductive PageRead where
  | read (len : Nat) (furthest : Option Nat)
  | failed
  deriving DecidableEq, Repr

inductive ReplayStep where
  | readPage (request : PageRequest)
  | storeExhausted
  | complete (gapFill : Option GapFillRange)
  deriving DecidableEq, Repr

inductive EntryScreen where
  | candidate
  | skip
  deriving DecidableEq, Repr

inductive ReplayVerdict where
  | replay
  | gapFill
  deriving DecidableEq, Repr

/-- What the driver writes for a candidate. -/
inductive ReplayAction where
  | skip
  | replay (seq : Nat)
  | gapFillThenReplay (gapFill : GapFillRange) (seq : Nat)
  deriving DecidableEq, Repr

/-- The decision state of one resend. -/
structure ResendReplay where
  newSeq : Nat
  endSeq : Nat
  replyCursor : Nat
  readFrom : Nat
  storeDone : Bool
  started : Bool
  ends : endSeq + 1 = newSeq
  isU64 : newSeq ≤ u64Max
  reached : replyCursor ≤ newSeq

namespace ResendReplay

/-- The replay of `beginSeq..newSeq`, unless it is empty. -/
def new (beginSeq newSeq : Fin (2 ^ 64)) (hasStore : Bool) : Option ResendReplay :=
  if bounds : beginSeq.val = 0 ∨ beginSeq.val ≥ newSeq.val then none
  else
    some
      { newSeq := newSeq.val
        endSeq := newSeq.val - 1
        replyCursor := beginSeq.val
        readFrom := beginSeq.val
        storeDone := !hasStore
        started := false
        ends := by omega
        isU64 := Nat.le_of_lt_succ newSeq.isLt
        reached := by omega }

/-- Widens a replay to also cover the range of `other`. A debug build asserts
that the replay has not started. -/
def widen (replay other : ResendReplay) : ResendReplay :=
  let beginSeq := min replay.replyCursor other.replyCursor
  { replay with
    newSeq := max replay.newSeq other.newSeq
    endSeq := max replay.endSeq other.endSeq
    replyCursor := beginSeq
    readFrom := beginSeq
    ends := by
      have := replay.ends
      have := other.ends
      omega
    isU64 := max_le replay.isU64 other.isU64
    reached := le_trans (min_le_left _ _) (le_trans replay.reached (le_max_left _ _)) }

/-- What the replay needs once the driver's page is spent. -/
def pollStore (replay : ResendReplay) : ReplayStep × ResendReplay :=
  let replay := { replay with started := true }
  if ¬replay.storeDone then
    if replay.readFrom > replay.endSeq then (.storeExhausted, { replay with storeDone := true })
    else (.readPage ⟨replay.readFrom, replay.endSeq, REPLAY_PAGE_LIMIT⟩, replay)
  else
    let gapFill :=
      if replay.replyCursor < replay.newSeq then some ⟨replay.replyCursor, replay.newSeq⟩ else none
    (.complete gapFill, { replay with replyCursor := replay.newSeq, reached := le_refl _ })

/-- Records the answer to a page request: a full page may have more behind it,
a short one ends the store's part. -/
def onPage (replay : ResendReplay) (read : PageRead) : ResendReplay :=
  let replay := { replay with started := true }
  match read with
  | .failed | .read _ none => { replay with storeDone := true }
  | .read len (some furthest) =>
      if len < REPLAY_PAGE_LIMIT then { replay with storeDone := true }
      else
        match checkedAdd u64Max furthest 1 with
        | some next =>
            if next ≤ replay.endSeq then { replay with readFrom := next }
            else { replay with storeDone := true }
        | none => { replay with storeDone := true }

/-- An entry outside what is still owed, or administrative, is skipped. -/
def screenEntry (replay : ResendReplay) (seq : Nat) (isAdmin : Bool) : EntryScreen :=
  if seq < replay.replyCursor ∨ seq > replay.endSeq ∨ isAdmin then .skip else .candidate

/-- Decides what is written for the candidate numbered `seq`. -/
def decideEntry (replay : ResendReplay) (seq : Nat) (verdict : ReplayVerdict) :
    ReplayAction × ResendReplay :=
  let replay := { replay with started := true }
  if skips : verdict = .gapFill ∨ replay.screenEntry seq false = .skip then (.skip, replay)
  else
    let gapFill : Option GapFillRange :=
      if seq > replay.replyCursor then some ⟨replay.replyCursor, seq⟩ else none
    let after : ResendReplay :=
      { replay with
        replyCursor := (checkedAdd u64Max seq 1).getD replay.newSeq
        reached := by
          have candidate : replay.screenEntry seq false ≠ .skip := fun skip => skips (.inr skip)
          cases reach : checkedAdd u64Max seq 1 with
          | none => exact le_refl _
          | some next =>
              simp only [screenEntry, ne_eq, ite_eq_left_iff, reduceCtorEq, imp_false, not_not,
                not_or, Bool.false_eq_true, not_false_eq_true, and_true] at candidate
              have := (checkedAdd_eq_some.mp reach).1
              have := replay.ends
              show next ≤ replay.newSeq
              omega }
    match gapFill with
    | some gapFill => (.gapFillThenReplay gapFill seq, after)
    | none => (.replay seq, after)

end ResendReplay

/-- What rebuilding a stored frame as a replay does with a field. -/
inductive ReplayField where
  /-- Stamped again when the frame is framed. -/
  | framing
  /-- Dropped, and written again in its header position. -/
  | reinserted
  | sendingTime
  | copied
  deriving DecidableEq, Repr

def replayField (tag : Nat) : ReplayField :=
  if tag = 8 ∨ tag = 9 then .framing
  else if tag = 43 ∨ tag = 122 then .reinserted
  else if tag = 52 then .sendingTime
  else .copied

/-- The OrigSendingTime (122) of a replay: the one the frame has, or its SendingTime (52). -/
def origSendingTime (stored122 : Option Bytes) (stored52 : Bytes) : Bytes := stored122.getD stored52

/-- A request that is answered asks for a range `new` accepts, of numbers that
were sent. -/
theorem decideResendRequest_replay {beginSeq endSeq : Option Nat} {nextSender first next : Nat}
    {infinity : EndSeqNoInfinity}
    (decided : decideResendRequest beginSeq endSeq nextSender infinity = .replay first next) :
    first ≠ 0 ∧ first < next ∧ next ≤ nextSender := by
  unfold decideResendRequest at decided
  split at decided
  · cases decided
  · cases decided
  · split at decided
    · cases decided
    · rename_i sent
      simp only [not_or, ge_iff_le, not_le] at sent
      simp only at decided
      split at decided
      · cases decided
      · rename_i ordered
        split at decided
        · cases decided
          exact ⟨sent.1, sent.2, le_refl _⟩
        · rename_i bounded
          split at decided
          · rename_i bound reach
            have := (checkedAdd_eq_some.mp reach).1
            simp only [Bool.not_eq_true] at bounded
            simp only [bounded, Bool.not_false, true_and, not_lt] at ordered
            cases decided
            split
            · exact ⟨sent.1, by omega, by omega⟩
            · exact ⟨sent.1, sent.2, le_refl _⟩
          · cases decided
            exact ⟨sent.1, sent.2, le_refl _⟩

end IronFix.Session
