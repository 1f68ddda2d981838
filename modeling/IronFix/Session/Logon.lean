import IronFix.Session.Sequence

/-!
# The decisions of the Logon exchange

What each side decides from its own counters, the numbers and flags of the
counterparty's Logon (A) and its configuration: whether the exchange resets,
how a gap is recovered, what a `NextExpectedMsgSeqNum` (789) asks for, and
where a session's counters come from. A 789 is positive when it is read.
-/

namespace IronFix.Session

open Lib.Decimal

/-! ## ResetSeqNumFlag (141) -/

/-- A Logon that resets is message 1 of the new stream. -/
def resetFlagContradicts (resets : Bool) (seq : Nat) : Bool := resets && seq != 1

def initiatorResets (resetOnLogon resetOwed : Bool) : Bool := resetOnLogon || resetOwed

def acceptorResets (inboundReset resetOnLogon resetOwed : Bool) : Bool :=
  inboundReset || resetOnLogon || resetOwed

/-- The intent to reset goes to the store before the reset is acted on. -/
def owesResetDurably (resets storeAttached : Bool) : Bool := resets && storeAttached

/-- The Logon on the wire is message 1 of the stream the acknowledgement reset. -/
def ADOPTED_RESET_NEXT_SENDER : Nat := 2

/-- The target before the acknowledgement is consumed. -/
def ADOPTED_RESET_NEXT_TARGET : Nat := 1

/-- The target the store is reset to: past the acknowledgement. -/
def ADOPTED_RESET_STORED_TARGET : Nat := 2

/-- What an acknowledgement's 141 asks of the initiator. -/
inductive AckReset where
  | none
  | echoed
  | adopt
  deriving DecidableEq, Repr

def decideAckReset (logonReset ackResets : Bool) : AckReset :=
  match ackResets, logonReset with
  | false, _ => .none
  | true, true => .echoed
  | true, false => .adopt

/-- In an exchange that resets, the counterparty's Logon is its message 1
whatever positive number it carries. -/
def classifyLogonSeq (exchangeResets : Bool) (seq : Nat) (sequences : SequenceManager) :
    SequenceResult :=
  if exchangeResets && decide (seq > 0) then .ok else sequences.validateIncoming seq

inductive LogonGapAction where
  /-- The counterparty's 789-driven replay fills the gap. -/
  | hold
  /-- A ResendRequest (2) asks for it. -/
  | request
  deriving DecidableEq, Repr

def decideLogonGap (sendsNextExpected peerDeclared : Bool) : LogonGapAction :=
  if sendsNextExpected && peerDeclared then .hold else .request

/-! ## NextExpectedMsgSeqNum (789) -/

/-- The 789 this session declares, when it uses 789. -/
def declaredNextExpected (sendsNextExpected : Bool) (sequences : SequenceManager) : Option Nat :=
  if sendsNextExpected then some sequences.nextTargetSeq else none

/-- What a counterparty that saw a one-sided reset declares. -/
def NEXT_EXPECTED_AFTER_RESET : Nat := 2

inductive ScreenedNextExpected where
  | absent
  | use (declared : Nat)
  | ignored (declared : Nat) (matchesReset : Bool)
  deriving DecidableEq, Repr

def ScreenedNextExpected.usable : ScreenedNextExpected → Option Nat
  | .use declared => some declared
  | .absent => none
  | .ignored _ _ => none

/-- A reset this side drives alone discards the stream the 789 describes. -/
def screenNextExpected (declared : Option Nat) (thisSideResets peerResets : Bool) :
    ScreenedNextExpected :=
  match declared with
  | none => .absent
  | some declared =>
      if thisSideResets && !peerResets then
        .ignored declared (declared == NEXT_EXPECTED_AFTER_RESET)
      else .use declared

/-- The numbers a counterparty's 789 is compared with. -/
structure NextExpectedBasis where
  ownLogonSeq : Nat
  nextOutbound : Nat
  deriving DecidableEq, Repr

def NextExpectedBasis.initiator (ackResets : Bool) (logonSeq nextSender : Nat) :
    NextExpectedBasis :=
  if ackResets then ⟨1, ADOPTED_RESET_NEXT_SENDER⟩ else ⟨logonSeq, nextSender⟩

def NextExpectedBasis.acceptor (ackSeq : Nat) : NextExpectedBasis := ⟨ackSeq, ackSeq⟩

def NextExpectedBasis.acceptorReset : NextExpectedBasis := .acceptor 1

inductive NextExpectedPlan where
  | inStep
  /-- Resend the messages numbered from `first`, before `stop`. -/
  | replay (first stop : Nat)
  deriving DecidableEq, Repr

def NextExpectedPlan.replayRange : NextExpectedPlan → Option (Nat × Nat)
  | .inStep => none
  | .replay first stop => some (first, stop)

/-- A 789 above the next number sent claims messages never sent. -/
structure NextExpectedAhead where
  declared : Nat
  nextOutbound : Nat
  deriving DecidableEq, Repr

def planNextExpected (declared : Nat) (basis : NextExpectedBasis) :
    Except NextExpectedAhead NextExpectedPlan :=
  if declared > basis.nextOutbound then .error ⟨declared, basis.nextOutbound⟩
  else if declared < basis.ownLogonSeq then .ok (.replay declared basis.ownLogonSeq)
  else .ok .inStep

/-! ## Where a session's counters come from -/

inductive SeedSource where
  | reset
  | initial (checkStore : Bool)
  | store
  | fresh
  deriving DecidableEq, Repr

def decideSeedSource (reset hasInitial storeAttached closesSession : Bool) : SeedSource :=
  if reset then .reset
  else if hasInitial then .initial (storeAttached && closesSession)
  else if storeAttached then .store
  else .fresh

/-- The counters of an explicit seed; a zero seed is refused, sender first. -/
def seedFromInitial (initial : Nat × Nat) : Except SequenceCounter SequenceManager :=
  if initial.1 = 0 then .error .sender
  else if initial.2 = 0 then .error .target
  else .ok (.withInitial initial.1 initial.2)

/-- A seed below the stored sender number would use a number again. -/
def initialBelowStore (seededSender storedSender : Nat) : Bool := seededSender < storedSender

/-- The counters of a store, and which of them it holds as they are. -/
structure StoreSeed where
  sequences : SequenceManager
  senderHeld : Bool
  targetHeld : Bool
  deriving DecidableEq, Repr

/-- A stored 0 names no message: it is raised to 1 and not held. -/
def seedFromStore (sender target : Nat) : StoreSeed :=
  { sequences := .withInitial (if sender = 0 then 1 else sender) (if target = 0 then 1 else target)
    senderHeld := sender != 0
    targetHeld := target != 0 }

/-- The inbound numbers accepted above the application watermark, first and
last; a watermark of 0 records nothing. -/
def inboundLossSpan (watermark nextTarget : Nat) : Option (Nat × Nat) :=
  if watermark = 0 then none
  else do
    let first ← checkedAdd u64Max watermark 1
    let last ← if nextTarget = 0 then none else some (nextTarget - 1)
    if first ≤ last then some (first, last) else none

theorem inboundLossSpan_eq (watermark nextTarget : Nat) :
    inboundLossSpan watermark nextTarget =
      if watermark ≠ 0 ∧ watermark < u64Max ∧ watermark + 1 < nextTarget then some (watermark + 1, nextTarget - 1)
      else none := by
  unfold inboundLossSpan checkedAdd
  by_cases unmarked : watermark = 0
  · simp [unmarked]
  by_cases fits : watermark + 1 ≤ u64Max
  · cases nextTarget with
    | zero => simp [unmarked]
    | succ last => simp [unmarked, fits, Nat.lt_of_succ_le fits]
  · simp [unmarked, fits, show ¬ watermark < u64Max from fits]

theorem inboundLossSpan_eq_some {watermark nextTarget : Nat} {span : Nat × Nat}
    (found : inboundLossSpan watermark nextTarget = some span) :
    watermark ≠ 0 ∧ watermark + 1 < nextTarget ∧ span = (watermark + 1, nextTarget - 1) := by
  rw [inboundLossSpan_eq] at found
  split at found
  · rename_i spans
    exact ⟨spans.1, spans.2.2, (Option.some.inj found).symm⟩
  · cases found

/-- A number above the watermark and below the target has a span around it. -/
theorem inboundLossSpan_between {watermark nextTarget seq : Nat} (marked : watermark ≠ 0) (above : watermark < seq)
    (below : seq < nextTarget) (bounded : nextTarget ≤ u64Max) :
    inboundLossSpan watermark nextTarget = some (watermark + 1, nextTarget - 1) := by
  rw [inboundLossSpan_eq]
  exact if_pos ⟨marked, by omega, by omega⟩

theorem le_seedFromStore (sender target : Nat) :
    sender ≤ (seedFromStore sender target).sequences.nextSenderSeq := by
  show sender ≤ if sender = 0 then 1 else sender
  split <;> omega

theorem seedFromInitial_sender {initial : Nat × Nat} {sequences : SequenceManager}
    (seeded : seedFromInitial initial = .ok sequences) : sequences.nextSenderSeq = initial.1 := by
  unfold seedFromInitial at seeded
  split at seeded
  · cases seeded
  · split at seeded
    · cases seeded
    · cases seeded
      rfl

end IronFix.Session
