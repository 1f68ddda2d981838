import IronFix.Fixp.Output

/-!
# The FIXP session

The logical session and its binding to a transport, shared by the two roles.
`BoundParts` is what a handler borrows: the core with its outputs, the session
and the binding. A handler returns them with whether the binding goes on.
Sequence numbers are naturals; messages carry them as 64-bit integers.
-/

namespace IronFix.Fixp

open Lib.Decimal

def SEQ_NULL : Nat := u64Max

def APPLICATION_MESSAGE : String := "application message"

def NonZero.new (max value : Nat) : Option (NonZero max) :=
  if valid : 0 < value ∧ value ≤ max then some ⟨value, valid.1, valid.2⟩ else none

/-! ## Core -/

structure Core where
  config : FixpConfig
  clock : RequestClock
  outputs : List Output
  transportClosing : Bool

namespace Core

def new (config : FixpConfig) (clock : RequestClock) : Core := ⟨config, clock, [], false⟩

def push (core : Core) (output : Output) : Core := { core with outputs := core.outputs ++ [output] }

def send (core : Core) (message : SessionMessage) : Core := core.push (.send message)

def sendApplication (core : Core) (seq : Option Nat) (message : SessionMessage) : Core :=
  core.push (.sendApplication seq message)

def event (core : Core) (event : Event) : Core := core.push (.event event)

def closeTransport (core : Core) : Core :=
  { core.push .closeTransport with transportClosing := true }

def transportClosed (core : Core) : Core := { core with transportClosing := false }

def requestTimestamp (core : Core) (now : Nat) : Option (Nanotime × Core) :=
  (core.clock.next now).map fun (timestamp, clock) => (timestamp, { core with clock })

def pollOutput (core : Core) : Option Output × Core :=
  match core.outputs with
  | [] => (none, core)
  | output :: rest => (some output, { core with outputs := rest })

/-- Polls until nothing is left, as the driver does after each call. -/
def drain (core : Core) : List Output × Core := (core.outputs, { core with outputs := [] })

def violationUnbound (core : Core) (reason : String) : Core :=
  (core.event (.protocolViolation reason)).closeTransport

def ignore (core : Core) (message reason : String) : Core := core.event (.ignored message reason)

end Core

/-! ## Messages by who handles them -/

inductive PeerMessage where
  | topic
  | sequence (message : Sequence)
  | context (message : Context)
  | unsequencedHeartbeat
  | retransmitRequest (message : RetransmitRequest)
  | retransmission (message : Retransmission)
  | retransmitReject (message : RetransmitReject)
  | terminate (message : Terminate)
  | finishedSending (message : FinishedSending)
  | finishedReceiving
  | applied (message : Applied)
  | notApplied (message : NotApplied)
  | messageTemplate
  deriving DecidableEq

def PeerMessage.name : PeerMessage → String
  | .topic => Topic.layout.name
  | .sequence _ => Sequence.layout.name
  | .context _ => Context.layout.name
  | .unsequencedHeartbeat => UnsequencedHeartbeat.layout.name
  | .retransmitRequest _ => RetransmitRequest.layout.name
  | .retransmission _ => Retransmission.layout.name
  | .retransmitReject _ => RetransmitReject.layout.name
  | .terminate _ => Terminate.layout.name
  | .finishedSending _ => FinishedSending.layout.name
  | .finishedReceiving => FinishedReceiving.layout.name
  | .applied _ => Applied.layout.name
  | .notApplied _ => NotApplied.layout.name
  | .messageTemplate => MessageTemplate.layout.name

inductive HandshakeMessage where
  | negotiate (message : Negotiate)
  | negotiationResponse (message : NegotiationResponse)
  | negotiationReject (message : NegotiationReject)
  | establish (message : Establish)
  | establishmentAck (message : EstablishmentAck)
  | establishmentReject (message : EstablishmentReject)
  deriving DecidableEq

inductive Classified where
  | handshake (message : HandshakeMessage)
  | peer (message : PeerMessage)
  deriving DecidableEq

def classify : SessionMessage → Classified
  | .negotiate m => .handshake (.negotiate m)
  | .negotiationResponse m => .handshake (.negotiationResponse m)
  | .negotiationReject m => .handshake (.negotiationReject m)
  | .establish m => .handshake (.establish m)
  | .establishmentAck m => .handshake (.establishmentAck m)
  | .establishmentReject m => .handshake (.establishmentReject m)
  | .topic _ => .peer .topic
  | .sequence m => .peer (.sequence m)
  | .context m => .peer (.context m)
  | .unsequencedHeartbeat => .peer .unsequencedHeartbeat
  | .retransmitRequest m => .peer (.retransmitRequest m)
  | .retransmission m => .peer (.retransmission m)
  | .retransmitReject m => .peer (.retransmitReject m)
  | .terminate m => .peer (.terminate m)
  | .finishedSending m => .peer (.finishedSending m)
  | .finishedReceiving _ => .peer .finishedReceiving
  | .applied m => .peer (.applied m)
  | .notApplied m => .peer (.notApplied m)
  | .messageTemplate _ => .peer .messageTemplate

/-! ## Binding -/

/-- Whether the binding goes on after a call. -/
inductive Bound where
  | stay
  | unbind
  deriving DecidableEq, Repr

inductive BindState where
  | established
  | terminating (sentAt : Nat) (code : TerminationCode) (reason : String)
  | closing (deadline : Option Nat)
  deriving DecidableEq

structure Binding where
  state : BindState
  localKeepalive : Nat
  remoteKeepalive : Nat
  lastKeepalive : Nat
  lastReceived : Nat
  inSequence : Bool

namespace Binding

def status (binding : Binding) : SessionStatus :=
  match binding.state with
  | .established => .established
  | .terminating .. => .terminating
  | .closing _ => .closing

def isEstablished (binding : Binding) : Bool :=
  match binding.state with
  | .established => true
  | .terminating .. | .closing _ => false

def leaveSequence (binding : Binding) : Binding := { binding with inSequence := false }

end Binding

/-! ## Session -/

/-- A half-open range of missing sequence numbers. -/
structure Gap where
  fromSeq : Nat
  endSeq : Nat
  deriving DecidableEq, Repr

def MAX_OVERFLOW_RECEIVED_RUNS : Nat := 256

/-- This side's RetransmitRequest in flight. -/
structure Outstanding where
  timestamp : Nanotime
  fromSeq : Nat
  count : Nat
  delivered : Nat
  lastProgress : Nat
  interrupted : Bool
  batchComplete : Bool
  stallReported : Bool
  deriving DecidableEq

structure PeerFinished where
  receivingSent : Bool
  endSeq : Option Nat
  deriving DecidableEq

/-- A retransmission batch being received. -/
structure Replay where
  next : Nat
  remaining : NonZero u32Max
  deriving DecidableEq

/-- A counterparty RetransmitRequest being answered. -/
structure Provider where
  requestTimestamp : Nanotime
  fromSeq : Nat
  count : Nat
  sent : Nat
  deriving DecidableEq

structure Session where
  id : SessionId
  localFlow : FlowType
  remoteFlow : FlowType
  outboundNext : Nat
  inboundNext : Option Nat
  startPending : Bool
  missing : List Gap
  overflowReceived : List Gap
  outstanding : Option Outstanding
  replay : Option Replay
  awaitingResume : Bool
  provider : Option Provider
  peerFinished : Option PeerFinished
  finalized : Bool

namespace Session

def new (id : SessionId) (localFlow remoteFlow : FlowType) : Session where
  id
  localFlow
  remoteFlow
  outboundNext := 1
  inboundNext := if remoteFlow.isSequenced then some 1 else none
  startPending := remoteFlow.isSequenced
  missing := []
  overflowReceived := []
  outstanding := none
  replay := none
  awaitingResume := false
  provider := none
  peerFinished := none
  finalized := false

def finishedReceivingSent (session : Session) : Bool :=
  match session.peerFinished with
  | some finished => finished.receivingSent
  | none => false

def finalizeIfFinished (session : Session) : Session :=
  if session.finishedReceivingSent && !session.finalized then { session with finalized := true }
  else session

def announcedNextSeq (session : Session) : Option UInt64 :=
  if session.localFlow.isSequenced then some (UInt64.ofNat session.outboundNext) else none

/-- Whether a counterparty `NextSeqNo` would move its flow backwards. -/
def regresses (session : Session) (next : Option UInt64) : Bool :=
  if session.startPending then false
  else
    match session.remoteFlow.isSequenced, next, session.inboundNext with
    | true, some next, some expected => next.toNat < expected
    | _, _, _ => false

/-- `None` when the gap would be one too many. -/
def recordGap (config : FixpConfig) (fromSeq endSeq : Nat) (session : Session) : Option Session :=
  match session.missing.getLast? with
  | some last =>
    if last.endSeq = fromSeq then
      some { session with missing := session.missing.dropLast ++ [{ last with endSeq }] }
    else if session.missing.length ≥ config.maxPendingGaps.get then none
    else some { session with missing := session.missing ++ [⟨fromSeq, endSeq⟩] }
  | none =>
    if session.missing.length ≥ config.maxPendingGaps.get then none
    else some { session with missing := session.missing ++ [⟨fromSeq, endSeq⟩] }

/-- Widens the overflow gap over what was received live since, and remembers that run. -/
def widenOverflow (last : Gap) (fromSeq endSeq : Nat) (session : Session) : Option Session :=
  let widened := session.missing.dropLast ++ [{ last with endSeq := max last.endSeq endSeq }]
  if last.endSeq < fromSeq then
    if session.overflowReceived.length ≥ MAX_OVERFLOW_RECEIVED_RUNS then none
    else
      some { session with
        overflowReceived := session.overflowReceived ++ [⟨last.endSeq, fromSeq⟩]
        missing := widened }
  else some { session with missing := widened }

/-- Keeps a gap `recordGap` refused in the one gap past the bound; `none` when even that is full. -/
def holdRefusedGap (config : FixpConfig) (fromSeq endSeq : Nat) (session : Session) :
    Option Session :=
  match session.missing.getLast? with
  | some last =>
    if session.missing.length > config.maxPendingGaps.get then
      session.widenOverflow last fromSeq endSeq
    else some { session with missing := session.missing ++ [⟨fromSeq, endSeq⟩] }
  | none => some { session with missing := session.missing ++ [⟨fromSeq, endSeq⟩] }

/-- Whether the number was received live already; the runs before it are dropped. -/
def receivedInOverflow (seq : Nat) (session : Session) : Bool × Session :=
  let runs := session.overflowReceived.dropWhile fun run => run.endSeq ≤ seq
  (match runs.head? with
    | some run => run.fromSeq ≤ seq
    | none => false,
    { session with overflowReceived := runs })

/-- Drops the first gap, and with the last gap the runs received in it. -/
def dropGap (rest : List Gap) (session : Session) : Session :=
  { session with
    missing := rest
    overflowReceived := if rest.isEmpty then [] else session.overflowReceived }

def consumeMissing (count : Nat) (session : Session) : Session :=
  if count = 0 then session
  else
    match session.missing with
    | [] => session
    | front :: rest =>
      match checkedAdd u64Max front.fromSeq count with
      | some fromSeq =>
        if fromSeq < front.endSeq then
          { session with missing := { front with fromSeq } :: rest }
        else session.dropGap rest
      | none => session.dropGap rest

/-- Drops what only made sense on the transport just lost. -/
def releaseBindingState (session : Session) : Session :=
  let released :=
    match session.outstanding with
    | some outstanding =>
      ({ session with outstanding := none } : Session).consumeMissing outstanding.delivered
    | none => session
  { released with
    replay := none
    awaitingResume := false
    provider := none }

def bind (session : Session) (now localKeepalive remoteKeepalive : Nat) : Session × Binding :=
  (session.releaseBindingState,
    { state := .established
      localKeepalive
      remoteKeepalive
      lastKeepalive := now
      lastReceived := now
      inSequence := false })

/-- A context switch ends a batch: one still short of its count was cut off. -/
def leaveReplay (now : Nat) (session : Session) : Session :=
  { session with
    awaitingResume := false
    replay := none
    outstanding :=
      if session.replay.isSome then
        session.outstanding.map fun outstanding =>
          { outstanding with
            interrupted := true
            stallReported := false
            lastProgress := now }
      else session.outstanding }

/-- Counts the next message of the batch; whether its request is complete. -/
def advanceReplay (replay : Replay) (following now : Nat) (session : Session) : Bool × Session :=
  let advanced :=
    { session with
      replay := (NonZero.new u32Max (replay.remaining.get - 1)).map fun remaining =>
        { next := following, remaining } }
  match session.outstanding with
  | none => (false, advanced)
  | some outstanding =>
    match checkedAdd u32Max outstanding.delivered 1 with
    | none => (true, advanced)
    | some delivered =>
      (decide (delivered ≥ outstanding.count),
        { advanced with
          outstanding := some
            { outstanding with
              delivered
              lastProgress := now
              stallReported := false
              batchComplete := replay.remaining.get == 1 } })

/-! ### What each change leaves alone -/

theorem dropGap_eq (rest : List Gap) (session : Session) :
    ∃ overflow, session.dropGap rest =
      { session with
        missing := rest
        overflowReceived := overflow } := ⟨_, rfl⟩

theorem consumeMissing_eq (count : Nat) (session : Session) :
    ∃ missing overflow, session.consumeMissing count =
      { session with
        missing := missing
        overflowReceived := overflow } := by
  unfold consumeMissing
  split
  · exact ⟨_, _, rfl⟩
  · split
    · exact ⟨_, _, rfl⟩
    · split
      · split
        · exact ⟨_, _, rfl⟩
        · exact ⟨_, _, rfl⟩
      · exact ⟨_, _, rfl⟩

/-- Consuming gaps does not look at the batch. -/
theorem consumeMissing_replay (count : Nat) (replay : Option Replay) (session : Session) :
    ({ session with replay := replay } : Session).consumeMissing count =
      { session.consumeMissing count with replay := replay } := by
  obtain ⟨id, localFlow, remoteFlow, outboundNext, inboundNext, startPending, missing, overflow,
    outstanding, was, awaiting, provider, finished, finalized⟩ := session
  unfold consumeMissing
  split
  · rfl
  · cases missing with
    | nil => rfl
    | cons front rest =>
        dsimp only
        cases checkedAdd u64Max front.fromSeq count with
        | none => rfl
        | some fromSeq =>
            dsimp only
            split
            · rfl
            · rfl

theorem releaseBindingState_eq (session : Session) :
    ∃ missing overflow, session.releaseBindingState =
      { session with
        missing := missing
        overflowReceived := overflow
        outstanding := none
        replay := none
        awaitingResume := false
        provider := none } := by
  unfold releaseBindingState
  cases asked : session.outstanding with
  | none => exact ⟨_, _, by simp only [asked]; rfl⟩
  | some outstanding =>
      obtain ⟨missing, overflow, consumed⟩ := consumeMissing_eq outstanding.delivered
        { session with outstanding := none }
      exact ⟨missing, overflow, by simp only [consumed]⟩

theorem recordGap_eq {config : FixpConfig} {fromSeq endSeq : Nat} {session recorded : Session}
    (admitted : session.recordGap config fromSeq endSeq = some recorded) :
    ∃ missing, recorded = { session with missing := missing } := by
  unfold recordGap at admitted
  split at admitted
  · split at admitted
    · exact ⟨_, (Option.some.inj admitted).symm⟩
    · split at admitted
      · cases admitted
      · exact ⟨_, (Option.some.inj admitted).symm⟩
  · split at admitted
    · cases admitted
    · exact ⟨_, (Option.some.inj admitted).symm⟩

theorem widenOverflow_eq {last : Gap} {fromSeq endSeq : Nat} {session held : Session}
    (kept : session.widenOverflow last fromSeq endSeq = some held) :
    ∃ missing overflow, held =
      { session with
        missing := missing
        overflowReceived := overflow } := by
  unfold widenOverflow at kept
  split at kept
  · split at kept
    · cases kept
    · exact ⟨_, _, (Option.some.inj kept).symm⟩
  · exact ⟨_, _, (Option.some.inj kept).symm⟩

theorem holdRefusedGap_eq {config : FixpConfig} {fromSeq endSeq : Nat} {session held : Session}
    (kept : session.holdRefusedGap config fromSeq endSeq = some held) :
    ∃ missing overflow, held =
      { session with
        missing := missing
        overflowReceived := overflow } := by
  unfold holdRefusedGap at kept
  split at kept
  · split at kept
    · exact widenOverflow_eq kept
    · exact ⟨_, _, (Option.some.inj kept).symm⟩
  · exact ⟨_, _, (Option.some.inj kept).symm⟩

theorem receivedInOverflow_eq (seq : Nat) (session : Session) :
    ∃ overflow, (session.receivedInOverflow seq).2 =
      { session with overflowReceived := overflow } := ⟨_, rfl⟩

theorem advanceReplay_eq (replay : Replay) (following now : Nat) (session : Session) :
    ∃ left outstanding, (session.advanceReplay replay following now).2 =
      { session with
        replay := left
        outstanding := outstanding } := by
  unfold advanceReplay
  dsimp only
  split
  · exact ⟨_, session.outstanding, rfl⟩
  · split
    · exact ⟨_, session.outstanding, rfl⟩
    · exact ⟨_, _, rfl⟩

/-- A batch's message completes its request only when all of it is delivered. -/
theorem advanceReplay_full {session : Session} {replay : Replay} {following now : Nat}
    {outstanding : Outstanding} (complete : (session.advanceReplay replay following now).1 = true)
    (asked : (session.advanceReplay replay following now).2.outstanding = some outstanding) :
    outstanding.count ≤ outstanding.delivered ∨ u32Max ≤ outstanding.delivered := by
  unfold advanceReplay at complete asked
  dsimp only at complete asked
  split at complete
  · cases complete
  · rename_i was current
    rw [current] at asked
    dsimp only at asked
    split at complete
    · rename_i overflow
      rw [overflow] at asked
      obtain rfl := Option.some.inj asked
      unfold checkedAdd at overflow
      split at overflow
      · cases overflow
      · exact .inr (by omega)
    · rename_i delivered added
      rw [added] at asked
      obtain rfl := Option.some.inj asked
      exact .inl (of_decide_eq_true complete)

theorem finalizeIfFinished_eq (session : Session) :
    ∃ finalized, session.finalizeIfFinished = { session with finalized := finalized } := by
  unfold finalizeIfFinished
  split
  · exact ⟨_, rfl⟩
  · exact ⟨session.finalized, rfl⟩

end Session

end IronFix.Fixp
