import IronFix.Lib.Effects
import IronFix.Session.GapQueue
import IronFix.Session.Inbound

/-!
# The inbound side of a session

What an established session does with an inbound message: the routes of
`Inbound`, the gap queue and the held Logon move one counter, the next number
expected. What the store, the application and the socket answer is chosen by
the environment; an answer that closes the session stops the program.
-/

namespace IronFix.Session

open Lib.Decimal Lib.Effects

/-- What is read of an inbound message. -/
structure InboundFrame where
  msgType : MsgType
  seq : Nat
  possDup : Bool
  gapFillFlag : Option String
  newSeqNo : Option Nat
  size : Nat
  seqU64 : seq ≤ u64Max
  newSeqU64 : ∀ newSeq ∈ newSeqNo, newSeq ≤ u64Max

inductive CloseReason where
  | storeFailed
  | sequenceExhausted (counter : SequenceCounter)
  | sequenceTooLow (expected received : Nat)
  | applicationQueueFull
  | dispatcherStopped
  | sendFailed
  | loggedOut
  /-- The environment ends here. -/
  | interrupted
  deriving DecidableEq, Repr

/-- What becomes of an application message next in sequence. -/
inductive AppVerdict where
  | deliver
  | reject
  | queueFull
  | stopped
  deriving DecidableEq, Repr

/-- What becomes of a ResendRequest (2): one already made, deferred or dropped
by the application is not sent now. -/
inductive RequestOutcome where
  | unsent
  | sent
  | failed
  deriving DecidableEq, Repr

/-- The environment's part in one decision. -/
structure Choice where
  storeAccepts : Bool
  adminAccepts : Bool
  app : AppVerdict
  request : RequestOutcome
  replyWritten : Bool
  /-- The session stays active once an administrative message is acted on. -/
  staysActive : Bool
  deriving DecidableEq, Repr

/-- How the expectation moved: past a number it consumed, and the message it
came with, or over the numbers a SequenceReset covers. -/
inductive Passage where
  | consumed (seq : Nat) (message : Option InboundFrame)
  | covered (start : Nat) (reset : InboundFrame) (stop : Nat)

structure Receiver where
  sequences : SequenceManager
  queue : Option (GapQueue InboundFrame)
  heldLogon : Option Nat
  lastRerequested : Option Nat
  active : Bool
  logoutOwed : Bool
  closed : Option CloseReason
  choices : List Choice
  /-- How the expectation moved, oldest first. -/
  trail : List Passage

namespace Receiver

abbrev Handler := EStateM CloseReason Receiver

/-- The next number expected. -/
def expected (receiver : Receiver) : Nat := receiver.sequences.nextTargetSeq

def choose : Handler Choice := do
  let receiver ← get
  match receiver.choices with
  | [] => throw .interrupted
  | choice :: choices =>
      set { receiver with choices := choices }
      return choice

/-! ## The counter -/

def persistTarget (_next : Nat) : Handler Unit := do
  let choice ← choose
  if choice.storeAccepts then return () else throw .storeFailed

/-- `SequenceManager::try_increment_target_seq`, for the message numbered `seq`. -/
def tryIncrementTarget (seq : Nat) (message : Option InboundFrame) : Handler Unit := do
  let receiver ← get
  match receiver.sequences.tryIncrementTargetSeq with
  | .error exhausted => throw (.sequenceExhausted exhausted.counter)
  | .ok sequences =>
      set { receiver with
        sequences := sequences
        trail := receiver.trail ++ [Passage.consumed seq message] }

/-- Persists the number after `seq`, then moves the expectation past `seq`. -/
def consume (seq : Nat) (message : Option InboundFrame) : Handler Unit := do
  match checkedAdd u64Max seq 1 with
  | none => throw (.sequenceExhausted .target)
  | some next =>
      persistTarget next
      tryIncrementTarget seq message

/-- Moves the expectation to the `NewSeqNo` of a SequenceReset. -/
def setTarget (reset : InboundFrame) (newSeq : Nat) : Handler Unit := do
  modify fun receiver => { receiver with
    sequences := receiver.sequences.setTargetSeq newSeq
    trail := receiver.trail ++ [Passage.covered receiver.expected reset newSeq] }

/-! ## Replies and the gap queue -/

def sendReject : Handler Unit := do
  let choice ← choose
  if choice.replyWritten then return () else throw .sendFailed

/-- Requests a gap; a request that goes out leaves a held Logon to its answer. -/
def requestResend : Handler Unit := do
  let choice ← choose
  match choice.request with
  | .unsent => return ()
  | .sent => modify fun receiver => { receiver with heldLogon := none }
  | .failed => throw .sendFailed

/-- Offers a message to the gap queue; whether its number was already held. -/
def queueGapped (seq : Nat) (entry : GapEntry InboundFrame) : Handler Bool := do
  let receiver ← get
  match receiver.queue with
  | none => return false
  | some queue =>
      if !receiver.active || receiver.logoutOwed then return false
      else
        match queue.insert InboundFrame.size seq entry with
        | (.queued, queue) =>
            set { receiver with queue := some queue }
            return false
        | (.duplicate, _) => return true
        | (.overflow, _) =>
            set { receiver with queue := some queue.firstOverflow.2 }
            return false

def clearGapQueue : Handler Unit :=
  modify fun receiver => { receiver with queue := receiver.queue.map fun queue => queue.clear.2 }

/-- A Logout is to be answered: what is queued is not released any more. -/
def onLogout (frame : InboundFrame) : Handler Unit :=
  if frame.msgType.code = MSG_LOGOUT then do
    clearGapQueue
    modify fun receiver => { receiver with logoutOwed := true }
  else return ()

/-! ## Handlers -/

/-- An application message next in sequence is delivered or rejected. -/
def onAppInSequence (frame : InboundFrame) (seq : Nat) : Handler Unit := do
  let choice ← choose
  match choice.app with
  | .queueFull => throw .applicationQueueFull
  | .stopped => throw .dispatcherStopped
  | .deliver => consume seq (some frame)
  | .reject =>
      consume seq (some frame)
      sendReject

/-- Acts on an administrative message. -/
def dispatchAdmin (frame : InboundFrame) : Handler Unit := do
  let choice ← choose
  if !choice.adminAccepts then sendReject
  else
    onLogout frame
    modify fun receiver => { receiver with active := receiver.active && choice.staysActive }
    if choice.replyWritten then return () else throw .loggedOut

/-- The number of a fill that is rejected is consumed, if it is next. -/
def consumeRejectedFill (gapFill : Bool) (seq : Nat) (frame : InboundFrame) : Handler Unit := do
  let receiver ← get
  if !gapFill || receiver.sequences.validateIncoming seq ≠ .ok then return ()
  else tryIncrementTarget seq (some frame)

/-- Acts on a SequenceReset that passed its screen. -/
def applySequenceReset (frame : InboundFrame) (seq : Nat) (gapFill : Bool) : Handler Unit := do
  let choice ← choose
  if !choice.adminAccepts then
    consumeRejectedFill gapFill seq frame
    sendReject
  else
    let receiver ← get
    match decideSequenceReset gapFill seq frame.newSeqNo receiver.expected with
    | .missingNewSeqNo =>
        consumeRejectedFill gapFill seq frame
        sendReject
    | .fillNotAdvancing _ =>
        tryIncrementTarget seq (some frame)
        sendReject
    | .resetBelowExpected _ _ => sendReject
    | .apply newSeq renumbers _ =>
        persistTarget newSeq
        setTarget frame newSeq
        if renumbers then clearGapQueue else return ()

def onSequenceReset (frame : InboundFrame) (seq : Nat) : Handler Unit := do
  let receiver ← get
  match screenSequenceReset receiver.sequences frame.gapFillFlag seq frame.possDup with
  | .badGapFillFlag => sendReject
  | .gappedFill _ _ =>
      requestResend
      let _ ← queueGapped seq (.frame frame)
      return ()
  | .duplicateFill expected =>
      let mayRequest := receiver.active && !receiver.logoutOwed
      match spannedRerequest expected frame.newSeqNo mayRequest receiver.lastRerequested with
      | none => return ()
      | some _ =>
          set { receiver with lastRerequested := some expected }
          requestResend
  | .tooLowFill expected received => throw (.sequenceTooLow expected received)
  | .exhausted => throw (.sequenceExhausted .target)
  | .fillInSequence next =>
      persistTarget next
      applySequenceReset frame seq true
  | .reset => applySequenceReset frame seq false

/-- An inbound message whose header is sound. -/
def onFrame (frame : InboundFrame) : Handler Unit := do
  let receiver ← get
  match routeInbound receiver.sequences frame.msgType frame.seq frame.possDup with
  | .sequenceReset => onSequenceReset frame frame.seq
  | .admin next =>
      persistTarget next
      tryIncrementTarget frame.seq (some frame)
      dispatchAdmin frame
  | .app => onAppInSequence frame frame.seq
  | .exhausted => throw (.sequenceExhausted .target)
  | .duplicate => return ()
  | .tooLow expected received => throw (.sequenceTooLow expected received)
  | .gap _ _ disposition =>
      requestResend
      match disposition with
      | .queueFrame =>
          let _ ← queueGapped frame.seq (.frame frame)
          return ()
      | .keepNumber =>
          let held ← queueGapped frame.seq .processed
          if held then return () else dispatchAdmin frame
      | .dispatch => dispatchAdmin frame

/-- A message whose body does not decode, numbered `seq`. -/
def onMalformed (seq : Nat) (possDup : Bool) : Handler Unit := do
  let receiver ← get
  match classifyInbound receiver.sequences seq possDup with
  | .inSequence =>
      consume seq none
      sendReject
  | .duplicate _ _ => return ()
  | .tooLow expected received => throw (.sequenceTooLow expected received)
  | .gap _ _ => requestResend

/-! ## Releases -/

/-- Consumes the held Logon once its number is next. -/
def releaseHeldLogon : Handler Unit := do
  let receiver ← get
  match receiver.heldLogon with
  | none => return ()
  | some logonSeq =>
      if receiver.expected < logonSeq then return ()
      else
        set { receiver with heldLogon := none }
        if receiver.expected > logonSeq then return () else consume logonSeq none

/-- Acts on a queued frame whose number is next. -/
def releaseFrame (seq : Nat) (frame : InboundFrame) : Handler Unit :=
  if frame.msgType.code = MSG_SEQUENCE_RESET then onSequenceReset frame seq
  else onAppInSequence frame seq

/-- One pass of the loop of `release_ready`: the queued message whose number is
next, if there is one. -/
def releaseNext : Handler Unit := do
  let receiver ← get
  match receiver.queue with
  | none => return ()
  | some queue =>
      if queue.isEmpty then return ()
      else
        let ready := queue.takeReady InboundFrame.size receiver.expected
        set { receiver with queue := some ready.2 }
        match ready.1.next with
        | none => return ()
        | some (.frame frame) => releaseFrame receiver.expected frame
        | some .processed => consume receiver.expected none

/-! ## Runs -/

inductive Event where
  | arrive (frame : InboundFrame)
  | malformed (seq : Nat) (possDup : Bool)
  | releaseHeldLogon
  | releaseNext
  /-- This session's own Logout is fed. -/
  | logOut

def Event.handler : Event → Handler Unit
  | .arrive frame => onFrame frame
  | .malformed seq possDup => onMalformed seq possDup
  | .releaseHeldLogon => Receiver.releaseHeldLogon
  | .releaseNext => Receiver.releaseNext
  | .logOut => do
      modify fun receiver => { receiver with heldLogon := none, active := false }
      clearGapQueue

/-- One event and the choices it meets; a closed session does nothing more. -/
def step (receiver : Receiver) (input : Event × List Choice) : Receiver :=
  if receiver.closed.isSome then receiver
  else
    match input.1.handler { receiver with choices := input.2 } with
    | .ok _ receiver => receiver
    | .error reason receiver => { receiver with closed := some reason }

/-- An established session: its counters, its gap policy, the Logon it holds. -/
def established (nextSender nextTarget : Fin (2 ^ 64)) (policy : GapPolicy)
    (heldLogon : Option Nat) : Receiver :=
  { sequences := .withInitial nextSender.val nextTarget.val, queue := GapQueue.forPolicy policy, heldLogon,
    lastRerequested := none, active := true, logoutOwed := false, closed := none, choices := [],
    trail := [] }

end Receiver

end IronFix.Session
