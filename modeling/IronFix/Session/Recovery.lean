import IronFix.Lib.Runs
import IronFix.Session.Inbound

/-!
# Gap recovery

The bookkeeping of one outstanding ResendRequest (2): from where it asks, how
far the gap reaches, how often it was asked for and when. `RecoveryCore` holds
it for a session, and a driver moves it: a gap is found, the expectation
advances, a stall is checked, a held request is written. Instants and durations
are nanoseconds.
-/

namespace IronFix.Session

open Lib.Decimal Lib.Runs

/-- What recovery reads of a session's configuration. -/
structure ResendConfig where
  maxResendRequests : Nat
  resendTimeout : Nat
  requestsU32 : maxResendRequests ≤ u32Max

/-- The first request is unconditional, so the ceiling is at least one. -/
def ResendConfig.resendAttemptLimit (config : ResendConfig) : Nat :=
  if config.maxResendRequests = 0 then 1 else config.maxResendRequests

structure ResendState where
  expected : Nat
  highWater : Nat
  requestedAt : Nat
  attempts : Nat
  limit : Nat
  timeout : Nat
  chargeOnWrite : Bool
  deriving DecidableEq, Repr

namespace ResendState

/-- The request sent at `now` counts as the first attempt. -/
def first (expected highWater : Nat) (config : ResendConfig) (now : Nat) : ResendState where
  expected := expected
  highWater := highWater
  requestedAt := now
  attempts := 1
  limit := config.resendAttemptLimit
  timeout := config.resendTimeout
  chargeOnWrite := false

/-- A gap with no request charged yet. -/
def implied (expected highWater : Nat) (config : ResendConfig) (now : Nat) : ResendState :=
  { first expected highWater config now with attempts := 0 }

def isStalled (now : Nat) (state : ResendState) : Bool := now - state.requestedAt ≥ state.timeout

def canRetry (state : ResendState) : Bool := state.attempts < state.limit

def raiseHighWater (highWater : Nat) (state : ResendState) : ResendState :=
  if highWater > state.highWater then { state with highWater } else state

def chargeHeldRequest (state : ResendState) : ResendState := { state with chargeOnWrite := true }

/-- The charge a held request owes, and the state without it. -/
def takeCharge (state : ResendState) : Bool × ResendState :=
  (state.chargeOnWrite, { state with chargeOnWrite := false })

def restartClock (now : Nat) (state : ResendState) : ResendState := { state with requestedAt := now }

def rearmUncharged (expected highWater now : Nat) (state : ResendState) : ResendState :=
  (({ state with expected } : ResendState).raiseHighWater highWater).restartClock now

/-- One more charged request; at its ceiling the count stays. -/
def recordRetry (now : Nat) (state : ResendState) : ResendState :=
  { state with
    requestedAt := now
    chargeOnWrite := false
    attempts := (checkedAdd u32Max state.attempts 1).getD state.attempts }

def recordProgress (expected now : Nat) (state : ResendState) : ResendState :=
  { state with
    expected
    requestedAt := now
    attempts := min state.attempts 1 }

end ResendState

/-- The higher of two marks: a later, lower frame never narrows the range. -/
def mergedHighWater (current : Option ResendState) (highWater : Nat) : Nat :=
  match current with
  | none => highWater
  | some state => max state.highWater highWater

/-- The top of the range a duplicate fill calls for. -/
def spannedHighWater (expected newSeq : Nat) : Nat :=
  max ((if newSeq = 0 then none else some (newSeq - 1)).getD expected) expected

inductive GapRequest where
  | alreadyRequested
  | request
  deriving DecidableEq, Repr

/-- A frame beyond an open gap only raises its mark. -/
def decideGapRequest (current : Option ResendState) (expected highWater : Nat) :
    GapRequest × Option ResendState :=
  match current with
  | none => (.request, none)
  | some state =>
      let raised := state.raiseHighWater highWater
      (if raised.expected = expected then .alreadyRequested else .request, some raised)

inductive RecoveryProgress where
  | noRecovery
  | closed
  | advanced
  deriving DecidableEq, Repr

/-- Recovery clears once the expectation passed the whole range. -/
def noteInboundProgress (recovery : Option ResendState) (nextTarget now : Nat) :
    RecoveryProgress × Option ResendState :=
  match recovery with
  | none => (.noRecovery, none)
  | some state =>
      if nextTarget > state.highWater then (.closed, none)
      else (.advanced, some (state.recordProgress nextTarget now))

inductive StallAction where
  | wait
  | retry (expected : Nat)
  | abandon (expected attempts : Nat)
  deriving DecidableEq, Repr

/-- A request still to be written does not stall. -/
def decideStall (recovery : Option ResendState) (now : Nat) (requestUnwritten : Bool) : StallAction :=
  match recovery with
  | none => .wait
  | some state =>
      if !requestUnwritten && state.isStalled now then
        if state.canRetry then .retry state.expected else .abandon state.expected state.attempts
      else .wait

/-- The recovery of a session: the Logon held above a gap, and whether a request
waits behind a resend of its own. -/
structure RecoveryCore where
  resend : Option ResendState
  heldLogon : Option Nat
  requestHeld : Bool
  deriving DecidableEq, Repr

namespace RecoveryCore

variable (expected highWater : Nat) (config : ResendConfig) (now : Nat) (core : RecoveryCore)

def new : RecoveryCore := ⟨none, none, false⟩

def decideGapRequest : GapRequest × RecoveryCore :=
  let decided := Session.decideGapRequest core.resend expected highWater
  (decided.1, { core with resend := decided.2 })

/-- A request went out: one attempt is spent. -/
def armRequested : RecoveryCore :=
  { core with resend := some (.first expected (mergedHighWater core.resend highWater) config now) }

/-- A request waits behind a resend: its attempt is charged when it is written. -/
def armHeldRequest : RecoveryCore :=
  { core with
    resend :=
      some (ResendState.implied expected (mergedHighWater core.resend highWater) config
        now).chargeHeldRequest }

/-- A request not charged: recovery already armed keeps its attempts. -/
def armUncharged : RecoveryCore :=
  { core with
    resend :=
      match core.resend with
      | some state => some (state.rearmUncharged expected highWater now)
      | none => some (.implied expected highWater config now) }

def holdLogon (logonSeq : Nat) : RecoveryCore :=
  { core with
    resend := some (.implied expected logonSeq config now)
    heldLogon := some logonSeq }

def releaseHeldLogonToRequest : RecoveryCore := { core with heldLogon := none }

def noteInboundProgress (nextTarget : Nat) : RecoveryProgress × RecoveryCore :=
  let noted := Session.noteInboundProgress core.resend nextTarget now
  (noted.1, { core with resend := noted.2 })

def decideStall (requestUnwritten : Bool) : StallAction :=
  Session.decideStall core.resend now requestUnwritten

def recordRetry : RecoveryCore := { core with resend := core.resend.map (·.recordRetry now) }

def restartResendClock : RecoveryCore := { core with resend := core.resend.map (·.restartClock now) }

def takeResendCharge : Bool × RecoveryCore :=
  match core.resend with
  | none => (false, core)
  | some state => (state.takeCharge.1, { core with resend := some state.takeCharge.2 })

def noteHeldRequestWritten (charged : Bool) : RecoveryCore :=
  if charged then core.recordRetry now else core.restartResendClock now

def resendExpected : Option Nat := core.resend.map ResendState.expected

/-- One request is held at most. -/
def holdResendRequest : RecoveryCore := { core with requestHeld := true }

/-- Recovery is over once this session's own Logout is fed. -/
def noteLocalLogoutFed : RecoveryCore := { core with resend := none, heldLogon := none }

end RecoveryCore

/-! ## The driver -/

/-- What became of a message handed to the output. -/
inductive Sent where
  | yes
  | dropped
  /-- It waits behind a resend and is written after it. -/
  | deferred
  deriving DecidableEq, Repr

/-- A session's recovery as its driver moves it: the next number expected, and
the gap starts of the requests that went out, oldest first. Of the requests
charged since the recovery was armed or last progressed, `retried` were retries
and `opening` was its own. -/
structure Recovering where
  core : RecoveryCore
  next : Nat
  asked : List Nat
  opening : Nat
  retried : Nat

inductive RecoveryEvent where
  /-- A message above the expectation. -/
  | gap (received : Nat) (replaying : Bool) (sent : Sent) (now : Nat)
  /-- A duplicate fill below the expectation that reaches past it. -/
  | spanned (newSeq : Nat) (replaying : Bool) (sent : Sent) (now : Nat)
  /-- The expectation advances: a message in sequence, a fill, a release. -/
  | progress (nextTarget now : Nat)
  | tick (requestUnwritten : Bool) (sent : Sent) (now : Nat)
  /-- The last request is written whole. -/
  | written (now : Nat)
  /-- The resend is done: the request held behind it is written. -/
  | writeHeld (sent : Sent) (now : Nat)
  /-- A gapped Logon is held, as the session opens. -/
  | holdLogon (logonSeq now : Nat)
  /-- This session's own Logout is fed. -/
  | logout

namespace Recovering

variable (config : ResendConfig)

/-- A session that expects `next`, nothing being recovered. -/
def opened (next : Nat) : Recovering := ⟨.new, next, [], 0, 0⟩

def requestResend (received : Nat) (replaying : Bool) (sent : Sent) (now : Nat)
    (session : Recovering) : Recovering :=
  let decided := session.core.decideGapRequest session.next received
  match decided.1 with
  | .alreadyRequested => { session with core := decided.2 }
  | .request =>
      if replaying then
        { session with
          core := (decided.2.armHeldRequest session.next received config now).holdResendRequest
          opening := 0
          retried := 0 }
      else
        match sent with
        | .dropped => { session with core := decided.2 }
        | .yes | .deferred =>
            { session with
              core :=
                (decided.2.armRequested session.next received config now).releaseHeldLogonToRequest
              asked := session.asked ++ [session.next]
              opening := 1
              retried := 0 }

/-- A recovery armed without a request begins with nothing charged. -/
def armUncharged (highWater now : Nat) (session : Recovering) : Recovering :=
  { session with
    core := session.core.armUncharged session.next highWater config now
    opening := if session.core.resend.isSome then session.opening else 0
    retried := if session.core.resend.isSome then session.retried else 0 }

def rerequestSpannedGap (newSeq : Nat) (replaying : Bool) (sent : Sent) (now : Nat)
    (session : Recovering) : Recovering :=
  let armed := session.armUncharged config (spannedHighWater session.next newSeq) now
  if replaying then { armed with core := armed.core.holdResendRequest }
  else
    match sent with
    | .dropped => session
    | .yes | .deferred =>
        { armed with
          core := armed.core.releaseHeldLogonToRequest
          asked := session.asked ++ [session.next] }

/-- A recovery that advances starts its count again. -/
def noteProgress (nextTarget now : Nat) (session : Recovering) : Recovering :=
  { session with
    core := (session.core.noteInboundProgress now nextTarget).2
    next := nextTarget
    opening := session.core.resend.elim 0 fun state => min state.attempts 1
    retried := 0 }

/-- The Logout of an abandoned recovery is an event of its own. -/
def onTick (requestUnwritten : Bool) (sent : Sent) (now : Nat) (session : Recovering) : Recovering :=
  match session.core.decideStall now requestUnwritten with
  | .wait | .abandon .. => session
  | .retry expected =>
      match sent with
      | .dropped => session
      | .yes | .deferred =>
          { session with
            core := (session.core.recordRetry now).releaseHeldLogonToRequest
            asked := session.asked ++ [expected]
            retried := session.retried + 1 }

/-- A held request is built from the gap as it stands, and skipped once it closed. -/
def writeHeld (sent : Sent) (now : Nat) (session : Recovering) : Recovering :=
  if !session.core.requestHeld then session
  else
    let core := { session.core with requestHeld := false }
    match core.resendExpected with
    | none => { session with core }
    | some expected =>
        let taken := core.takeResendCharge
        match sent with
        | .yes =>
            { session with
              core := (taken.2.noteHeldRequestWritten now taken.1).releaseHeldLogonToRequest
              asked := session.asked ++ [expected]
              opening := if taken.1 then session.opening + 1 else session.opening }
        | .dropped | .deferred => { session with core := taken.2 }

def step (session : Recovering) : RecoveryEvent → Recovering
  | .gap received replaying sent now => session.requestResend config received replaying sent now
  | .spanned newSeq replaying sent now => session.rerequestSpannedGap config newSeq replaying sent now
  | .progress nextTarget now => session.noteProgress nextTarget now
  | .tick requestUnwritten sent now => session.onTick requestUnwritten sent now
  | .written now => { session with core := session.core.restartResendClock now }
  | .writeHeld sent now => session.writeHeld sent now
  | .holdLogon logonSeq now =>
      { session with
        core := session.core.holdLogon session.next config now logonSeq
        opening := 0
        retried := 0 }
  | .logout => { session with core := session.core.noteLocalLogoutFed }

/-- A gap lies above the expectation, which only advances; a Logon is held
before anything is recovered. -/
def Legal (session : Recovering) : RecoveryEvent → Prop
  | .gap received .. => session.next < received
  | .spanned newSeq .. => session.next < newSeq
  | .progress nextTarget _ => session.next < nextTarget
  | .holdLogon logonSeq _ => session.core.resend = none ∧ session.next < logonSeq
  | .tick .. | .written _ | .writeHeld .. | .logout => True

end Recovering

end IronFix.Session
