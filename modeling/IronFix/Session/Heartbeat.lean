import IronFix.Core.Bytes
import IronFix.Lib.Runs

/-!
# Heartbeats and TestRequests

The liveness timers of a session: when a Heartbeat (0) or a TestRequest (1) is
due, and when an unanswered TestRequest ends the session. The driver reports
what it sent and received and asks at each tick. Instants and durations are
nanoseconds.
-/

namespace IronFix.Session

open Lib.Decimal

def TEST_REQUEST_GRACE_DIVISOR : Nat := 5

/-- 250 ms. -/
def MIN_TEST_REQUEST_GRACE : Nat := 250000000

/-- The longest duration: the most seconds a word counts, and what is below one. -/
def durationMax : Nat := u64Max * 1000000000 + 999999999

/-- What an inbound message did to an outstanding TestRequest. -/
inductive TestRequestOutcome where
  | nonePending
  | confirmed
  | supersededByTraffic
  deriving DecidableEq, Repr

/-- The grace on top of the interval before a TestRequest is due. -/
def graceFor (interval : Nat) : Nat :=
  if interval = 0 then 0 else max (interval / TEST_REQUEST_GRACE_DIVISOR) MIN_TEST_REQUEST_GRACE

/-- An instant before `earlier` counts as no time. -/
def elapsedBetween (earlier now : Nat) : Nat := now - earlier

structure HeartbeatManager where
  /-- 0 disables heartbeating. -/
  interval : Nat
  grace : Nat
  lastSent : Nat
  lastReceived : Nat
  testRequestPending : Option Bytes
  testRequestSentAt : Option Nat
  deriving DecidableEq, Repr

namespace HeartbeatManager

def new (interval now : Nat) : HeartbeatManager := ⟨interval, graceFor interval, now, now, none, none⟩

def isEnabled (manager : HeartbeatManager) : Bool := manager.interval != 0

def onMessageSent (manager : HeartbeatManager) (now : Nat) : HeartbeatManager :=
  { manager with lastSent := now }

/-- Any inbound message clears an outstanding TestRequest. -/
def onMessageReceived (manager : HeartbeatManager) (isHeartbeat : Bool) (testReqId : Option Bytes)
    (now : Nat) : TestRequestOutcome × HeartbeatManager :=
  let received := { manager with lastReceived := now }
  match manager.testRequestPending with
  | none => (.nonePending, received)
  | some pending =>
      (if isHeartbeat && testReqId == some pending then .confirmed else .supersededByTraffic,
        { received with testRequestPending := none, testRequestSentAt := none })

def shouldSendHeartbeat (manager : HeartbeatManager) (now : Nat) : Bool :=
  manager.isEnabled && manager.interval ≤ elapsedBetween manager.lastSent now

def shouldSendTestRequest (manager : HeartbeatManager) (now : Nat) : Bool :=
  if !manager.isEnabled || manager.testRequestPending.isSome then false
  else
    match checkedAdd durationMax manager.interval manager.grace with
    | some dueAfter => dueAfter ≤ elapsedBetween manager.lastReceived now
    | none => false

def isTimedOut (manager : HeartbeatManager) (now : Nat) : Bool :=
  if !manager.isEnabled then false
  else
    match manager.testRequestSentAt with
    | some sentAt => manager.interval ≤ elapsedBetween sentAt now
    | none => false

def onTestRequestSent (manager : HeartbeatManager) (testReqId : Bytes) (now : Nat) : HeartbeatManager :=
  { manager with
    testRequestPending := some testReqId
    testRequestSentAt := some now
    lastSent := now }

end HeartbeatManager

/-! ## The liveness step -/

/-- What the output allows a liveness check to add to it. -/
inductive LivenessGate where
  | deadlinesOnly
  | probe (testRequestUnwritten outputWaiting : Bool)
  deriving DecidableEq, Repr

inductive LivenessAction where
  | idle
  | closeHeartbeatTimeout
  | sendTestRequest
  | sendHeartbeat
  deriving DecidableEq, Repr

def decideLiveness (heartbeat : HeartbeatManager) (now : Nat) (gate : LivenessGate) : LivenessAction :=
  if heartbeat.isTimedOut now then .closeHeartbeatTimeout
  else
    match gate with
    | .deadlinesOnly => .idle
    | .probe testRequestUnwritten outputWaiting =>
        if heartbeat.shouldSendTestRequest now && !testRequestUnwritten then .sendTestRequest
        else if heartbeat.shouldSendHeartbeat now && !outputWaiting then .sendHeartbeat
        else .idle

/-- The liveness state of a session: its timers, and the TestRequest that is
not written whole. -/
structure Liveness where
  heartbeat : HeartbeatManager
  unwrittenTestRequest : Option Bytes
  deriving DecidableEq, Repr

/-- What a driver reports, each with the instant it happened. -/
inductive LivenessEvent where
  | sent (now : Nat)
  | received (isHeartbeat : Bool) (testReqId : Option Bytes) (now : Nat)
  /-- The TestRequest fed to the output was written whole. -/
  | testRequestWritten (now : Nat)
  /-- A tick. `fed` is the TestRequest the driver sends if one is decided, and
  none if its send drops it. -/
  | check (deadlinesOnly outputWaiting : Bool) (fed : Option Bytes) (now : Nat)
  deriving DecidableEq, Repr

def LivenessEvent.instant : LivenessEvent → Nat
  | .sent now | .received _ _ now | .testRequestWritten now | .check _ _ _ now => now

def LivenessEvent.isReceived : LivenessEvent → Bool
  | .received _ _ _ => true
  | _ => false

namespace Liveness

def new (interval now : Nat) : Liveness := ⟨.new interval now, none⟩

/-- `SessionCore::probe_gate`, unless only deadlines may be checked. -/
def gate (liveness : Liveness) (deadlinesOnly outputWaiting : Bool) : LivenessGate :=
  if deadlinesOnly then .deadlinesOnly
  else .probe liveness.unwrittenTestRequest.isSome outputWaiting

/-- What a check decides. -/
def decided (liveness : Liveness) (deadlinesOnly outputWaiting : Bool) (now : Nat) : LivenessAction :=
  decideLiveness liveness.heartbeat now (liveness.gate deadlinesOnly outputWaiting)

def step (liveness : Liveness) : LivenessEvent → Liveness
  | .sent now => { liveness with heartbeat := liveness.heartbeat.onMessageSent now }
  | .received isHeartbeat testReqId now =>
      { liveness with heartbeat := (liveness.heartbeat.onMessageReceived isHeartbeat testReqId now).2 }
  | .testRequestWritten now =>
      match liveness.unwrittenTestRequest with
      | some testReqId => ⟨liveness.heartbeat.onTestRequestSent testReqId now, none⟩
      | none => liveness
  | .check deadlinesOnly outputWaiting fed now =>
      if liveness.decided deadlinesOnly outputWaiting now = .sendTestRequest then
        { liveness with unwrittenTestRequest := fed }
      else liveness

/-- The TestRequests that wait to be written or answered. -/
def outstanding (liveness : Liveness) : List Bytes :=
  liveness.unwrittenTestRequest.toList ++ liveness.heartbeat.testRequestPending.toList

end Liveness

/-! ## Runs -/

open Lib.Runs

/-- The instants do not go backwards. -/
def Monotone (start : Nat) (events : List LivenessEvent) : Prop :=
  (start :: events.map LivenessEvent.instant).Pairwise (· ≤ ·)

/-- The last TestRequest written, with nothing received since. -/
def Unanswered (start : Liveness) (events : List LivenessEvent) (sentAt : Nat) : Prop :=
  ∃ before after testReqId, events = before ++ .testRequestWritten sentAt :: after ∧
    (run Liveness.step start before).unwrittenTestRequest = some testReqId ∧
      ∀ event ∈ after, event.isReceived = false

/-- What holds of the timers along a run. -/
structure Timed (interval : Nat) (start : Liveness) (events : List LivenessEvent)
    (liveness : Liveness) : Prop where
  interval : liveness.heartbeat.interval = interval
  /-- The two halves of a pending TestRequest go together. -/
  together : liveness.heartbeat.testRequestPending.isSome = liveness.heartbeat.testRequestSentAt.isSome
  /-- A TestRequest is either unwritten or pending. -/
  single : liveness.unwrittenTestRequest = none ∨ liveness.heartbeat.testRequestPending = none
  unanswered : ∀ sentAt, liveness.heartbeat.testRequestSentAt = some sentAt →
    Unanswered start events sentAt

section Runs

variable {interval now : Nat} {start liveness : Liveness} {events : List LivenessEvent}
  {event : LivenessEvent} {sentAt : Nat}

theorem Unanswered.snoc (waits : Unanswered start events sentAt) (silent : event.isReceived = false) :
    Unanswered start (events ++ [event]) sentAt := by
  obtain ⟨before, after, testReqId, rfl, fed, nothing⟩ := waits
  refine ⟨before, after ++ [event], testReqId, by simp, fed, ?_⟩
  intro other member
  rcases List.mem_append.mp member with early | last
  · exact nothing other early
  · rw [List.mem_singleton.mp last]
    exact silent

/-- A TestRequest is decided only when none is outstanding. -/
theorem decided_sendTestRequest {deadlinesOnly outputWaiting : Bool}
    (decided : liveness.decided deadlinesOnly outputWaiting now = .sendTestRequest) :
    liveness.unwrittenTestRequest = none ∧ liveness.heartbeat.testRequestPending = none := by
  unfold Liveness.decided decideLiveness at decided
  split at decided
  · cases decided
  · unfold Liveness.gate at decided
    cases deadlinesOnly with
    | true => cases decided
    | false =>
        simp only [Bool.false_eq_true, if_false] at decided
        split at decided
        · rename_i due
          rw [Bool.and_eq_true, Bool.not_eq_true', Option.isSome_eq_false_iff, Option.isNone_iff_eq_none] at due
          refine ⟨due.2, ?_⟩
          by_contra pending
          have isSome : liveness.heartbeat.testRequestPending.isSome = true := Option.isSome_iff_ne_none.mpr pending
          have never := due.1
          unfold HeartbeatManager.shouldSendTestRequest at never
          rw [isSome, Bool.or_true, if_pos rfl] at never
          cases never
        · split at decided <;> cases decided

theorem Timed.step (timed : Timed interval start events liveness)
    (reached : run Liveness.step start events = liveness) (event : LivenessEvent) :
    Timed interval start (events ++ [event]) (liveness.step event) := by
  cases event with
  | sent now =>
      refine ⟨timed.interval, timed.together, timed.single, ?_⟩
      intro sentAt waiting
      exact (timed.unanswered sentAt waiting).snoc rfl
  | received isHeartbeat testReqId now =>
      cases pending : liveness.heartbeat.testRequestPending with
      | none =>
          have silent : liveness.heartbeat.testRequestSentAt = none := by
            have together := timed.together
            rw [pending] at together
            exact Option.isNone_iff_eq_none.mp (Option.isSome_eq_false_iff.mp together.symm)
          have same : liveness.step (.received isHeartbeat testReqId now) =
              { liveness with heartbeat := { liveness.heartbeat with lastReceived := now } } := by
            simp only [Liveness.step, HeartbeatManager.onMessageReceived, pending]
          rw [same]
          refine ⟨timed.interval, timed.together, timed.single, ?_⟩
          intro sentAt waiting
          rw [show ({ liveness.heartbeat with lastReceived := now } : HeartbeatManager).testRequestSentAt =
            liveness.heartbeat.testRequestSentAt from rfl, silent] at waiting
          cases waiting
      | some testReqId' =>
          have cleared : liveness.step (.received isHeartbeat testReqId now) =
              { liveness with
                heartbeat :=
                  { liveness.heartbeat with
                    lastReceived := now
                    testRequestPending := none
                    testRequestSentAt := none } } := by
            simp only [Liveness.step, HeartbeatManager.onMessageReceived, pending]
          rw [cleared]
          exact ⟨timed.interval, rfl, .inr rfl, nofun⟩
  | testRequestWritten now =>
      cases fed : liveness.unwrittenTestRequest with
      | none =>
          have same : liveness.step (.testRequestWritten now) = liveness := by
            simp only [Liveness.step, fed]
          rw [same]
          refine ⟨timed.interval, timed.together, timed.single, ?_⟩
          intro sentAt waiting
          exact (timed.unanswered sentAt waiting).snoc rfl
      | some testReqId =>
          have armed : liveness.step (.testRequestWritten now) =
              ⟨liveness.heartbeat.onTestRequestSent testReqId now, none⟩ := by
            simp only [Liveness.step, fed]
          rw [armed]
          refine ⟨timed.interval, rfl, .inl rfl, ?_⟩
          intro sentAt waiting
          cases waiting
          exact ⟨events, [], testReqId, rfl, reached ▸ fed, by simp⟩
  | check deadlinesOnly outputWaiting fed now =>
      by_cases decided : liveness.decided deadlinesOnly outputWaiting now = .sendTestRequest
      · have feeds : liveness.step (.check deadlinesOnly outputWaiting fed now) =
            { liveness with unwrittenTestRequest := fed } := if_pos decided
        rw [feeds]
        refine ⟨timed.interval, timed.together, .inr (decided_sendTestRequest decided).2, ?_⟩
        intro sentAt waiting
        exact (timed.unanswered sentAt waiting).snoc rfl
      · have same : liveness.step (.check deadlinesOnly outputWaiting fed now) = liveness := if_neg decided
        rw [same]
        refine ⟨timed.interval, timed.together, timed.single, ?_⟩
        intro sentAt waiting
        exact (timed.unanswered sentAt waiting).snoc rfl

theorem timed (interval begun : Nat) (events : List LivenessEvent) :
    Timed interval (.new interval begun) events (run Liveness.step (.new interval begun) events) := by
  induction events using List.reverseRecOn with
  | nil => exact ⟨rfl, rfl, .inl rfl, nofun⟩
  | append_singleton events event ih =>
      rw [run_append]
      exact ih.step rfl event

/-- With a zero interval nothing is ever due. -/
theorem decideLiveness_zero (disabled : liveness.heartbeat.interval = 0) (gate : LivenessGate) :
    decideLiveness liveness.heartbeat now gate = .idle := by
  have off : liveness.heartbeat.isEnabled = false := by
    unfold HeartbeatManager.isEnabled
    rw [disabled]
    rfl
  have onTime : liveness.heartbeat.isTimedOut now = false := by
    unfold HeartbeatManager.isTimedOut
    rw [off]
    rfl
  have noTest : liveness.heartbeat.shouldSendTestRequest now = false := by
    unfold HeartbeatManager.shouldSendTestRequest
    rw [off]
    rfl
  have noHeartbeat : liveness.heartbeat.shouldSendHeartbeat now = false := by
    unfold HeartbeatManager.shouldSendHeartbeat
    rw [off]
    rfl
  unfold decideLiveness
  rw [onTime, if_neg Bool.false_ne_true]
  cases gate with
  | deadlinesOnly => rfl
  | probe testRequestUnwritten outputWaiting => simp [noTest, noHeartbeat]

theorem isTimedOut_iff (manager : HeartbeatManager) (now : Nat) : manager.isTimedOut now = true ↔
    manager.interval ≠ 0 ∧
      ∃ sentAt, manager.testRequestSentAt = some sentAt ∧ manager.interval ≤ now - sentAt := by
  unfold HeartbeatManager.isTimedOut HeartbeatManager.isEnabled elapsedBetween
  cases sent : manager.testRequestSentAt with
  | none => simp
  | some sentAt =>
      by_cases disabled : manager.interval = 0
      · simp [disabled]
      · simp [disabled]

/-- A timeout is the only close that is decided. -/
theorem decideLiveness_close {gate : LivenessGate}
    (closes : decideLiveness liveness.heartbeat now gate = .closeHeartbeatTimeout) :
    liveness.heartbeat.isTimedOut now = true := by
  unfold decideLiveness at closes
  split at closes
  · assumption
  · split at closes
    · cases closes
    · split at closes
      · cases closes
      · split at closes <;> cases closes

/-- Along every run of a driver whose instants do not go backwards: the session
is closed only when a TestRequest was written and nothing was received for a
whole interval since; at most one TestRequest is outstanding, and one is decided
only when none is; any inbound message cancels it; and with a zero interval
nothing is ever decided. -/
theorem liveness_sound (interval begun : Nat) (events : List LivenessEvent) (now : Nat)
    (deadlinesOnly outputWaiting : Bool)
    (monotone : Monotone begun (events ++ [.check deadlinesOnly outputWaiting none now])) :
    let liveness := run Liveness.step (.new interval begun) events
    let decided := liveness.decided deadlinesOnly outputWaiting now
    (decided = .closeHeartbeatTimeout → interval ≠ 0 ∧ ∃ before sentAt after testReqId,
      events = before ++ .testRequestWritten sentAt :: after ∧
        (run Liveness.step (.new interval begun) before).unwrittenTestRequest = some testReqId ∧
          (∀ event ∈ after, event.isReceived = false) ∧ sentAt + interval ≤ now) ∧
    liveness.outstanding.length ≤ 1 ∧
    (decided = .sendTestRequest → liveness.outstanding = []) ∧
    (∀ isHeartbeat testReqId at_,
      (liveness.step (.received isHeartbeat testReqId at_)).heartbeat.testRequestPending = none ∧
        (liveness.step (.received isHeartbeat testReqId at_)).heartbeat.testRequestSentAt = none) ∧
    (interval = 0 → decided = .idle) := by
  intro liveness decided
  have holds := timed interval begun events
  refine ⟨?_, ?_, ?_, ?_, ?_⟩
  · intro closes
    obtain ⟨enabled, sentAt, sent, waited⟩ := (isTimedOut_iff _ _).mp (decideLiveness_close closes)
    obtain ⟨before, after, testReqId, parts, fed, silent⟩ := holds.unanswered sentAt sent
    rw [show liveness.heartbeat.interval = interval from holds.interval] at enabled waited
    refine ⟨enabled, before, sentAt, after, testReqId, parts, fed, silent, ?_⟩
    -- the TestRequest was written before the check, so the time between is not cut to nothing
    have ordered : sentAt ≤ now := by
      unfold Monotone at monotone
      rw [parts, List.map_append, List.map_append, List.map_cons, List.append_assoc] at monotone
      have tail := (List.pairwise_append.mp (List.pairwise_cons.mp monotone).2).2.1
      have last : now ∈ after.map LivenessEvent.instant ++
          [LivenessEvent.check deadlinesOnly outputWaiting none now].map LivenessEvent.instant := by
        simp [LivenessEvent.instant]
      exact (List.pairwise_cons.mp tail).1 now last
    omega
  · rcases holds.single with written | answered
    · unfold Liveness.outstanding
      rw [show liveness.unwrittenTestRequest = none from written]
      cases liveness.heartbeat.testRequestPending <;> simp
    · unfold Liveness.outstanding
      rw [show liveness.heartbeat.testRequestPending = none from answered]
      cases liveness.unwrittenTestRequest <;> simp
  · intro sends
    obtain ⟨written, answered⟩ := decided_sendTestRequest sends
    unfold Liveness.outstanding
    rw [written, answered]
    rfl
  · intro isHeartbeat testReqId at_
    have after := holds.step rfl (.received isHeartbeat testReqId at_)
    have cleared : (liveness.step (.received isHeartbeat testReqId at_)).heartbeat.testRequestPending = none := by
      simp only [Liveness.step, HeartbeatManager.onMessageReceived]
      split
      · assumption
      · rfl
    refine ⟨cleared, ?_⟩
    have together := after.together
    rw [cleared] at together
    exact Option.isNone_iff_eq_none.mp (Option.isSome_eq_false_iff.mp together.symm)
  · intro zero
    exact decideLiveness_zero (holds.interval.trans zero) _

end Runs

/-- A TestRequest is due after 36 seconds of silence, is written at once, and
nothing answers it for 30 seconds. -/
def unansweredTestRequest : List LivenessEvent :=
  [.check false false (some [65]) 36000000000, .testRequestWritten 36000000000]

theorem liveness_sound_timeout :
    (run Liveness.step (.new 30000000000 0) unansweredTestRequest).decided false false 66000000000 =
      .closeHeartbeatTimeout ∧
    ∃ before sentAt after testReqId,
      unansweredTestRequest = before ++ .testRequestWritten sentAt :: after ∧
        (run Liveness.step (.new 30000000000 0) before).unwrittenTestRequest = some testReqId ∧
          (∀ event ∈ after, event.isReceived = false) ∧ sentAt + 30000000000 ≤ 66000000000 := by
  have closes : (run Liveness.step (.new 30000000000 0) unansweredTestRequest).decided false false
      66000000000 = .closeHeartbeatTimeout := by decide
  exact ⟨closes, ((liveness_sound 30000000000 0 unansweredTestRequest 66000000000 false false
    (by unfold Monotone; decide)).1 closes).2⟩

end IronFix.Session
