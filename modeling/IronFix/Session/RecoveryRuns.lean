import IronFix.Session.Recovery

/-!
# What recovery keeps

In every state a driver reaches, an armed recovery asks from the expectation,
its mark lies at or above it, and the requests charged stay within the limit.
-/

namespace IronFix.Session

open Lib.Decimal Lib.Runs

theorem ResendConfig.limit_pos (config : ResendConfig) : 1 ≤ config.resendAttemptLimit := by
  unfold resendAttemptLimit
  split <;> omega

theorem ResendConfig.limit_le (config : ResendConfig) : config.resendAttemptLimit ≤ u32Max := by
  have bounded := config.requestsU32
  unfold resendAttemptLimit
  split
  · decide
  · exact bounded

namespace ResendState

variable {state : ResendState}

@[simp] theorem raiseHighWater_highWater (highWater : Nat) (state : ResendState) :
    (state.raiseHighWater highWater).highWater = max state.highWater highWater := by
  unfold raiseHighWater
  split
  · show highWater = _
    omega
  · omega

/-- Only the mark is raised. -/
theorem raiseHighWater_eq (highWater : Nat) (state : ResendState) :
    state.raiseHighWater highWater = { state with highWater := max state.highWater highWater } := by
  unfold raiseHighWater
  split
  · rw [max_eq_right (by omega)]
  · rw [max_eq_left (by omega)]

/-- A retry within the limit is counted. -/
theorem recordRetry_attempts (now : Nat) (room : state.attempts < u32Max) :
    (state.recordRetry now).attempts = state.attempts + 1 := by
  have fits : checkedAdd u32Max state.attempts 1 = some (state.attempts + 1) :=
    checkedAdd_eq_some.mpr ⟨rfl, room⟩
  unfold recordRetry
  rw [fits]
  rfl

end ResendState

namespace Recovering

variable {config : ResendConfig} {session : Recovering} {state : ResendState}

/-- What holds of an armed recovery: it asks from the expectation, which has not
passed its mark, and counts the requests charged. -/
structure Armed (config : ResendConfig) (session : Recovering) (state : ResendState) : Prop where
  expected : state.expected = session.next
  reaches : session.next ≤ state.highWater
  limit : state.limit = config.resendAttemptLimit
  timeout : state.timeout = config.resendTimeout
  counted : state.attempts = session.opening + session.retried
  opening : session.opening ≤ 1
  within : state.attempts ≤ state.limit
  /-- A charge is owed only before any is made. -/
  owed : state.chargeOnWrite = true → state.attempts = 0

def Kept (config : ResendConfig) (session : Recovering) : Prop :=
  ∀ state, session.core.resend = some state → session.Armed config state

theorem kept_opened (next : Nat) : (opened next).Kept config := nofun

/-- A recovery just armed from the expectation. -/
theorem armed_first {highWater now : Nat} {core : RecoveryCore} {asked : List Nat} {next : Nat}
    (reaches : next ≤ highWater) :
    Armed config ⟨core, next, asked, 1, 0⟩ (.first next highWater config now) :=
  ⟨rfl, reaches, rfl, rfl, rfl, le_refl _, config.limit_pos, nofun⟩

theorem armed_implied {highWater now : Nat} {core : RecoveryCore} {asked : List Nat} {next : Nat}
    (charge : Bool) (reaches : next ≤ highWater) :
    Armed config ⟨core, next, asked, 0, 0⟩
      { ResendState.implied next highWater config now with chargeOnWrite := charge } :=
  ⟨rfl, reaches, rfl, rfl, rfl, Nat.zero_le _, Nat.zero_le _, fun _ => rfl⟩

/-- Armed from the expectation, a further gap raises the mark and asks for nothing. -/
theorem requestResend_armed {received : Nat} {replaying : Bool} {sent : Sent} {now : Nat}
    (armed : session.Armed config state) (here : session.core.resend = some state) :
    session.requestResend config received replaying sent now =
      { session with core :=
        { session.core with resend := some (state.raiseHighWater received) } } := by
  have same : (state.raiseHighWater received).expected = session.next := by
    rw [ResendState.raiseHighWater_eq]
    exact armed.expected
  unfold requestResend RecoveryCore.decideGapRequest decideGapRequest
  rw [here]
  dsimp only
  rw [if_pos same]

theorem Armed.raised {received : Nat} {core : RecoveryCore} (armed : session.Armed config state) :
    Armed config { session with core } (state.raiseHighWater received) := by
  rw [ResendState.raiseHighWater_eq]
  exact { armed with reaches := armed.reaches.trans (le_max_left _ _) }

theorem Kept.requestResend {received : Nat} (kept : session.Kept config) (replaying : Bool)
    (sent : Sent) (now : Nat) (gap : session.next < received) :
    (session.requestResend config received replaying sent now).Kept config := by
  intro after now_armed
  cases here : session.core.resend with
  | some state =>
      rw [requestResend_armed (kept state here) here] at now_armed ⊢
      cases now_armed
      exact (kept state here).raised
  | none =>
      unfold Recovering.requestResend RecoveryCore.decideGapRequest decideGapRequest at now_armed ⊢
      rw [here] at now_armed ⊢
      dsimp only at now_armed ⊢
      cases replaying with
      | true =>
          cases now_armed
          exact armed_implied true gap.le
      | false =>
          cases sent with
          | dropped => cases now_armed
          | yes =>
              cases now_armed
              exact armed_first gap.le
          | deferred =>
              cases now_armed
              exact armed_first gap.le

theorem spannedHighWater_ge (expected newSeq : Nat) : expected ≤ spannedHighWater expected newSeq :=
  le_max_right _ _

/-- A request not charged restarts the clock of an armed recovery. -/
theorem Armed.rearmed {highWater now : Nat} {core : RecoveryCore} {asked : List Nat}
    (armed : session.Armed config state) :
    Armed config { session with core, asked } (state.rearmUncharged session.next highWater now) := by
  unfold ResendState.rearmUncharged
  rw [ResendState.raiseHighWater_eq]
  exact ⟨rfl, armed.reaches.trans (le_max_left _ _), armed.limit, armed.timeout, armed.counted,
    armed.opening, armed.within, armed.owed⟩

theorem Kept.armUncharged {highWater now : Nat} (kept : session.Kept config)
    (reaches : session.next ≤ highWater) : (session.armUncharged config highWater now).Kept config := by
  intro after now_armed
  unfold Recovering.armUncharged RecoveryCore.armUncharged at now_armed ⊢
  cases here : session.core.resend with
  | some state =>
      rw [here] at now_armed
      cases now_armed
      exact (kept state here).rearmed
  | none =>
      rw [here] at now_armed
      cases now_armed
      exact armed_implied false reaches

/-- What holds of a recovery says nothing of the Logon, the held request or what was asked. -/
theorem Kept.frame {after : Recovering} (kept : session.Kept config)
    (resend : after.core.resend = session.core.resend) (next : after.next = session.next)
    (opening : after.opening = session.opening) (retried : after.retried = session.retried) :
    after.Kept config := by
  intro state armed
  have before := kept state (resend.symm.trans armed)
  exact ⟨before.expected.trans next.symm, next ▸ before.reaches, before.limit, before.timeout,
    by rw [opening, retried]; exact before.counted, opening ▸ before.opening, before.within,
    before.owed⟩

theorem Kept.rerequestSpannedGap {newSeq : Nat} (kept : session.Kept config) (replaying : Bool)
    (sent : Sent) (now : Nat) :
    (session.rerequestSpannedGap config newSeq replaying sent now).Kept config := by
  have armed : (session.armUncharged config (spannedHighWater session.next newSeq) now).Kept config :=
    kept.armUncharged (spannedHighWater_ge _ _)
  cases replaying with
  | true => exact armed.frame rfl rfl rfl rfl
  | false =>
      cases sent with
      | dropped => exact kept
      | yes => exact armed.frame rfl rfl rfl rfl
      | deferred => exact armed.frame rfl rfl rfl rfl

/-- Progress short of the mark starts the count again. -/
theorem Kept.noteProgress (kept : session.Kept config) (nextTarget now : Nat) :
    (session.noteProgress nextTarget now).Kept config := by
  intro after now_armed
  unfold Recovering.noteProgress RecoveryCore.noteInboundProgress noteInboundProgress
    at now_armed ⊢
  cases here : session.core.resend with
  | none =>
      rw [here] at now_armed
      cases now_armed
  | some state =>
      rw [here] at now_armed
      dsimp only at now_armed
      split at now_armed
      · cases now_armed
      · rename_i short
        cases now_armed
        have armed := kept state here
        refine ⟨rfl, not_lt.mp short, armed.limit, armed.timeout, rfl, min_le_right _ _,
          (min_le_left _ _).trans armed.within, fun owed => ?_⟩
        show min state.attempts 1 = 0
        rw [armed.owed owed]
        rfl

/-- A written request that stalls is retried below the limit and abandoned at it. -/
theorem Armed.stall (armed : session.Armed config state) (here : session.core.resend = some state)
    (now : Nat) : session.core.decideStall now false =
      if state.isStalled now then
        if state.attempts < config.resendAttemptLimit then .retry session.next
        else .abandon session.next config.resendAttemptLimit
      else .wait := by
  have within := armed.within
  have limit := armed.limit
  unfold RecoveryCore.decideStall decideStall ResendState.canRetry
  rw [here]
  dsimp only
  rw [armed.expected, limit, Bool.not_false, Bool.true_and]
  by_cases stalled : state.isStalled now = true
  · rw [if_pos stalled, if_pos stalled]
    by_cases room : state.attempts < config.resendAttemptLimit
    · rw [if_pos (decide_eq_true room), if_pos room]
    · have spent : state.attempts = config.resendAttemptLimit := by omega
      rw [if_neg (by simpa using room), if_neg room, spent]
  · rw [if_neg stalled, if_neg stalled]

theorem decideStall_unwritten (core : RecoveryCore) (now : Nat) : core.decideStall now true = .wait := by
  unfold RecoveryCore.decideStall decideStall
  split <;> rfl

/-- A retry that goes out is one more request charged. -/
theorem Armed.retried {now : Nat} {core : RecoveryCore} {asked : List Nat}
    (armed : session.Armed config state) (room : state.attempts < config.resendAttemptLimit) :
    Armed config { session with core, asked, retried := session.retried + 1 }
      (state.recordRetry now) := by
  have counted := armed.counted
  have same := state.recordRetry_attempts now (room.trans_le config.limit_le)
  refine ⟨armed.expected, armed.reaches, armed.limit, armed.timeout, ?_, armed.opening, ?_, nofun⟩
  · show (state.recordRetry now).attempts = session.opening + (session.retried + 1)
    omega
  · show (state.recordRetry now).attempts ≤ state.limit
    rw [same, armed.limit]
    exact room

theorem Kept.onTick (kept : session.Kept config) (requestUnwritten : Bool) (sent : Sent) (now : Nat) :
    (session.onTick requestUnwritten sent now).Kept config := by
  unfold Recovering.onTick
  cases requestUnwritten with
  | true =>
      rw [decideStall_unwritten]
      exact kept
  | false =>
      cases here : session.core.resend with
      | none =>
          have waits : session.core.decideStall now false = .wait := by
            unfold RecoveryCore.decideStall decideStall
            rw [here]
          rw [waits]
          exact kept
      | some state =>
          have armed := kept state here
          have charged (asked : List Nat) (room : state.attempts < config.resendAttemptLimit) :
              Kept config { session with
                core := (session.core.recordRetry now).releaseHeldLogonToRequest
                asked
                retried := session.retried + 1 } := by
            intro after now_armed
            obtain ⟨before, same, rfl⟩ := Option.map_eq_some_iff.mp now_armed
            rw [here] at same
            cases same
            exact armed.retried room
          rw [armed.stall here]
          by_cases stalled : state.isStalled now = true
          · rw [if_pos stalled]
            by_cases room : state.attempts < config.resendAttemptLimit
            · rw [if_pos room]
              cases sent with
              | dropped => exact kept
              | yes => exact charged _ room
              | deferred => exact charged _ room
            · rw [if_neg room]
              exact kept
          · rw [if_neg stalled]
            exact kept

/-- A charge that is owed is the first. -/
theorem Armed.pays {now : Nat} {core : RecoveryCore} {asked : List Nat}
    (armed : session.Armed config state) (owed : state.chargeOnWrite = true) :
    Armed config { session with core, asked, opening := session.opening + 1 }
      (state.takeCharge.2.recordRetry now) := by
  have none_yet := armed.owed owed
  have counted := armed.counted
  have positive := config.limit_pos
  have first : state.takeCharge.2.attempts = state.attempts := rfl
  have room : state.takeCharge.2.attempts < u32Max := by
    rw [first, none_yet]
    decide
  have same := ResendState.recordRetry_attempts now room
  refine ⟨armed.expected, armed.reaches, armed.limit, armed.timeout, ?_, ?_, ?_, nofun⟩
  · show (state.takeCharge.2.recordRetry now).attempts = session.opening + 1 + session.retried
    omega
  · show session.opening + 1 ≤ 1
    omega
  · show (state.takeCharge.2.recordRetry now).attempts ≤ state.limit
    rw [armed.limit]
    omega

theorem Kept.writeHeld (kept : session.Kept config) (sent : Sent) (now : Nat) :
    (session.writeHeld sent now).Kept config := by
  obtain ⟨⟨resend, heldLogon, requestHeld⟩, next, asked, opening, retried⟩ := session
  cases requestHeld with
  | false => exact kept
  | true =>
      cases resend with
      | none => exact nofun
      | some state =>
          have armed := kept state rfl
          have settled (clock : Nat) (core : RecoveryCore) (asked : List Nat) :
              Armed config ⟨core, next, asked, opening, retried⟩
                { state with chargeOnWrite := false, requestedAt := clock } :=
            ⟨armed.expected, armed.reaches, armed.limit, armed.timeout, armed.counted, armed.opening,
              armed.within, nofun⟩
          intro after now_armed
          cases sent with
          | dropped =>
              cases now_armed
              exact settled _ _ _
          | deferred =>
              cases now_armed
              exact settled _ _ _
          | yes =>
              obtain ⟨expected, highWater, requestedAt, attempts, limit, timeout, charge⟩ := state
              cases charge with
              | true =>
                  cases now_armed
                  exact armed.pays rfl
              | false =>
                  cases now_armed
                  exact settled _ _ _

/-- What every event of the driver keeps. -/
theorem Kept.step (kept : session.Kept config) (event : RecoveryEvent)
    (legal : session.Legal event) : (session.step config event).Kept config := by
  cases event with
  | gap received replaying sent now => exact kept.requestResend replaying sent now legal
  | spanned newSeq replaying sent now => exact kept.rerequestSpannedGap replaying sent now
  | progress nextTarget now => exact kept.noteProgress nextTarget now
  | tick requestUnwritten sent now => exact kept.onTick requestUnwritten sent now
  | written now =>
      intro after now_armed
      obtain ⟨state, here, rfl⟩ := Option.map_eq_some_iff.mp now_armed
      exact { kept state here with }
  | writeHeld sent now => exact kept.writeHeld sent now
  | holdLogon logonSeq now =>
      intro after now_armed
      cases now_armed
      exact armed_implied false legal.2.le
  | logout => exact nofun

/-! ## The mark and the end of a recovery -/

theorem rearmUncharged_highWater (expected highWater now : Nat) (state : ResendState) :
    state.highWater ≤ (state.rearmUncharged expected highWater now).highWater := by
  unfold ResendState.rearmUncharged
  rw [ResendState.raiseHighWater_eq]
  exact le_max_left _ _

/-- A recovery ends where the expectation passes its mark, or with the session's
own Logout. -/
def Ends (state : ResendState) : RecoveryEvent → Prop
  | .progress nextTarget _ => state.highWater < nextTarget
  | .logout => True
  | _ => False

theorem onTick_resend (armed : session.Armed config state)
    (here : session.core.resend = some state) (requestUnwritten : Bool) (sent : Sent) (now : Nat) :
    ∃ after, (session.onTick requestUnwritten sent now).core.resend = some after ∧
      after.highWater = state.highWater := by
  unfold Recovering.onTick
  cases requestUnwritten with
  | true =>
      rw [decideStall_unwritten]
      exact ⟨state, here, rfl⟩
  | false =>
      have charged : ((session.core.recordRetry now).releaseHeldLogonToRequest).resend =
          some (state.recordRetry now) := by
        show session.core.resend.map _ = _
        rw [here]
        rfl
      rw [armed.stall here]
      by_cases stalled : state.isStalled now = true
      · rw [if_pos stalled]
        by_cases room : state.attempts < config.resendAttemptLimit
        · rw [if_pos room]
          cases sent with
          | dropped => exact ⟨state, here, rfl⟩
          | yes => exact ⟨_, charged, rfl⟩
          | deferred => exact ⟨_, charged, rfl⟩
        · rw [if_neg room]
          exact ⟨state, here, rfl⟩
      · rw [if_neg stalled]
        exact ⟨state, here, rfl⟩

theorem writeHeld_resend (here : session.core.resend = some state) (sent : Sent) (now : Nat) :
    ∃ after, (session.writeHeld sent now).core.resend = some after ∧
      after.highWater = state.highWater := by
  obtain ⟨⟨resend, heldLogon, requestHeld⟩, next, asked, opening, retried⟩ := session
  cases here
  cases requestHeld with
  | false => exact ⟨state, rfl, rfl⟩
  | true =>
      cases sent with
      | dropped => exact ⟨_, rfl, rfl⟩
      | deferred => exact ⟨_, rfl, rfl⟩
      | yes =>
          obtain ⟨expected, highWater, requestedAt, attempts, limit, timeout, charge⟩ := state
          cases charge with
          | true => exact ⟨_, rfl, rfl⟩
          | false => exact ⟨_, rfl, rfl⟩

/-- An armed recovery stays armed and its mark does not fall, unless it ends. -/
theorem Armed.onward (armed : session.Armed config state)
    (here : session.core.resend = some state) (event : RecoveryEvent) (legal : session.Legal event) :
    (Ends state event ∧ (session.step config event).core.resend = none) ∨
      (¬ Ends state event ∧ ∃ after, (session.step config event).core.resend = some after ∧
        state.highWater ≤ after.highWater) := by
  cases event with
  | gap received replaying sent now =>
      right
      refine ⟨not_false, state.raiseHighWater received, ?_, ?_⟩
      · show (session.requestResend config received replaying sent now).core.resend = _
        rw [requestResend_armed armed here]
      · rw [ResendState.raiseHighWater_highWater]
        exact le_max_left _ _
  | spanned newSeq replaying sent now =>
      right
      refine ⟨not_false, ?_⟩
      have rearmed : (session.armUncharged config (spannedHighWater session.next newSeq)
          now).core.resend = some (state.rearmUncharged session.next
            (spannedHighWater session.next newSeq) now) := by
        unfold Recovering.armUncharged RecoveryCore.armUncharged
        rw [here]
      have higher := rearmUncharged_highWater session.next (spannedHighWater session.next newSeq) now
        state
      cases replaying with
      | true => exact ⟨_, rearmed, higher⟩
      | false =>
          cases sent with
          | dropped => exact ⟨state, here, le_refl _⟩
          | yes => exact ⟨_, rearmed, higher⟩
          | deferred => exact ⟨_, rearmed, higher⟩
  | progress nextTarget now =>
      have noted : (session.step config (.progress nextTarget now)).core.resend =
          if nextTarget > state.highWater then none else some (state.recordProgress nextTarget now) := by
        show (Session.noteInboundProgress session.core.resend nextTarget now).2 = _
        rw [here]
        unfold noteInboundProgress
        dsimp only
        split <;> rfl
      rw [noted]
      by_cases passed : nextTarget > state.highWater
      · exact .inl ⟨passed, if_pos passed⟩
      · exact .inr ⟨passed, _, if_neg passed, le_refl _⟩
  | tick requestUnwritten sent now =>
      obtain ⟨after, later, same⟩ := onTick_resend armed here requestUnwritten sent now
      exact .inr ⟨not_false, after, later, same.ge⟩
  | written now =>
      refine .inr ⟨not_false, state.restartClock now, ?_, le_refl _⟩
      show session.core.resend.map _ = _
      rw [here]
      rfl
  | writeHeld sent now =>
      obtain ⟨after, later, same⟩ := writeHeld_resend here sent now
      exact .inr ⟨not_false, after, later, same.ge⟩
  | holdLogon logonSeq now =>
      have unarmed : session.core.resend = none := legal.1
      rw [here] at unarmed
      cases unarmed
  | logout => exact .inl ⟨trivial, rfl⟩

/-! ## Stalls -/

/-- What the stall checks of a silent counterparty answer, each retry going out. -/
def stallActions : Recovering → List Nat → List StallAction
  | _, [] => []
  | session, now :: later =>
      session.core.decideStall now false :: stallActions (session.onTick false .yes now) later

/-- Each check comes a timeout after the one before. -/
def Apart (timeout : Nat) : Nat → List Nat → Prop
  | _, [] => True
  | since, now :: later => since + timeout ≤ now ∧ Apart timeout now later

/-- The attempts left are retried, then the recovery is abandoned. -/
theorem Armed.exhausts (armed : session.Armed config state)
    (here : session.core.resend = some state) {times : List Nat}
    (apart : Apart config.resendTimeout state.requestedAt times)
    (enough : times.length = config.resendAttemptLimit - state.attempts + 1) :
    stallActions session times =
      List.replicate (config.resendAttemptLimit - state.attempts) (.retry session.next) ++
        [.abandon session.next config.resendAttemptLimit] := by
  have within := armed.within
  have limit := armed.limit
  induction times generalizing session state with
  | nil => cases enough
  | cons now later ih =>
      have stalled : state.isStalled now = true := by
        have reached := apart.1
        refine decide_eq_true ?_
        rw [armed.timeout]
        omega
      have checked := armed.stall here now
      rw [if_pos stalled] at checked
      unfold stallActions
      by_cases room : state.attempts < config.resendAttemptLimit
      · rw [if_pos room] at checked
        have ticked : session.onTick false .yes now =
            { session with
              core := (session.core.recordRetry now).releaseHeldLogonToRequest
              asked := session.asked ++ [session.next]
              retried := session.retried + 1 } := by
          unfold Recovering.onTick
          rw [checked]
        have next : (session.onTick false .yes now).Armed config (state.recordRetry now) := by
          rw [ticked]
          exact armed.retried room
        have after : (session.onTick false .yes now).core.resend = some (state.recordRetry now) := by
          rw [ticked]
          show session.core.resend.map _ = _
          rw [here]
          rfl
        have counted := state.recordRetry_attempts now (room.trans_le config.limit_le)
        have rest := ih next after apart.2 (by rw [List.length_cons] at enough; omega) next.within
          next.limit
        have same : (session.onTick false .yes now).next = session.next := by rw [ticked]
        obtain ⟨left, split⟩ : ∃ left, config.resendAttemptLimit - state.attempts = left + 1 :=
          ⟨config.resendAttemptLimit - state.attempts - 1, by omega⟩
        rw [checked, rest, same, counted, split,
          show config.resendAttemptLimit - (state.attempts + 1) = left by omega]
        rfl
      · rw [if_neg room] at checked
        have spent : config.resendAttemptLimit - state.attempts = 0 := by omega
        rw [List.length_cons, spent] at enough
        have nothing : later = [] := List.length_eq_zero_iff.mp (by omega)
        rw [checked, spent, nothing]
        rfl

/-! ## Runs -/

/-- What holds of a recovery a driver reaches. -/
structure Law (config : ResendConfig) (session : Recovering) (state : ResendState) : Prop where
  /-- It is open while the expectation has not passed its mark. -/
  opens : session.next ≤ state.highWater
  /-- It ends where the expectation passes the mark, or with the Logout; until
  then the mark does not fall. -/
  onward : ∀ event, session.Legal event →
    (Ends state event ∧ (session.step config event).core.resend = none) ∨
      (¬ Ends state event ∧ ∃ after, (session.step config event).core.resend = some after ∧
        state.highWater ≤ after.highWater)
  /-- A further gap asks for nothing and raises the mark. -/
  quiet : ∀ received replaying sent now, session.step config (.gap received replaying sent now) =
    { session with core := { session.core with resend := some (state.raiseHighWater received) } }
  within : state.attempts ≤ config.resendAttemptLimit
  /-- The requests charged are the recovery's own, at most one, and its retries. -/
  charged : state.attempts = session.opening + session.retried ∧ session.opening ≤ 1
  /-- A stalled recovery is abandoned once the requests charged reach the limit. -/
  abandons : ∀ now, session.core.decideStall now false =
      .abandon session.next config.resendAttemptLimit ↔
    state.isStalled now = true ∧ session.opening + session.retried = config.resendAttemptLimit
  exhausts : ∀ times, Apart config.resendTimeout state.requestedAt times →
    times.length = config.resendAttemptLimit - state.attempts + 1 →
    stallActions session times =
      List.replicate (config.resendAttemptLimit - state.attempts) (.retry session.next) ++
        [.abandon session.next config.resendAttemptLimit]

theorem Armed.law (armed : session.Armed config state) (here : session.core.resend = some state) :
    Law config session state := by
  have within := armed.within
  rw [armed.limit] at within
  refine ⟨armed.reaches, armed.onward here, ?_, within, ⟨armed.counted, armed.opening⟩, ?_, ?_⟩
  · intro received replaying sent now
    exact requestResend_armed armed here
  · intro now
    rw [armed.stall here, ← armed.counted]
    by_cases stalled : state.isStalled now = true
    · rw [if_pos stalled]
      by_cases room : state.attempts < config.resendAttemptLimit
      · rw [if_pos room]
        exact ⟨nofun, fun spent => absurd spent.2 room.ne⟩
      · rw [if_neg room]
        exact ⟨fun _ => ⟨stalled, by omega⟩, fun _ => rfl⟩
    · rw [if_neg stalled]
      exact ⟨nofun, fun reached => absurd reached.1 stalled⟩
  · exact fun times apart enough => armed.exhausts here apart enough

end Recovering

end IronFix.Session
