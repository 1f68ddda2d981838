import IronFix.Fixp.Moves
import IronFix.Fixp.Role

/-!
# Every handler consists of moves

One lemma for each handler: it runs, and hands over the application messages
its caller sees handed over.
-/

namespace IronFix.Fixp

open Lib.Decimal

/-! ## Composition -/

theorem Steps.trans {p q : BoundParts} {acts more : List Act} {turn : Turn}
    (first : Steps p acts (q, .stay)) (rest : Steps q more turn) : Steps p (acts ++ more) turn := by
  generalize reached : (q, Bound.stay) = middle at first
  induction first with
  | done =>
      cases reached
      exact rest
  | close ends => cases reached
  | move moved _ ih =>
      rw [List.append_assoc]
      exact .move moved (ih reached)

namespace Runs

variable {p q : BoundParts} {acts seen more : List Act} {turn : Turn}

theorem stay (p : BoundParts) : Runs p [] (p, .stay) := ⟨[], .done, rfl, fun _ => rfl⟩

/-- A move comes first. -/
theorem first (move : Move p acts q) (rest : Runs q seen turn) :
    Runs p (Act.seen acts ++ seen) turn := by
  obtain ⟨more, steps, handed, same⟩ := rest
  refine ⟨acts ++ more, .move move steps, ?_, fun stays => ?_⟩
  · rw [Act.handed_append, Act.handed_append, Act.handed_seen, handed]
  · rw [Act.seen_append, same stays]

/-- A move of which nothing is seen comes first. -/
theorem quiet (move : Move p acts q) (silent : Act.silent acts = true) (rest : Runs q seen turn) :
    Runs p seen turn := by
  have joined := first move rest
  rwa [Act.seen_silent silent, List.nil_append] at joined

theorem one (move : Move p acts q) : Runs p (Act.seen acts) (q, .stay) := by
  have joined := first move (stay q)
  rwa [List.append_nil] at joined

/-- The binding ends, so only what was handed over counts. -/
theorem close (ends : Close p acts q) (nothing : Act.handed seen = []) : Runs p seen (q, .unbind) :=
  ⟨acts, .close ends, by rw [Act.handed_silent ends.silent, nothing], fun stays => by cases stays⟩

/-- An event may follow, whether or not the binding has ended. -/
theorem tell (event : Event) (runs : Runs p seen turn) :
    Runs p seen (turn.1.event event, turn.2) := by
  obtain ⟨acts, steps, handed, same⟩ := runs
  refine ⟨acts ++ [.told event], ?_, ?_, fun stays => ?_⟩
  · clear handed same
    induction steps with
    | done =>
        show Steps _ ([.told event] ++ []) _
        exact .move (.event event) .done
    | close ends => exact .close (.told event ends)
    | move moved _ ih =>
        rw [List.append_assoc]
        exact .move moved ih
  · rw [Act.handed_append, handed]
    exact List.append_nil _
  · rw [Act.seen_append, same stays]
    exact List.append_nil _

theorem trans (first : Runs p seen (q, .stay)) (rest : Runs q more turn) :
    Runs p (seen ++ more) turn := by
  obtain ⟨acts, steps, handed, same⟩ := first
  obtain ⟨acts', steps', handed', same'⟩ := rest
  refine ⟨acts ++ acts', steps.trans steps', ?_, fun stays => ?_⟩
  · rw [Act.handed_append, Act.handed_append, handed, handed']
  · rw [Act.seen_append, same rfl, same' stays]

/-- Nothing more is seen. -/
theorem andThen {next : BoundParts → Turn} (first : Runs p seen turn)
    (rest : ∀ q, turn = (q, .stay) → Runs q [] (next q)) : Runs p seen (turn.andThen next) := by
  obtain ⟨q, bound⟩ := turn
  cases bound with
  | unbind => exact first
  | stay =>
      have joined := first.trans (rest q rfl)
      rwa [List.append_nil] at joined

/-- Once the binding has ended, what was seen of the context no longer counts. -/
theorem ended (runs : Runs p seen turn) (unbound : turn.2 = .unbind)
    (same : Act.handed seen = Act.handed more) : Runs p more turn := by
  obtain ⟨acts, steps, handed, -⟩ := runs
  exact ⟨acts, steps, handed.trans same, fun stays => by rw [unbound] at stays; cases stays⟩

end Runs

/-! ## Ends of a binding -/

theorem Session.releaseBindingState_id (session : Session) :
    session.releaseBindingState.id = session.id := by
  obtain ⟨missing, overflow, released⟩ := releaseBindingState_eq session
  rw [released]

namespace BoundParts

variable (p : BoundParts) (now : Nat)

theorem isEstablished_eq {state : BindState} (was : p.binding.state = state) :
    p.isEstablished = decide (state = .established) := by
  unfold isEstablished Binding.isEstablished
  rw [was]
  cases state <;> rfl

variable {seen : List Act}

theorem closeUnbound_runs (down : p.isEstablished = false) (nothing : Act.handed seen = []) :
    Runs p seen p.closeUnbound := by
  have closes := Close.quiet (p := { p with session := p.session.releaseBindingState }) down
  have ends : Runs _ [] _ := .close closes rfl
  exact (Runs.first (.inflow .release) ends).ended rfl nothing.symm

theorem fail_runs (code : TerminationCode) (reason : String) (nothing : Act.handed seen = []) :
    Runs p seen (p.fail code reason) := by
  unfold fail
  cases was : p.binding.state with
  | established =>
      have up : p.isEstablished = true := p.isEstablished_eq was
      have closes := Close.failed (p := { p with session := p.session.releaseBindingState }) code
        reason up
      simp only [Session.releaseBindingState_id] at closes
      have ends : Runs _ [] _ := .close closes rfl
      exact (Runs.first (.inflow .release) ends).ended rfl nothing.symm
  | terminating sentAt code reason =>
      exact p.closeUnbound_runs (p.isEstablished_eq was) nothing
  | closing deadline =>
      exact p.closeUnbound_runs (p.isEstablished_eq was) nothing

theorem violation_runs (reason : String) (nothing : Act.handed seen = []) :
    Runs p seen (p.violation reason) :=
  .quiet (.event _) rfl (fail_runs _ _ reason nothing)

theorem fail_unbinds (code : TerminationCode) (reason : String) :
    (p.fail code reason).2 = .unbind := by
  unfold fail
  split
  · rfl
  · rfl
  · rfl

theorem fail_not_stay {code : TerminationCode} {reason : String}
    (stays : p.fail code reason = (q, .stay)) : False := by
  have bound := p.fail_unbinds code reason
  rw [stays] at bound
  cases bound

/-! ## Recovery requests -/

theorem maybeFinishReceiving_runs : Runs p [] (p.maybeFinishReceiving, .stay) := by
  unfold maybeFinishReceiving
  split
  · exact .stay p
  · split
    · exact .stay p
    · rename_i finished awaited ready
      have up : p.isEstablished = true := by
        cases established : p.isEstablished with
        | true => rfl
        | false => simp [established] at ready
      have sends := Move.aside up (.finishedReceiving ⟨p.session.id⟩)
      exact .quiet sends rfl (.one (p := (p.send (.finishedReceiving ⟨p.session.id⟩)).leaveSequence)
        (.inflow (.answered awaited)))

theorem requestMissing_runs : Runs p [] (p.requestMissing now) := by
  unfold requestMissing
  split
  · exact .stay p
  · rename_i ready
    simp only [Bool.or_eq_true, Bool.not_eq_true', bne_iff_ne, ne_eq, not_or, Bool.not_eq_false,
      not_not, Option.isSome_iff_ne_none] at ready
    obtain ⟨⟨up, flow⟩, unasked⟩ := ready
    split
    · exact .stay p
    · rename_i front first
      split
      · exact .stay p
      · rename_i nonempty
        split
        · exact p.fail_runs _ _ rfl
        · rename_i timestamp core stamped
          exact .one (.request up flow unasked first (by omega) stamped _ _ rfl rfl rfl)

theorem resumeRecovery_runs : Runs p [] (p.resumeRecovery now) := by
  unfold resumeRecovery
  split
  · exact .quiet (.event _) rfl (maybeFinishReceiving_runs _)
  · exact p.requestMissing_runs now

/-! ## Numbers sent -/

/-- A number comes behind a Sequence, or in sequence already. -/
theorem allocateOutbound_spec {seq : Nat} (up : p.isEstablished = true)
    (sequenced : p.session.localFlow.isSequenced = true)
    (allocated : p.allocateOutbound = some (seq, q)) :
    ∃ ready, Runs p [] (ready, .stay) ∧ ready.isEstablished = true ∧
      ready.session = p.session ∧ ready.binding.inSequence = true ∧
      seq = p.session.outboundNext ∧ p.session.outboundNext + 1 < SEQ_NULL ∧
      q = ready.onSession fun session => { session with outboundNext := session.outboundNext + 1 } := by
  unfold allocateOutbound at allocated
  dsimp only at allocated
  split at allocated
  · cases allocated
  · rename_i following fits
    obtain ⟨rfl, rfl⟩ := Prod.mk.inj (Option.some.inj allocated)
    obtain ⟨added, notNull⟩ := Option.filter_eq_some_iff.mp fits
    obtain ⟨rfl, small⟩ := checkedAdd_eq_some.mp added
    have below : p.session.outboundNext + 1 < SEQ_NULL := by
      have different : p.session.outboundNext + 1 ≠ SEQ_NULL := of_decide_eq_true notNull
      unfold SEQ_NULL at different ⊢
      omega
    by_cases numbering : p.binding.inSequence = true
    · refine ⟨p, .stay p, up, rfl, numbering, rfl, below, ?_⟩
      rw [if_pos numbering]
      rfl
    · refine ⟨_, .one (.sequence up sequenced), up, rfl, rfl, rfl, below, ?_⟩
      rw [if_neg numbering]
      rfl

theorem sendNotApplied_runs (fromSeq count : Nat) (idempotent : p.session.remoteFlow = .idempotent) :
    Runs p [] (p.sendNotApplied fromSeq count now) := by
  unfold sendNotApplied
  split
  · exact .stay p
  · rename_i established
    have up : p.isEstablished = true := by simpa using established
    have numbered (sequenced : p.session.localFlow.isSequenced = true) {seq : Nat} {q : BoundParts}
        (allocated : p.allocateOutbound = some (seq, q)) :
        Runs p [] ((q.sendApplication (some seq)
          (.notApplied ⟨UInt64.ofNat fromSeq, UInt32.ofNat count⟩)).keptAlive now, .stay) := by
      obtain ⟨ready, announced, upReady, same, numbering, rfl, fits, rfl⟩ :=
        p.allocateOutbound_spec up sequenced allocated
      have reports := Move.report (p := ready) ⟨UInt64.ofNat fromSeq, UInt32.ofNat count⟩ upReady
        (same ▸ idempotent) (same ▸ sequenced) numbering (same ▸ fits)
      rw [same] at reports
      exact announced.trans
        (.quiet reports rfl (.one (.tick now ready.binding.lastReceived)))
    cases flow : p.session.localFlow with
    | none => exact .stay p
    | unsequenced =>
        exact .quiet (.reportUnnumbered _ up idempotent flow) rfl
          (.one (.tick now p.binding.lastReceived))
    | recoverable =>
        dsimp only
        split
        · exact numbered (by rw [flow]; rfl) ‹_›
        · exact p.fail_runs _ _ rfl
    | idempotent =>
        dsimp only
        split
        · exact numbered (by rw [flow]; rfl) ‹_›
        · exact p.fail_runs _ _ rfl

/-! ## Numbers received -/

/-- What is seen of the next real-time number being `next`. -/
abbrev Act.announced (next : Nat) : List Act := [.switched .left, .switched (.context next)]

theorem openGap_runs {expected next : Nat} (flow : p.session.remoteFlow = .recoverable)
    (fixed : p.session.startPending = false) (was : p.session.inboundNext = some expected)
    (ahead : expected < next) (fits : next ≤ u64Max) :
    Runs p [.switched (.context next)] (p.openGap expected next now) := by
  unfold openGap
  split
  · rename_i recorded admitted
    exact .first (.inflow (.record flow fixed was ahead fits admitted)) (requestMissing_runs _ now)
  · rename_i refused
    cases kept : p.session.holdRefusedGap p.core.config expected next with
    | some held =>
        have violates := violation_runs
          (({ p with session := held }).setInboundNext next) "too many unrecovered sequence gaps"
          (Act.handed_nil)
        exact .first (.inflow (.hold flow fixed was ahead fits refused kept)) violates
    | none => exact p.violation_runs _ rfl

theorem onGap_runs {expected next : Nat} (count : Nat)
    (sequenced : p.session.remoteFlow.isSequenced = true) (fixed : p.session.startPending = false)
    (was : p.session.inboundNext = some expected) (ahead : expected < next) (fits : next ≤ u64Max) :
    Runs p [.switched (.context next)] (p.onGap expected next count now) := by
  unfold onGap
  refine .quiet (.event (.sequenceGap expected count)) rfl ?_
  cases flow : p.session.remoteFlow with
  | recoverable => exact openGap_runs _ now flow fixed was ahead fits
  | idempotent =>
      have reports := sendNotApplied_runs
        ((p.event (.sequenceGap expected count)).setInboundNext next) now expected count flow
      have violates := violation_runs ((p.event (.sequenceGap expected count)).setInboundNext next)
        "sequence gap too large for a NotApplied" Act.handed_nil
      dsimp only
      split
      · exact .first (p := p.event (.sequenceGap expected count))
          (.inflow (.skip flow fixed was ahead fits)) reports
      · exact .first (p := p.event (.sequenceGap expected count))
          (.inflow (.skip flow fixed was ahead fits)) violates
  | unsequenced => simp [flow, FlowType.isSequenced] at sequenced
  | none => simp [flow, FlowType.isSequenced] at sequenced

theorem meetNextSeq_runs {next : Nat} (sequenced : p.session.remoteFlow.isSequenced = true)
    (positive : next ≠ 0) (fits : next ≤ u64Max) :
    Runs p [.switched (.context next)] (p.meetNextSeq next now) := by
  unfold meetNextSeq
  split
  · rename_i pending
    exact .one (.inflow (.start sequenced positive fits (.inl pending)))
  · rename_i settled
    have fixed : p.session.startPending = false := by simpa using settled
    split
    · rename_i unknown
      have starts := Move.inflow (p := p)
        (Inflow.start sequenced positive fits (.inr unknown))
      have same : { p.session with startPending := false, inboundNext := some next } =
          { p.session with inboundNext := some next } := by rw [← fixed]
      rw [same] at starts
      exact .one starts
    · rename_i expected was
      split
      · exact p.violation_runs _ rfl
      · split
        · rename_i met
          subst met
          exact .one (p := p) (.inflow (.meets fixed was))
        · split
          · exact p.violation_runs _ rfl
          · exact p.onGap_runs now _ sequenced fixed was (by omega) fits

theorem onNextSeq_runs {next : Nat} (fits : next ≤ u64Max) :
    Runs p (Act.announced next) (p.onNextSeq next now) := by
  unfold onNextSeq
  split
  · exact p.violation_runs _ rfl
  · rename_i numbered
    have sequenced : p.session.remoteFlow.isSequenced = true := by simpa using numbered
    split
    · exact p.violation_runs _ rfl
    · rename_i positive
      split
      · exact p.violation_runs _ rfl
      · have meets := meetNextSeq_runs (p.onSession (Session.leaveReplay now)) now sequenced positive
          fits
        exact .first (.inflow (.leaveReplay now)) meets

theorem toNat_le_u64Max (value : UInt64) : value.toNat ≤ u64Max :=
  Nat.le_pred_of_lt value.toNat_lt

/-- What is seen of the number announced with an establishment. -/
def announcedWith (next : Option UInt64) : List Act :=
  match p.session.remoteFlow.isSequenced, next with
  | true, some next => Act.announced next.toNat
  | _, _ => []

theorem onEstablished_runs (next : Option UInt64) :
    Runs p (p.announcedWith next) (p.onEstablished next now) := by
  unfold onEstablished
  have numbered : Runs p (p.announcedWith next) (match p.session.remoteFlow.isSequenced, next with
      | true, some next => p.onNextSeq next.toNat now
      | _, _ => (p, .stay)) := by
    unfold announcedWith
    split
    · exact p.onNextSeq_runs now (toNat_le_u64Max _)
    · exact .stay p
  exact numbered.andThen fun q _ => (q.requestMissing_runs now).andThen fun q _ =>
    q.maybeFinishReceiving_runs

/-! ## Application messages -/

theorem completeOutstanding_runs
    (full : ∀ outstanding, p.session.outstanding = some outstanding →
      outstanding.count ≤ outstanding.delivered ∨ u32Max ≤ outstanding.delivered) :
    Runs p [] (p.completeOutstanding now) := by
  unfold completeOutstanding
  dsimp only
  split
  · rename_i outstanding asked
    exact .quiet (.inflow (.complete asked (full outstanding asked))) rfl
      (resumeRecovery_runs _ now)
  · rename_i unasked
    exact .quiet (.inflow (.leftOver unasked)) rfl (resumeRecovery_runs _ now)

theorem takeReplayed_runs {replay : Replay} (batch : p.session.replay = some replay) :
    Runs p (.switched .replayed :: (p.takeReplayed replay now).1.acts)
      (p.takeReplayed replay now).2 := by
  unfold takeReplayed
  split
  · exact p.violation_runs _ rfl
  · rename_i following fits
    obtain ⟨rfl, -⟩ := checkedAdd_eq_some.mp fits
    have counts := Runs.one (p := p) (.inflow (.replayed now batch))
    have settles : Runs
        { p with session := ((p.session.advanceReplay replay (replay.next + 1) now).2.receivedInOverflow
          replay.next).2 } []
        (if (p.session.advanceReplay replay (replay.next + 1) now).1 then
          completeOutstanding now
            { p with session :=
              ((p.session.advanceReplay replay (replay.next + 1) now).2.receivedInOverflow
                replay.next).2 }
        else ({ p with session :=
          ((p.session.advanceReplay replay (replay.next + 1) now).2.receivedInOverflow
            replay.next).2 }, .stay)) := by
      split
      · rename_i complete
        exact completeOutstanding_runs _ now fun outstanding asked =>
          Session.advanceReplay_full complete asked
      · exact .stay _
    have joined := counts.trans settles
    rw [List.append_nil] at joined
    dsimp only
    split at joined
    · rename_i duplicate
      rw [if_pos duplicate]
      exact joined
    · rename_i fresh
      rw [if_neg fresh]
      exact joined

theorem takeNumbered_runs (sequenced : p.session.remoteFlow.isSequenced = true)
    (realTime : p.session.replay = none) : Runs p p.takeNumbered.1.acts p.takeNumbered.2 := by
  have violates (reason : String) : Runs p []
      ((p.onSession fun session => { session with startPending := false }).violation reason) := by
    have ends := violation_runs (p.onSession fun session => { session with startPending := false })
      reason Act.handed_nil
    exact (Runs.first (.inflow .started) ends).ended (fail_unbinds _ _ _) rfl
  unfold takeNumbered
  split
  · exact p.violation_runs _ rfl
  · dsimp only
    split
    · exact violates _
    · rename_i seq was
      split
      · exact violates _
      · rename_i following fits
        obtain ⟨rfl, small⟩ := checkedAdd_eq_some.mp fits
        exact .one (.inflow (.live sequenced realTime was small))

theorem takeLive_runs (realTime : p.session.replay = none) :
    Runs p p.takeLive.1.acts p.takeLive.2 := by
  unfold takeLive
  split
  · exact p.violation_runs _ rfl
  · cases flow : p.session.remoteFlow with
    | none => exact p.violation_runs _ rfl
    | unsequenced => exact .one (.inflow (.unnumbered flow))
    | recoverable => exact p.takeNumbered_runs (by rw [flow]; rfl) realTime
    | idempotent => exact p.takeNumbered_runs (by rw [flow]; rfl) realTime

/-- What is seen of an application message: a batch in progress moves on. -/
def heardApplication (delivery : Delivery) : List Act :=
  match p.binding.state with
  | .closing _ => []
  | .established | .terminating .. =>
    if p.session.replay.isSome then .switched .replayed :: delivery.acts else delivery.acts

theorem onApplication_runs :
    Runs p (p.heardApplication (p.onApplication now).1) (p.onApplication now).2 := by
  unfold onApplication heardApplication
  cases p.binding.state with
  | closing deadline => exact .one (.event _)
  | _ =>
      refine .quiet (.tick p.binding.lastKeepalive now) rfl ?_
      cases batch : p.session.replay with
      | some replay => exact takeReplayed_runs _ now batch
      | none => exact takeLive_runs _ batch

theorem onReport_delivers (event : Event) :
    (p.onReport event now).1 = (p.onApplication now).1 := by
  unfold onReport
  generalize p.onApplication now = outcome
  obtain ⟨delivery, turn⟩ := outcome
  cases delivery <;> rfl

theorem onReport_runs (event : Event) :
    Runs p (p.heardApplication (p.onReport event now).1) (p.onReport event now).2 := by
  have applied := p.onApplication_runs now
  unfold onReport
  generalize p.onApplication now = outcome at applied
  obtain ⟨delivery, turn⟩ := outcome
  cases delivery with
  | accept seq retransmitted => exact applied.tell event
  | discard => exact applied

/-! ## Recovery -/

/-- What is seen of a batch. -/
def heardBatch (message : Retransmission) : List Act :=
  match NonZero.new u32Max message.count.toNat with
  | some count => [.switched (.batch message.nextSeqNo.toNat count)]
  | none => []

theorem onRetransmission_runs (message : Retransmission) :
    Runs p (heardBatch message) (p.onRetransmission message now) := by
  have nothing : Act.handed (heardBatch message) = [] := by
    unfold heardBatch
    split
    · rfl
    · rfl
  unfold onRetransmission
  split
  · exact p.violation_runs _ nothing
  · split
    · exact p.violation_runs _ nothing
    · split
      · exact p.violation_runs _ nothing
      · rename_i outstanding asked
        split
        · exact p.violation_runs _ nothing
        · dsimp only
          split
          · rename_i batch _ admitted expected
            obtain ⟨counted, inRange⟩ := Option.filter_eq_some_iff.mp admitted
            obtain ⟨-, inRange⟩ := of_decide_eq_true inRange
            obtain ⟨next, fits⟩ := checkedAdd_eq_some.mp (of_decide_eq_true expected).symm
            unfold heardBatch
            rw [counted]
            rw [← next] at fits ⊢
            exact .one (.inflow (.beginBatch now asked inRange fits))
          · exact p.violation_runs _ nothing

theorem onRetransmitReject_runs (message : RetransmitReject) :
    Runs p [] (p.onRetransmitReject message now) := by
  unfold onRetransmitReject
  dsimp only
  split
  · exact .one (.event _)
  · rename_i outstanding asked
    split
    · exact .quiet (.abandon message.code message.reason asked) rfl (resumeRecovery_runs _ now)
    · exact .one (.event _)

theorem refuseRetransmit_runs (message : RetransmitRequest) (code : RetransmitRejectCode)
    (reason : String) (up : p.isEstablished = true) :
    Runs p [] (p.refuseRetransmit message code reason) :=
  .quiet (.aside up (.retransmitReject _)) rfl (.one (.event _))

theorem onRetransmitRequest_runs (message : RetransmitRequest) :
    Runs p [] (p.onRetransmitRequest message) := by
  unfold onRetransmitRequest
  split
  · exact .one (.event _)
  · rename_i established
    have up : p.isEstablished = true := by simpa using established
    split
    · exact p.violation_runs _ rfl
    · split
      · exact p.refuseRetransmit_runs message _ _ up
      · split
        · exact .quiet (.event _) rfl (fail_runs _ _ _ rfl)
        · split
          · exact p.refuseRetransmit_runs message _ _ up
          · split
            · exact p.refuseRetransmit_runs message _ _ up
            · split
              · rename_i inRange
                refine .quiet (.provide ?_) rfl (.one (.event _))
                intro asked same
                obtain rfl := Option.some.inj same
                exact .inl ⟨inRange.1, inRange.2.2⟩
              · exact p.refuseRetransmit_runs message _ _ up

/-! ## Termination -/

/-- What is seen of a Terminate. -/
def heardTerminate (message : Terminate) : List Act :=
  if message.sessionId ≠ p.session.id then []
  else
    match p.binding.state with
    | .terminating _ code _ =>
      if code = .finished ∧ message.code = .finished then [.switched .finalized] else []
    | .established =>
      .switched .released :: if message.code = .finished then [.switched .finalized] else []
    | .closing _ => []

theorem onTerminate_runs (message : Terminate) :
    Runs p (p.heardTerminate message) (p.onTerminate message now) := by
  unfold onTerminate heardTerminate
  split
  · exact p.violation_runs _ rfl
  · cases was : p.binding.state with
    | terminating sentAt code reason =>
        have down : p.isEstablished = false := p.isEstablished_eq was
        have closes (q : BoundParts) (down : q.isEstablished = false) :
            Runs q [] ({ q with core := q.core.closeTransport }, .unbind) := .close (.quiet down) rfl
        have released (q : BoundParts) {seen : List Act} {turn : Turn} (unbound : turn.2 = .unbind)
            (rest : Runs { q with session := q.session.releaseBindingState } seen turn) :
            Runs q seen turn := (Runs.first (.inflow .release) rest).ended unbound rfl
        refine .quiet (.event (.terminated code reason .locally)) rfl (released _ rfl ?_)
        dsimp only [closeUnbound]
        split
        · exact .first (.finalize (p := { p.event (.terminated code reason .locally) with
            session := p.session.releaseBindingState }) down) (closes _ down)
        · exact closes { p.event (.terminated code reason .locally) with
            session := p.session.releaseBindingState } down
    | established =>
        have up : p.isEstablished = true := p.isEstablished_eq was
        have answers := Move.answer (p := { p with session := p.session.releaseBindingState })
          (some (now + p.binding.localKeepalive)) up
        simp only [Session.releaseBindingState_id] at answers
        have answered {seen : List Act} {turn : Turn} (rest : Runs _ seen turn) :
            Runs p (.switched .released :: seen) turn :=
          .first (.inflow .release) (.quiet answers rfl
            (.quiet (.event (.terminated message.code message.reason .peer)) rfl rest))
        dsimp only
        split
        · exact answered (.one (.finalize rfl))
        · exact answered (.stay _)
    | closing deadline => exact .stay p

/-- What is seen of the end a FinishedSending announces. -/
def heardEnd (message : FinishedSending) : List Act :=
  match message.lastSeqNo with
  | some last => Act.announced (last.toNat + 1)
  | none => []

theorem finishedEnd_runs (message : FinishedSending) :
    Runs p (heardEnd message) (p.finishedEnd message now).1 := by
  unfold finishedEnd heardEnd
  cases message.lastSeqNo with
  | none => exact p.violation_runs _ rfl
  | some last =>
      dsimp only
      split
      · exact p.violation_runs _ rfl
      · rename_i next fits
        split
        · exact p.violation_runs _ rfl
        · obtain ⟨rfl, small⟩ := checkedAdd_eq_some.mp fits
          exact p.onNextSeq_runs now small

/-- What is seen of a FinishedSending: that a flow has ended counts once the binding goes on. -/
def heardFinished (message : FinishedSending) : List Act :=
  match (p.onFinishedSending message now).2 with
  | .unbind => []
  | .stay =>
    if p.session.peerFinished.isSome then []
    else (if p.session.remoteFlow.isSequenced then heardEnd message else []) ++ [.switched .finished]

/-- What follows an announced end is seen once the binding goes on. -/
theorem finishes_runs {turn : Turn} {endSeq : Option Nat} (runs : Runs p seen turn)
    (nothing : Act.handed seen = []) :
    Runs p
      (match (turn.andThen fun parts => ((parts.onSession fun session =>
          { session with peerFinished := some ⟨false, endSeq⟩ }).maybeFinishReceiving, .stay)).2 with
        | .unbind => []
        | .stay => seen ++ [.switched .finished])
      (turn.andThen fun parts => ((parts.onSession fun session =>
        { session with peerFinished := some ⟨false, endSeq⟩ }).maybeFinishReceiving, .stay)) := by
  obtain ⟨q, bound⟩ := turn
  cases bound with
  | unbind => exact runs.ended rfl nothing
  | stay =>
      have finishing := Runs.first (.inflow (.finishing ⟨false, endSeq⟩))
        (maybeFinishReceiving_runs (q.onSession fun session =>
          { session with peerFinished := some ⟨false, endSeq⟩ }))
      exact runs.trans finishing

theorem onFinishedSending_runs (message : FinishedSending) :
    Runs p (p.heardFinished now message) (p.onFinishedSending message now) := by
  unfold heardFinished onFinishedSending
  by_cases named : message.sessionId ≠ p.session.id
  · simp only [if_pos named]
    have ends := p.violation_runs "FinishedSending for another session" Act.handed_nil
    rw [show (p.violation "FinishedSending for another session").2 = .unbind from
      fail_unbinds _ _ _]
    exact ends
  · simp only [if_neg named]
    by_cases known : p.session.peerFinished.isSome = true
    · simp only [if_pos known]
      exact .stay p
    · simp only [if_neg known]
      have nothing : Act.handed (heardEnd message) = [] := by
        unfold heardEnd
        split <;> rfl
      by_cases sequenced : p.session.remoteFlow.isSequenced = true
      · have ends := finishedEnd_runs (p.event (.peerFinishedSending message.lastSeqNo)) now message
        have told := Runs.quiet (.event (.peerFinishedSending message.lastSeqNo)) rfl ends
        simp only [if_pos sequenced]
        exact p.finishes_runs told nothing
      · have told := Runs.quiet (.event (.peerFinishedSending message.lastSeqNo)) rfl
          (.stay (p.event (.peerFinishedSending message.lastSeqNo)))
        simp only [if_neg sequenced]
        exact p.finishes_runs told rfl

/-- What is seen of a message, given how an application message in it is delivered. -/
def heardMessage (message : PeerMessage) (now : Nat) : List Act :=
  match message with
  | .terminate m => p.heardTerminate m
  | .sequence m => Act.announced m.nextSeqNo.toNat
  | .context m => if m.nextSeqNo.toNat = SEQ_NULL then [] else Act.announced m.nextSeqNo.toNat
  | .retransmission m => heardBatch m
  | .applied _ => p.heardApplication (p.messageDelivery message now)
  | .notApplied _ =>
    if p.session.localFlow ≠ .idempotent then []
    else p.heardApplication (p.messageDelivery message now)
  | .finishedSending m => p.heardFinished now m
  | .topic | .unsequencedHeartbeat | .retransmitRequest _ | .retransmitReject _
  | .finishedReceiving | .messageTemplate => []

theorem onPeerMessage_runs (message : PeerMessage) :
    Runs p (p.heardMessage message now) (p.onPeerMessage message now) := by
  cases message with
  | terminate m => exact p.onTerminate_runs now m
  | sequence m => exact p.onNextSeq_runs now (toNat_le_u64Max _)
  | context m =>
      unfold onPeerMessage heardMessage
      dsimp only
      by_cases named : m.sessionId ≠ p.session.id
      · rw [if_pos named]
        refine p.violation_runs _ ?_
        split <;> rfl
      · rw [if_neg named]
        split
        · exact .stay p
        · exact p.onNextSeq_runs now (toNat_le_u64Max _)
  | unsequencedHeartbeat =>
      unfold onPeerMessage heardMessage
      dsimp only
      split
      · exact p.violation_runs _ rfl
      · exact .stay p
  | retransmitRequest m => exact p.onRetransmitRequest_runs m
  | retransmission m => exact p.onRetransmission_runs now m
  | retransmitReject m => exact p.onRetransmitReject_runs now m
  | applied m => exact p.onReport_runs now _
  | notApplied m =>
      unfold onPeerMessage heardMessage messageDelivery
      dsimp only
      split
      · exact p.violation_runs _ rfl
      · exact p.onReport_runs now _
  | topic => exact p.violation_runs _ rfl
  | finishedSending m => exact p.onFinishedSending_runs now m
  | finishedReceiving => exact p.violation_runs _ rfl
  | messageTemplate => exact .stay p

/-- What is seen of a message of the counterparty. -/
def heardPeer (message : PeerMessage) (now : Nat) : List Act :=
  match p.binding.state with
  | .closing _ => []
  | .established | .terminating .. => (p.received now).heardMessage message now

theorem onPeer_runs (message : PeerMessage) :
    Runs p (p.heardPeer message now) (p.onPeer message now) := by
  unfold onPeer heardPeer
  cases p.binding.state with
  | closing deadline => exact .one (.event _)
  | established =>
      exact .quiet (.tick p.binding.lastKeepalive now) rfl (onPeerMessage_runs _ now message)
  | terminating sentAt code reason =>
      exact .quiet (.tick p.binding.lastKeepalive now) rfl (onPeerMessage_runs _ now message)

/-! ## Commands -/

theorem requireEstablished_ok {operation : String}
    (allowed : p.requireEstablished operation = .ok ()) : p.isEstablished = true := by
  unfold requireEstablished at allowed
  split at allowed
  · assumption
  · cases allowed

theorem numberApplication_runs {seq : Option Nat}
    (numbered : p.numberApplication now = .ok (seq, q)) :
    Runs p [.application seq] (q, .stay) ∧ q.isEstablished = true := by
  unfold numberApplication at numbered
  cases allowed : p.requireEstablished "send_application" with
  | error error =>
      rw [allowed] at numbered
      cases numbered
  | ok granted =>
      have up := p.requireEstablished_ok allowed
      rw [allowed] at numbered
      dsimp only [bind, Except.bind] at numbered
      split at numbered
      · cases numbered
      · have allocates (sequenced : p.session.localFlow.isSequenced = true) {next : Nat}
            {r : BoundParts} (allocated : p.allocateOutbound = some (next, r)) :
            Runs p [.application (some next)] (r.keptAlive now, .stay) ∧
              (r.keptAlive now).isEstablished = true := by
          obtain ⟨ready, announced, upReady, same, numbering, rfl, fits, rfl⟩ :=
            p.allocateOutbound_spec up sequenced allocated
          have numbers := Runs.one (.number upReady (same ▸ sequenced) numbering (same ▸ fits))
          rw [same] at numbers
          exact ⟨announced.trans (numbers.trans (.one (.tick now ready.binding.lastReceived))), upReady⟩
        cases flow : p.session.localFlow with
        | none =>
            rw [flow] at numbered
            cases numbered
        | unsequenced =>
            rw [flow] at numbered
            obtain ⟨rfl, rfl⟩ := Prod.mk.inj (Except.ok.inj numbered)
            exact ⟨.first (.unnumbered up flow) (.one (.tick now p.binding.lastReceived)), up⟩
        | recoverable =>
            rw [flow] at numbered
            dsimp only at numbered
            split at numbered
            · obtain ⟨rfl, rfl⟩ := Prod.mk.inj (Except.ok.inj numbered)
              exact allocates (by rw [flow]; rfl) ‹_›
            · cases numbered
        | idempotent =>
            rw [flow] at numbered
            dsimp only at numbered
            split at numbered
            · obtain ⟨rfl, rfl⟩ := Prod.mk.inj (Except.ok.inj numbered)
              exact allocates (by rw [flow]; rfl) ‹_›
            · cases numbered

theorem provideNone_runs : Runs p [] (p.setProvider none, .stay) :=
  .one (.provide fun asked none_eq => by cases none_eq)

theorem terminate_runs {code : TerminationCode} {reason : String}
    (accepted : p.terminate code reason now = .ok turn) : Runs p [] turn := by
  unfold terminate at accepted
  cases allowed : p.requireEstablished "terminate" with
  | error error =>
      rw [allowed] at accepted
      cases accepted
  | ok granted =>
      have up := p.requireEstablished_ok allowed
      rw [allowed] at accepted
      cases short : checkReason reason with
      | error error =>
          rw [short] at accepted
          cases accepted
      | ok granted =>
          rw [short] at accepted
          dsimp only [bind, Except.bind] at accepted
          have errs : Runs p [] ((p.send (.terminate ⟨p.session.id, code, reason⟩)).event
              (.terminated code reason .locally)).closeUnbound := by
            have closes := Close.failed (p := { p with session := p.session.releaseBindingState })
              code reason up
            simp only [Session.releaseBindingState_id] at closes
            have ends : Runs _ [] _ := .close closes rfl
            exact (Runs.first (.inflow .release) ends).ended rfl rfl
          cases code with
          | finished =>
              obtain rfl := Except.ok.inj accepted
              exact .quiet (@Move.provide p none fun asked none_eq => by cases none_eq) rfl
                (.one (.beginTerminating (p := p.setProvider none) .finished reason now up))
          | unspecifiedError =>
              obtain rfl := Except.ok.inj accepted
              exact errs
          | reRequestOutOfBounds =>
              obtain rfl := Except.ok.inj accepted
              exact errs
          | reRequestInProgress =>
              obtain rfl := Except.ok.inj accepted
              exact errs

theorem announceBatch_runs {provider : Provider} {count : Nat} {batch : RetransmitBatch}
    (up : p.isEstablished = true) (asked : p.session.provider = some provider) (some : 0 < count)
    (fits : count ≤ u32Max) (announced : p.announceBatch provider count now = .ok (batch, q)) :
    Runs p [] (q, .stay) ∧ q.isEstablished = true := by
  unfold announceBatch at announced
  split at announced
  · cases announced
  · split at announced
    · cases announced
    · split at announced
      · cases announced
      · rename_i fromSeq added
        obtain ⟨rfl, -⟩ := checkedAdd_eq_some.mp added
        obtain ⟨rfl, rfl⟩ := Prod.mk.inj (Except.ok.inj announced)
        refine ⟨.quiet (.batch up asked rfl some (by omega) fits _ rfl rfl) rfl
          (.quiet (.provide ?_) rfl (.one (.tick now p.binding.lastReceived))), up⟩
        intro left same
        split at same
        · cases same
        · obtain rfl := Option.some.inj same
          exact .inr ⟨provider, asked, rfl, rfl⟩

theorem retransmit_runs {count : NonZero u32Max} {batch : RetransmitBatch}
    (announced : p.retransmit count now = .ok (batch, q)) :
    Runs p [] (q, .stay) ∧ q.isEstablished = true := by
  unfold retransmit at announced
  cases allowed : p.requireEstablished "retransmit" with
  | error error =>
      rw [allowed] at announced
      cases announced
  | ok granted =>
      have up := p.requireEstablished_ok allowed
      rw [allowed] at announced
      dsimp only [bind, Except.bind] at announced
      split at announced
      · cases announced
      · rename_i provider asked
        exact p.announceBatch_runs now up asked count.positive count.fits announced

theorem rejectRetransmitRequest_runs {code : RetransmitRejectCode} {reason : String}
    (rejected : p.rejectRetransmitRequest code reason = .ok q) : Runs p [] (q, .stay) := by
  unfold rejectRetransmitRequest at rejected
  cases allowed : p.requireEstablished "reject_retransmit_request" with
  | error error =>
      rw [allowed] at rejected
      cases rejected
  | ok granted =>
      have up := p.requireEstablished_ok allowed
      rw [allowed] at rejected
      cases short : checkReason reason with
      | error error =>
          rw [short] at rejected
          cases rejected
      | ok granted =>
          rw [short] at rejected
          dsimp only [bind, Except.bind] at rejected
          split at rejected
          · cases rejected
          · rename_i provider asked
            obtain rfl := Except.ok.inj rejected
            have answers := Move.aside (p := p.setProvider none) up
              (.retransmitReject ⟨p.session.id, provider.requestTimestamp, code, reason⟩)
            exact p.provideNone_runs.trans (.one answers)

theorem endRetransmission_runs (ended : p.endRetransmission = .ok q) : Runs p [] (q, .stay) := by
  unfold endRetransmission at ended
  cases allowed : p.requireEstablished "end_retransmission" with
  | error error =>
      rw [allowed] at ended
      cases ended
  | ok granted =>
      rw [allowed] at ended
      dsimp only [bind, Except.bind] at ended
      split at ended
      · cases ended
      · obtain rfl := Except.ok.inj ended
        exact p.provideNone_runs

/-! ## Time -/

theorem reRequest_runs {outstanding : Outstanding}
    (asked : p.session.outstanding = some outstanding) : Runs p [] (p.reRequest outstanding now) :=
  .quiet (.inflow (.redo asked)) rfl (requestMissing_runs _ now)

theorem onStall_runs {outstanding : Outstanding} (asked : p.session.outstanding = some outstanding) :
    Runs p [] (p.onStall outstanding now) := by
  unfold onStall
  refine .quiet (.event (.retransmitTimedOut outstanding.fromSeq outstanding.count)) rfl ?_
  have waits := Runs.one (p := p.event (.retransmitTimedOut outstanding.fromSeq outstanding.count))
    (.inflow .stallReported)
  have redoes := reRequest_runs
    (p.event (.retransmitTimedOut outstanding.fromSeq outstanding.count)) now asked
  dsimp only
  split
  · exact fail_runs _ _ _ rfl
  · split
    · exact redoes
    · exact waits
  · split
    · exact redoes
    · exact waits
  · exact waits

theorem requestMissing_stays (stays : p.requestMissing now = (q, .stay)) :
    q.binding.state = p.binding.state := by
  unfold requestMissing at stays
  split at stays
  · obtain ⟨rfl, -⟩ := Prod.mk.inj stays
    rfl
  · split at stays
    · obtain ⟨rfl, -⟩ := Prod.mk.inj stays
      rfl
    · split at stays
      · obtain ⟨rfl, -⟩ := Prod.mk.inj stays
        rfl
      · split at stays
        · exact (p.fail_not_stay stays).elim
        · obtain ⟨rfl, -⟩ := Prod.mk.inj stays
          rfl

theorem reRequest_stays {outstanding : Outstanding}
    (stays : p.reRequest outstanding now = (q, .stay)) : q.binding.state = p.binding.state :=
  requestMissing_stays (p.settleOutstanding outstanding.delivered) now stays

theorem onStall_stays {outstanding : Outstanding} (stays : p.onStall outstanding now = (q, .stay)) :
    q.binding.state = p.binding.state := by
  have waits {turn : Turn} (same : turn.1.binding = p.binding) (reached : turn = (q, .stay)) :
      q.binding.state = p.binding.state := by
    rw [reached] at same
    rw [same]
  unfold onStall at stays
  dsimp only at stays
  split at stays
  · exact (fail_not_stay _ stays).elim
  · split at stays
    · exact reRequest_stays (p.event _) now stays
    · exact waits rfl stays
  · split at stays
    · exact reRequest_stays (p.event _) now stays
    · exact waits rfl stays
  · exact waits rfl stays

theorem heartbeat_runs (up : p.isEstablished = true) : Runs p [] (p.heartbeat now, .stay) := by
  unfold heartbeat
  split
  · rename_i sequenced
    exact .quiet (.sequence up sequenced) rfl (.one (.tick now p.binding.lastReceived))
  · exact .quiet (.heartbeat up) rfl (.one (.tick now p.binding.lastReceived))

theorem onTimeout_runs : Runs p [] (p.onTimeout now) := by
  unfold onTimeout
  split
  · rename_i was
    split
    · exact .quiet (.event _) rfl (fail_runs _ _ _ rfl)
    · have heartbeats {turn : Turn} (stalls : Runs p [] turn)
          (stays : ∀ q, turn = (q, .stay) → q.binding.state = p.binding.state) :
          Runs p [] (turn.andThen fun parts =>
            if parts.binding.lastKeepalive + parts.binding.localKeepalive ≤ now then
              (parts.heartbeat now, .stay)
            else (parts, .stay)) := by
        refine stalls.andThen fun q reached => ?_
        split
        · exact q.heartbeat_runs now (q.isEstablished_eq ((stays q reached).trans was))
        · exact .stay q
      cases stalled : p.stalled now with
      | some outstanding =>
          refine heartbeats (p.onStall_runs now (Option.filter_eq_some_iff.mp stalled).1) ?_
          intro q reached
          exact p.onStall_stays now reached
      | none =>
          refine heartbeats (.stay p) ?_
          intro q reached
          obtain ⟨rfl, -⟩ := Prod.mk.inj reached
          rfl
  · rename_i sentAt code reason was
    split
    · exact .stay p
    · exact .quiet (.event _) rfl (closeUnbound_runs _ (p.isEstablished_eq was) rfl)
  · rename_i deadline was
    split
    · exact .close (.quiet (p.isEstablished_eq was)) rfl
    · exact .stay p

end BoundParts

/-- What is seen of a command, by its reply. -/
def Reply.acts : Reply → List Act
  | .numbered seq => [.application seq]
  | .done | .failed _ | .delivered _ | .batch _ => []

theorem unmap {ε α β : Type} {result : Except ε α} {f : α → β} {b : β}
    (mapped : result.map f = .ok b) : ∃ a, result = .ok a ∧ f a = b := by
  cases result with
  | error error => cases mapped
  | ok a => exact ⟨a, rfl, Except.ok.inj mapped⟩

/-- A command on a bound session consists of moves. -/
theorem Command.onParts_runs {command : Command} {p : BoundParts} {reply : Reply} {turn : Turn}
    (done : command.onParts p = .ok (reply, turn)) : Runs p reply.acts turn := by
  cases command with
  | sendApplication now =>
      obtain ⟨⟨seq, q⟩, numbered, same⟩ := unmap done
      obtain ⟨rfl, rfl⟩ := Prod.mk.inj same
      exact (p.numberApplication_runs now numbered).1
  | terminate code reason now =>
      obtain ⟨ended, accepted, same⟩ := unmap done
      obtain ⟨rfl, rfl⟩ := Prod.mk.inj same
      exact p.terminate_runs now accepted
  | retransmit count now =>
      obtain ⟨⟨batch, q⟩, announced, same⟩ := unmap done
      obtain ⟨rfl, rfl⟩ := Prod.mk.inj same
      exact (p.retransmit_runs now announced).1
  | rejectRetransmitRequest code reason =>
      obtain ⟨q, rejected, same⟩ := unmap done
      obtain ⟨rfl, rfl⟩ := Prod.mk.inj same
      exact p.rejectRetransmitRequest_runs rejected
  | endRetransmission =>
      obtain ⟨q, ended, same⟩ := unmap done
      obtain ⟨rfl, rfl⟩ := Prod.mk.inj same
      exact p.endRetransmission_runs ended

/-- The driver writes application messages on an established binding only. -/
theorem Command.onParts_writes {command : Command} {p : BoundParts} {reply : Reply} {turn : Turn}
    (done : command.onParts p = .ok (reply, turn)) (writes : reply.writes = true) :
    turn.2 = .stay ∧ turn.1.isEstablished = true := by
  cases command with
  | sendApplication now =>
      obtain ⟨⟨seq, q⟩, numbered, same⟩ := unmap done
      obtain ⟨rfl, rfl⟩ := Prod.mk.inj same
      exact ⟨rfl, (p.numberApplication_runs now numbered).2⟩
  | retransmit count now =>
      obtain ⟨⟨batch, q⟩, announced, same⟩ := unmap done
      obtain ⟨rfl, rfl⟩ := Prod.mk.inj same
      exact ⟨rfl, (p.retransmit_runs now announced).2⟩
  | terminate code reason now =>
      obtain ⟨ended, accepted, same⟩ := unmap done
      obtain ⟨rfl, rfl⟩ := Prod.mk.inj same
      cases writes
  | rejectRetransmitRequest code reason =>
      obtain ⟨q, rejected, same⟩ := unmap done
      obtain ⟨rfl, rfl⟩ := Prod.mk.inj same
      cases writes
  | endRetransmission =>
      obtain ⟨q, ended, same⟩ := unmap done
      obtain ⟨rfl, rfl⟩ := Prod.mk.inj same
      cases writes

/-! ## What is seen of a call -/

namespace BoundParts

variable (p : BoundParts) (now : Nat)

theorem heardApplication_receipts {delivery : Delivery}
    (ignored : ∀ deadline, p.binding.state = .closing deadline → delivery = .discard) :
    Act.receipts (p.heardApplication delivery) = delivery.receipts := by
  have delivered : Act.receipts delivery.acts = delivery.receipts := by
    cases delivery <;> rfl
  have open_ : Act.receipts (if p.session.replay.isSome then .switched .replayed :: delivery.acts
      else delivery.acts) = delivery.receipts := by
    split
    · exact delivered
    · exact delivered
  unfold heardApplication
  cases was : p.binding.state with
  | closing deadline =>
      rw [ignored deadline was]
      rfl
  | established => exact open_
  | terminating sentAt code reason => exact open_

theorem heardMessage_receipts (message : PeerMessage)
    (live : ∀ deadline, p.binding.state ≠ .closing deadline) :
    Act.receipts (p.heardMessage message now) = (p.messageDelivery message now).receipts := by
  have announced (next : Nat) : Act.receipts (Act.announced next) = [] := rfl
  cases message with
  | applied m => exact p.heardApplication_receipts fun deadline was => (live deadline was).elim
  | notApplied m =>
      show Act.receipts (if p.session.localFlow ≠ .idempotent then []
        else p.heardApplication (p.messageDelivery (.notApplied m) now)) = _
      split
      · rename_i foreign
        show [] = (if p.session.localFlow ≠ .idempotent then Delivery.discard
          else (p.onReport (.notApplied m.fromSeqNo m.count) now).1).receipts
        rw [if_pos foreign]
        rfl
      · exact p.heardApplication_receipts fun deadline was => (live deadline was).elim
  | terminate m =>
      show Act.receipts (p.heardTerminate m) = []
      unfold heardTerminate
      split
      · rfl
      · split
        · split <;> rfl
        · split <;> rfl
        · rfl
  | context m =>
      show Act.receipts (if m.nextSeqNo.toNat = SEQ_NULL then [] else
        Act.announced m.nextSeqNo.toNat) = []
      split <;> rfl
  | retransmission m =>
      show Act.receipts (heardBatch m) = []
      unfold heardBatch
      split <;> rfl
  | finishedSending m =>
      have ended : Act.receipts (if p.session.remoteFlow.isSequenced then heardEnd m else []) = [] := by
        unfold heardEnd
        split
        · split <;> rfl
        · rfl
      show Act.receipts (p.heardFinished now m) = []
      unfold heardFinished
      split
      · rfl
      · split
        · rfl
        · rw [Act.receipts_append, ended]
          rfl
  | _ => rfl

theorem heardPeer_receipts (message : PeerMessage) :
    Act.receipts (p.heardPeer message now) = (p.peerDelivery message now).receipts := by
  unfold heardPeer peerDelivery
  cases was : p.binding.state with
  | closing deadline => rfl
  | established =>
      refine heardMessage_receipts _ now message fun deadline closing => ?_
      rw [show (p.received now).binding.state = .established from was] at closing
      cases closing
  | terminating sentAt code reason =>
      refine heardMessage_receipts _ now message fun deadline closing => ?_
      rw [show (p.received now).binding.state = .terminating sentAt code reason from was] at closing
      cases closing

end BoundParts

namespace Role

variable {R : Type} [Role R]

/-- What is seen of a session message. -/
def heardMessage (message : SessionMessage) (now : Nat) (role : R) : List Act :=
  if (core role).transportClosing then []
  else
    match boundParts role, classify message with
    | some parts, .peer message => parts.heardPeer message now
    | _, _ => []

/-- What is seen of an application message. -/
def heardApplication (now : Nat) (role : R) : List Act :=
  match boundParts role with
  | some parts =>
    if parts.core.transportClosing then [] else parts.heardApplication (parts.onApplication now).1
  | none => []

theorem heardMessage_receipts (message : SessionMessage) (now : Nat) (role : R) :
    Act.receipts (heardMessage message now role) = messageReceipts message now role := by
  unfold heardMessage messageReceipts
  by_cases closing : (core role).transportClosing = true
  · rw [if_pos closing, if_pos closing]
    rfl
  · rw [if_neg closing, if_neg closing]
    cases boundParts role with
    | none => rfl
    | some parts =>
        cases classify message with
        | handshake message => rfl
        | peer message => exact parts.heardPeer_receipts now message

theorem heardApplication_receipts (now : Nat) (role : R) :
    Act.receipts (heardApplication now role) = (onApplicationMessage now role).1.receipts := by
  unfold heardApplication onApplicationMessage
  cases boundParts role with
  | none => rfl
  | some parts =>
      dsimp only
      by_cases closing : parts.core.transportClosing = true
      · rw [if_pos closing, if_pos closing]
        rfl
      · rw [if_neg closing, if_neg closing]
        refine parts.heardApplication_receipts fun deadline was => ?_
        unfold BoundParts.onApplication
        rw [was]

end Role

end IronFix.Fixp
