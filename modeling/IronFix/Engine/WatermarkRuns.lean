import IronFix.Engine.WatermarkSession

/-!
# The watermark over sessions

A run of sessions on one store. What each session keeps holds whatever the
store does; across crashes and restarts the store's target and watermark carry
it, as long as they keep up with the sessions.
-/

namespace IronFix.Engine

open Lib.Decimal Lib.Transitions
open IronFix.Session

/-! ## Store writes -/

namespace InboundStore

variable (store : InboundStore) (seq : Nat) (write : WriteEnd)

@[simp] theorem setAppWatermark_target : (store.setAppWatermark seq write).nextTargetSeq = store.nextTargetSeq := by
  unfold setAppWatermark
  split <;> rfl

@[simp] theorem setNextTargetSeq_watermark : (store.setNextTargetSeq seq write).appWatermark = store.appWatermark := by
  unfold setNextTargetSeq
  split <;> rfl

theorem setNextTargetSeq_cases : (store.setNextTargetSeq seq write).nextTargetSeq = seq ∨
    (store.setNextTargetSeq seq write).nextTargetSeq = store.nextTargetSeq := by
  unfold setNextTargetSeq
  split
  · exact .inl rfl
  · exact .inr rfl

theorem setAppWatermark_cases : (store.setAppWatermark seq write).appWatermark = seq ∨
    (store.setAppWatermark seq write).appWatermark = store.appWatermark := by
  unfold setAppWatermark
  split
  · exact .inl rfl
  · exact .inr rfl

theorem setNextTargetSeq_landed {write : WriteEnd} (landed : write.landed = true) :
    (store.setNextTargetSeq seq write).nextTargetSeq = seq := by
  unfold setNextTargetSeq
  rw [if_pos landed]

theorem setAppWatermark_landed {write : WriteEnd} (landed : write.landed = true) :
    (store.setAppWatermark seq write).appWatermark = seq := by
  unfold setAppWatermark
  rw [if_pos landed]

/-- The next target is a number a message can have. -/
def Numbered (store : InboundStore) : Prop := 1 ≤ store.nextTargetSeq ∧ store.nextTargetSeq ≤ u64Max

variable {store seq}

theorem Numbered.setNextTargetSeq (numbered : store.Numbered) (positive : 1 ≤ seq) (bounded : seq ≤ u64Max)
    (write : WriteEnd) : (store.setNextTargetSeq seq write).Numbered := by
  unfold Numbered
  rcases store.setNextTargetSeq_cases seq write with same | same <;> rw [same]
  · exact ⟨positive, bounded⟩
  · exact numbered

theorem Numbered.setAppWatermark (numbered : store.Numbered) (seq : Nat) (write : WriteEnd) :
    (store.setAppWatermark seq write).Numbered := by
  unfold Numbered
  rw [setAppWatermark_target]
  exact numbered

end InboundStore

namespace InboundSystem

/-! ## Whatever the store does -/

/-- What holds in a phase, whatever the store does. -/
def SoundPhase (ledger : InboundLedger) (sessions : Nat) : InboundPhase → Prop
  | .handshake target _ => (1 ≤ target ∧ target ≤ u64Max) ∧ ∀ entry ∈ ledger.accepted, entry.2 < target
  | .established target _ => (1 ≤ target ∧ target ≤ u64Max) ∧ ∀ entry ∈ ledger.accepted, entry.2 < target
  | .live reactor dispatcher => LiveSession ledger sessions reactor dispatcher
  | _ => True

structure Sound (system : InboundSystem) : Prop where
  numbered : system.store.Numbered
  once : system.ledger.handed.Nodup
  earlier : ∀ entry ∈ system.ledger.handed, entry.1 ≤ system.sessions
  ended : ∀ stream ∈ system.ended, stream.2.handed.Nodup
  phase : SoundPhase system.ledger system.sessions system.phase

theorem start_sound (policy : StoreFailurePolicy) (capacity : Nat) : (start policy capacity).Sound where
  numbered := ⟨Nat.le_refl _, show 1 ≤ u64Max by decide⟩
  once := .nil
  earlier := nofun
  ended := nofun
  phase := trivial

variable {system : InboundSystem} {reactor : InboundReactor} {dispatcher : AppDispatcher}

/-- The system moves on without a call of `from_app`. -/
theorem Sound.move (sound : system.Sound) {after : InboundSystem} (numbered : after.store.Numbered)
    (handed : after.ledger.handed = system.ledger.handed) (sessions : after.sessions = system.sessions)
    (ended : after.ended = system.ended) (phase : SoundPhase after.ledger after.sessions after.phase) :
    after.Sound where
  numbered := numbered
  once := handed ▸ sound.once
  earlier := by
    rw [handed, sessions]
    exact sound.earlier
  ended := ended ▸ sound.ended
  phase := phase

/-- A reset that lands ends the stream. -/
theorem Sound.endStream (sound : system.Sound) (target : Nat) {fresh : InboundStore} (numbered : fresh.Numbered) :
    { system.endStream target fresh with phase := .down }.Sound where
  numbered := numbered
  once := .nil
  earlier := nofun
  ended := fun stream listed => by
    rcases List.mem_cons.mp listed with rfl | before
    · exact sound.once
    · exact sound.ended stream before
  phase := trivial

theorem Sound.live (sound : system.Sound) (phase : system.phase = .live reactor dispatcher) :
    LiveSession system.ledger system.sessions reactor dispatcher := by
  have := sound.phase
  rwa [phase] at this

theorem Sound.reportInboundLoss (sound : system.Sound) : system.reportInboundLoss.Sound := by
  unfold InboundSystem.reportInboundLoss
  split
  · exact sound.move sound.numbered rfl rfl rfl trivial
  · exact sound.move sound.numbered rfl rfl rfl trivial

theorem Sound.recordLoss (sound : system.Sound) (last : Nat) (write : WriteEnd) :
    (system.recordLoss last write).Sound := by
  refine sound.move (sound.numbered.setAppWatermark last write) rfl rfl rfl ?_
  show SoundPhase _ _ (if _ then _ else _)
  split <;> exact trivial

theorem seed_eq (numbered : system.store.Numbered) : system.seed = { system with
    ledger := system.ledger.keepBelow system.store.nextTargetSeq
    phase := .handshake system.store.nextTargetSeq system.store.nextTargetSeq } := by
  have seeded : (seedFromStore 1 system.store.nextTargetSeq).sequences.nextTargetSeq = system.store.nextTargetSeq := by
    show (if system.store.nextTargetSeq = 0 then 1 else system.store.nextTargetSeq) = _
    exact if_neg (Nat.ne_of_gt numbered.1)
  unfold seed
  rw [seeded]

theorem Sound.seed (sound : system.Sound) : system.seed.Sound := by
  rw [seed_eq sound.numbered]
  refine sound.move sound.numbered rfl rfl rfl ⟨sound.numbered, ?_⟩
  intro entry kept
  exact of_decide_eq_true (List.mem_filter.mp kept).2

theorem Sound.reset (sound : system.Sound) (target : Nat) (consumed : Bool) (write : WriteEnd) :
    (system.reset target consumed write).Sound := by
  have fresh (first : Nat) (low : 1 ≤ first ∧ first ≤ 2) : InboundStore.Numbered ⟨first, 0⟩ :=
    ⟨low.1, Nat.le_trans low.2 (by decide)⟩
  have ended := sound.endStream target (fresh (if consumed then 2 else 1) (by cases consumed <;> decide))
  unfold InboundSystem.reset
  cases write with
  | done =>
      refine ended.move ended.numbered rfl rfl rfl ?_
      cases consumed
      · exact ⟨fresh 1 (by decide), nofun⟩
      · exact ⟨fresh 2 (by decide), nofun⟩
  | failed landed =>
      cases landed
      · exact sound.move sound.numbered rfl rfl rfl trivial
      · exact ended

theorem Sound.acceptLogon (sound : system.Sound) {target : Nat}
    (below : ∀ entry ∈ system.ledger.accepted, entry.2 < target) {write : WriteEnd} {after : InboundSystem}
    (taken : system.acceptLogon target write = some after) : after.Sound := by
  unfold InboundSystem.acceptLogon at taken
  obtain ⟨next, added, made⟩ := Option.bind_eq_some_iff.mp taken
  obtain ⟨rfl, fits⟩ := checkedAdd_eq_some.mp added
  obtain rfl := Option.some.inj made
  refine sound.move (sound.numbered.setNextTargetSeq (Nat.le_add_left 1 target) fits write) rfl rfl rfl ?_
  show SoundPhase _ _ (if _ then _ else _)
  split
  · exact ⟨⟨Nat.le_add_left 1 target, fits⟩, fun entry listed => Nat.lt_succ_of_lt (below entry listed)⟩
  · exact trivial

theorem Sound.spawn (sound : system.Sound) {target : Nat} (persisted : Nat) (positive : 1 ≤ target ∧ target ≤ u64Max)
    (below : ∀ entry ∈ system.ledger.accepted, entry.2 < target) : (system.spawn target persisted).Sound where
  numbered := sound.numbered
  once := sound.once
  earlier := fun entry listed => Nat.le_succ_of_le (sound.earlier entry listed)
  ended := sound.ended
  phase := by
    refine LiveSession.spawned positive.1 positive.2 below ?_
    intro seq handed
    exact absurd (sound.earlier _ handed) (Nat.not_succ_le_self system.sessions)

/-! ### The live session -/

/-- The live session's part of the state changes, and no message is handed over. -/
theorem Sound.toLive (sound : system.Sound) {store : InboundStore} {ledger : InboundLedger}
    (numbered : store.Numbered) (handed : ledger.handed = system.ledger.handed)
    (live : LiveSession ledger system.sessions reactor dispatcher) :
    { system with store := store, ledger := ledger, phase := .live reactor dispatcher }.Sound :=
  sound.move numbered handed rfl rfl live

theorem publishAccounted_live {ledger : InboundLedger} {session : Nat}
    (live : LiveSession ledger session reactor dispatcher) (stage : ReactorStage) (resting : reactor.stage.acting? = none)
    (rests : stage.acting? = none) (unreported : stage.isReported = false) (unoffered : stage.offer? = none)
    (opens : stage.isOpen = true → reactor.stage.isOpen = true) (queueOpen : Bool) :
    LiveSession ledger session { reactor.publishAccounted with stage := stage, queueOpen := queueOpen } dispatcher := by
  have offers : ∀ offer ∈ stage.offer?, Moves reactor.nextTarget offer.1 offer.2 := by
    rw [unoffered]
    exact nofun
  unfold InboundReactor.publishAccounted
  split
  · rename_i higher
    exact live.move resting rfl rfl rfl (Nat.le_of_lt higher)
      (Nat.sub_one_lt_of_lt (Nat.lt_of_le_of_lt (Nat.zero_le _) live.completed)) rests unreported opens offers
  · exact live.move resting rfl rfl rfl (Nat.le_refl _) live.published rests unreported opens offers

/-- The number the queue hands over is one this session has not handed over. -/
theorem Sound.recv (sound : system.Sound) (phase : system.phase = .live reactor dispatcher)
    (runs : dispatcher.stage ≠ .stopped) (free : dispatcher.stage.current = none) {next : Resume}
    (resumes : next.seen = dispatcher.stage.seen) {after : InboundSystem}
    (taken : system.recv reactor dispatcher next = some after) : after.Sound := by
  have live := sound.live phase
  unfold InboundSystem.recv at taken
  split at taken
  · cases taken
  · rename_i seq rest queue
    obtain rfl := Option.some.inj taken
    have unhanded : (system.sessions, seq) ∉ system.ledger.handed := by
      intro handed
      exact Nat.lt_irrefl _ ((live.handed seq handed).2 seq (queue ▸ List.mem_cons_self))
    exact {
      numbered := sound.numbered
      once := List.nodup_cons.mpr ⟨unhanded, sound.once⟩
      earlier := fun entry listed => by
        rcases List.mem_cons.mp listed with rfl | before
        · exact Nat.le_refl _
        · exact sound.earlier entry before
      ended := sound.ended
      phase := live.recv runs free queue resumes }

theorem moves_of_mayReceive {kind : Option InboundKind} {next : Nat}
    (may : system.mayReceive reactor dispatcher kind next = true) : Moves reactor.nextTarget kind next := by
  unfold mayReceive at may
  rcases kind with _ | (_ | _)
  · simp only [Bool.and_eq_true, decide_eq_true_eq] at may
    exact may
  · simp only [Bool.and_eq_true, decide_eq_true_eq] at may
    exact may.1.1
  · simp only [Bool.and_eq_true, decide_eq_true_eq] at may
    exact may

theorem Sound.persistTarget (sound : system.Sound) (phase : system.phase = .live reactor dispatcher)
    {kind : Option InboundKind} {next : Nat} (stage : reactor.stage = .persisting kind next) (write : WriteEnd) :
    (system.persistTarget reactor dispatcher kind next write).Sound := by
  have live := sound.live phase
  have moves : Moves reactor.nextTarget kind next := live.offered (kind, next) (by rw [stage]; rfl)
  have isOpen : reactor.stage.isOpen = true := by rw [stage]; rfl
  have resting : reactor.stage.acting? = none := by rw [stage]; rfl
  have sameHanded : (system.ledger.acceptNext reactor kind).handed = system.ledger.handed := by cases kind <;> rfl
  have positive : 1 ≤ next := Nat.le_trans (Nat.lt_of_le_of_lt (Nat.zero_le _) live.completed) moves.le.1
  have numbered := sound.numbered.setNextTargetSeq positive moves.le.2 write
  unfold InboundSystem.persistTarget
  dsimp only
  split
  · exact sound.toLive sound.numbered sameHanded (live.advance isOpen resting moves)
  · split
    · exact sound.toLive numbered sameHanded (live.advance isOpen resting moves)
    · refine sound.toLive numbered ?_ (live.refuse kind next resting write.landed)
      split
      · exact sameHanded
      · rfl

theorem Sound.reportUnfinished (sound : system.Sound) (phase : system.phase = .live reactor dispatcher)
    (draining : reactor.stage = .draining) (stopped : dispatcher.stage = .stopped) :
    (system.reportUnfinished reactor dispatcher).Sound := by
  have live := sound.live phase
  unfold InboundSystem.reportUnfinished
  split
  · rename_i nothing
    refine sound.toLive sound.numbered rfl (live.report draining stopped (.refl _) rfl rfl rfl ?_)
    intro marked seq above below
    rw [inboundLossSpan_between marked above below live.bounded] at nothing
    cases nothing
  · rename_i span found
    obtain ⟨_, _, rfl⟩ := inboundLossSpan_eq_some found
    refine sound.toLive sound.numbered rfl
      (live.report draining stopped (system.ledger.grows_report _) rfl rfl rfl ?_)
    intro _ seq above below
    exact ⟨_, List.mem_cons_self, above, Nat.le_sub_one_of_lt below⟩

theorem Sound.resetOnClose (sound : system.Sound) (reactor : InboundReactor) (write : WriteEnd) :
    (system.resetOnClose reactor write).Sound := by
  have fresh : InboundStore.Numbered ⟨1, 0⟩ := ⟨Nat.le_refl _, show 1 ≤ u64Max by decide⟩
  have ended := sound.endStream reactor.nextTarget fresh
  unfold InboundSystem.resetOnClose
  cases write with
  | done => exact ended.move ended.numbered rfl rfl rfl trivial
  | failed landed =>
      cases landed
      · exact sound.move sound.numbered rfl rfl rfl trivial
      · exact ended

theorem Sound.persistCountersOnClose (sound : system.Sound) {nextTarget : Nat} (positive : 1 ≤ nextTarget)
    (bounded : nextTarget ≤ u64Max) (persisted : Nat) (write : WriteEnd) :
    (system.persistCountersOnClose nextTarget persisted write).Sound := by
  refine sound.move ?_ rfl rfl rfl trivial
  show InboundStore.Numbered (if _ then _ else _)
  split
  · exact sound.numbered
  · exact sound.numbered.setNextTargetSeq positive bounded write

/-- Every step of a live session keeps what holds whatever the store does. -/
theorem Sound.stepLive (sound : system.Sound) (phase : system.phase = .live reactor dispatcher)
    {action : InboundAction} {after : InboundSystem}
    (taken : system.stepLive reactor dispatcher action = some after) : after.Sound := by
  have live := sound.live phase
  have positive : 1 ≤ reactor.nextTarget := Nat.lt_of_le_of_lt (Nat.zero_le _) live.completed
  cases action with
  | persistOpeningWatermark write =>
      obtain ⟨stage, made⟩ := Option.ite_none_right_eq_some.mp taken
      obtain rfl := Option.some.inj made
      have resting : reactor.stage.acting? = none := by rw [stage]; rfl
      have isOpen : reactor.stage.isOpen = true := by rw [stage]; rfl
      unfold InboundSystem.persistOpeningWatermark
      split
      · exact sound.toLive sound.numbered rfl
          (live.move resting rfl rfl rfl (Nat.le_refl _) live.published rfl rfl (fun _ => isOpen)
            (by rintro _ ⟨⟩))
      · refine sound.toLive (sound.numbered.setAppWatermark _ write) rfl ?_
        cases write.goesOn system.policy <;>
          exact live.move resting rfl rfl rfl (Nat.le_refl _) live.published rfl rfl (fun _ => isOpen)
            (by rintro _ ⟨⟩)
  | persistCounters write =>
      obtain ⟨stage, made⟩ := Option.ite_none_right_eq_some.mp taken
      obtain rfl := Option.some.inj made
      have resting : reactor.stage.acting? = none := by rw [stage]; rfl
      have isOpen : reactor.stage.isOpen = true := by rw [stage]; rfl
      unfold InboundSystem.persistCounters
      split
      · exact sound.toLive sound.numbered rfl
          (live.move resting rfl rfl rfl (Nat.le_refl _) live.published rfl rfl (fun _ => isOpen)
            (by rintro _ ⟨⟩))
      · refine sound.toLive (sound.numbered.setNextTargetSeq positive live.bounded write) rfl ?_
        cases write.goesOn system.policy <;>
          exact live.move resting rfl rfl rfl (Nat.le_refl _) live.published rfl rfl (fun _ => isOpen)
            (by rintro _ ⟨⟩)
  | receive kind next =>
      obtain ⟨⟨stage, may⟩, made⟩ := Option.ite_none_right_eq_some.mp taken
      obtain rfl := Option.some.inj made
      refine sound.toLive sound.numbered rfl (live.move (by rw [stage]; rfl) rfl rfl rfl (Nat.le_refl _)
        live.published rfl rfl (fun _ => by rw [stage]; rfl) ?_)
      intro offer offered
      obtain rfl := Option.some.inj offered
      exact moves_of_mayReceive may
  | persistTarget write =>
      simp only [InboundSystem.stepLive] at taken
      split at taken
      · rename_i kind next stage
        obtain rfl := Option.some.inj taken
        exact sound.persistTarget phase stage write
      · cases taken
  | processed closes =>
      simp only [InboundSystem.stepLive] at taken
      split at taken
      · rename_i seq stage
        obtain rfl := Option.some.inj taken
        exact sound.toLive sound.numbered rfl (live.processed stage closes)
      · cases taken
  | publishAccounted =>
      obtain ⟨stage, made⟩ := Option.ite_none_right_eq_some.mp taken
      obtain rfl := Option.some.inj made
      have published := publishAccounted_live live .waiting (by rw [stage]; rfl) rfl rfl rfl
        (fun _ => by rw [stage]; rfl) reactor.publishAccounted.queueOpen
      exact sound.toLive sound.numbered rfl published
  | close =>
      obtain ⟨stage, made⟩ := Option.ite_none_right_eq_some.mp taken
      obtain rfl := Option.some.inj made
      have resting : reactor.stage.acting? = none := by rcases stage with stage | stage <;> rw [stage] <;> rfl
      exact sound.toLive sound.numbered rfl
        (live.move resting rfl rfl rfl (Nat.le_refl _) live.published rfl rfl (by rintro ⟨⟩) (by rintro _ ⟨⟩))
  | dropQueue =>
      obtain ⟨stage, made⟩ := Option.ite_none_right_eq_some.mp taken
      obtain rfl := Option.some.inj made
      exact sound.toLive sound.numbered rfl
        (publishAccounted_live live .draining (by rw [stage]; rfl) rfl rfl rfl (by rintro ⟨⟩) false)
  | abort landed =>
      obtain ⟨⟨_, runs⟩, made⟩ := Option.ite_none_right_eq_some.mp taken
      obtain rfl := Option.some.inj made
      refine sound.toLive ?_ rfl (live.stop runs)
      split
      · exact sound.numbered.setAppWatermark _ _
      · exact sound.numbered
  | reportUnfinished =>
      obtain ⟨⟨draining, stopped⟩, made⟩ := Option.ite_none_right_eq_some.mp taken
      obtain rfl := Option.some.inj made
      exact sound.reportUnfinished phase draining stopped
  | recordUnfinished write =>
      simp only [InboundSystem.stepLive] at taken
      split at taken
      · rename_i last stage
        obtain rfl := Option.some.inj taken
        exact sound.toLive (sound.numbered.setAppWatermark last write) rfl (live.recorded stage)
      · cases taken
  | resetOnClose write =>
      obtain ⟨_, made⟩ := Option.ite_none_right_eq_some.mp taken
      exact Option.some.inj made ▸ sound.resetOnClose reactor write
  | persistCountersOnClose write =>
      obtain ⟨_, made⟩ := Option.ite_none_right_eq_some.mp taken
      exact Option.some.inj made ▸ sound.persistCountersOnClose positive live.bounded _ write
  | recv =>
      simp only [InboundSystem.stepLive] at taken
      split at taken
      · rename_i stage
        exact sound.recv phase (by rw [stage]; rintro ⟨⟩) (by rw [stage]; rfl) (by rw [stage]; rfl) taken
      · rename_i mark stage
        exact sound.recv phase (by rw [stage]; rintro ⟨⟩) (by rw [stage]; rfl) (by rw [stage]; rfl) taken
      · cases taken
  | fromAppReturned =>
      simp only [InboundSystem.stepLive] at taken
      split at taken
      · rename_i seq next stage
        obtain rfl := Option.some.inj taken
        obtain ⟨_, below, first, _⟩ := live.current seq (by rw [stage]; rfl)
        have resumes : ∀ mark ∈ next.seen, mark ≤ reactor.published := fun mark seen =>
          live.seen mark (by rw [stage]; exact seen)
        have unacted : ∀ acting ∈ reactor.stage.acting?, seq < acting := fun acting isActing =>
          (live.acting acting isActing).2.2.2 seq (by rw [stage]; rfl)
        exact sound.toLive sound.numbered rfl
          ((live.returned stage).account (by rintro ⟨⟩) rfl below first unacted resumes)
      · cases taken
  | fromAppPanicked =>
      simp only [InboundSystem.stepLive] at taken
      split at taken
      · rename_i seq next stage
        obtain rfl := Option.some.inj taken
        exact sound.toLive sound.numbered rfl (live.stop (by rw [stage]; rintro ⟨⟩))
      · cases taken
  | marksChanged =>
      obtain ⟨⟨stage, _⟩, made⟩ := Option.ite_none_right_eq_some.mp taken
      obtain rfl := Option.some.inj made
      refine sound.toLive sound.numbered rfl
        (live.goOn (by rw [stage]; rintro ⟨⟩) (by rw [stage]; rfl) rfl rfl ?_ false)
      intro mark seen
      exact Nat.le_of_eq (Option.some.inj seen).symm
  | drained =>
      simp only [InboundSystem.stepLive] at taken
      split at taken
      · rename_i mark stage
        obtain ⟨empty, made⟩ := Option.ite_none_right_eq_some.mp taken
        obtain rfl := Option.some.inj made
        have seen : mark ≤ reactor.published := live.seen mark (by rw [stage]; rfl)
        refine sound.toLive sound.numbered rfl (live.account (by rw [stage]; rintro ⟨⟩) (by rw [stage]; rfl)
          (Nat.lt_of_le_of_lt seen live.published) ?_ ?_ (by rintro _ ⟨⟩))
        · rw [empty]
          rintro entry ⟨⟩
        · intro acting isActing
          exact Nat.lt_of_le_of_lt seen (live.acting acting isActing).1
      · cases taken
  | setAppWatermark write =>
      simp only [InboundSystem.stepLive] at taken
      split at taken
      · rename_i mark next stage
        obtain rfl := Option.some.inj taken
        have runs : dispatcher.stage ≠ .stopped := by rw [stage]; rintro ⟨⟩
        refine sound.toLive (sound.numbered.setAppWatermark mark write) rfl ?_
        cases write.goesOn system.policy
        · exact live.stop runs
        · refine live.goOn runs (by rw [stage]; rfl) next.stage_current next.stage_storing ?_ reactor.changed
          intro seen isSeen
          rw [next.stage_seen] at isSeen
          exact live.seen seen (by rw [stage]; exact isSeen)
      · cases taken
  | queueClosed =>
      obtain ⟨⟨stage, empty, _⟩, made⟩ := Option.ite_none_right_eq_some.mp taken
      obtain rfl := Option.some.inj made
      refine sound.toLive sound.numbered rfl (live.account (by rw [stage]; rintro ⟨⟩) (by rw [stage]; rfl)
        live.published ?_ ?_ (by rintro _ ⟨⟩))
      · rw [empty]
        rintro entry ⟨⟩
      · intro acting isActing
        exact (live.acting acting isActing).1
  | crash => cases taken
  | reportInboundLoss => cases taken
  | recordLoss _ => cases taken
  | seed => cases taken
  | reset _ _ => cases taken
  | acceptLogon _ => cases taken
  | spawn => cases taken

theorem Sound.step (sound : system.Sound) {action : InboundAction} {after : InboundSystem}
    (taken : system.step action = some after) : after.Sound := by
  unfold InboundSystem.step at taken
  split at taken
  · exact Option.some.inj taken ▸ sound.move sound.numbered rfl rfl rfl trivial
  · exact Option.some.inj taken ▸ sound.reportInboundLoss
  · exact Option.some.inj taken ▸ sound.recordLoss _ _
  · exact Option.some.inj taken ▸ sound.seed
  · exact Option.some.inj taken ▸ sound.reset _ _ _
  · rename_i phase
    have seeded := sound.phase
    rw [phase] at seeded
    exact sound.acceptLogon seeded.2 taken
  · rename_i phase
    have seeded := sound.phase
    rw [phase] at seeded
    exact Option.some.inj taken ▸ sound.spawn _ seeded.1 seeded.2
  · rename_i phase
    have seeded := sound.phase
    rw [phase] at seeded
    exact Option.some.inj taken ▸ sound.spawn _ seeded.1 seeded.2
  · exact Option.some.inj taken ▸ sound.persistCountersOnClose (Nat.le_refl _) (by decide) _ _
  · rename_i phase
    exact sound.stepLive phase taken
  · cases taken

end InboundSystem

end IronFix.Engine
