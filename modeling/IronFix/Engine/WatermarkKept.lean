import IronFix.Engine.WatermarkRuns

/-!
# What the watermark accounts for

A store that keeps up with its sessions carries the watermark across crashes
and restarts: every number it covers is dealt with or reported, a number the
session took and did not deal with lies above it, and the next start reports it.
-/

namespace IronFix.Engine

open Lib.Decimal Lib.Transitions
open IronFix.Session

/-- Every number below the target is dealt with or reported. -/
def InboundLedger.SettledBelow (ledger : InboundLedger) (target : Nat) : Prop :=
  ∀ kind seq, (kind, seq) ∈ ledger.accepted → seq < target → ledger.Settled kind seq

/-- No number was given to `from_app` twice. -/
def InboundLedger.HandedOnce (ledger : InboundLedger) : Prop := (ledger.handed.map Prod.snd).Nodup

namespace InboundSystem

/-! ## The store keeps up -/

/-- The store keeps up with the session: a target or an opening watermark the engine goes on from
has landed, and no session opens before the first number. -/
def KeepsUp (system : InboundSystem) : InboundAction → Prop
  | .acceptLogon write | .persistOpeningWatermark write | .persistCounters write | .persistTarget write =>
    write.goesOn system.policy = true → write.landed = true
  | .spawn =>
    match system.phase with
    | .handshake target _ | .established target _ => target ≠ 1
    | _ => True
  | _ => True

instance (system : InboundSystem) (action : InboundAction) : Decidable (system.KeepsUp action) := by
  unfold KeepsUp
  split <;> first | infer_instance | (split <;> infer_instance)

/-- Under `CloseSession` only a session that opens before the first number does not keep up. -/
theorem keepsUp_of_closeSession {system : InboundSystem} (closes : system.policy = .closeSession)
    {action : InboundAction} (opens : action ≠ .spawn) : system.KeepsUp action := by
  have landed (write : WriteEnd) (goesOn : write.goesOn system.policy = true) : write.landed = true := by
    rw [closes] at goesOn
    cases write with
    | done => rfl
    | failed landed => cases goesOn
  cases action with
  | acceptLogon write => exact landed write
  | persistOpeningWatermark write => exact landed write
  | persistCounters write => exact landed write
  | persistTarget write => exact landed write
  | spawn => exact absurd rfl opens
  | _ => trivial

/-! ## Across sessions -/

/-- What a live session keeps of the store. -/
structure LiveStore (store : InboundStore) (ledger : InboundLedger) (reactor : InboundReactor) : Prop where
  marked : reactor.opening ≠ 0
  earlier : ∀ kind seq, (kind, seq) ∈ ledger.accepted → seq ≤ reactor.opening → ledger.Settled kind seq
  target : reactor.nextTarget ≤ store.nextTargetSeq
  inStep : reactor.stage.isOpen = true →
    store.nextTargetSeq = reactor.nextTarget ∧ reactor.persisted = reactor.nextTarget
  watermark : reactor.stage.isOpen = true → reactor.stage ≠ .opening →
    store.appWatermark ≠ 0 ∧ store.appWatermark < reactor.nextTarget
  opening : reactor.stage = .opening → reactor.published ≠ 0 ∧
    ∀ kind seq, (kind, seq) ∈ ledger.accepted → ledger.Settled kind seq
  handed : ∀ entry ∈ ledger.handed, entry.2 < reactor.nextTarget ∧ ∀ queued ∈ reactor.queue, entry.2 < queued
  recording : ∀ last, reactor.stage = .recording last → last ≠ 0 ∧ last + 1 = reactor.nextTarget

/-- The counters are the store's, and nothing is due. -/
def SeededFrom (store : InboundStore) (ledger : InboundLedger) (target persisted : Nat) : Prop :=
  target = store.nextTargetSeq ∧ persisted = target ∧
    ∀ kind seq, (kind, seq) ∈ ledger.accepted → ledger.Settled kind seq

def KeptPhase (store : InboundStore) (ledger : InboundLedger) : InboundPhase → Prop
  | .down => True
  | .recording last => last ≠ 0 ∧ last < store.nextTargetSeq ∧ ledger.SettledBelow store.nextTargetSeq
  | .seeding => ledger.SettledBelow store.nextTargetSeq
  | .handshake target persisted => SeededFrom store ledger target persisted
  | .established target persisted => SeededFrom store ledger target persisted
  | .live reactor _ => LiveStore store ledger reactor
  | .leaving _ => ledger.handed = []

structure Carried (system : InboundSystem) : Prop where
  sound : system.Sound
  /-- What is not dealt with lies above the watermark, and there is one. -/
  due : ∀ kind seq, (kind, seq) ∈ system.ledger.accepted →
    system.ledger.Settled kind seq ∨ system.store.appWatermark ≠ 0 ∧ system.store.appWatermark < seq
  once : system.ledger.HandedOnce
  below : ∀ entry ∈ system.ledger.handed, entry.2 < system.store.nextTargetSeq
  ended : ∀ stream ∈ system.ended, stream.2.SettledBelow stream.1 ∧ stream.2.HandedOnce
  phase : KeptPhase system.store system.ledger system.phase

theorem start_carried (policy : StoreFailurePolicy) (capacity : Nat) : (start policy capacity).Carried where
  sound := start_sound policy capacity
  due := nofun
  once := .nil
  below := nofun
  ended := nofun
  phase := trivial

variable {system : InboundSystem} {reactor : InboundReactor} {dispatcher : AppDispatcher}

theorem Carried.live (carried : system.Carried) (phase : system.phase = .live reactor dispatcher) :
    LiveStore system.store system.ledger reactor := by
  have := carried.phase
  rwa [phase] at this

/-- What the watermark covers of a live session is settled. -/
theorem Carried.settled (carried : system.Carried) (phase : system.phase = .live reactor dispatcher)
    {kind : InboundKind} {seq : Nat} (accepted : (kind, seq) ∈ system.ledger.accepted)
    (covered : seq ≤ dispatcher.completed) : system.ledger.Settled kind seq := by
  rcases Nat.lt_or_ge reactor.opening seq with past | before
  · exact .inl ((carried.sound.live phase).done accepted past covered)
  · exact (carried.live phase).earlier kind seq accepted before

/-- Once the close has reported, everything the session took is settled. -/
theorem Carried.settledBelow (carried : system.Carried) (phase : system.phase = .live reactor dispatcher)
    (reported : reactor.stage.isReported = true) : system.ledger.SettledBelow reactor.nextTarget := by
  intro kind seq accepted below
  rcases Nat.lt_or_ge reactor.opening seq with past | before
  · exact ((carried.sound.live phase).reported reported).2 (carried.live phase).marked kind seq accepted past below
  · exact (carried.live phase).earlier kind seq accepted before

/-- Nothing is taken or handed over in the step. -/
theorem Carried.move (carried : system.Carried) {after : InboundSystem} (sound : after.Sound)
    (accepted : after.ledger.accepted = system.ledger.accepted) (handed : after.ledger.handed = system.ledger.handed)
    (ended : after.ended = system.ended)
    (due : ∀ kind seq, (kind, seq) ∈ system.ledger.accepted →
      after.ledger.Settled kind seq ∨ after.store.appWatermark ≠ 0 ∧ after.store.appWatermark < seq)
    (below : ∀ entry ∈ system.ledger.handed, entry.2 < after.store.nextTargetSeq)
    (phase : KeptPhase after.store after.ledger after.phase) : after.Carried where
  sound := sound
  due := accepted ▸ due
  once := by
    unfold InboundLedger.HandedOnce
    rw [handed]
    exact carried.once
  below := handed ▸ below
  ended := ended ▸ carried.ended
  phase := phase

/-- A write of the watermark keeps what is due above it, if it covers only what is settled. -/
theorem Carried.due_setAppWatermark (carried : system.Carried) {mark : Nat} (marked : mark ≠ 0)
    (settled : ∀ kind seq, (kind, seq) ∈ system.ledger.accepted → seq ≤ mark → system.ledger.Settled kind seq)
    (write : WriteEnd) (kind : InboundKind) (seq : Nat) (accepted : (kind, seq) ∈ system.ledger.accepted) :
    system.ledger.Settled kind seq ∨ (system.store.setAppWatermark mark write).appWatermark ≠ 0 ∧
      (system.store.setAppWatermark mark write).appWatermark < seq := by
  rcases system.store.setAppWatermark_cases mark write with same | same
  · rw [same]
    rcases Nat.lt_or_ge mark seq with above | covered
    · exact .inr ⟨marked, above⟩
    · exact .inl (settled kind seq accepted covered)
  · rw [same]
    exact carried.due kind seq accepted

/-! ### Starting -/

theorem Carried.reportInboundLoss (carried : system.Carried) : system.reportInboundLoss.Carried := by
  have sound := carried.sound.reportInboundLoss
  revert sound
  unfold InboundSystem.reportInboundLoss
  split
  · rename_i nothing
    intro sound
    refine carried.move sound rfl rfl rfl carried.due carried.below ?_
    intro kind seq accepted below
    rcases carried.due kind seq accepted with settled | ⟨marked, above⟩
    · exact settled
    · rw [inboundLossSpan_between marked above below carried.sound.numbered.2] at nothing
      cases nothing
  · rename_i span found
    obtain ⟨marked, spans, rfl⟩ := inboundLossSpan_eq_some found
    have grows := system.ledger.grows_report (system.store.appWatermark + 1, system.store.nextTargetSeq - 1)
    intro sound
    refine carried.move sound rfl rfl rfl ?_ carried.below ⟨by omega, Nat.sub_one_lt_of_lt (by omega), ?_⟩
    · intro kind seq accepted
      exact (carried.due kind seq accepted).imp_left (·.grow grows)
    · intro kind seq accepted below
      rcases carried.due kind seq accepted with settled | ⟨_, above⟩
      · exact settled.grow grows
      · exact .inr ⟨_, List.mem_cons_self, above, Nat.le_sub_one_of_lt below⟩

theorem Carried.recordLoss (carried : system.Carried) {last : Nat} (phase : system.phase = .recording last)
    (write : WriteEnd) : (system.recordLoss last write).Carried := by
  have kept := carried.phase
  rw [phase] at kept
  obtain ⟨marked, inside, settled⟩ := kept
  refine carried.move (carried.sound.recordLoss last write) rfl rfl rfl ?_ ?_ ?_
  · exact carried.due_setAppWatermark marked
      (fun kind seq accepted covered => settled kind seq accepted (Nat.lt_of_le_of_lt covered inside)) write
  · intro entry listed
    exact Nat.lt_of_lt_of_eq (carried.below entry listed) (InboundStore.setAppWatermark_target ..).symm
  · show KeptPhase (system.store.setAppWatermark last write) _ (if _ then _ else _)
    split
    · show InboundLedger.SettledBelow _ _
      rw [InboundStore.setAppWatermark_target]
      exact settled
    · exact trivial

theorem Carried.seed (carried : system.Carried) (phase : system.phase = .seeding) : system.seed.Carried := by
  have settled := carried.phase
  rw [phase] at settled
  have sound := carried.sound.seed
  rw [seed_eq carried.sound.numbered] at sound ⊢
  have every : ∀ kind seq, (kind, seq) ∈ (system.ledger.keepBelow system.store.nextTargetSeq).accepted →
      (system.ledger.keepBelow system.store.nextTargetSeq).Settled kind seq := by
    intro kind seq kept
    obtain ⟨accepted, below⟩ := List.mem_filter.mp kept
    exact (settled kind seq accepted (of_decide_eq_true below)).grow ⟨.refl _, .refl _, .refl _, .refl _⟩
  exact {
    sound := sound
    due := fun kind seq kept => .inl (every kind seq kept)
    once := carried.once
    below := carried.below
    ended := carried.ended
    phase := ⟨rfl, rfl, every⟩ }

/-- A reset that lands ends the stream, which is settled by then. -/
theorem Carried.endStream (carried : system.Carried) {target : Nat} (settled : system.ledger.SettledBelow target)
    {fresh : InboundStore} {phase : InboundPhase}
    (sound : { system.endStream target fresh with phase := phase }.Sound) (kept : KeptPhase fresh .new phase) :
    { system.endStream target fresh with phase := phase }.Carried where
  sound := sound
  due := nofun
  once := .nil
  below := nofun
  ended := fun stream listed => by
    rcases List.mem_cons.mp listed with rfl | before
    · exact ⟨settled, carried.once⟩
    · exact carried.ended stream before
  phase := kept

theorem Carried.reset (carried : system.Carried) {target persisted : Nat}
    (phase : system.phase = .handshake target persisted) (consumed : Bool) (write : WriteEnd) :
    (system.reset target consumed write).Carried := by
  have seeded := carried.phase
  rw [phase] at seeded
  have settled : system.ledger.SettledBelow target := fun kind seq accepted _ => seeded.2.2 kind seq accepted
  have sound := carried.sound.reset target consumed write
  cases write with
  | done =>
      refine carried.endStream settled sound ?_
      cases consumed <;> exact ⟨rfl, rfl, nofun⟩
  | failed landed =>
      cases landed
      · exact carried.move sound rfl rfl rfl carried.due carried.below trivial
      · exact carried.endStream settled sound trivial

theorem Carried.acceptLogon (carried : system.Carried) {target persisted : Nat}
    (phase : system.phase = .handshake target persisted) {write : WriteEnd}
    (keepsUp : system.KeepsUp (.acceptLogon write)) {after : InboundSystem}
    (taken : system.acceptLogon target write = some after) : after.Carried := by
  have seeded := carried.phase
  have below := carried.sound.phase
  rw [phase] at seeded below
  have sound := carried.sound.acceptLogon below.2 taken
  unfold InboundSystem.acceptLogon at taken
  obtain ⟨next, added, made⟩ := Option.bind_eq_some_iff.mp taken
  obtain ⟨rfl, fits⟩ := checkedAdd_eq_some.mp added
  obtain rfl := Option.some.inj made
  refine carried.move sound rfl rfl rfl (fun kind seq accepted => .inl (seeded.2.2 kind seq accepted)) ?_ ?_
  · intro entry listed
    have before := carried.below entry listed
    show entry.2 < (system.store.setNextTargetSeq _ _).nextTargetSeq
    rcases system.store.setNextTargetSeq_cases (target + 1) write with same | same
    · rw [same, seeded.1]
      exact Nat.lt_succ_of_lt before
    · rw [same]
      exact before
  · show KeptPhase (system.store.setNextTargetSeq _ _) _ (if _ then _ else _)
    split
    · rename_i goesOn
      exact ⟨(InboundStore.setNextTargetSeq_landed _ _ (keepsUp goesOn)).symm, rfl, seeded.2.2⟩
    · exact trivial

theorem Carried.spawn (carried : system.Carried) {target persisted : Nat}
    (seeded : SeededFrom system.store system.ledger target persisted) (sound : (system.spawn target persisted).Sound)
    (past : target ≠ 1) : (system.spawn target persisted).Carried := by
  have positive : 1 ≤ target := seeded.1 ▸ carried.sound.numbered.1
  refine carried.move sound rfl rfl rfl carried.due carried.below ?_
  exact {
    marked := by
      show target - 1 ≠ 0
      omega
    earlier := fun kind seq accepted _ => seeded.2.2 kind seq accepted
    target := Nat.le_of_eq seeded.1
    inStep := fun _ => ⟨seeded.1.symm, seeded.2.1⟩
    watermark := fun _ opening => absurd rfl opening
    opening := fun _ => ⟨by show target - 1 ≠ 0; omega, seeded.2.2⟩
    handed := fun entry listed => ⟨Nat.lt_of_lt_of_eq (carried.below entry listed) seeded.1.symm, nofun⟩
    recording := nofun }

/-! ### The live session -/

/-- The reactor moves on, consuming nothing. -/
theorem LiveStore.move {store after : InboundStore} {ledger noted : InboundLedger} {next : InboundReactor}
    (kept : LiveStore store ledger reactor) (grows : ledger.Grows noted) (accepted : noted.accepted = ledger.accepted)
    (handed : noted.handed = ledger.handed) (opening : next.opening = reactor.opening)
    (nextTarget : next.nextTarget = reactor.nextTarget) (persisted : next.persisted = reactor.persisted)
    (queue : next.queue = reactor.queue) (target : after.nextTargetSeq = store.nextTargetSeq)
    (opens : next.stage.isOpen = true → reactor.stage.isOpen = true ∧
      after.appWatermark ≠ 0 ∧ after.appWatermark < reactor.nextTarget)
    (opened : next.stage ≠ .opening)
    (recording : ∀ last, next.stage = .recording last → last ≠ 0 ∧ last + 1 = reactor.nextTarget) :
    LiveStore after noted next where
  marked := opening ▸ kept.marked
  earlier := by
    rw [opening, accepted]
    exact fun kind seq listed early => (kept.earlier kind seq listed early).grow grows
  target := by
    rw [nextTarget, target]
    exact kept.target
  inStep := fun isOpen => by
    rw [nextTarget, target, persisted]
    exact kept.inStep (opens isOpen).1
  watermark := fun isOpen _ => nextTarget ▸ (opens isOpen).2
  opening := fun isOpening => absurd isOpening opened
  handed := by
    rw [handed, nextTarget, queue]
    exact kept.handed
  recording := nextTarget ▸ recording

/-- The dispatcher moves on, taking nothing from the queue. -/
theorem LiveStore.still {store after : InboundStore} {ledger noted : InboundLedger} (kept : LiveStore store ledger reactor)
    (grows : ledger.Grows noted) (accepted : noted.accepted = ledger.accepted) (handed : noted.handed = ledger.handed)
    (target : after.nextTargetSeq = store.nextTargetSeq)
    (watermark : after.appWatermark = store.appWatermark ∨
      after.appWatermark ≠ 0 ∧ after.appWatermark < reactor.nextTarget) (changed : Bool) :
    LiveStore after noted { reactor with changed := changed } where
  marked := kept.marked
  earlier := by
    rw [accepted]
    exact fun kind seq listed early => (kept.earlier kind seq listed early).grow grows
  target := target ▸ kept.target
  inStep := fun isOpen => target ▸ kept.inStep isOpen
  watermark := fun isOpen opened => by
    rcases watermark with same | moved
    · rw [same]
      exact kept.watermark isOpen opened
    · exact moved
  opening := fun isOpening => by
    rw [accepted]
    exact ⟨(kept.opening isOpening).1, fun kind seq listed => ((kept.opening isOpening).2 kind seq listed).grow grows⟩
  handed := handed ▸ kept.handed
  recording := kept.recording

/-- The live session moves on over the same store, and nothing is taken or handed over. -/
theorem Carried.moveLive (carried : system.Carried) {ledger : InboundLedger} {next : InboundReactor}
    {moved : AppDispatcher} (sound : { system with ledger := ledger, phase := .live next moved }.Sound)
    (grows : system.ledger.Grows ledger) (accepted : ledger.accepted = system.ledger.accepted)
    (handed : ledger.handed = system.ledger.handed) (kept : LiveStore system.store ledger next) :
    { system with ledger := ledger, phase := .live next moved }.Carried :=
  carried.move sound accepted handed rfl
    (fun kind seq listed => (carried.due kind seq listed).imp_left (·.grow grows)) carried.below kept

theorem Carried.persistOpeningWatermark (carried : system.Carried) (phase : system.phase = .live reactor dispatcher)
    (stage : reactor.stage = .opening) {write : WriteEnd} (keepsUp : system.KeepsUp (.persistOpeningWatermark write))
    (sound : (system.persistOpeningWatermark reactor dispatcher write).Sound) :
    (system.persistOpeningWatermark reactor dispatcher write).Carried := by
  have kept := carried.live phase
  obtain ⟨published, settled⟩ := kept.opening stage
  have inside : reactor.published < reactor.nextTarget := (carried.sound.live phase).published
  have isOpen : reactor.stage.isOpen = true := by rw [stage]; rfl
  unfold InboundSystem.persistOpeningWatermark at sound ⊢
  rw [if_neg published] at sound ⊢
  refine carried.move sound rfl rfl rfl (fun kind seq accepted => .inl (settled kind seq accepted)) ?_ ?_
  · intro entry listed
    exact Nat.lt_of_lt_of_eq (carried.below entry listed) (InboundStore.setAppWatermark_target ..).symm
  · cases goesOn : write.goesOn system.policy with
    | false =>
        exact kept.move (.refl _) rfl rfl rfl rfl rfl rfl (InboundStore.setAppWatermark_target ..) nofun nofun nofun
    | true =>
        have landed := InboundStore.setAppWatermark_landed system.store reactor.published (keepsUp goesOn)
        refine kept.move (.refl _) rfl rfl rfl rfl rfl rfl (InboundStore.setAppWatermark_target ..) ?_ nofun nofun
        intro _
        rw [landed]
        exact ⟨isOpen, published, inside⟩

theorem Carried.persistTarget (carried : system.Carried) (phase : system.phase = .live reactor dispatcher)
    {kind : Option InboundKind} {next : Nat} (stage : reactor.stage = .persisting kind next) {write : WriteEnd}
    (keepsUp : system.KeepsUp (.persistTarget write)) :
    (system.persistTarget reactor dispatcher kind next write).Carried := by
  have kept := carried.live phase
  have live := carried.sound.live phase
  have moves : Moves reactor.nextTarget kind next := live.offered (kind, next) (by rw [stage]; rfl)
  have isOpen : reactor.stage.isOpen = true := by rw [stage]; rfl
  have inStep := kept.inStep isOpen
  have watermark := kept.watermark isOpen (by rw [stage]; exact nofun)
  have grows := system.ledger.grows_acceptNext reactor kind
  have sameHanded : (system.ledger.acceptNext reactor kind).handed = system.ledger.handed := by cases kind <;> rfl
  -- the number taken is the one expected, above the watermark the store holds
  have due : ∀ of seq, (of, seq) ∈ (system.ledger.acceptNext reactor kind).accepted →
      (system.ledger.acceptNext reactor kind).Settled of seq ∨
        system.store.appWatermark ≠ 0 ∧ system.store.appWatermark < seq := by
    intro of seq listed
    rcases InboundLedger.mem_acceptNext.mp listed with before | ⟨_, isTarget⟩
    · exact (carried.due of seq before).imp_left (·.grow grows)
    · exact .inr ⟨watermark.1, Nat.lt_of_lt_of_eq watermark.2 isTarget.symm⟩
  have earlier : ∀ of seq, (of, seq) ∈ (system.ledger.acceptNext reactor kind).accepted → seq ≤ reactor.opening →
      (system.ledger.acceptNext reactor kind).Settled of seq := by
    intro of seq listed early
    rcases InboundLedger.mem_acceptNext.mp listed with before | ⟨_, isTarget⟩
    · exact (kept.earlier of seq before early).grow grows
    · have past : reactor.opening < reactor.nextTarget := Nat.lt_of_le_of_lt live.opened live.completed
      exact absurd (isTarget ▸ early) (Nat.not_le.mpr past)
  have once : (system.ledger.acceptNext reactor kind).HandedOnce := by
    unfold InboundLedger.HandedOnce
    rw [sameHanded]
    exact carried.once
  have advanced {store : InboundStore} (target : store.nextTargetSeq = next)
      (same : store.appWatermark = system.store.appWatermark)
      (sound : { system with
        store := store
        ledger := system.ledger.acceptNext reactor kind
        phase := .live (reactor.advance kind next) dispatcher }.Sound) :
      { system with
        store := store
        ledger := system.ledger.acceptNext reactor kind
        phase := .live (reactor.advance kind next) dispatcher }.Carried := {
    sound := sound
    due := by
      show ∀ _ _, _ → _ ∨ store.appWatermark ≠ 0 ∧ store.appWatermark < _
      rw [same]
      exact due
    once := once
    below := fun entry listed => by
      show entry.2 < store.nextTargetSeq
      rw [target]
      exact Nat.lt_of_lt_of_le (kept.handed entry (sameHanded ▸ listed)).1 moves.le.1
    ended := carried.ended
    phase := {
      marked := reactor.advance_opening kind next ▸ kept.marked
      earlier := reactor.advance_opening kind next ▸ earlier
      target := by
        rw [reactor.advance_nextTarget, target]
      inStep := fun _ => by
        rw [reactor.advance_nextTarget, reactor.advance_persisted]
        exact ⟨target, rfl⟩
      watermark := fun _ _ => by
        rw [reactor.advance_nextTarget, same]
        exact ⟨watermark.1, Nat.lt_of_lt_of_le watermark.2 moves.le.1⟩
      opening := by rcases kind with _ | (_ | _) <;> exact nofun
      handed := fun entry listed => by
        obtain ⟨below, first⟩ := kept.handed entry (sameHanded ▸ listed)
        rw [reactor.advance_nextTarget]
        refine ⟨Nat.lt_of_lt_of_le below moves.le.1, ?_⟩
        intro queued isQueued
        rcases reactor.mem_advance_queue.mp isQueued with already | ⟨_, rfl⟩
        · exact first queued already
        · exact below
      recording := by rcases kind with _ | (_ | _) <;> exact nofun } }
  have sound := carried.sound.persistTarget phase stage write
  unfold InboundSystem.persistTarget at sound ⊢
  dsimp only at sound ⊢
  by_cases written : reactor.persisted = next
  · rw [if_pos written] at sound ⊢
    exact advanced (by rw [inStep.1, ← inStep.2, written]) rfl sound
  · rw [if_neg written] at sound ⊢
    by_cases goesOn : write.goesOn system.policy = true
    · rw [if_pos goesOn] at sound ⊢
      exact advanced (InboundStore.setNextTargetSeq_landed _ _ (keepsUp goesOn))
        (InboundStore.setNextTargetSeq_watermark ..) sound
    · rw [if_neg goesOn] at sound ⊢
      have further : reactor.nextTarget ≤ (system.store.setNextTargetSeq next write).nextTargetSeq := by
        rcases system.store.setNextTargetSeq_cases next write with same | same <;> rw [same]
        · exact moves.le.1
        · exact kept.target
      have handedBelow : ∀ entry ∈ system.ledger.handed,
          entry.2 < (system.store.setNextTargetSeq next write).nextTargetSeq := fun entry listed =>
        Nat.lt_of_lt_of_le (kept.handed entry listed).1 further
      have closing {ledger : InboundLedger} (same : ledger.handed = system.ledger.handed)
          (settled : ∀ of seq, (of, seq) ∈ ledger.accepted → seq ≤ reactor.opening → ledger.Settled of seq) :
          LiveStore (system.store.setNextTargetSeq next write) ledger
            { reactor with persisted := next, stage := .closing } := {
        marked := kept.marked
        earlier := settled
        target := further
        inStep := nofun
        watermark := nofun
        opening := nofun
        handed := same ▸ kept.handed
        recording := nofun }
      cases landed : write.landed with
      | false =>
          rw [landed] at sound
          exact carried.move sound rfl rfl rfl
            (by
              show ∀ _ _, _ → _ ∨ (system.store.setNextTargetSeq next write).appWatermark ≠ 0 ∧
                (system.store.setNextTargetSeq next write).appWatermark < _
              rw [InboundStore.setNextTargetSeq_watermark]
              exact carried.due)
            handedBelow (closing rfl kept.earlier)
      | true =>
          rw [landed] at sound
          exact {
            sound := sound
            due := by
              show ∀ _ _, _ → _ ∨ (system.store.setNextTargetSeq next write).appWatermark ≠ 0 ∧
                (system.store.setNextTargetSeq next write).appWatermark < _
              rw [InboundStore.setNextTargetSeq_watermark]
              exact due
            once := once
            below := fun entry listed => handedBelow entry (sameHanded ▸ listed)
            ended := carried.ended
            phase := closing sameHanded earlier }

/-- The number taken from the queue was never handed over, in this session or an earlier one. -/
theorem Carried.recv (carried : system.Carried) (phase : system.phase = .live reactor dispatcher) {next : Resume}
    {after : InboundSystem} (sound : after.Sound) (taken : system.recv reactor dispatcher next = some after) :
    after.Carried := by
  have kept := carried.live phase
  have live := carried.sound.live phase
  unfold InboundSystem.recv at taken
  split at taken
  · cases taken
  · rename_i seq rest queue
    obtain rfl := Option.some.inj taken
    have grows : system.ledger.Grows { system.ledger with handed := (system.sessions, seq) :: system.ledger.handed } :=
      ⟨List.subset_cons_self _ _, .refl _, .refl _, .refl _⟩
    have below : seq < reactor.nextTarget := (live.queued seq (queue ▸ List.mem_cons_self)).2
    have ordered := queue ▸ live.ordered
    rw [List.pairwise_cons] at ordered
    have unhanded : seq ∉ system.ledger.handed.map Prod.snd := by
      intro handed
      obtain ⟨entry, listed, rfl⟩ := List.mem_map.mp handed
      exact Nat.lt_irrefl _ ((kept.handed entry listed).2 entry.2 (queue ▸ List.mem_cons_self))
    exact {
      sound := sound
      due := fun kind other accepted => (carried.due kind other accepted).imp_left (·.grow grows)
      once := List.nodup_cons.mpr ⟨unhanded, carried.once⟩
      below := fun entry listed => by
        rcases List.mem_cons.mp listed with rfl | before
        · exact Nat.lt_of_lt_of_le below kept.target
        · exact carried.below entry before
      ended := carried.ended
      phase := { kept with
        earlier := fun kind other accepted early => (kept.earlier kind other accepted early).grow grows
        opening := fun isOpening =>
          ⟨(kept.opening isOpening).1, fun kind other accepted => ((kept.opening isOpening).2 kind other accepted).grow grows⟩
        handed := fun entry listed => by
          rcases List.mem_cons.mp listed with rfl | before
          · exact ⟨below, ordered.1⟩
          · obtain ⟨under, first⟩ := kept.handed entry before
            exact ⟨under, fun queued isQueued => first queued (queue ▸ List.mem_cons_of_mem _ isQueued)⟩ } }

/-- The watermark in memory is written to the store, or may be. -/
theorem Carried.storeMark (carried : system.Carried) (phase : system.phase = .live reactor dispatcher) {mark : Nat}
    (storing : mark ∈ dispatcher.stage.storing?) (write : WriteEnd) {moved : AppDispatcher}
    (sound : { system with
      store := system.store.setAppWatermark mark write
      phase := .live reactor moved }.Sound) :
    { system with store := system.store.setAppWatermark mark write, phase := .live reactor moved }.Carried := by
  have kept := carried.live phase
  have live := carried.sound.live phase
  obtain rfl := live.storing mark storing
  have marked : dispatcher.completed ≠ 0 := fun none => kept.marked (Nat.le_zero.mp (none ▸ live.opened))
  refine carried.move sound rfl rfl rfl ?_ ?_ ?_
  · exact carried.due_setAppWatermark marked
      (fun kind seq accepted covered => carried.settled phase accepted covered) write
  · intro entry listed
    exact Nat.lt_of_lt_of_eq (carried.below entry listed) (InboundStore.setAppWatermark_target ..).symm
  · refine kept.still (.refl _) rfl rfl (InboundStore.setAppWatermark_target ..) ?_ reactor.changed
    rcases system.store.setAppWatermark_cases dispatcher.completed write with same | same
    · rw [same]
      exact .inr ⟨marked, live.completed⟩
    · exact .inl same

theorem Carried.abort (carried : system.Carried) (phase : system.phase = .live reactor dispatcher) (landed : Bool)
    (sound : (system.abort reactor dispatcher landed).Sound) :
    (system.abort reactor dispatcher landed).Carried := by
  unfold InboundSystem.abort at sound ⊢
  split at sound
  · rename_i mark next stage
    exact carried.storeMark phase (by rw [stage]; rfl) _ sound
  · exact carried.moveLive sound (.refl _) rfl rfl (carried.live phase)

theorem Carried.reportUnfinished (carried : system.Carried) (phase : system.phase = .live reactor dispatcher)
    (sound : (system.reportUnfinished reactor dispatcher).Sound) :
    (system.reportUnfinished reactor dispatcher).Carried := by
  have kept := carried.live phase
  unfold InboundSystem.reportUnfinished at sound ⊢
  split at sound
  · exact carried.moveLive sound (.refl _) rfl rfl
      (kept.move (.refl _) rfl rfl rfl rfl rfl rfl rfl nofun nofun nofun)
  · rename_i span found
    obtain ⟨_, spans, rfl⟩ := inboundLossSpan_eq_some found
    have grows := system.ledger.grows_report (dispatcher.completed + 1, reactor.nextTarget - 1)
    refine carried.moveLive sound grows rfl rfl (kept.move grows rfl rfl rfl rfl rfl rfl rfl nofun nofun ?_)
    intro last isLast
    obtain rfl := ReactorStage.recording.inj isLast
    exact ⟨by omega, Nat.sub_add_cancel (by omega)⟩

theorem Carried.recordUnfinished (carried : system.Carried) (phase : system.phase = .live reactor dispatcher)
    {last : Nat} (stage : reactor.stage = .recording last) (write : WriteEnd)
    (sound : { system with
      store := system.store.setAppWatermark last write
      phase := .live { reactor with stage := .closed } dispatcher }.Sound) :
    { system with
      store := system.store.setAppWatermark last write
      phase := .live { reactor with stage := .closed } dispatcher }.Carried := by
  have kept := carried.live phase
  obtain ⟨marked, isLast⟩ := kept.recording last stage
  have settled := carried.settledBelow phase (by rw [stage]; rfl)
  refine carried.move sound rfl rfl rfl ?_ ?_ ?_
  · exact carried.due_setAppWatermark marked
      (fun kind seq accepted covered => settled kind seq accepted (isLast ▸ Nat.lt_succ_of_le covered)) write
  · intro entry listed
    exact Nat.lt_of_lt_of_eq (carried.below entry listed) (InboundStore.setAppWatermark_target ..).symm
  · exact kept.move (.refl _) rfl rfl rfl rfl rfl rfl (InboundStore.setAppWatermark_target ..) nofun nofun nofun

theorem Carried.resetOnClose (carried : system.Carried) (phase : system.phase = .live reactor dispatcher)
    (stage : reactor.stage = .closed) (write : WriteEnd) : (system.resetOnClose reactor write).Carried := by
  have settled := carried.settledBelow phase (by rw [stage]; rfl)
  have sound := carried.sound.resetOnClose reactor write
  cases write with
  | done => exact carried.endStream settled sound rfl
  | failed landed =>
      cases landed
      · exact carried.move sound rfl rfl rfl carried.due carried.below trivial
      · exact carried.endStream settled sound trivial

theorem Carried.persistCountersOnClose (carried : system.Carried) {nextTarget persisted : Nat} {write : WriteEnd}
    (handed : ∀ entry ∈ system.ledger.handed, entry.2 < nextTarget)
    (sound : (system.persistCountersOnClose nextTarget persisted write).Sound) :
    (system.persistCountersOnClose nextTarget persisted write).Carried := by
  unfold InboundSystem.persistCountersOnClose at sound ⊢
  by_cases written : persisted = nextTarget
  · rw [if_pos written] at sound ⊢
    exact carried.move sound rfl rfl rfl carried.due carried.below trivial
  · rw [if_neg written] at sound ⊢
    refine carried.move sound rfl rfl rfl ?_ ?_ trivial
    · show ∀ _ _, _ → _ ∨ (system.store.setNextTargetSeq nextTarget write).appWatermark ≠ 0 ∧
        (system.store.setNextTargetSeq nextTarget write).appWatermark < _
      rw [InboundStore.setNextTargetSeq_watermark]
      exact carried.due
    · intro entry listed
      show entry.2 < (system.store.setNextTargetSeq nextTarget write).nextTargetSeq
      rcases system.store.setNextTargetSeq_cases nextTarget write with same | same <;> rw [same]
      · exact handed entry listed
      · exact carried.below entry listed

theorem Carried.stepLive (carried : system.Carried) (phase : system.phase = .live reactor dispatcher)
    {action : InboundAction} (keepsUp : system.KeepsUp action) {after : InboundSystem}
    (taken : system.stepLive reactor dispatcher action = some after) : after.Carried := by
  have sound := carried.sound.stepLive phase taken
  have kept := carried.live phase
  cases action with
  | persistOpeningWatermark write =>
      obtain ⟨stage, made⟩ := Option.ite_none_right_eq_some.mp taken
      obtain rfl := Option.some.inj made
      exact carried.persistOpeningWatermark phase stage keepsUp sound
  | persistCounters write =>
      obtain ⟨stage, made⟩ := Option.ite_none_right_eq_some.mp taken
      obtain rfl := Option.some.inj made
      have isOpen : reactor.stage.isOpen = true := by rw [stage]; rfl
      have watermark := kept.watermark isOpen (by rw [stage]; rintro ⟨⟩)
      -- every number consumed was persisted when it was taken, so nothing is left to write
      unfold InboundSystem.persistCounters at sound ⊢
      rw [if_pos (kept.inStep isOpen).2] at sound ⊢
      exact carried.moveLive sound (.refl _) rfl rfl
        (kept.move (.refl _) rfl rfl rfl rfl rfl rfl rfl (fun _ => ⟨isOpen, watermark⟩)
          (by rintro ⟨⟩) (by rintro _ ⟨⟩))
  | receive kind next =>
      obtain ⟨⟨stage, _⟩, made⟩ := Option.ite_none_right_eq_some.mp taken
      obtain rfl := Option.some.inj made
      have isOpen : reactor.stage.isOpen = true := by rw [stage]; rfl
      have watermark := kept.watermark isOpen (by rw [stage]; rintro ⟨⟩)
      exact carried.moveLive sound (.refl _) rfl rfl
        (kept.move (.refl _) rfl rfl rfl rfl rfl rfl rfl (fun _ => ⟨isOpen, watermark⟩)
          (by rintro ⟨⟩) (by rintro _ ⟨⟩))
  | persistTarget write =>
      simp only [InboundSystem.stepLive] at taken
      split at taken
      · rename_i kind next stage
        obtain rfl := Option.some.inj taken
        exact carried.persistTarget phase stage keepsUp
      · cases taken
  | processed closes =>
      simp only [InboundSystem.stepLive] at taken
      split at taken
      · rename_i seq stage
        obtain rfl := Option.some.inj taken
        have isOpen : reactor.stage.isOpen = true := by rw [stage]; rfl
        have watermark := kept.watermark isOpen (by rw [stage]; rintro ⟨⟩)
        have grows : system.ledger.Grows { system.ledger with processed := seq :: system.ledger.processed } :=
          ⟨.refl _, .refl _, List.subset_cons_self _ _, .refl _⟩
        refine carried.moveLive sound grows rfl rfl
          (kept.move grows rfl rfl rfl rfl rfl rfl rfl (fun _ => ⟨isOpen, watermark⟩) ?_ ?_)
        · cases closes <;> rintro ⟨⟩
        · cases closes <;> rintro _ ⟨⟩
      · cases taken
  | publishAccounted =>
      obtain ⟨stage, made⟩ := Option.ite_none_right_eq_some.mp taken
      obtain rfl := Option.some.inj made
      have isOpen : reactor.stage.isOpen = true := by rw [stage]; rfl
      have watermark := kept.watermark isOpen (by rw [stage]; rintro ⟨⟩)
      refine carried.moveLive sound (.refl _) rfl rfl ?_
      unfold InboundReactor.publishAccounted
      split <;> exact kept.move (.refl _) rfl rfl rfl rfl rfl rfl rfl (fun _ => ⟨isOpen, watermark⟩)
        (by rintro ⟨⟩) (by rintro _ ⟨⟩)
  | close =>
      obtain ⟨_, made⟩ := Option.ite_none_right_eq_some.mp taken
      obtain rfl := Option.some.inj made
      exact carried.moveLive sound (.refl _) rfl rfl
        (kept.move (.refl _) rfl rfl rfl rfl rfl rfl rfl (by rintro ⟨⟩) (by rintro ⟨⟩) (by rintro _ ⟨⟩))
  | dropQueue =>
      obtain ⟨_, made⟩ := Option.ite_none_right_eq_some.mp taken
      obtain rfl := Option.some.inj made
      refine carried.moveLive sound (.refl _) rfl rfl ?_
      unfold InboundReactor.publishAccounted
      split <;> exact kept.move (.refl _) rfl rfl rfl rfl rfl rfl rfl
        (by rintro ⟨⟩) (by rintro ⟨⟩) (by rintro _ ⟨⟩)
  | abort landed =>
      obtain ⟨_, made⟩ := Option.ite_none_right_eq_some.mp taken
      obtain rfl := Option.some.inj made
      exact carried.abort phase landed sound
  | reportUnfinished =>
      obtain ⟨_, made⟩ := Option.ite_none_right_eq_some.mp taken
      obtain rfl := Option.some.inj made
      exact carried.reportUnfinished phase sound
  | recordUnfinished write =>
      simp only [InboundSystem.stepLive] at taken
      split at taken
      · rename_i last stage
        obtain rfl := Option.some.inj taken
        exact carried.recordUnfinished phase stage write sound
      · cases taken
  | resetOnClose write =>
      obtain ⟨stage, made⟩ := Option.ite_none_right_eq_some.mp taken
      exact Option.some.inj made ▸ carried.resetOnClose phase stage write
  | persistCountersOnClose write =>
      obtain ⟨_, made⟩ := Option.ite_none_right_eq_some.mp taken
      obtain rfl := Option.some.inj made
      exact carried.persistCountersOnClose (fun entry listed => (kept.handed entry listed).1) sound
  | recv =>
      simp only [InboundSystem.stepLive] at taken
      split at taken
      · exact carried.recv phase sound taken
      · exact carried.recv phase sound taken
      · cases taken
  | fromAppReturned =>
      simp only [InboundSystem.stepLive] at taken
      split at taken
      · rename_i seq next stage
        obtain rfl := Option.some.inj taken
        have grows : system.ledger.Grows { system.ledger with returned := seq :: system.ledger.returned } :=
          ⟨.refl _, List.subset_cons_self _ _, .refl _, .refl _⟩
        exact carried.moveLive sound grows rfl rfl (kept.still grows rfl rfl rfl (.inl rfl) reactor.changed)
      · cases taken
  | fromAppPanicked =>
      simp only [InboundSystem.stepLive] at taken
      split at taken
      · obtain rfl := Option.some.inj taken
        exact carried.moveLive sound (.refl _) rfl rfl kept
      · cases taken
  | marksChanged =>
      obtain ⟨_, made⟩ := Option.ite_none_right_eq_some.mp taken
      obtain rfl := Option.some.inj made
      exact carried.moveLive sound (.refl _) rfl rfl (kept.still (.refl _) rfl rfl rfl (.inl rfl) false)
  | drained =>
      simp only [InboundSystem.stepLive] at taken
      split at taken
      · obtain ⟨_, made⟩ := Option.ite_none_right_eq_some.mp taken
        obtain rfl := Option.some.inj made
        exact carried.moveLive sound (.refl _) rfl rfl kept
      · cases taken
  | setAppWatermark write =>
      simp only [InboundSystem.stepLive] at taken
      split at taken
      · rename_i mark next stage
        obtain rfl := Option.some.inj taken
        exact carried.storeMark phase (by rw [stage]; rfl) write sound
      · cases taken
  | queueClosed =>
      obtain ⟨_, made⟩ := Option.ite_none_right_eq_some.mp taken
      obtain rfl := Option.some.inj made
      exact carried.moveLive sound (.refl _) rfl rfl kept
  | crash => cases taken
  | reportInboundLoss => cases taken
  | recordLoss _ => cases taken
  | seed => cases taken
  | reset _ _ => cases taken
  | acceptLogon _ => cases taken
  | spawn => cases taken

theorem Carried.step (carried : system.Carried) {action : InboundAction} (keepsUp : system.KeepsUp action)
    {after : InboundSystem} (taken : system.step action = some after) : after.Carried := by
  have sound := carried.sound.step taken
  unfold InboundSystem.step at taken
  split at taken
  · obtain rfl := Option.some.inj taken
    exact carried.move sound rfl rfl rfl carried.due carried.below trivial
  · exact Option.some.inj taken ▸ carried.reportInboundLoss
  · rename_i phase
    exact Option.some.inj taken ▸ carried.recordLoss phase _
  · rename_i phase
    exact Option.some.inj taken ▸ carried.seed phase
  · rename_i phase
    exact Option.some.inj taken ▸ carried.reset phase _ _
  · rename_i phase
    exact carried.acceptLogon phase keepsUp taken
  · rename_i phase
    have seeded := carried.phase
    rw [phase] at seeded
    simp only [KeepsUp, phase] at keepsUp
    obtain rfl := Option.some.inj taken
    exact carried.spawn seeded sound keepsUp
  · rename_i phase
    have seeded := carried.phase
    rw [phase] at seeded
    simp only [KeepsUp, phase] at keepsUp
    obtain rfl := Option.some.inj taken
    exact carried.spawn seeded sound keepsUp
  · rename_i phase
    have leaving := carried.phase
    rw [phase] at leaving
    obtain rfl := Option.some.inj taken
    refine carried.persistCountersOnClose ?_ sound
    rw [show system.ledger.handed = [] from leaving]
    exact nofun
  · rename_i phase
    exact carried.stepLive phase keepsUp taken
  · cases taken

/-! ## What a run accounts for -/

/-- What a session accounts for, whatever the store does. -/
structure AccountsInSession (system : InboundSystem) : Prop where
  /-- What the watermark in memory covers of the session is done. -/
  published : ∀ reactor dispatcher, system.phase = .live reactor dispatcher → ∀ kind seq,
    (kind, seq) ∈ system.ledger.accepted → reactor.opening < seq → seq ≤ dispatcher.completed →
    system.ledger.Done kind seq
  /-- The close reports what the session took and did not do. -/
  atClose : ∀ reactor dispatcher, system.phase = .live reactor dispatcher → reactor.stage.isReported = true →
    reactor.opening ≠ 0 → ∀ kind seq, (kind, seq) ∈ system.ledger.accepted → reactor.opening < seq →
    seq < reactor.nextTarget → system.ledger.Settled kind seq
  /-- A session hands no number over twice. -/
  once : system.ledger.handed.Nodup ∧ ∀ stream ∈ system.ended, stream.2.handed.Nodup

/-- What the store carries from one session to the next. -/
structure AccountsForAll (system : InboundSystem) : Prop where
  stored : ∀ kind seq, (kind, seq) ∈ system.ledger.accepted → seq ≤ system.store.appWatermark →
    system.ledger.Settled kind seq
  published : ∀ reactor dispatcher, system.phase = .live reactor dispatcher → ∀ kind seq,
    (kind, seq) ∈ system.ledger.accepted → seq ≤ dispatcher.completed → system.ledger.Settled kind seq
  atClose : ∀ reactor dispatcher, system.phase = .live reactor dispatcher → reactor.stage.isReported = true →
    system.ledger.SettledBelow reactor.nextTarget
  /-- Once a start has reported, everything the store's target has passed is done or reported. -/
  atStart : (system.phase = .seeding ∨ ∃ last, system.phase = .recording last) →
    system.ledger.SettledBelow system.store.nextTargetSeq
  once : system.ledger.HandedOnce
  /-- A stream a reset ended left nothing behind. -/
  ended : ∀ stream ∈ system.ended, stream.2.SettledBelow stream.1 ∧ stream.2.HandedOnce

theorem Sound.accounts (sound : system.Sound) : system.AccountsInSession where
  published := fun _ _ phase _ _ accepted past covered => (sound.live phase).done accepted past covered
  atClose := fun _ _ phase reported opening => ((sound.live phase).reported reported).2 opening
  once := ⟨sound.once, sound.ended⟩

theorem Carried.accounts (carried : system.Carried) : system.AccountsForAll where
  stored := fun kind seq accepted covered => by
    rcases carried.due kind seq accepted with settled | ⟨_, above⟩
    · exact settled
    · exact absurd covered (Nat.not_le.mpr above)
  published := fun _ _ phase _ _ accepted covered => carried.settled phase accepted covered
  atClose := fun _ _ phase reported => carried.settledBelow phase reported
  atStart := fun started => by
    have kept := carried.phase
    rcases started with phase | ⟨last, phase⟩
    · rw [phase] at kept
      exact kept
    · rw [phase] at kept
      exact kept.2.2
  once := carried.once
  ended := carried.ended

/-- Every session accounts for what it took, whatever the store does, and over sessions, crashes and
resets everything is accounted for as long as the store keeps up. -/
theorem watermark_accounts (policy : StoreFailurePolicy) (capacity : Nat) (system : InboundSystem) :
    (Reaches step anyStep (start policy capacity) system → system.AccountsInSession) ∧
      (Reaches step KeepsUp (start policy capacity) system → system.AccountsForAll) := by
  constructor
  · intro reached
    exact (reached.invariant (P := Sound) (fun _ _ _ sound _ taken => sound.step taken)
      (start_sound policy capacity)).accounts
  · intro reached
    exact (reached.invariant (P := Carried) (fun _ _ _ carried keepsUp taken => carried.step keepsUp taken)
      (start_carried policy capacity)).accounts

/-- A session opens at number 2, its Logon being number 1. -/
def opens : List InboundAction :=
  [.reportInboundLoss, .seed, .acceptLogon .done, .spawn, .persistOpeningWatermark .done]

/-- Number 2 is in `from_app` when the process dies. -/
def diesInFromApp : List InboundAction :=
  opens ++ [.receive (some .app) 3, .persistTarget .done, .recv, .crash, .reportInboundLoss]

theorem diesInFromApp_accounts : ∃ system, run (guarded step KeepsUp) (start .closeSession 8) diesInFromApp =
    some system ∧ system.ledger.reported = [(2, 2)] ∧ system.AccountsInSession ∧ system.AccountsForAll := by
  obtain ⟨system, ran, reported⟩ : ∃ system,
      run (guarded step KeepsUp) (start .closeSession 8) diesInFromApp = some system ∧
        system.ledger.reported = [(2, 2)] := ⟨_, rfl, rfl⟩
  have reached := reaches_of_guarded ran
  have both := watermark_accounts .closeSession 8 system
  exact ⟨system, ran, reported, both.1 (reached.mono fun _ _ _ => trivial), both.2 reached⟩

/-- The close aborts the dispatcher in `from_app` and records number 2 as reported. -/
def abortedInFromApp : List InboundAction :=
  opens ++ [.receive (some .app) 3, .persistTarget .done, .recv, .publishAccounted, .close, .dropQueue, .abort false,
    .reportUnfinished, .recordUnfinished .done]

/-- The target write of number 2 fails and the session goes on; the process dies once `from_app`
returned, and the counterparty is asked for number 2 again. -/
def diesBehindTheStore : List InboundAction :=
  opens ++ [.receive (some .app) 3, .persistTarget (.failed false), .recv, .fromAppReturned, .crash,
    .reportInboundLoss, .seed, .spawn, .persistOpeningWatermark .done, .receive (some .app) 3, .persistTarget .done,
    .recv]

/-- The Logon is above the number expected, 1, and is not consumed; number 1 is queued when the
process dies. -/
def diesUnmarked : List InboundAction :=
  [.reportInboundLoss, .seed, .spawn, .persistOpeningWatermark .done, .receive (some .app) 2, .persistTarget .done,
    .crash, .reportInboundLoss]

/-- The stored watermark covers a number that is only reported; a number is handed over twice; a
number is neither done nor reported. -/
theorem watermark_covers_unreturned :
    (∃ system, run step (start .closeSession 8) abortedInFromApp = some system ∧
      (InboundKind.app, 2) ∈ system.ledger.accepted ∧ 2 ≤ system.store.appWatermark ∧
      system.ledger.returned = []) ∧
    (∃ system, run step (start .continue 8) diesBehindTheStore = some system ∧
      system.ledger.handed = [(2, 2), (1, 2)]) ∧
    ∃ system, run step (start .closeSession 8) diesUnmarked = some system ∧ system.phase = .seeding ∧
      (InboundKind.app, 1) ∈ system.ledger.accepted ∧ 1 < system.store.nextTargetSeq ∧
      system.ledger.returned = [] ∧ system.ledger.reported = [] := by
  refine ⟨⟨_, rfl, by decide, by decide, rfl⟩, ⟨_, rfl, rfl⟩, ⟨_, rfl, rfl, by decide, by decide, rfl, rfl⟩⟩

end InboundSystem

end IronFix.Engine
