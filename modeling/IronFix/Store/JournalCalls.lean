import IronFix.Store.JournalStanding

/-!
# Calls on a journal

Each call of a file store, run on a journal that represents a store over stable
storage, answers as a call of that store may, and leaves a journal that
represents what the call leaves of it.
-/

namespace IronFix.Store

open Journal Lib.Decimal Lib.FaultyDisk Lib.Ordered Lib.Steps

section Replaced

variable {journal after : Journal} {content lasting : Content} {store : StableStore} {request : Request}

/-- A step that leaves the file has changed nothing. -/
theorem Represents.looked (represents : Represents journal content lasting store) (reads writes : List Outcome) :
    Represents { journal with disk := later journal.disk reads writes } content lasting store := by
  obtain ⟨⟨recovers, stands, created, even, shown⟩, policy, held, kept, filed, owed, time, usable⟩ := represents
  refine ⟨⟨recovers.along ⟨rfl, rfl, rfl, rfl, rfl, rfl, UInt64.le_refl _⟩, ?_, created, even, shown⟩, policy, held,
    kept, filed, owed, time, usable⟩
  intro whole
  obtain ⟨stood, watermark⟩ := stands whole
  exact ⟨stood.skips (later journal.disk reads writes) rfl (UInt64.le_refl _), watermark⟩

/-- What is left to do behind a rename undoes nothing. -/
theorem Recovers.renamed {pending : Pending} (cut : pending.cutBackTo = none) (restores : pending.restoreSlots = none)
    (recovers : Recovers { journal with pending := .default } content lasting) (own : journal.pending = pending) :
    Recovers journal content lasting := by
  obtain ⟨lasts, holds, generations, follows, vouched, -⟩ := recovers
  refine ⟨⟨lasts.holds, lasts.generations, lasts.durableEnd, lasts.durableSlots, lasts.inside, lasts.image⟩, ?_,
    generations, follows, vouched, ?_⟩
  · have same : journal.pending.undo journal.disk.file = journal.disk.file := by
      unfold Pending.undo
      rw [own, cut, restores]
      rfl
    rw [same]
    exact holds
  · intro offset cuts
    rw [own, cut] at cuts
    cases cuts

/-- Another journal in place of this one: what is held of the call, and what its
callers see. -/
structure Rewritten (journal : Journal) (content : Content) (store : StableStore) (request : Request)
    (content' : Content) (after : Journal) : Prop where
  config : after.config = journal.config
  memory : content'.memory = (store.held.after request).setResetOwed journal.resetOwed
  filings : ∀ filing ∈ content'.filings, filing ∈ content.filings
  created : content'.creationTime = request.createdAt content.creationTime
  shown : after.Shown
  watermark : after.appWatermark = content'.slot.appWatermark
  owed : after.resetOwed = journal.resetOwed

theorem Rewritten.along {content' : Content} {later : Journal}
    (rewritten : Rewritten journal content store request content' after) (config : later.config = after.config)
    (marks : later.marks = after.marks) : Rewritten journal content store request content' later := by
  obtain ⟨same, memory, filings, created, shown, watermark, owed⟩ := rewritten
  exact ⟨config.trans same, memory, filings, created, shown.along marks, (congrArg Marks.appWatermark marks).trans watermark,
    (congrArg Marks.resetOwed marks).trans owed⟩

/-- A journal that was replaced represents the new store, open or with steps
behind the rename left to do. -/
theorem Represents.rewritten {content' : Content} (represents : Represents journal content lasting store)
    (rewritten : Rewritten journal content store request content' after) (standing : Standing after content' content') :
    Represents after content' content'
      { store.after request journal.resetOwed with
        kept := (store.after request journal.resetOwed).held
        usable := after.pending.isClear } := by
  refine ⟨standing, represents.configured rewritten.config, rewritten.memory.symm, rewritten.memory.symm, ?_,
    represents.owed.trans rewritten.owed.symm, ?_, rfl⟩
  · intro filing member
    exact List.mem_append_left _ (represents.filed filing (rewritten.filings filing member))
  · show request.createdAt store.created = _
    rw [represents.created, rewritten.created]

/-- The rename is done, and all behind it. -/
theorem Represents.replaced {content' : Content} (represents : Represents journal content lasting store)
    (rewritten : Rewritten journal content store request content' after)
    (stands : Stands after content' content') : ∃ store',
      StableStore.Replaces store request (.ok []) store' ∧ Represents after content' content' store' := by
  have standing : Standing after content' content' :=
    .opened stands rewritten.watermark rfl (fun _ => rfl) rewritten.shown
  have left := represents.rewritten rewritten standing
  rw [stands.live.clear] at left
  exact ⟨_, .done (.inr represents.owed.symm), left⟩

/-- The rename is done, and what is behind it is left to do. -/
theorem Represents.replacedLate {content' : Content} (represents : Represents journal content lasting store)
    (rewritten : Rewritten journal content store request content' after) (error : StoreError)
    (closed : after.pending.isClear = false) (cut : after.pending.cutBackTo = none)
    (restores : after.pending.restoreSlots = none)
    (stands : Stands { after with pending := .default } content' content') : ∃ store',
      StableStore.Replaces store request (.error error) store' ∧ Represents after content' content' store' := by
  have standing : Standing after content' content' := by
    refine ⟨.renamed cut restores stands.recovers rfl, ?_, rfl, fun _ => rfl, rewritten.shown⟩
    intro _
    exact ⟨stands, rewritten.watermark⟩
  have left := represents.rewritten rewritten standing
  rw [closed] at left
  exact ⟨_, .late error (.inr represents.owed.symm), left⟩

/-- A reset starts an empty store. -/
theorem Represents.resets (represents : Represents journal content lasting store) (nextSender nextTarget : UInt64)
    (now : SystemTime) : Simulates store (.resetTo nextSender nextTarget now)
      (answered (replace nextSender nextTarget now) journal) := by
  rcases @replace_spec journal nextSender nextTarget now with
    ⟨error, reads, writes, failed⟩ | ⟨installed, renamed, config, marks, stands⟩
  · rw [answered_error failed]
    refine (represents.looked reads writes).refuses error ?_
    rintro ⟨⟩
  · have rewritten : Rewritten journal content store (.resetTo nextSender nextTarget now)
        (.reset journal nextSender nextTarget now) installed := by
      refine ⟨config, rfl, fun filing member => absurd member List.not_mem_nil, rfl, ?_,
        congrArg Marks.appWatermark marks, congrArg Marks.resetOwed marks⟩
      have owed : journal.shared.resetOwed = journal.resetOwed :=
        congrArg Shared.resetOwed represents.standing.shown
      unfold Journal.Shown
      rw [marks]
      unfold Marks.Shown Shared.publish
      dsimp only
      rw [owed]
      rfl
    rcases renamed.stands stands with
      ⟨after, done, config', marks', stood⟩ | ⟨error, after, waits, config', marks', closed, cut, restores, stood⟩
    · rw [answered_ok done]
      obtain ⟨store', how, left⟩ := represents.replaced (rewritten.along config' marks') stood
      exact ⟨_, _, store', .replaces rfl (fun other => by cases other) how, left⟩
    · rw [answered_error waits]
      obtain ⟨store', how, left⟩ :=
        represents.replacedLate (rewritten.along config' marks') error closed cut restores stood
      exact ⟨_, _, store', .replaces rfl (fun other => by cases other) how, left⟩

/-- What a compaction keeps. -/
theorem Stands.compacted_memory (stands : Stands journal content lasting)
    (watermark : journal.appWatermark = content.slot.appWatermark)
    (sender : (content.compacted journal).nextSender = journal.nextSender) :
    (content.compacted journal).memory = content.memory.setResetOwed journal.resetOwed := by
  have frames : framesOf (content.compacted journal).filings = framesOf content.filings := framesOf_liveOf
  unfold Content.memory
  rw [frames, sender, stands.live.nextSender]
  show MemoryStore.mk _ _ journal.nextTarget.toNat journal.resetOwed journal.appWatermark.toNat = _
  rw [stands.live.nextTarget, watermark]
  rfl

/-- A compaction is seen by no caller. -/
theorem Represents.compacts (represents : Represents journal content lasting store) (usable : store.usable = true) :
    (Represents (resultOf (compact journal)).2 content lasting store ∧
      ∃ error, (resultOf (compact journal)).1 = .error error) ∨
    ∃ content' store', StableStore.Replaces store .compact
        ((resultOf (compact journal)).1.map fun _ => []) store' ∧
      Represents (resultOf (compact journal)).2 content' content' store' := by
  obtain ⟨stands, watermark⟩ := represents.stands usable
  -- what is compacted, of any journal with the marks of this one
  have rewrites : ∀ {after : Journal}, after.config = journal.config → after.marks = journal.marks →
      (content.compacted journal).nextSender = after.nextSender →
      Rewritten journal content store .compact (content.compacted journal) after := by
    intro after config marks sender
    have same : after.nextSender = journal.nextSender := congrArg Marks.nextSender marks
    refine ⟨config, ?_, fun filing member => mem_liveOf member, stands.live.creationTime,
      represents.standing.shown.along marks, congrArg Marks.appWatermark marks, congrArg Marks.resetOwed marks⟩
    rw [stands.compacted_memory watermark (sender.trans same), represents.held]
    rfl
  rcases stands.compacts with ⟨error, reads, writes, failed⟩ |
    ⟨after, done, config, marks, stood⟩ | ⟨error, after, failed, config, marks, closed, cut, restores, stood⟩
  · rw [failed]
    exact .inl ⟨represents.looked reads writes, error, rfl⟩
  · rw [done]
    obtain ⟨store', how, left⟩ := represents.replaced (rewrites config marks stood.live.nextSender.symm) stood
    exact .inr ⟨_, store', how, left⟩
  · rw [failed]
    obtain ⟨store', how, left⟩ :=
      represents.replacedLate (rewrites config marks stood.live.nextSender.symm) error closed cut restores stood
    exact .inr ⟨_, store', how, left⟩

theorem Represents.runsCompact (represents : Represents journal content lasting store) :
    Simulates store .compact (Journal.run .compact journal) := by
  cases isUsable : store.usable with
  | false =>
      have closed : journal.pending.isClear = false := represents.usable ▸ isUsable
      have refused : Journal.run .compact journal = .error notUsable journal := by
        show (do let bytes ← compact; return Answer.reclaimed bytes : Step Answer) journal = _
        unfold compact
        rw [bind_apply, bind_apply, usable_error closed]
      rw [refused]
      exact represents.refuses notUsable fun other => by cases other
  | true =>
      have left := represents.compacts isUsable
      show Simulates _ _ ((do let bytes ← compact; return Answer.reclaimed bytes : Step Answer) journal)
      rw [bind_apply]
      cases ends : compact journal with
      | ok bytes after =>
          rw [ends] at left
          rcases left with ⟨-, error, failed⟩ | ⟨content', store', how, left⟩
          · cases failed
          · exact ⟨content', content', store', .replaces rfl (fun _ => isUsable) how, left⟩
      | error error after =>
          rw [ends] at left
          rcases left with ⟨left, -⟩ | ⟨content', store', how, left⟩
          · refine ⟨content, lasting, store, .refused error ?_, left⟩
            rintro ⟨⟩
          · exact ⟨content', content', store', .replaces rfl (fun _ => isUsable) how, left⟩

/-- A count of failed compactions is no other journal. -/
theorem Represents.counted (represents : Represents journal content lasting store) (failedAt : Option Nat) :
    Represents { journal with failedCompactionAt := failedAt } content lasting store := by
  obtain ⟨⟨recovers, stands, created, even, shown⟩, policy, held, kept, filed, owed, time, usable⟩ := represents
  refine ⟨⟨recovers.along ⟨rfl, rfl, rfl, rfl, rfl, rfl, UInt64.le_refl _⟩, ?_, created, even, shown⟩, policy, held,
    kept, filed, owed, time, usable⟩
  intro whole
  obtain ⟨⟨recovers, live, durable, spared⟩, watermark⟩ := stands whole
  exact ⟨⟨recovers.along ⟨rfl, rfl, rfl, rfl, rfl, rfl, UInt64.le_refl _⟩, ⟨live.clear, live.slots, live.active,
    live.index, live.deadBytes, live.endOffset, live.nextSender, live.nextTarget, live.creationTime,
    live.unsynced⟩, durable, spared⟩, watermark⟩

/-- A compaction between two calls fails without a trace, or is done. -/
theorem Represents.afterCall (represents : Represents journal content lasting store) (usable : store.usable = true) :
    ∃ content' lasting' store' result, (store' = store ∨ StableStore.Replaces store .compact result store') ∧
      Represents (resultOf (Journal.afterCall journal)).2 content' lasting' store' := by
  have left := represents.compacts usable
  unfold Journal.afterCall
  rw [bind_apply]
  unfold attempt
  cases ends : compact journal with
  | ok bytes after =>
      rw [ends] at left
      rcases left with ⟨-, error, failed⟩ | ⟨content', store', how, left⟩
      · cases failed
      · exact ⟨content', content', store', _, .inr how, left⟩
  | error error after =>
      rw [ends] at left
      rcases left with ⟨left, -⟩ | ⟨content', store', how, left⟩
      · exact ⟨content, lasting, store, .ok [], .inl rfl, left.counted _⟩
      · exact ⟨content', content', store', _, .inr how, left.counted _⟩

end Replaced

/-! ## Writes and flushes -/

section Written

variable {journal after : Journal} {content lasting : Content} {store : StableStore}

/-- A call that needs an open journal. -/
theorem Represents.guards {request : Request} {step : Step Unit}
    (represents : Represents journal content lasting store) (silent : request.isRead = false)
    (opens : store.usable = true → Simulates store request (answered step journal)) :
    Simulates store request (answered (do Journal.usable; step) journal) := by
  cases isUsable : store.usable with
  | false =>
      have closed : journal.pending.isClear = false := represents.usable ▸ isUsable
      have refused : (do Journal.usable; step : Step Unit) journal = .error notUsable journal := by
        rw [bind_apply, usable_error closed]
      rw [answered_error refused]
      refine represents.refuses notUsable ?_
      intro isRead
      rw [silent] at isRead
      cases isRead
  | true =>
      have open' : journal.pending.isClear = true := represents.usable ▸ isUsable
      have same : answered (do Journal.usable; step) journal = answered step journal := by
        unfold answered
        rw [bind_apply, bind_apply, usable_ok open', bind_apply]
      rw [same]
      exact opens isUsable

/-- The watermark is set. -/
theorem Represents.setsAppWatermark (represents : Represents journal content lasting store)
    (usable : store.usable = true) (watermark : UInt64) :
    Simulates store (.setAppWatermark watermark)
      (answered (setAppWatermark watermark) journal) := by
  obtain ⟨stands, isWatermark⟩ := represents.stands usable
  have shown := represents.standing.shown
  rcases stands.setsAppWatermark shown.counts watermark with
    ⟨same, done⟩ | ⟨after, lasting', done, config, marks, written, advances⟩ | ⟨error, after, failed, how⟩
  · rw [answered_ok done]
    -- nothing is written, and nothing is to be written
    have advances : Advances journal.config.syncPolicy lasting content lasting := by
      by_cases every : journal.config.syncPolicy = .everyWrite
      · exact .inl (represents.standing.even every)
      · exact .inr ⟨rfl, every⟩
    have memory : content.memory = (store.held.after (.setAppWatermark watermark)).setResetOwed
        store.held.resetOwed := by
      rw [represents.held]
      show content.memory = { content.memory with appWatermark := watermark.toNat }
      rw [← same, isWatermark]
      rfl
    obtain ⟨kept, isKept, left⟩ := represents.wrote usable rfl stands rfl advances memory
      (fun filing member => .inl member) rfl shown isWatermark rfl
    exact ⟨_, lasting, _, .writes rfl usable (.inl rfl) isKept, left⟩
  · rw [answered_ok done]
    have memory : (content.recounted (journal.watermarked watermark)).memory =
        (store.held.after (.setAppWatermark watermark)).setResetOwed journal.resetOwed := by
      have marked := stands.marked journal.shared journal.resetOwed watermark
      rw [represents.held]
      exact marked.recounted_memory
    have shown' : after.Shown := by
      unfold Journal.Shown Marks.Shown Journal.marks at *
      rw [marks]
      dsimp only at shown ⊢
      rw [shown]
    obtain ⟨kept, isKept, left⟩ := represents.wrote usable rfl written config advances memory
      (fun filing member => .inl member) rfl shown' (congrArg Marks.appWatermark marks)
      (congrArg Marks.resetOwed marks)
    exact ⟨_, lasting', _, .writes rfl usable (.inr represents.owed.symm) isKept, left⟩
  · rw [answered_error failed]
    exact represents.failed usable (.inl rfl) how

/-- Everything is flushed. -/
theorem Represents.syncs (represents : Represents journal content lasting store) (usable : store.usable = true) :
    Simulates store .sync (answered flush journal) := by
  obtain ⟨stands, isWatermark⟩ := represents.stands usable
  rcases stands.recovers.flushes stands.live with ⟨after, done, config, marks, stood⟩ | ⟨error, after, failed, closed⟩
  · rw [answered_ok done]
    have standing : Standing after content content :=
      .opened stood ((congrArg Marks.appWatermark marks).trans isWatermark) rfl (fun _ => rfl)
        (represents.standing.shown.along marks)
    refine ⟨content, content, _, .syncs rfl usable, standing, represents.configured config, represents.held,
      represents.held, represents.filed, ?_, represents.created, usable.trans stood.live.clear.symm⟩
    exact represents.owed.trans (congrArg Marks.resetOwed marks).symm
  · rw [answered_error failed]
    exact represents.failed usable (.inr rfl) (.lost closed)

end Written

/-! ## Refreshes -/

section Refreshed

variable {journal after : Journal} {content lasting lasting' : Content} {store : StableStore}

/-- Frames of a content are known, whatever flush they are of. -/
theorem Represents.behind (represents : Represents journal content lasting store)
    (slot : lasting'.slot = content.slot) (follows : lasting'.filings <+: content.filings) :
    store.Behind lasting'.memory := by
  refine ⟨?_, ?_, ?_, ?_⟩
  · rw [represents.held]
    exact congrArg (fun slot => slot.nextTarget.toNat) slot
  · rw [represents.held]
    exact congrArg Slot.resetOwed slot
  · rw [represents.held]
    exact congrArg (fun slot => slot.appWatermark.toNat) slot
  · intro entry member
    obtain ⟨filing, among, rfl⟩ := mem_framesOf member
    exact represents.filed filing (follows.subset among)

/-- What an undo leaves flushed. -/
theorem Represents.undone (represents : Represents journal content lasting store)
    (remade : Remade lasting content lasting') :
    StableStore.Undone store lasting'.memory ∧
      lasting'.creationTime = content.creationTime ∧ lasting'.filings = lasting.filings ∧
        (journal.config.syncPolicy = .everyWrite → lasting' = content) := by
  have standing := represents.standing
  rcases remade with rfl | rfl
  · exact ⟨.inl represents.kept.symm, standing.created, rfl, standing.even⟩
  · refine ⟨?_, standing.created, rfl, ?_⟩
    · by_cases every : journal.config.syncPolicy = .everyWrite
      · obtain rfl := standing.even every
        exact .inl represents.kept.symm
      · rw [← represents.policy] at every
        exact .inr ⟨every, represents.behind rfl standing.recovers.follows⟩
    · intro every
      obtain rfl := standing.even every
      rfl

theorem Content.marks_shown {truncation : Option Truncation} : (content.marks truncation).Shown := rfl

/-- A refresh reads back what is held, or fails. -/
theorem Represents.reloads (represents : Represents journal content lasting store) :
    ∃ content' lasting' store', StableStore.Refreshes store
        ((resultOf (reload journal)).1.map fun _ => []) store' ∧
      Represents (resultOf (reload journal)).2 content' lasting' store' := by
  have standing := represents.standing
  rcases standing.recovers.reloads with
    ⟨after, lasting', done, config, marks, stood, slot, created, flushed⟩ |
      ⟨error, after, lasting', failed, remade, ⟨prepared, recovers⟩ | ⟨config, marks, undoes, recovers⟩⟩
  · rw [done]
    have policy : lasting'.memory = store.held ∨ store.policy = .never ∧ store.Behind lasting'.memory := by
      rw [represents.policy]
      cases isPolicy : journal.config.syncPolicy with
      | everyWrite | everyN every =>
          rw [isPolicy] at flushed
          rw [flushed rfl]
          exact .inl represents.held.symm
      | never => exact .inr ⟨rfl, represents.behind slot stood.recovers.follows⟩
    have even : after.config.syncPolicy = .everyWrite → lasting' = content := by
      rw [config]
      intro every
      refine flushed ?_
      rw [every]
      rfl
    have shown : after.Shown := by
      unfold Journal.Shown
      rw [marks]
      exact Content.marks_shown
    have owed : after.resetOwed = content.slot.resetOwed := congrArg Marks.resetOwed marks
    refine ⟨content, lasting', _, .done policy, .opened stood (congrArg Marks.appWatermark marks) created even shown,
      represents.configured config, represents.held, rfl, represents.filed, ?_, represents.created,
      stood.live.clear.symm⟩
    show store.held.resetOwed = after.resetOwed
    rw [represents.held, owed]
    rfl
  · rw [failed]
    have shown := standing.shown.along prepared.marks
    have stays : store.usable = true → after.pending.isClear = true := by
      rw [represents.usable]
      exact prepared.clear
    have owed : store.owed = after.resetOwed :=
      represents.owed.trans (congrArg Marks.resetOwed prepared.marks).symm
    have policy : after.config.syncPolicy = .everyWrite → journal.config.syncPolicy = .everyWrite := by
      rw [prepared.config]
      exact id
    by_cases undoes : journal.pending.Undoes
    · obtain ⟨undone, created, -, even⟩ := represents.undone remade
      have left : after.pending.Undoes := by
        unfold Pending.Undoes
        rw [prepared.cutBackTo, prepared.restoreSlots]
        exact undoes
      exact ⟨content, lasting', _, .stops error undone stays, ⟨recovers, fun whole => absurd left whole, created,
        fun every => even (policy every), shown⟩, represents.configured prepared.config, represents.held, rfl,
        represents.filed, owed, represents.created, rfl⟩
    · -- with nothing to undo, the journal is as it was
      have cut : journal.pending.cutBackTo = none :=
        Option.not_isSome_iff_eq_none.mp fun some => undoes (.inl some)
      have restores : journal.pending.restoreSlots = none :=
        Option.not_isSome_iff_eq_none.mp fun some => undoes (.inr some)
      obtain ⟨stands, watermark⟩ := standing.stands undoes
      have stood := prepared.settled cut restores content lasting stands
      have kept : Recovers after content lasting :=
        .renamed (prepared.cutBackTo.trans cut) (prepared.restoreSlots.trans restores) stood.recovers rfl
      refine ⟨content, lasting, _, .stops error (.inl rfl) stays, ⟨kept, ?_, standing.created,
        fun every => standing.even (policy every), shown⟩, represents.configured prepared.config, represents.held,
        represents.kept, represents.filed, owed, represents.created, rfl⟩
      intro _
      exact ⟨stood, (congrArg Marks.appWatermark prepared.marks).trans watermark⟩
  · rw [failed]
    obtain ⟨undone, created, filings, -⟩ := represents.undone remade
    have shown : after.Shown := by
      unfold Journal.Shown
      rw [marks]
      exact Content.marks_shown
    have owed : after.resetOwed = content.slot.resetOwed := congrArg Marks.resetOwed marks
    refine ⟨lasting', lasting', _, .drops error undone, ⟨recovers, fun whole => absurd undoes whole, rfl, fun _ => rfl,
      shown⟩, represents.configured config, rfl, rfl, ?_, ?_, represents.created.trans created.symm,
      undoes.closed.symm⟩
    · intro filing member
      rw [filings] at member
      exact represents.filed filing (standing.recovers.follows.subset member)
    · show store.held.resetOwed = after.resetOwed
      rw [represents.held, owed]
      rfl

theorem Represents.refreshes (represents : Represents journal content lasting store) :
    Simulates store .refresh (answered reload journal) := by
  obtain ⟨content', lasting', store', how, left⟩ := represents.reloads
  cases ends : reload journal with
  | ok done after =>
      rw [ends] at how left
      rw [answered_ok ends]
      exact ⟨content', lasting', store', .refreshes rfl how, left⟩
  | error error after =>
      rw [ends] at how left
      rw [answered_error ends]
      exact ⟨content', lasting', store', .refreshes rfl how, left⟩

end Refreshed

/-! ## The owed-reset marker -/

section Owed

variable {journal after : Journal} {content lasting : Content} {store : StableStore}

/-- The marker is said to be set once more, whatever failed. -/
theorem Fails.setOwed (fails : Fails journal content lasting after) (said : Bool) :
    Fails (journal.setOwed said) content lasting (after.setOwed said) := by
  have put : ∀ {undone : Content}, Closed journal undone lasting after →
      Closed (journal.setOwed said) undone lasting (after.setOwed said) := by
    intro undone closed
    refine ⟨closed.config, ?_, closed.undoes,
      closed.recovers.along ⟨rfl, rfl, rfl, rfl, rfl, rfl, UInt64.le_refl _⟩⟩
    have marks := closed.marks
    unfold Journal.marks Journal.setOwed at *
    rw [Marks.mk.injEq] at marks ⊢
    exact ⟨by rw [marks.1], marks.2.1, marks.2.2.1, marks.2.2.2.1, rfl, marks.2.2.2.2.2⟩
  cases fails with
  | unchanged only stands =>
      obtain ⟨disk, generation, rfl⟩ := only
      exact .unchanged ⟨disk, generation, rfl⟩ (stands.marked _ said _)
  | torn closed => exact .torn (put closed)
  | lost closed => exact .lost (put closed)

/-- The marker is said to be another. -/
theorem StableStore.Fails.saidOwed {said : Bool} {store' : StableStore}
    (fails : StableStore.Fails { store with owed := said } store') :
    ∃ after, StableStore.Fails store after ∧ store' = { after with owed := said } := by
  cases fails with
  | unchanged => exact ⟨store, .unchanged, rfl⟩
  | torn => exact ⟨_, .torn, rfl⟩
  | lost => exact ⟨_, .lost, rfl⟩

/-- The marker is set or cleared on an open journal. -/
theorem Represents.marks (represents : Represents journal content lasting store) (usable : store.usable = true)
    (owed : Bool) : ∃ content' lasting' store',
      StableStore.Marks store owed ((resultOf (setResetOwed owed journal)).1.map fun _ => []) store' ∧
      Represents (resultOf (setResetOwed owed journal)).2 content' lasting' store' := by
  obtain ⟨stands, watermark⟩ := represents.stands usable
  have standing := represents.standing
  have shown := standing.shown
  have held : ∀ {content' : Content}, content.Marked owed content' →
      store.held.setResetOwed owed = content'.memory := by
    intro content' marked
    rw [marked.memory, represents.held]
    rfl
  have same : ∀ {content' : Content}, content.Marked owed content' →
      content'.slot.appWatermark = content.slot.appWatermark := by
    intro content' marked
    exact UInt64.toNat_inj.mp (congrArg MemoryStore.appWatermark marked.memory)
  have filed : ∀ {content' : Content}, content.Marked owed content' →
      ∀ filing ∈ content'.filings, filing.filed ∈ store.filed := by
    intro content' marked filing member
    rw [marked.filings] at member
    exact represents.filed filing member
  rcases stands.setsOwed shown.counts watermark owed with
    ⟨after, content', lasting', done, config, marks, stood, marked, isOwed, how⟩ |
      ⟨error, before, failed, content', lasting', fails, config, marks, stood, how, begins⟩
  · rw [done]
    have shown' : after.Shown := by
      unfold Journal.Shown
      rw [marks]
      unfold Journal.Shown Marks.Shown Journal.marks Journal.setOwed at *
      dsimp only at shown ⊢
      rw [shown]
    have watermark' : after.appWatermark = content'.slot.appWatermark :=
      ((congrArg Marks.appWatermark marks).trans watermark).trans (same marked).symm
    have said : after.resetOwed = owed := congrArg Marks.resetOwed marks
    have created := represents.created.trans marked.creationTime.symm
    rcases how with rfl | ⟨rfl, rfl⟩
    · exact ⟨lasting', lasting', _, .done, .opened stood watermark' rfl (fun _ => rfl) shown',
        represents.configured config, held marked, held marked, filed marked, said.symm, created,
        usable.trans stood.live.clear.symm⟩
    · have isHeld : store.held.resetOwed = owed := by
        rw [represents.held]
        exact marked.resetOwed
      have isKept : store.kept.resetOwed = owed := by
        rw [represents.kept]
        exact isOwed
      have even : after.config.syncPolicy = .everyWrite → lasting' = content' := by
        rw [config]
        exact standing.even
      exact ⟨content', lasting', _, .carried isHeld isKept, .opened stood watermark' standing.created even shown',
        represents.configured config, represents.held, represents.kept, represents.filed, said.symm, created,
        usable.trans stood.live.clear.symm⟩
  · rw [fails]
    let said := journal.resetOwed || owed
    have isSaid : said = (store.owed || owed) := by
      rw [represents.owed]
    have stood' : Stands (before.setOwed said) content' lasting' := stood.marked _ said _
    have shown' : (before.setOwed said).Shown := by
      unfold Journal.Shown Marks.Shown Journal.marks Journal.setOwed at *
      dsimp only at shown ⊢
      rw [Marks.mk.injEq] at marks
      obtain ⟨shared, creationTime, sender, target, -, mark⟩ := marks
      rw [shared, creationTime, sender, target, mark]
      rw [shown]
    have watermark' : before.appWatermark = content.slot.appWatermark :=
      (congrArg Marks.appWatermark marks).trans watermark
    have policy : (before.setOwed said).config.syncPolicy = .everyWrite →
        journal.config.syncPolicy = .everyWrite := by
      show before.config.syncPolicy = _ → _
      rw [config]
      exact id
    have begun : ∃ begun : StableStore, (begun = store ∨ begun = store.marked owed) ∧
        Represents (before.setOwed said) content' lasting' { begun with owed := said } := by
      rcases begins with ⟨rfl, rfl⟩ | ⟨marked, rfl⟩
      · exact ⟨store, .inl rfl, .opened stood' watermark' standing.created (fun every => standing.even (policy every))
          shown', represents.configured config, represents.held, represents.kept, represents.filed, rfl,
          represents.created, usable.trans stood'.live.clear.symm⟩
      · exact ⟨store.marked owed, .inr rfl, .opened stood' (watermark'.trans (same marked).symm) rfl (fun _ => rfl)
          shown', represents.configured config, held marked, held marked, filed marked, rfl,
          represents.created.trans marked.creationTime.symm, usable.trans stood'.live.clear.symm⟩
    obtain ⟨begun, isBegun, represented⟩ := begun
    have open' : begun.usable = true := by
      rcases isBegun with rfl | rfl
      · exact usable
      · exact usable
    obtain ⟨content'', store', left, ends⟩ := represented.fails open' (how.setOwed said)
    obtain ⟨after, fell, rfl⟩ := left.saidOwed
    refine ⟨content'', lasting', { after with owed := store.owed || owed }, .fails error isBegun fell, ?_⟩
    rw [← isSaid]
    exact ends

/-- An open journal is not read again. -/
theorem setResetOwed_reloaded {owed : Bool} {between : Journal} (closed : journal.pending.isClear = false)
    (read : reload journal = .ok () between) (clear : between.pending.isClear = true) :
    setResetOwed owed journal = setResetOwed owed between := by
  have first : reloadIfPending journal = .ok () between := by
    unfold reloadIfPending
    rw [bind_apply, get_apply]
    dsimp only
    rw [if_neg (by rw [closed]; exact Bool.false_ne_true)]
    exact read
  have second : reloadIfPending between = .ok () between := by
    unfold reloadIfPending
    rw [bind_apply, get_apply]
    dsimp only
    rw [if_pos clear]
    rfl
  unfold setResetOwed
  rw [bind_apply, bind_apply, first, second]

/-- The marker is set or cleared; a journal that is not usable is read first. -/
theorem Represents.setsResetOwed (represents : Represents journal content lasting store) (owed : Bool) :
    Simulates store (.setResetOwed owed) (answered (setResetOwed owed) journal) := by
  have finish : ∀ {between : Journal} {opened : StableStore} {content' lasting' : Content},
      Represents between content' lasting' opened → opened.usable = true →
      (store.usable = true ∧ opened = store ∨
        StableStore.Refreshes store (.ok []) opened) →
      setResetOwed owed journal = setResetOwed owed between →
      Simulates store (.setResetOwed owed) (answered (setResetOwed owed) journal) := by
    intro between opened content' lasting' represents usable opens same
    obtain ⟨content', lasting', store', how, left⟩ := represents.marks usable owed
    cases ends : setResetOwed owed between with
    | ok done after =>
        rw [ends] at how left
        rw [answered_ok (same.trans ends)]
        exact ⟨content', lasting', store', .marks rfl opens how, left⟩
    | error error after =>
        rw [ends] at how left
        rw [answered_error (same.trans ends)]
        exact ⟨content', lasting', store', .marks rfl opens how, left⟩
  cases isUsable : store.usable with
  | true => exact finish represents isUsable (.inl ⟨isUsable, rfl⟩) rfl
  | false =>
      have closed : journal.pending.isClear = false := represents.usable ▸ isUsable
      obtain ⟨content', lasting', opened, how, left⟩ := represents.reloads
      cases ends : reload journal with
      | ok done between =>
          rw [ends] at how left
          have usable : opened.usable = true := by
            cases how
            rfl
          have clear : between.pending.isClear = true := left.usable ▸ usable
          exact finish left usable (.inr how) (setResetOwed_reloaded closed ends clear)
      | error error after =>
          rw [ends] at how left
          have failed : setResetOwed owed journal = .error error after := by
            unfold setResetOwed reloadIfPending
            rw [bind_apply, bind_apply, get_apply]
            dsimp only
            rw [if_neg (by rw [closed]; exact Bool.false_ne_true), ends]
          rw [answered_error failed]
          exact ⟨content', lasting', opened, .closed error rfl how, left⟩

end Owed

end IronFix.Store
