import IronFix.Store.JournalReload
import IronFix.Store.StableStore

/-!
# What a journal stands for

Between two calls a journal represents a store over stable storage, whatever
failed before. Every call, done or failed, takes it to a journal that represents
what the call makes of that store.
-/

namespace IronFix.Store

open Journal Lib.Decimal Lib.FaultyDisk Lib.Ordered Lib.Steps

/-! ## Journals and stores -/

/-- The getters answer with what the journal has. -/
def Marks.Shown (marks : Marks) : Prop :=
  marks.shared = ⟨marks.nextSender, marks.nextTarget, marks.resetOwed, marks.appWatermark, marks.creationTime,
    marks.shared.truncation⟩

def Journal.Shown (journal : Journal) : Prop := journal.marks.Shown

/-- A frame, under its number. -/
def Filing.filed (filing : Filing) : Nat × MsgType × Bytes := (filing.seq.toNat, filing.msgType, filing.frame)

/-- A journal between two calls, open or closed. -/
structure Standing (journal : Journal) (content lasting : Content) : Prop where
  recovers : Recovers journal content lasting
  /-- With nothing to undo it is one of its content. -/
  stands : ¬journal.pending.Undoes → Stands { journal with pending := .default } content lasting ∧
    journal.appWatermark = content.slot.appWatermark
  created : lasting.creationTime = content.creationTime
  even : journal.config.syncPolicy = .everyWrite → lasting = content
  shown : journal.Shown

/-- The store a journal is, of that content and with that last flush. -/
structure Represents (journal : Journal) (content lasting : Content) (store : StableStore) : Prop where
  standing : Standing journal content lasting
  policy : store.policy = journal.config.syncPolicy
  held : store.held = content.memory
  kept : store.kept = lasting.memory
  filed : ∀ filing ∈ content.filings, filing.filed ∈ store.filed
  owed : store.owed = journal.resetOwed
  created : store.created = content.creationTime
  usable : store.usable = journal.pending.isClear

section Basics

variable {journal after : Journal} {content lasting content' lasting' : Content} {store : StableStore}

theorem Journal.Shown.along (shown : journal.Shown) (marks : after.marks = journal.marks) : after.Shown := by
  unfold Journal.Shown
  rw [marks]
  exact shown

theorem Journal.Shown.counts (shown : journal.Shown) : journal.Counts :=
  ⟨congrArg Shared.nextSender shown, congrArg Shared.nextTarget shown⟩

theorem mem_framesOf {filings : List Filing} {entry : Nat × MsgType × Bytes}
    (member : entry ∈ (framesOf filings).entries) : ∃ filing ∈ filings, filing.filed = entry := by
  obtain ⟨site, listed, rfl⟩ := List.mem_map.mp member
  obtain ⟨key, among⟩ := filed_key listed
  refine ⟨site.2.filing, among, ?_⟩
  show (_, _) = (site.1, site.2.frame)
  rw [key]
  rfl

/-- A journal that can be used is one of its content. -/
theorem Represents.stands (represents : Represents journal content lasting store) (usable : store.usable = true) :
    Stands journal content lasting ∧ journal.appWatermark = content.slot.appWatermark := by
  have clear : journal.pending = .default := Pending.clear_eq (represents.usable ▸ usable)
  have whole : ¬journal.pending.Undoes := by
    intro undoes
    rw [clear] at undoes
    exact absurd undoes.closed (by decide)
  have same : ({ journal with pending := .default } : Journal) = journal := by
    rw [← clear]
  have stands := represents.standing.stands whole
  rw [same] at stands
  exact stands

theorem Represents.configured (represents : Represents journal content lasting store)
    (config : after.config = journal.config) : store.policy = after.config.syncPolicy :=
  represents.policy.trans (congrArg _ config).symm

/-- An open journal stands for its content. -/
theorem Standing.opened (stands : Stands journal content lasting)
    (watermark : journal.appWatermark = content.slot.appWatermark)
    (created : lasting.creationTime = content.creationTime)
    (even : journal.config.syncPolicy = .everyWrite → lasting = content) (shown : journal.Shown) :
    Standing journal content lasting where
  recovers := stands.recovers
  stands := by
    intro _
    have clear : journal.pending = .default := Pending.clear_eq stands.live.clear
    have same : ({ journal with pending := .default } : Journal) = journal := by
      rw [← clear]
    rw [same]
    exact ⟨stands, watermark⟩
  created := created
  even := even
  shown := shown

/-- A journal that is closed stands for what an undo leads to. -/
theorem Standing.closed (standing : Standing journal content lasting)
    (closed : Closed journal content' lasting after)
    (created : lasting.creationTime = content'.creationTime)
    (even : journal.config.syncPolicy = .everyWrite → lasting = content') : Standing after content' lasting where
  recovers := closed.recovers
  stands whole := absurd closed.undoes whole
  created := created
  even policy := even (closed.config ▸ policy)
  shown := standing.shown.along closed.marks

/-- A write that fails leaves the journal as it leaves the store. -/
theorem Represents.fails (represents : Represents journal content lasting store) (usable : store.usable = true)
    (fails : Fails journal content lasting after) :
    ∃ content' store', StableStore.Fails store store' ∧ Represents after content' lasting store' := by
  obtain ⟨-, watermark⟩ := represents.stands usable
  have standing := represents.standing
  cases fails with
  | unchanged only stands =>
      obtain ⟨disk, generation, rfl⟩ := only
      refine ⟨content, store, .unchanged, ?_, represents.policy, represents.held, represents.kept,
        represents.filed, represents.owed, represents.created, represents.usable⟩
      exact .opened stands watermark standing.created standing.even standing.shown
  | torn closed =>
      refine ⟨content, _, .torn, standing.closed closed standing.created standing.even,
        represents.configured closed.config, represents.held, represents.kept, represents.filed, ?_,
        represents.created, closed.undoes.closed.symm⟩
      exact represents.owed.trans (congrArg Marks.resetOwed closed.marks).symm
  | lost closed =>
      refine ⟨lasting, _, .lost, standing.closed closed rfl fun _ => rfl, represents.configured closed.config,
        represents.kept, represents.kept, ?_, ?_, ?_, closed.undoes.closed.symm⟩
      · intro filing member
        exact represents.filed filing (standing.recovers.follows.subset member)
      · exact represents.owed.trans (congrArg Marks.resetOwed closed.marks).symm
      · exact represents.created.trans standing.created.symm

/-- A call that is done takes the store along. What was flushed is as before, or
everything is. -/
theorem Represents.wrote {request : Request} {marker : Bool}
    (represents : Represents journal content lasting store) (usable : store.usable = true)
    (isWrite : request.isWrite = true) (stands : Stands after content' lasting')
    (config : after.config = journal.config)
    (advances : Advances journal.config.syncPolicy lasting content' lasting')
    (memory : content'.memory = (store.held.after request).setResetOwed marker)
    (filings : ∀ filing ∈ content'.filings, filing ∈ content.filings ∨ filing.filed ∈ request.filing)
    (created : content'.creationTime = content.creationTime) (shown : after.Shown)
    (watermark : after.appWatermark = content'.slot.appWatermark) (owed : after.resetOwed = journal.resetOwed) :
    ∃ kept, (kept = (store.after request marker).held ∨ kept = store.kept ∧ store.policy ≠ .everyWrite) ∧
      Represents after content' lasting' { store.after request marker with kept := kept } := by
  have standing := represents.standing
  have even : after.config.syncPolicy = .everyWrite → lasting' = content' := by
    intro policy
    rw [config] at policy
    rcases advances with whole | ⟨-, lazily⟩
    · exact whole
    · exact absurd policy lazily
  have flushed : (lasting'.memory = content'.memory ∨
      lasting'.memory = store.kept ∧ journal.config.syncPolicy ≠ .everyWrite) ∧
      lasting'.creationTime = content'.creationTime := by
    rcases advances with rfl | ⟨rfl, lazily⟩
    · exact ⟨.inl rfl, rfl⟩
    · exact ⟨.inr ⟨represents.kept.symm, lazily⟩, standing.created.trans created.symm⟩
  have sameTime : request.createdAt store.created = store.created := by
    cases request with
    | resetTo => cases isWrite
    | _ => rfl
  refine ⟨lasting'.memory, ?_, ?_⟩
  · rw [represents.policy]
    exact flushed.1.imp_left fun whole => whole.trans memory
  · refine ⟨.opened stands watermark flushed.2 even shown, represents.configured config, memory.symm, rfl, ?_, ?_, ?_, ?_⟩
    · intro filing member
      refine List.mem_append.mpr ?_
      exact (filings filing member).imp_left (represents.filed filing)
    · exact represents.owed.trans owed.symm
    · exact sameTime.trans (represents.created.trans created.symm)
    · exact usable.trans stands.live.clear.symm

end Basics

/-! ## Calls -/

/-- What a step leaves is what the call makes of the store, and its answer the
call's. -/
def Simulates (store : StableStore) (request : Request) (outcome : EStateM.Result StoreError Journal Answer) : Prop :=
  ∃ content lasting after, StableStore.Serves store request
      ((resultOf outcome).1.map Answer.messages) after ∧
    Represents (resultOf outcome).2 content lasting after

section Calls

variable {journal after : Journal} {content lasting : Content} {store : StableStore} {request : Request}

theorem answered_ok {step : Step Unit} (done : step journal = .ok () after) :
    answered step journal = .ok .done after := by
  unfold answered
  rw [bind_apply, done]
  rfl

theorem answered_error {step : Step Unit} {error : StoreError} (failed : step journal = .error error after) :
    answered step journal = .error error after := by
  unfold answered
  rw [bind_apply, failed]

theorem usable_ok (clear : journal.pending.isClear = true) : Journal.usable journal = .ok () journal := by
  unfold Journal.usable
  rw [bind_apply, get_apply]
  exact ensure_of _ clear _

theorem usable_error (closed : journal.pending.isClear = false) :
    Journal.usable journal = .error notUsable journal := by
  unfold Journal.usable
  rw [bind_apply, get_apply]
  have refused : ¬journal.pending.isClear = true := by
    rw [closed]
    exact Bool.false_ne_true
  exact ensure_not _ refused _

/-- A call that is refused changes nothing. -/
theorem Represents.refuses (represents : Represents journal content lasting store) (error : StoreError)
    (honest : request.isRead = true →
      store.held.answer request = .error error ∨ ∃ reason, error = .io reason) :
    Simulates store request (.error error journal) :=
  ⟨content, lasting, store, .refused error honest, represents⟩

theorem Represents.failed (represents : Represents journal content lasting store) (usable : store.usable = true)
    (writes : request.isWrite = true ∨ request = .sync) {error : StoreError}
    (fails : Fails journal content lasting after) :
    Simulates store request (.error error after) := by
  obtain ⟨content', store', how, left⟩ := represents.fails usable fails
  exact ⟨content', lasting, store', .fails error writes usable how, left⟩

/-- Both counters are written, and the marker with them. -/
theorem Represents.counts (represents : Represents journal content lasting store) (usable : store.usable = true)
    (nextSender nextTarget : UInt64) (isWrite : request.isWrite = true)
    (sets : content.memory.after request =
      { content.memory with nextSenderSeq := nextSender.toNat, nextTargetSeq := nextTarget.toNat }) :
    Simulates store request
      (answered (writeCounters nextSender nextTarget) journal) := by
  obtain ⟨stands, watermark⟩ := represents.stands usable
  rcases stands.counts nextSender nextTarget with
    ⟨after, lasting', done, config, marks, written, flushed⟩ | ⟨error, after, failed, how⟩
  · rw [answered_ok done]
    have memory : (content.counted journal nextSender nextTarget).memory =
        (store.held.after request).setResetOwed journal.resetOwed := by
      rw [stands.counted_memory, represents.held, sets, watermark]
      rfl
    have advances : Advances journal.config.syncPolicy lasting (content.counted journal nextSender nextTarget)
        lasting' := by
      rcases flushed with ⟨whole, -⟩ | ⟨before, -, lazily⟩
      · exact .inl whole
      · exact .inr ⟨before, lazily⟩
    have shown : after.Shown := by
      refine Journal.Shown.along ?_ marks
      have before := represents.standing.shown
      unfold Journal.Shown Marks.Shown Journal.marks publishCounters at *
      dsimp only at before ⊢
      rw [before]
    obtain ⟨kept, isKept, left⟩ := represents.wrote usable isWrite written config advances memory
      (fun filing member => .inl member) rfl shown (congrArg Marks.appWatermark marks)
      (congrArg Marks.resetOwed marks)
    exact ⟨_, lasting', _, .writes isWrite usable (.inr represents.owed.symm) isKept, left⟩
  · rw [answered_error failed]
    exact represents.failed usable (.inl isWrite) how

/-- A frame is filed. -/
theorem Represents.files (represents : Represents journal content lasting store) (usable : store.usable = true)
    {draft : Filing} (fits : draft.Fits journal.config.maxBody) (isWrite : request.isWrite = true)
    (filing : request.filing = [draft.filed])
    (sets : content.memory.after request =
      { content.memory.store draft.seq.toNat draft.msgType draft.frame with
        nextSenderSeq := (draft.nextSender.getD content.nextSender).toNat }) :
    Simulates store request
      (answered (appendFrame draft.seq draft.draft draft.nextSender) journal) := by
  obtain ⟨stands, watermark⟩ := represents.stands usable
  rcases stands.files fits with
    ⟨after, lasting', done, config, marks, written, advances⟩ | ⟨error, after, failed, how⟩
  · rw [answered_ok done]
    have memory : (content.filing (journal.stamp draft)).memory =
        (store.held.after request).setResetOwed store.held.resetOwed := by
      rw [stands.filing_memory, represents.held, sets]
      rfl
    have kept : (publishSender draft.nextSender journal).appWatermark = journal.appWatermark ∧
        (publishSender draft.nextSender journal).resetOwed = journal.resetOwed := by
      cases draft.nextSender <;> exact ⟨rfl, rfl⟩
    have shown : after.Shown := by
      refine Journal.Shown.along ?_ marks
      have before := represents.standing.shown
      cases draft.nextSender with
      | none => exact before
      | some nextSender =>
          unfold Journal.Shown Marks.Shown Journal.marks publishSender at *
          dsimp only at before ⊢
          rw [before]
    have listed : ∀ other ∈ (content.filing (journal.stamp draft)).filings,
        other ∈ content.filings ∨ other.filed ∈ request.filing := by
      intro other member
      refine (List.mem_append.mp member).imp_right ?_
      intro last
      rw [List.mem_singleton.mp last, filing]
      exact List.mem_cons_self
    obtain ⟨flushed, isKept, left⟩ := represents.wrote usable isWrite written config advances memory listed rfl shown
      ((congrArg Marks.appWatermark marks).trans (kept.1.trans watermark))
      ((congrArg Marks.resetOwed marks).trans kept.2)
    exact ⟨_, lasting', _, .writes isWrite usable (.inl rfl) isKept, left⟩
  · rw [answered_error failed]
    exact represents.failed usable (.inl isWrite) how

end Calls

end IronFix.Store
