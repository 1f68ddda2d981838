import IronFix.Store.JournalCalls

/-!
# Runs of a file store

Whatever a file store is asked, and whichever of its calls of the operating
system fail, it is a store over stable storage at every moment: each step of the
journal is matched by a step of that store, and so is every run.
-/

namespace IronFix.Store

open Journal Lib.Decimal Lib.FaultyDisk Lib.Ordered Lib.Steps Lib.Traces

/-! ## Reads -/

section Reads

variable {journal : Journal} {content lasting : Content} {store : StableStore} {first last : Nat}

/-- The messages of the sites are those of the store. -/
theorem between_eq {filings : List Filing} {memory : MemoryStore} (frames : memory.messages = framesOf filings)
    (first last : Nat) : memory.between first last =
      ((filed filings).range first last).map fun entry => entry.2.message := by
  unfold MemoryStore.between
  rw [frames, framesOf, OrderedMap.mapValues_range, List.map_map]
  refine List.map_congr_left ?_
  intro entry member
  obtain ⟨key, -⟩ := filed_key (List.mem_of_mem_filter member)
  show StoredMessage.mk entry.1 _ _ = _
  rw [key]
  rfl

/-- A read answers with what is held, and changes nothing. -/
theorem Stands.reads (stands : Stands journal content lasting) (limit : Nat) : ∃ reads writes,
    Journal.read first last limit journal = .ok ((content.memory.between first last).take limit)
      { journal with disk := later journal.disk reads writes } ∨
    ∃ reason, Journal.read first last limit journal = .error (.io reason)
      { journal with disk := later journal.disk reads writes } := by
  have shape := stands.holds.shape
  let entries := ((filed content.filings).range first last).take limit
  have each : ∀ entry ∈ entries, entry.2.In journal.disk.file ∧ entry.1 = entry.2.filing.seq.toNat := by
    intro entry member
    have listed := List.mem_of_mem_filter (List.mem_of_mem_take member)
    obtain ⟨whole, key, -⟩ := shape.filed_in listed
    exact ⟨whole, key⟩
  have listed : (journal.index.range first last).collect.take limit =
      entries.map fun entry => (entry.1, entry.2.entry) := by
    rw [stands.live.index, shape.range, ← List.map_take]
  have messages : (content.memory.between first last).take limit = entries.map fun entry => entry.2.message := by
    rw [@between_eq content.filings _ rfl, ← List.map_take]
  unfold Journal.read
  rw [bind_apply, get_apply]
  dsimp only
  rw [listed, messages]
  obtain ⟨reads, read | ⟨reason, context, failed⟩⟩ :=
    readFrames_looks each journal.disk.reads journal.disk.writes journal.disk.renames
  · exact ⟨reads, journal.disk.writes, .inl (onDisk_ok read)⟩
  · exact ⟨reads, journal.disk.writes, .inr ⟨_, onDisk_error failed⟩⟩

/-- There are fewer frames than bytes. -/
theorem length_le_records (filings : List Filing) : filings.length ≤ (recordsOf filings).length := by
  induction filings with
  | nil => exact Nat.le_refl _
  | cons filing later ih =>
      rw [recordsOf_cons, List.length_append, Filing.record_length, List.length_cons]
      unfold RECORD_HEADER_LEN
      omega

/-- No range holds more frames than can be asked for. -/
theorem Holds.range_short {maxBody : Nat} {file : Bytes} (holds : Holds maxBody file content) (first last : Nat) :
    (content.memory.between first last).length ≤ usizeMax := by
  have size := holds.shape.isU64
  rw [holds.shape.length] at size
  have fewer := length_le_records content.filings
  have held : (filed content.filings).entries.length ≤ 0 + (sites DATA_START content.filings).length :=
    OrderedMap.writeAll_length ..
  have count : (sites DATA_START content.filings).length = content.filings.length := by
    have frames := congrArg List.length (@sites_frames content.filings DATA_START)
    rw [List.length_map, List.length_map] at frames
    exact frames
  have range : ((filed content.filings).range first last).length ≤ (filed content.filings).entries.length :=
    List.length_filter_le _ _
  rw [@between_eq content.filings _ rfl, List.length_map]
  unfold usizeMax
  unfold u64Max at size
  omega

end Reads

/-! ## Calls -/

section Calls

variable {journal : Journal} {content lasting : Content} {store : StableStore} {request : Request}

theorem request_error {error : StoreError} (refused : FileStore.command journal.config request = .error error) :
    FileStore.request request journal = .error error journal := by
  unfold FileStore.request
  rw [bind_apply, get_apply]
  dsimp only
  rw [bind_apply, refused, orThrow_error]

theorem request_ok {command : Command} (asked : FileStore.command journal.config request = .ok command) :
    FileStore.request request journal =
      (do let answer ← Journal.run command; orThrow (FileStore.reply request answer) : Step Answer) journal := by
  unfold FileStore.request
  rw [bind_apply, get_apply]
  dsimp only
  rw [bind_apply, asked, orThrow_ok]

/-- A call that reads no range answers what its command does. -/
theorem request_run {command : Command} (asked : FileStore.command journal.config request = .ok command)
    (silent : request.isRead = false) : FileStore.request request journal = Journal.run command journal := by
  rw [request_ok asked, bind_apply]
  have same : ∀ answer, FileStore.reply request answer = .ok answer := by
    intro answer
    cases request with
    | getRange => cases silent
    | _ => rfl
  cases ends : Journal.run command journal with
  | ok answer after =>
      dsimp only
      rw [same, orThrow_ok]
  | error error after => rfl

theorem simulates_run {command : Command}
    (asked : FileStore.command journal.config request = .ok command) (silent : request.isRead = false)
    (simulates : Simulates store request (Journal.run command journal)) :
    Simulates store request (FileStore.request request journal) := by
  rw [request_run asked silent]
  exact simulates

/-- A call that only looks leaves the store. -/
theorem Represents.untouched (represents : Represents journal content lasting store) {reads writes : List Outcome}
    {result : Except StoreError (List StoredMessage)}
    (serves : StableStore.Serves store request result store) : ∃ content lasting after,
      StableStore.Serves store request result after ∧
        Represents { journal with disk := later journal.disk reads writes } content lasting after :=
  ⟨content, lasting, store, serves, represents.looked reads writes⟩

/-- A read answers as a store in memory does, or a call of the operating system
failed. -/
theorem Represents.reads (represents : Represents journal content lasting store) (isRead : request.isRead = true)
    {first last : UInt64} {limit : Nat}
    (asked : FileStore.command journal.config request = FileStore.read first last limit)
    (answers : store.held.answer request =
      if first.toNat = 0 ∨ first.toNat > last.toNat then .error (.invalidRange first.toNat last.toNat)
      else (FileStore.reply request
        (.page ((store.held.between first.toNat last.toNat).take limit))).map Answer.messages) :
    Simulates store request (FileStore.request request journal) := by
  have bounds : (first = 0 ∨ first > last) ↔ (first.toNat = 0 ∨ first.toNat > last.toNat) := by
    rw [← UInt64.toNat_inj, gt_iff_lt, UInt64.lt_iff_toNat_lt]
    rfl
  by_cases invalid : first = 0 ∨ first > last
  · rw [if_pos (bounds.mp invalid)] at answers
    have refused : FileStore.command journal.config request = .error (.invalidRange first.toNat last.toNat) := by
      rw [asked]
      exact if_pos invalid
    rw [request_error refused]
    exact represents.refuses _ fun _ => .inl answers
  · rw [if_neg (mt bounds.mpr invalid)] at answers
    have read : FileStore.command journal.config request = .ok (.read first last limit) := by
      rw [asked]
      exact if_neg invalid
    rw [request_ok read]
    show Simulates _ _ ((do
      let answer ← (do
        Journal.usable
        let messages ← Journal.read first.toNat last.toNat limit
        return .page messages : Step Answer)
      orThrow (FileStore.reply request answer) : Step Answer) journal)
    rw [bind_apply, bind_apply]
    cases isUsable : store.usable with
    | false =>
        have closed : journal.pending.isClear = false := represents.usable ▸ isUsable
        rw [usable_error closed]
        exact represents.refuses notUsable fun _ => .inr ⟨_, rfl⟩
    | true =>
        have clear : journal.pending.isClear = true := represents.usable ▸ isUsable
        rw [usable_ok clear]
        dsimp only
        rw [bind_apply]
        obtain ⟨reads, writes, done | ⟨reason, failed⟩⟩ := (represents.stands isUsable).1.reads limit
        · rw [done]
          dsimp only [pure_apply]
          rw [represents.held] at answers
          cases replied : FileStore.reply request
              (.page ((content.memory.between first.toNat last.toNat).take limit)) with
          | error error =>
              rw [replied] at answers
              rw [orThrow_error]
              refine represents.untouched (.reads isRead isUsable ?_)
              rw [represents.held]
              exact answers.symm
          | ok answer =>
              rw [replied] at answers
              rw [orThrow_ok]
              refine represents.untouched (.reads isRead isUsable ?_)
              rw [represents.held]
              exact answers.symm
        · rw [failed]
          exact represents.untouched (.refused (.io reason) fun _ => .inr ⟨reason, rfl⟩)

/-- A frame is encoded and filed, or refused for its size. -/
theorem Represents.frames (represents : Represents journal content lasting store) (isWrite : request.isWrite = true)
    (draft : Filing)
    (asked : FileStore.command journal.config request =
      FileStore.fileFrame journal.config draft.seq draft.nextSender draft.msgType draft.frame)
    (filing : request.filing = [draft.filed])
    (sets : content.memory.after request =
      { content.memory.store draft.seq.toNat draft.msgType draft.frame with
        nextSenderSeq := (draft.nextSender.getD content.nextSender).toNat }) :
    Simulates store request (FileStore.request request journal) := by
  have silent : request.isRead = false := by
    cases request with
    | getRange | getPage => cases isWrite
    | _ => rfl
  cases encoded : encodeFrameRecord draft.seq draft.nextSender draft.msgType draft.frame
      journal.config.maxFrameSize with
  | error error =>
      have refused : FileStore.command journal.config request = .error error := by
        rw [asked, FileStore.fileFrame, encoded]
        rfl
      rw [request_error refused]
      refine represents.refuses error ?_
      intro isRead
      rw [silent] at isRead
      cases isRead
  | ok record =>
      obtain ⟨rfl, small, allowed⟩ := Filing.encodeFrameRecord_ok encoded
      obtain ⟨-, declared, bounded⟩ := Filing.sealed_ok (draft.sealed_fits allowed small)
      have fits : draft.Fits journal.config.maxBody := ⟨declared, bounded⟩
      cases sender : draft.nextSender with
      | none =>
          have command : FileStore.command journal.config request = .ok (.store draft.seq draft.draft) := by
            rw [asked, FileStore.fileFrame, encoded, sender]
            rfl
          rw [request_run command silent]
          refine represents.guards silent ?_
          intro usable
          have files := represents.files usable fits isWrite filing sets
          rw [sender] at files
          exact files
      | some nextSender =>
          have command : FileStore.command journal.config request =
              .ok (.fileOutbound draft.seq draft.draft nextSender) := by
            rw [asked, FileStore.fileFrame, encoded, sender]
            rfl
          rw [request_run command silent]
          refine represents.guards silent ?_
          intro usable
          have files := represents.files usable fits isWrite filing sets
          rw [sender] at files
          exact files

/-- A step that reads the journal first. -/
theorem answered_get {step : Journal → Step Unit} :
    answered (do let journal ← get; step journal) journal = answered (step journal) journal := by
  unfold answered
  rw [bind_apply, bind_apply, get_apply, bind_apply]

/-- A counter is set. -/
theorem Represents.setsSender (represents : Represents journal content lasting store) (seq : UInt64) :
    Simulates store (.setNextSenderSeq seq)
      (FileStore.request (.setNextSenderSeq seq) journal) := by
  refine simulates_run rfl rfl (represents.guards rfl ?_)
  intro usable
  rw [answered_get]
  refine represents.counts usable seq journal.nextTarget rfl ?_
  rw [(represents.stands usable).1.live.nextTarget]
  rfl

theorem Represents.setsTarget (represents : Represents journal content lasting store) (seq : UInt64) :
    Simulates store (.setNextTargetSeq seq)
      (FileStore.request (.setNextTargetSeq seq) journal) := by
  refine simulates_run rfl rfl (represents.guards rfl ?_)
  intro usable
  rw [answered_get]
  refine represents.counts usable journal.nextSender seq rfl ?_
  rw [(represents.stands usable).1.live.nextSender]
  rfl

/-- The watermark is set on a journal that is open, and not on another. -/
theorem Represents.setsWatermark (represents : Represents journal content lasting store) (watermark : UInt64) :
    Simulates store (.setAppWatermark watermark)
      (FileStore.request (.setAppWatermark watermark) journal) := by
  refine simulates_run rfl rfl ?_
  show Simulates _ _ (answered (setAppWatermark watermark) journal)
  cases isUsable : store.usable with
  | true => exact represents.setsAppWatermark isUsable watermark
  | false =>
      have closed : journal.pending.isClear = false := represents.usable ▸ isUsable
      have refused : setAppWatermark watermark journal = .error notUsable journal := by
        unfold setAppWatermark
        rw [bind_apply, usable_error closed]
      rw [answered_error refused]
      refine represents.refuses notUsable ?_
      rintro ⟨⟩

theorem endOf_toNat (last : UInt64) : (FileStore.endOf last).toNat = if last.toNat = 0 then u64Max else last.toNat := by
  unfold FileStore.endOf
  by_cases none : last = 0
  · subst none
    rfl
  · have some : last.toNat ≠ 0 := fun zero => none (UInt64.toNat_inj.mp zero)
    rw [if_neg none, if_neg some]

/-- The messages a ResendRequest names. -/
theorem Represents.getsRange (represents : Represents journal content lasting store) (first last : UInt64) :
    Simulates store (.getRange first last)
      (FileStore.request (.getRange first last) journal) := by
  refine represents.reads rfl rfl ?_
  have all : (store.held.between first.toNat (FileStore.endOf last).toNat).take usizeMax =
      store.held.between first.toNat (FileStore.endOf last).toNat := by
    rw [represents.held]
    exact List.take_of_length_le (represents.standing.recovers.holds.range_short _ _)
  rw [all]
  unfold MemoryStore.answer MemoryStore.getRange FileStore.reply
  dsimp only
  rw [← endOf_toNat]
  split
  · rfl
  · split <;> rfl

/-- Whatever is asked, the journal answers as a store over stable storage may, and
represents what the call leaves of it. -/
theorem Represents.serves (represents : Represents journal content lasting store) (request : Request) :
    Simulates store request (FileStore.request request journal) := by
  cases request with
  | store seqNum msgType message =>
      exact represents.frames rfl ⟨seqNum, none, msgType, message, 0⟩ rfl rfl rfl
  | fileOutbound seqNum msgType message nextSender =>
      exact represents.frames rfl ⟨seqNum, some nextSender, msgType, message, 0⟩ rfl rfl rfl
  | setNextSenderSeq seq => exact represents.setsSender seq
  | setNextTargetSeq seq => exact represents.setsTarget seq
  | setResetOwed owed => exact simulates_run rfl rfl (represents.setsResetOwed owed)
  | setAppWatermark watermark => exact represents.setsWatermark watermark
  | resetTo nextSender nextTarget now => exact simulates_run rfl rfl (represents.resets nextSender nextTarget now)
  | getRange first last => exact represents.getsRange first last
  | getPage first last limit => exact represents.reads rfl rfl rfl
  | refresh => exact simulates_run rfl rfl represents.refreshes
  | sync => exact simulates_run rfl rfl (represents.guards rfl represents.syncs)
  | compact => exact simulates_run rfl rfl represents.runsCompact

end Calls

end IronFix.Store
