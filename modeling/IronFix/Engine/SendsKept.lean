import IronFix.Engine.SendBooks

/-!
# Outcomes are truthful

Of every run: each receipt resolves once, in the order the frames were fed;
`Sent` only when the stream has the frame's last byte, `NotSent` never for a
frame fed, and for one handed to the store only as the store's refusal.
-/

namespace IronFix.Engine

open Lib.Decimal Lib.Transitions

namespace SendSystem

structure Sound (system : SendSystem) : Prop where
  wire : system.Wire
  clock : system.Clock
  books : system.Books
  /-- A closed session holds no receipt. -/
  emptied : system.phase = .closed → system.unsent = [] ∧ system.filing = none ∧ system.writer.receipts = []
  /-- While a frame is filed the loop goes on. -/
  filing : system.filing.isSome = true → system.phase = .open_

theorem new_sound (settings : SendSettings) (nextSender : Nat) : (new settings nextSender).Sound where
  wire := new_wire settings nextSender
  clock := new_clock settings nextSender
  books := new_books settings nextSender
  emptied impossible := by cases impossible
  filing impossible := by cases impossible

theorem Sound.closing_free {system : SendSystem} (sound : system.Sound) (closing : system.phase = .closing) :
    system.filing = none := by
  cases held : system.filing with
  | none => rfl
  | some filing =>
      have runs := sound.filing (by rw [held]; rfl)
      rw [closing] at runs
      cases runs

theorem Sound.failReceipts {system : SendSystem} (sound : system.Sound) (reason : UnknownReason) :
    (system.failReceipts reason).Sound where
  wire := sound.wire.same rfl rfl rfl rfl rfl rfl rfl
  clock := sound.clock.same rfl rfl rfl rfl
  books := sound.books.failReceipts reason
  emptied closed := ⟨(sound.emptied closed).1, (sound.emptied closed).2.1, rfl⟩
  filing := sound.filing

theorem Sound.fatal {system : SendSystem} (sound : system.Sound) (free : system.filing = none) :
    system.fatal.Sound where
  wire := sound.wire.same rfl rfl rfl rfl rfl rfl rfl
  clock := sound.clock.same rfl rfl rfl rfl
  books := sound.books.same rfl rfl rfl rfl rfl rfl rfl (Nat.le_refl _) (Nat.le_refl _)
  emptied impossible := by cases impossible
  filing held := by
    have held : system.filing.isSome = true := held
    rw [free] at held
    cases held

theorem Sound.closeOnWriteFailure {system : SendSystem} (sound : system.Sound) (free : system.filing = none)
    (reason : UnknownReason) : (system.closeOnWriteFailure reason).Sound := by
  have failed : Sound { system with writer := { system.writer with failed := true } } :=
    { wire := sound.wire.same rfl rfl rfl rfl rfl rfl rfl
      clock := sound.clock.same rfl rfl rfl rfl
      books := sound.books.same rfl rfl rfl rfl rfl rfl rfl (Nat.le_refl _) (Nat.le_refl _)
      emptied := sound.emptied
      filing := sound.filing }
  exact (failed.failReceipts reason).fatal free

/-! ## Polls -/

theorem accept_frame (moved : Nat) (system : SendSystem) : (system.accept moved).phase = system.phase ∧
    (system.accept moved).filing = system.filing ∧ (system.accept moved).unsent = system.unsent ∧
    (system.accept moved).watching = system.watching := by
  unfold accept
  split <;> exact ⟨rfl, rfl, rfl, rfl⟩

theorem accept_stream_length {system : SendSystem} {moved : Nat} (room : moved ≤ system.buffer.length) :
    (system.accept moved).stream.length = system.stream.length + moved := by
  unfold accept
  split
  · rename_i none
    rw [none]
    rfl
  · show (system.stream ++ system.buffer.take moved).length = _
    rw [List.length_append, List.length_take, Nat.min_eq_left room]

theorem accept_marks (moved : Nat) (system : SendSystem) (some : moved ≠ 0) (kind : Watched) :
    (system.accept moved).writer.marks kind = (system.writer.marks kind).wrote moved := by
  unfold accept
  rw [if_neg some]
  show (system.writer.wrote moved).2.marks kind = _
  rw [wrote_marks]

/-- When all of the buffer is taken, none is left. -/
theorem accept_all (system : SendSystem) : (system.accept system.buffer.length).buffer = [] := by
  unfold accept
  split
  · rename_i none
    exact List.length_eq_zero_iff.mp none
  · exact List.drop_length

theorem Sound.accept {system : SendSystem} (sound : system.Sound) {moved : Nat} (room : moved ≤ system.buffer.length)
    (runs : system.phase ≠ .closed) : (system.accept moved).Sound := by
  obtain ⟨phase, filing, _, _⟩ := accept_frame moved system
  refine ⟨sound.wire.accept room, sound.clock.accept moved, sound.books.accept sound.wire room, ?_, ?_⟩
  · intro closed
    exact absurd (phase ▸ closed) runs
  · rw [filing, phase]
    exact sound.filing

theorem Sound.onFlushed {system : SendSystem} (sound : system.Sound) (isEmpty : system.buffer = [])
    (runs : system.phase ≠ .closed) : system.onFlushed.Sound where
  wire := sound.wire.onFlushed isEmpty
  clock := ⟨fun impossible => (by cases impossible), fun _ impossible => (by cases impossible)⟩
  books := by
    have length := sound.wire.length
    rw [isEmpty, List.length_nil, Nat.add_zero] at length
    refine Books.resolveSent ?_ (Nat.le_of_eq length.symm)
    exact sound.books.same rfl rfl rfl rfl rfl rfl rfl (Nat.le_refl _) (Nat.le_refl _)
  emptied closed := absurd closed runs
  filing := sound.filing

/-! ## Frames -/

theorem feed_error {frame : EncodedFrame} {system : SendSystem} {error : FrameError}
    (refused : system.feed frame = .error error) : error ≠ .sequenceExhausted := by
  unfold SendSystem.feed Writer.feed at refused
  split at refused
  · rename_i tooLarge
    split at tooLarge
    · obtain rfl := Except.error.inj tooLarge
      obtain rfl := Except.error.inj refused
      simp
    · cases tooLarge
  · cases refused

theorem Sound.markFrame {system : SendSystem} (sound : system.Sound) (waits : system.buffer ≠ [])
    (kind : Option Watched) : (system.markFrame kind).Sound := by
  have wire := sound.wire.markFrame waits kind
  cases kind with
  | none => exact sound
  | some kind =>
      exact {
        wire
        clock := sound.clock.same rfl rfl rfl rfl
        books := sound.books.same rfl rfl rfl rfl rfl rfl rfl (Nat.le_refl _) (Nat.le_refl _)
        emptied := sound.emptied
        filing := sound.filing }

/-- Untracked, nothing more waits on the frame. -/
theorem Books.release {system : SendSystem} (books : system.Books) {filing : Filing}
    (files : system.filing = some filing) (untracked : filing.receipt = none) :
    Books { system with filing := none } := by
  refine books.resolveHeld [] ?_ (List.append_nil _).symm rfl rfl rfl rfl rfl rfl (fun _ here => here) (.inr rfl)
    (fun _ _ here => by cases here)
  intro id
  have none : system.filingIds = [] := by
    unfold filingIds
    rw [files]
    show filing.receipt.toList.map Receipt.id = _
    rw [untracked]
    rfl
  rw [none]
  rfl

/-- The frame being filed is fed, or stopped. -/
theorem Sound.writeFrame {system : SendSystem} (sound : system.Sound) {filing : Filing}
    (files : system.filing = some filing) (filed : Bool) : (system.writeFrame filing filed).Sound := by
  have runs : system.phase = .open_ := sound.filing (by rw [files]; rfl)
  unfold SendSystem.writeFrame
  dsimp only
  split
  · rename_i error refused
    have stops := sound.books.failFiling files error (feed_error refused)
    exact {
      wire := sound.wire.same rfl rfl rfl rfl rfl rfl rfl
      clock := sound.clock.same rfl rfl rfl rfl
      books := stops.same rfl rfl rfl rfl rfl rfl rfl (Nat.le_refl _) (Nat.le_refl _)
      emptied := fun impossible => by cases impossible
      filing := fun impossible => by cases impossible }
  · rename_i after fed
    let spent : SendSystem := { system with
      nextSender := filing.seq + 1
      filing := none }
    have spentWire : spent.Wire := sound.wire.same rfl rfl rfl rfl rfl rfl rfl
    have spentClock : spent.Clock := sound.clock.same rfl rfl rfl rfl
    have wire : after.Wire := spentWire.feed fed
    have clock : after.Clock := spentClock.feed fed
    obtain ⟨writer, rfl, _, _, _, receipts, _⟩ := feed_eq_ok fed
    have longer : system.fed.length ≤ (system.fed ++ filing.frame.bytes).length := by
      rw [List.length_append]
      exact Nat.le_add_right _ _
    refine Sound.markFrame ?_ ?_ filing.kind
    · unfold queueReceipt
      cases isReceipt : filing.receipt with
      | none =>
          exact {
            wire := wire.same rfl rfl rfl rfl rfl rfl rfl
            clock := clock.same rfl rfl rfl rfl
            books := (sound.books.release files isReceipt).same rfl rfl rfl receipts rfl rfl rfl longer (Nat.le_refl _)
            emptied := fun closed => by
              have closed : system.phase = .closed := closed
              rw [runs] at closed
              cases closed
            filing := fun impossible => by cases impossible }
      | some receipt =>
          exact {
            wire := wire.same rfl rfl rfl rfl rfl rfl rfl
            clock := clock.same rfl rfl rfl rfl
            books := sound.books.queue files isReceipt
              ⟨filing.seq, filing.sendingTime, filed, writer.fedBytes, receipt.writing filing.seq⟩ rfl wire.fedCount
              (congrArg (· ++ _) receipts) rfl rfl rfl rfl rfl rfl longer rfl
            emptied := fun closed => by
              have closed : system.phase = .closed := closed
              rw [runs] at closed
              cases closed
            filing := fun impossible => by cases impossible }
    · have waits : system.buffer ++ filing.frame.bytes ≠ [] := by
        intro isEmpty
        exact filing.frame.nonempty (List.append_eq_nil_iff.mp isEmpty).2
      unfold queueReceipt
      split <;> exact waits

/-- A message is encoded under the next number: too large, out of numbers, or about to be filed. -/
theorem Sound.number {system after : SendSystem} (sound : system.Sound) {settings : SendSettings} {i : Option Nat}
    {frame : EncodedFrame} {kind : Option Watched} {sendingTime : Nat}
    (taken : system.step settings (.number i frame kind sendingTime) = some after) : after.Sound := by
  simp only [step] at taken
  split at taken
  · rename_i may
    obtain ⟨runs, isNone, inside⟩ := may
    have free : system.filing = none := Option.isNone_iff_eq_none.mp isNone
    have notClosed {phase : SendPhase} (is : phase = system.phase) : phase ≠ .closed := by
      rw [is, runs]
      simp
    cases i with
    | none =>
        simp only [Option.bind_none, Option.elim_none, Option.toList_none, List.map_nil, Option.map_none,
          List.nil_append, ite_self] at taken
        have same (phase : SendPhase) (running : phase ≠ .closed) : Sound { system.resolve [] with phase } :=
          { wire := sound.wire.same rfl rfl rfl rfl rfl rfl rfl
            clock := sound.clock.same rfl rfl rfl rfl
            books := sound.books.same (List.append_nil _) rfl rfl rfl rfl rfl rfl (Nat.le_refl _) (Nat.le_refl _)
            emptied := fun closed => absurd closed running
            filing := fun held => by
              have held : system.filing.isSome = true := held
              rw [free] at held
              cases held }
        split at taken
        · obtain rfl := Option.some.inj taken
          exact same system.phase (notClosed rfl)
        · split at taken
          · obtain rfl := Option.some.inj taken
            exact same .closing (by simp)
          · obtain rfl := Option.some.inj taken
            exact {
              wire := sound.wire.same rfl rfl rfl rfl rfl rfl rfl
              clock := sound.clock.same rfl rfl rfl rfl
              books := {
                ledger := by
                  intro id
                  have whole := sound.books.ledger id
                  unfold filingIds at whole
                  rw [free] at whole
                  exact whole
                inOrder := sound.books.inOrder
                pendings := sound.books.pendings
                filing := by
                  intro filed receipt isFiled isReceipt
                  obtain rfl := Option.some.inj isFiled
                  cases isReceipt
                queued := sound.books.queued
                attempted := sound.books.attempted
                places := sound.books.places
                sent := sound.books.sent
                notSent := sound.books.notSent }
              emptied := fun closed => absurd closed (notClosed rfl)
              filing := fun _ => runs }
    | some i =>
        have below : i < system.unsent.length := inside i rfl
        have found : system.unsent[i]? = some system.unsent[i] := List.getElem?_eq_getElem below
        simp only [Option.bind_some, Option.elim_some, found, Option.toList_some, List.map_cons, List.map_nil,
          Option.map_some] at taken
        have refused (reason : NotSentReason) (phase : SendPhase) (running : phase ≠ .closed) :
            Sound { { system with unsent := system.unsent.eraseIdx i }.resolve
              [(system.unsent[i].id, .notSent reason)] with phase } :=
          { wire := sound.wire.same rfl rfl rfl rfl rfl rfl rfl
            clock := sound.clock.same rfl rfl rfl rfl
            books := (sound.books.refuse found reason).same rfl rfl rfl rfl rfl rfl rfl (Nat.le_refl _) (Nat.le_refl _)
            emptied := fun closed => absurd closed running
            filing := fun held => by
              have held : system.filing.isSome = true := held
              rw [free] at held
              cases held }
        split at taken
        · obtain rfl := Option.some.inj taken
          exact refused _ system.phase (notClosed rfl)
        · split at taken
          · obtain rfl := Option.some.inj taken
            exact refused .sequenceExhausted .closing (by simp)
          · obtain rfl := Option.some.inj taken
            exact {
              wire := sound.wire.same rfl rfl rfl rfl rfl rfl rfl
              clock := sound.clock.same rfl rfl rfl rfl
              books := sound.books.number free found _ rfl _ (by
                intro id inside
                split at inside
                · rcases List.mem_append.mp inside with new | old
                  · exact .inl (List.mem_singleton.mp new)
                  · exact .inr old
                · exact .inr inside)
              emptied := fun closed => absurd closed (notClosed rfl)
              filing := fun _ => runs }
  · cases taken

theorem Sound.poll {system after : SendSystem} (sound : system.Sound) {settings : SendSettings} {moved : Nat}
    {result : PollResult} (taken : system.step settings (.poll moved result) = some after) : after.Sound := by
  simp only [step] at taken
  split at taken
  · rename_i may
    obtain ⟨runs, isNone, _, _, room, complete⟩ := may
    obtain ⟨phase, filing, _, _⟩ := accept_frame moved system
    have accepted := sound.accept room runs
    cases result with
    | waiting =>
        obtain rfl := Option.some.inj taken
        exact accepted
    | flushed =>
        obtain rfl := Option.some.inj taken
        obtain rfl := complete rfl
        refine accepted.onFlushed (accept_all system) ?_
        rw [phase]
        exact runs
    | failed =>
        obtain rfl := Option.some.inj taken
        refine accepted.closeOnWriteFailure ?_ .transport
        rw [filing]
        exact Option.isNone_iff_eq_none.mp isNone
  · cases taken

/-- Every step keeps the bytes, the clock and the books. -/
theorem Sound.step {system after : SendSystem} (sound : system.Sound) {settings : SendSettings} {action : SendAction}
    (taken : system.step settings action = some after) : after.Sound := by
  cases action with
  | track =>
      simp only [SendSystem.step] at taken
      split at taken
      · rename_i runs
        obtain rfl := Option.some.inj taken
        exact {
          wire := sound.wire.same rfl rfl rfl rfl rfl rfl rfl
          clock := sound.clock.same rfl rfl rfl rfl
          books := sound.books.track
          emptied := fun closed => by
            have closed : system.phase = .closed := closed
            rw [runs] at closed
            cases closed
          filing := sound.filing }
      · cases taken
  | refuse i reason =>
      simp only [SendSystem.step] at taken
      split at taken
      · rename_i receipt found
        split at taken
        · rename_i may
          obtain rfl := Option.some.inj taken
          exact {
            wire := sound.wire.same rfl rfl rfl rfl rfl rfl rfl
            clock := sound.clock.same rfl rfl rfl rfl
            books := sound.books.refuse found reason
            emptied := fun closed => absurd closed may.1
            filing := sound.filing }
        · cases taken
      · cases taken
  | number i frame kind sendingTime => exact sound.number taken
  | filed ok =>
      simp only [SendSystem.step] at taken
      split at taken
      · rename_i filing files
        split at taken
        · obtain rfl := Option.some.inj taken
          exact sound.writeFrame files false
        · split at taken
          · obtain rfl := Option.some.inj taken
            exact sound.writeFrame files true
          · split at taken
            · obtain rfl := Option.some.inj taken
              exact {
                wire := sound.wire.same rfl rfl rfl rfl rfl rfl rfl
                clock := sound.clock.same rfl rfl rfl rfl
                books := sound.books.failFiling files .store (by simp)
                emptied := fun impossible => by cases impossible
                filing := fun impossible => by cases impossible }
            · obtain rfl := Option.some.inj taken
              exact sound.writeFrame files false
      · cases taken
  | refeed frame =>
      simp only [SendSystem.step] at taken
      split at taken
      · rename_i may
        split at taken
        · obtain rfl := Option.some.inj taken
          exact sound.fatal (Option.isNone_iff_eq_none.mp may.2)
        · rename_i fed
          obtain rfl := Option.some.inj taken
          have wire := sound.wire.feed fed
          have clock := sound.clock.feed fed
          obtain ⟨writer, rfl, _, _, _, receipts, _⟩ := feed_eq_ok fed
          have longer : system.fed.length ≤ (system.fed ++ frame.bytes).length := by
            rw [List.length_append]
            exact Nat.le_add_right _ _
          refine ⟨wire, clock, sound.books.same rfl rfl rfl receipts rfl rfl rfl longer (Nat.le_refl _), ?_, ?_⟩
          · intro closed
            have closed : system.phase = .closed := closed
            rw [may.1] at closed
            cases closed
          · exact sound.filing
      · cases taken
  | poll moved result => exact sound.poll taken
  | tick now =>
      simp only [SendSystem.step] at taken
      split at taken
      · rename_i may
        have quiet : (system.writer.onTick now settings.writeTimeout).2.fedBytes = system.writer.fedBytes ∧
            (system.writer.onTick now settings.writeTimeout).2.acceptedBytes = system.writer.acceptedBytes ∧
            (system.writer.onTick now settings.writeTimeout).2.marks = system.writer.marks ∧
            (system.writer.onTick now settings.writeTimeout).2.receipts = system.writer.receipts := by
          unfold Writer.onTick
          split
          · exact ⟨rfl, rfl, rfl, rfl⟩
          · split
            · exact ⟨rfl, rfl, rfl, rfl⟩
            · split
              · split <;> exact ⟨rfl, rfl, rfl, rfl⟩
              · exact ⟨rfl, rfl, rfl, rfl⟩
        obtain ⟨fedBytes, acceptedBytes, marks, receipts⟩ := quiet
        have ticked : Sound { system with
            writer := (system.writer.onTick now settings.writeTimeout).2
            log := .ticked now :: system.log } :=
          { wire := sound.wire.same rfl rfl rfl fedBytes acceptedBytes marks rfl
            clock := sound.clock.tick now settings.writeTimeout
            books := sound.books.same rfl rfl rfl receipts rfl rfl rfl (Nat.le_refl _) (Nat.le_refl _)
            emptied := fun closed => by
              have closed : system.phase = .closed := closed
              rw [may.1] at closed
              cases closed
            filing := sound.filing }
        split at taken
        · obtain rfl := Option.some.inj taken
          exact ticked.closeOnWriteFailure (Option.isNone_iff_eq_none.mp may.2) .writeTimeout
        · obtain rfl := Option.some.inj taken
          exact ticked
      · cases taken
  | takeWritten kind =>
      simp only [SendSystem.step] at taken
      split at taken
      · rename_i runs
        obtain rfl := Option.some.inj taken
        refine ⟨⟨sound.wire.order, sound.wire.fedCount, sound.wire.acceptedCount, ?_⟩,
          sound.clock.same rfl rfl rfl rfl,
          sound.books.same rfl rfl rfl rfl rfl rfl rfl (Nat.le_refl _) (Nat.le_refl _), sound.emptied, sound.filing⟩
        intro other
        show MarkFits (if other = kind then (system.writer.marks kind).takeWritten else system.writer.marks other)
          system.stream.length system.fed.length (system.watching other)
        split
        · rename_i same
          rw [same]
          exact (sound.wire.marks kind).takeWritten
        · exact sound.wire.marks other
      · cases taken
  | close =>
      simp only [SendSystem.step] at taken
      split at taken
      · rename_i may
        obtain rfl := Option.some.inj taken
        exact sound.fatal (Option.isNone_iff_eq_none.mp may.2)
      · cases taken
  | giveUp =>
      simp only [SendSystem.step] at taken
      split at taken
      · rename_i may
        obtain rfl := Option.some.inj taken
        have failed := sound.failReceipts .writeTimeout
        exact { failed with
          wire := failed.wire.same rfl rfl rfl rfl rfl rfl rfl
          clock := failed.clock.same rfl rfl rfl rfl
          books := failed.books.same rfl rfl rfl rfl rfl rfl rfl (Nat.le_refl _) (Nat.le_refl _)
          emptied := fun _ => ⟨may.2.1, sound.closing_free may.1, rfl⟩
          filing := fun held => by
            have held : system.filing.isSome = true := held
            rw [sound.closing_free may.1] at held
            cases held }
      · cases taken
  | finish =>
      simp only [SendSystem.step] at taken
      split at taken
      · rename_i may
        obtain rfl := Option.some.inj taken
        have failed := sound.failReceipts .transport
        exact { failed with
          wire := failed.wire.same rfl rfl rfl rfl rfl rfl rfl
          clock := failed.clock.same rfl rfl rfl rfl
          books := failed.books.same rfl rfl rfl rfl rfl rfl rfl (Nat.le_refl _) (Nat.le_refl _)
          emptied := fun _ => ⟨may.2, sound.closing_free may.1, rfl⟩
          filing := fun held => by
            have held : system.filing.isSome = true := held
            rw [sound.closing_free may.1] at held
            cases held }
      · cases taken
  | abort =>
      simp only [SendSystem.step] at taken
      split at taken
      · obtain rfl := Option.some.inj taken
        exact {
          wire := sound.wire.same rfl rfl rfl rfl rfl rfl rfl
          clock := sound.clock.same rfl rfl rfl rfl
          books := sound.books.abort rfl rfl rfl rfl rfl rfl rfl rfl rfl
          emptied := fun _ => ⟨rfl, rfl, rfl⟩
          filing := fun impossible => by cases impossible }
      · cases taken

/-! ## Truthful outcomes -/

/-- Nothing is accepted, and no mark turns written. -/
def Unturned (system after : SendSystem) (kind : Watched) : Prop :=
  after.stream = system.stream ∧
    ((system.writer.marks kind).written = false → (after.writer.marks kind).written = false)

theorem Unturned.same {system after : SendSystem} {kind : Watched} (stream : after.stream = system.stream)
    (marks : after.writer.marks = system.writer.marks) : Unturned system after kind :=
  ⟨stream, fun unset => by rw [marks]; exact unset⟩

theorem unturned_writeFrame (system : SendSystem) (filing : Filing) (filed : Bool) (kind : Watched) :
    Unturned system (system.writeFrame filing filed) kind := by
  unfold SendSystem.writeFrame
  dsimp only
  split
  · exact .same rfl rfl
  · rename_i after fed
    obtain ⟨writer, rfl, _, _, marks, _⟩ := feed_eq_ok fed
    let fed : SendSystem := { system with
      writer := writer.fedNewSeq filing.seq
      buffer := system.buffer ++ filing.frame.bytes
      fed := system.fed ++ filing.frame.bytes
      nextSender := filing.seq + 1
      filing := none
      log := .fed :: system.log }
    have queued : Unturned system (fed.queueReceipt filing filed) kind := by
      unfold queueReceipt
      split <;> exact .same rfl marks
    unfold SendSystem.markFrame
    split
    · exact queued
    · rename_i watched _
      refine ⟨queued.1, ?_⟩
      intro unset
      show (if kind = watched then WriteMark.mark _ else (fed.queueReceipt filing filed).writer.marks kind).written = false
      split
      · rfl
      · exact queued.2 unset

/-- Only a poll makes the stream longer or turns a mark. -/
theorem unturned {system after : SendSystem} {settings : SendSettings} {action : SendAction}
    (taken : system.step settings action = some after) (kind : Watched)
    (notPoll : ∀ moved result, action ≠ .poll moved result) : Unturned system after kind := by
  cases action with
  | poll moved result => exact absurd rfl (notPoll moved result)
  | filed ok =>
      simp only [step] at taken
      split at taken
      · split at taken
        · exact Option.some.inj taken ▸ unturned_writeFrame _ _ _ _
        · split at taken
          · exact Option.some.inj taken ▸ unturned_writeFrame _ _ _ _
          · split at taken
            · exact Option.some.inj taken ▸ .same rfl rfl
            · exact Option.some.inj taken ▸ unturned_writeFrame _ _ _ _
      · cases taken
  | refeed frame =>
      simp only [step] at taken
      split at taken
      · split at taken
        · exact Option.some.inj taken ▸ .same rfl rfl
        · rename_i fed
          obtain ⟨writer, rfl, _, _, marks, _⟩ := feed_eq_ok fed
          exact Option.some.inj taken ▸ .same rfl marks
      · cases taken
  | number i frame watched sendingTime =>
      simp only [step] at taken
      split at taken
      · split at taken
        · exact Option.some.inj taken ▸ .same rfl rfl
        · split at taken
          · exact Option.some.inj taken ▸ .same rfl rfl
          · exact Option.some.inj taken ▸ .same rfl rfl
      · cases taken
  | tick now =>
      have marks : (system.writer.onTick now settings.writeTimeout).2.marks = system.writer.marks := by
        unfold Writer.onTick
        split
        · rfl
        · split
          · rfl
          · split
            · split <;> rfl
            · rfl
      simp only [step] at taken
      split at taken
      · split at taken
        · exact Option.some.inj taken ▸ .same rfl marks
        · exact Option.some.inj taken ▸ .same rfl marks
      · cases taken
  | takeWritten watched =>
      simp only [step] at taken
      split at taken
      · obtain rfl := Option.some.inj taken
        refine ⟨rfl, ?_⟩
        intro unset
        show (if kind = watched then (system.writer.marks watched).takeWritten
          else system.writer.marks kind).written = false
        split
        · rfl
        · exact unset
      · cases taken
  | refuse i reason =>
      simp only [step] at taken
      split at taken
      · split at taken
        · exact Option.some.inj taken ▸ .same rfl rfl
        · cases taken
      · cases taken
  | track | close | giveUp | finish | abort =>
      simp only [step] at taken
      split at taken
      · exact Option.some.inj taken ▸ .same rfl rfl
      · cases taken

/-- A poll turns the marks of the frames whose last byte it takes. -/
theorem Sound.turns_of_poll {system after : SendSystem} (sound : system.Sound) {settings : SendSettings} {moved : Nat}
    {result : PollResult} (taken : system.step settings (.poll moved result) = some after) (kind : Watched)
    (unset : (system.writer.marks kind).written = false) :
    (after.writer.marks kind).written = true ↔
      ∃ place, system.watching kind = some place ∧ system.stream.length < place ∧ place ≤ after.stream.length := by
  simp only [SendSystem.step] at taken
  split at taken
  · rename_i may
    obtain ⟨_, _, _, _, room, complete⟩ := may
    have wire := sound.wire.accept room
    -- what the poll itself took decides, whatever follows it
    have accepted : ((system.accept moved).writer.marks kind).written = true ↔
        ∃ place, system.watching kind = some place ∧ system.stream.length < place ∧
          place ≤ (system.accept moved).stream.length := by
      rw [accept_stream_length room]
      by_cases none : moved = 0
      · rw [none]
        have same : system.accept 0 = system := if_pos rfl
        rw [same, unset]
        simp only [Bool.false_eq_true, false_iff, Nat.add_zero]
        rintro ⟨place, _, above, below⟩
        omega
      · rw [accept_marks moved system none]
        exact (sound.wire.marks kind).written_iff unset
    cases result with
    | waiting =>
        obtain rfl := Option.some.inj taken
        exact accepted
    | flushed =>
        obtain rfl := Option.some.inj taken
        obtain rfl := complete rfl
        have all : (system.accept system.buffer.length).stream.length =
            (system.accept system.buffer.length).fed.length := by
          rw [← wire.length, accept_all]
          rfl
        have fits := wire.marks kind
        rw [all] at fits
        have same : (system.accept system.buffer.length).onFlushed.writer.marks kind =
            (system.accept system.buffer.length).writer.marks kind := fits.flushed
        rw [same]
        exact accepted
    | failed =>
        obtain rfl := Option.some.inj taken
        exact accepted
  · cases taken

/-- What a system of tracked sends keeps. -/
structure Kept (settings : SendSettings) (system : SendSystem) : Prop where
  /-- No receipt resolves twice, and none but of a tracked send. -/
  once : system.outcomeIds.Nodup
  tracked : ∀ id ∈ system.outcomeIds, id < system.issued
  /-- When the session is closed, every receipt has resolved. -/
  all : system.phase = .closed → ∀ id < system.issued, id ∈ system.outcomeIds
  /-- The stream has the bytes fed, in order. -/
  wire : system.stream <+: system.fed
  sent : ∀ id seq sendingTime filed, (id, .sent seq sendingTime filed) ∈ system.outcomes →
    ∃ place, (id, place) ∈ system.ends ∧ place ≤ system.stream.length
  /-- The receipts of frames fed resolve in the order the frames were fed. -/
  inOrder : system.outcomeIds.filter (· ∈ system.fedIds) <+: system.fedIds
  notSent : ∀ id reason, (id, .notSent reason) ∈ system.outcomes → id ∉ system.fedIds ∧
    (id ∈ system.attempted → reason = .storeRefused true)
  unwritten : ∀ kind place, system.watching kind = some place →
    ((system.writer.marks kind).unwritten = true ↔ system.stream.length < place)
  /-- A mark turns written in the step that takes the last byte of its frame. -/
  turns : ∀ action after kind, system.step settings action = some after →
    (system.writer.marks kind).written = false →
    ((after.writer.marks kind).written = true ↔
      ∃ place, system.watching kind = some place ∧ system.stream.length < place ∧ place ≤ after.stream.length)
  /-- A tick that reports a stall follows a whole timeout of waiting output and no byte. -/
  stalls : ∀ now, (system.writer.onTick now settings.writeTimeout).1 = .stalled →
    system.writer.pending = true ∧ ∃ since, since + settings.writeTimeout ≤ now ∧ Standstill system.log since True

theorem Sound.kept {system : SendSystem} (sound : system.Sound) (settings : SendSettings) :
    system.Kept settings where
  once := by
    refine List.nodup_iff_count_le_one.mpr ?_
    intro id
    have whole := sound.books.ledger id
    split at whole <;> omega
  tracked id inside := by
    have := List.count_pos_iff.mpr inside
    have whole := sound.books.ledger id
    by_contra beyond
    rw [if_neg beyond] at whole
    omega
  all closed id below := by
    obtain ⟨unsent, filing, receipts⟩ := sound.emptied closed
    have whole := sound.books.ledger id
    unfold unsentIds filingIds pendingIds at whole
    rw [unsent, filing, receipts, if_pos below] at whole
    exact List.count_pos_iff.mp (by rw [show system.outcomeIds.count id = 1 from whole]; exact Nat.one_pos)
  wire := ⟨system.buffer, sound.wire.order⟩
  sent := sound.books.sent
  inOrder := ⟨system.pendingIds, sound.books.inOrder⟩
  notSent := sound.books.notSent
  unwritten kind place watches := by
    have fits := sound.wire.marks kind
    rw [watches] at fits
    exact fits.unwritten_iff
  turns action after kind taken unset := by
    by_cases isPoll : ∃ moved result, action = .poll moved result
    · obtain ⟨moved, result, rfl⟩ := isPoll
      exact sound.turns_of_poll taken kind unset
    · obtain ⟨stream, unturned⟩ := unturned taken kind (fun moved result is => isPoll ⟨moved, result, is⟩)
      rw [unturned unset, stream]
      simp only [Bool.false_eq_true, false_iff]
      rintro ⟨place, _, above, below⟩
      omega
  stalls _ stalls := sound.clock.of_stalled stalls

/-- In every run, whatever the stream takes and the store answers. -/
theorem sends_kept (settings : SendSettings) (nextSender : Nat) {system : SendSystem}
    (reached : Reaches (SendSystem.step settings) anyStep (new settings nextSender) system) : system.Kept settings :=
  (reached.invariant (P := Sound) (fun _ _ _ sound _ taken => sound.step taken) (new_sound settings nextSender)).kept
    settings

/-- A frame is filed and fed, and the stream takes it in two parts. -/
def inTwoParts : List SendAction :=
  [.track, .number (some 0) ⟨[0x38, 0x3d, 0x46], by simp⟩ none 7, .filed true, .poll 2 .waiting, .tick 0,
    .poll 1 .flushed, .close, .finish]

/-- A session that closes when its store fails. -/
def failClosed : SendSettings := ⟨64, 10, true, true⟩

theorem inTwoParts_kept : ∃ system, run (SendSystem.step failClosed) (new failClosed 5) inTwoParts = some system ∧
    system.outcomes = [(0, .sent 5 7 true)] ∧ system.Kept failClosed := by
  obtain ⟨system, ran, outcomes⟩ : ∃ system,
      run (SendSystem.step failClosed) (new failClosed 5) inTwoParts = some system ∧
        system.outcomes = [(0, .sent 5 7 true)] := ⟨_, rfl, rfl⟩
  exact ⟨system, ran, outcomes, sends_kept failClosed 5 (reaches_of_run ran)⟩

/-- The store is handed a frame and fails: it may hold the frame, and the outcome is `NotSent`. -/
theorem refusal_after_filing : ∃ system, Reaches (SendSystem.step failClosed) anyStep (new failClosed 5) system ∧
    0 ∈ system.attempted ∧ (0, .notSent (.storeRefused true)) ∈ system.outcomes := by
  obtain ⟨system, ran, attempted, outcomes⟩ : ∃ system,
      run (SendSystem.step failClosed) (new failClosed 5)
        [.track, .number (some 0) ⟨[0x38, 0x3d, 0x46], by simp⟩ none 7, .filed false] = some system ∧
        0 ∈ system.attempted ∧ (0, .notSent (.storeRefused true)) ∈ system.outcomes :=
    ⟨_, rfl, by decide, by decide⟩
  exact ⟨system, reaches_of_run ran, attempted, outcomes⟩

end SendSystem

end IronFix.Engine
