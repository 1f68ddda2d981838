import IronFix.Lib.Traces
import IronFix.Store.FileCalls
import IronFix.Store.JournalBytes

/-!
# A store over stable storage

What a file store is for: a store in memory, of which the last flush keeps a
copy. A call that fails changes nothing, or closes the store until it is read
again or replaced: then the store is what it was, or what the last flush kept.
-/

namespace IronFix.Store

open Lib.Ordered Lib.Traces

structure StableStore where
  policy : SyncPolicy
  /-- What is read, and what a refresh leads to. -/
  held : MemoryStore
  /-- What the last flush left on stable storage. -/
  kept : MemoryStore
  /-- Every frame filed by a call that answered. -/
  filed : List (Nat × MsgType × Bytes)
  /-- What the owed-reset marker is said to be. -/
  owed : Bool
  created : SystemTime
  /-- Calls are served, and not refused until a refresh. -/
  usable : Bool

namespace Request

/-- Writes another journal in place of this one. -/
def replaces : Request → Bool
  | .resetTo .. | .compact => true
  | _ => false

/-- When the store was created, once the call is done. -/
def createdAt (created : SystemTime) : Request → SystemTime
  | .resetTo _ _ now => now.recorded
  | _ => created

end Request

namespace StableStore

/-- A call is done. What is written carries the marker. -/
def after (store : StableStore) (request : Request) (marker : Bool) : StableStore :=
  { store with
    held := (store.held.after request).setResetOwed marker
    filed := store.filed ++ request.filing
    created := request.createdAt store.created }

/-- The marker that is written: as it was, or as it is said to be. -/
def Carries (store : StableStore) (marker : Bool) : Prop := marker = store.held.resetOwed ∨ marker = store.owed

/-- What is known to be kept once an undo or a reload put the counters back: the
frames may be fewer than those held. -/
structure Behind (store : StableStore) (kept : MemoryStore) : Prop where
  nextTargetSeq : kept.nextTargetSeq = store.held.nextTargetSeq
  resetOwed : kept.resetOwed = store.held.resetOwed
  appWatermark : kept.appWatermark = store.held.appWatermark
  messages : ∀ entry ∈ kept.messages.entries, entry ∈ store.filed

/-- What is kept once an undo or a reload is flushed: as before, or behind. -/
def Undone (store : StableStore) (kept : MemoryStore) : Prop :=
  kept = store.kept ∨ store.policy ≠ .everyWrite ∧ store.Behind kept

/-- How a call that fails leaves the store. -/
inductive Fails (store : StableStore) : StableStore → Prop
  | unchanged : Fails store store
  /-- What it wrote is undone by the next refresh. -/
  | torn : Fails store { store with usable := false }
  /-- What was not flushed is lost. -/
  | lost : Fails store { store with held := store.kept, usable := false }

/-- A refresh: what is held is read back. If the last flush of it fails, what was
not flushed before is lost. -/
inductive Refreshes (store : StableStore) : Except StoreError (List StoredMessage) → StableStore → Prop
  | done {kept : MemoryStore} (flushed : kept = store.held ∨ store.policy = .never ∧ store.Behind kept) :
      Refreshes store (.ok []) { store with kept := kept, owed := store.held.resetOwed, usable := true }
  | stops {kept : MemoryStore} {usable : Bool} (error : StoreError) (undone : Undone store kept)
      (stays : store.usable = true → usable = true) :
      Refreshes store (.error error) { store with kept := kept, usable := usable }
  | drops {kept : MemoryStore} (error : StoreError) (undone : Undone store kept) :
      Refreshes store (.error error)
        { store with held := kept, kept := kept, owed := store.held.resetOwed, usable := false }

/-- The store with the marker written, and flushed. -/
def marked (store : StableStore) (owed : Bool) : StableStore :=
  { store with held := store.held.setResetOwed owed, kept := store.held.setResetOwed owed }

/-- The marker is written twice, each time flushed. A failure leaves it said to
be set if it was or was being set. -/
inductive Marks (store : StableStore) (owed : Bool) : Except StoreError (List StoredMessage) → StableStore → Prop
  | carried (held : store.held.resetOwed = owed) (kept : store.kept.resetOwed = owed) :
      Marks store owed (.ok []) { store with owed := owed }
  | done : Marks store owed (.ok []) { store.marked owed with owed := owed }
  | fails {begun after : StableStore} (error : StoreError) (begins : begun = store ∨ begun = store.marked owed)
      (fails : Fails begun after) : Marks store owed (.error error) { after with owed := store.owed || owed }

/-- Another journal is renamed into place. What fails behind the rename closes
the store. -/
inductive Replaces (store : StableStore) (request : Request) :
    Except StoreError (List StoredMessage) → StableStore → Prop
  | done {marker : Bool} (carries : store.Carries marker) : Replaces store request (.ok [])
      { store.after request marker with kept := (store.after request marker).held, usable := true }
  | late {marker : Bool} (error : StoreError) (carries : store.Carries marker) :
      Replaces store request (.error error)
        { store.after request marker with kept := (store.after request marker).held, usable := false }

/-- A call, its answer, and the store it leaves. -/
inductive Serves (store : StableStore) (request : Request) :
    Except StoreError (List StoredMessage) → StableStore → Prop
  | reads {result : Except StoreError (List StoredMessage)} (isRead : request.isRead = true)
      (usable : store.usable = true) (answers : result = store.held.answer request) :
      Serves store request result store
  /-- A read is refused as a store in memory refuses it, or since a call of the
  operating system failed. -/
  | refused (error : StoreError) (honest : request.isRead = true →
        store.held.answer request = .error error ∨ ∃ reason, error = .io reason) :
      Serves store request (.error error) store
  | writes {marker : Bool} {kept : MemoryStore} (isWrite : request.isWrite = true) (usable : store.usable = true)
      (carries : store.Carries marker)
      (flushed : kept = (store.after request marker).held ∨ kept = store.kept ∧ store.policy ≠ .everyWrite) :
      Serves store request (.ok []) { store.after request marker with kept := kept }
  | syncs (isSync : request = .sync) (usable : store.usable = true) :
      Serves store request (.ok []) { store with kept := store.held }
  | fails {after : StableStore} (error : StoreError) (writes : request.isWrite = true ∨ request = .sync)
      (usable : store.usable = true) (fails : Fails store after) : Serves store request (.error error) after
  | replaces {result : Except StoreError (List StoredMessage)} {after : StableStore}
      (replaces : request.replaces = true) (usable : request = .compact → store.usable = true)
      (replaced : Replaces store request result after) : Serves store request result after
  | refreshes {result : Except StoreError (List StoredMessage)} {after : StableStore}
      (isRefresh : request = .refresh) (refreshed : Refreshes store result after) :
      Serves store request result after
  | marks {result : Except StoreError (List StoredMessage)} {owed : Bool} {opened after : StableStore}
      (isMark : request = .setResetOwed owed)
      (opens : store.usable = true ∧ opened = store ∨ Refreshes store (.ok []) opened)
      (marks : Marks opened owed result after) : Serves store request result after
  /-- A store that is not usable is read again before the marker is written. -/
  | closed {owed : Bool} {after : StableStore} (error : StoreError) (isMark : request = .setResetOwed owed)
      (stops : Refreshes store (.error error) after) : Serves store request (.error error) after

end StableStore

/-! ## Runs -/

/-- What happens to a store. -/
inductive StoreMove where
  | call (request : Request)
  /-- A compaction between two calls. -/
  | compaction
  /-- The store is closed and opened again. -/
  | reopening

/-- What happened, and what it was answered. -/
abbrev Moved := StoreMove × Except StoreError (List StoredMessage)

namespace StableStore

/-- What happens to the store, and what of it its caller is told. -/
inductive Moves (store : StableStore) : Moved → StableStore → Prop
  | call {request : Request} {result : Except StoreError (List StoredMessage)} {after : StableStore}
      (serves : Serves store request result after) : Moves store (.call request, result) after
  | idle : Moves store (.compaction, .ok []) store
  | compaction {result : Except StoreError (List StoredMessage)} {after : StableStore}
      (replaced : Replaces store .compact result after) : Moves store (.compaction, .ok []) after
  | reopening {after : StableStore} (reads : Refreshes store (.ok []) after) :
      Moves store (.reopening, .ok []) after

/-! ### What every move keeps -/

/-- What holds whatever happens to a store in part. The marker is set to what
`sets` allows. -/
structure Lasting (sets : Bool → Prop) (P : StableStore → Prop) : Prop where
  writes : ∀ {store : StableStore} {request : Request} {marker : Bool} {kept : MemoryStore}, P store →
    store.Carries marker →
    (kept = (store.after request marker).held ∨ kept = store.kept ∧ store.policy ≠ .everyWrite) →
    P { store.after request marker with kept := kept }
  flushes : ∀ {store : StableStore}, P store → P { store with kept := store.held }
  loses : ∀ {store : StableStore}, P store → P { store with held := store.kept }
  undoes : ∀ {store : StableStore} {kept : MemoryStore}, P store → Undone store kept →
    P { store with kept := kept }
  reads : ∀ {store : StableStore}, P store → P { store with owed := store.held.resetOwed }
  opens : ∀ {store : StableStore} (usable : Bool), P store → P { store with usable := usable }
  saysOwed : ∀ {store : StableStore} {owed said : Bool}, sets owed → P store →
    (said = (store.owed || owed) ∨ said = owed ∧ store.held.resetOwed = owed ∧ store.kept.resetOwed = owed) →
    P { store with owed := said }
  marked : ∀ {store : StableStore} {owed : Bool}, sets owed → P store → P (store.marked owed)

section Lasts

variable {sets : Bool → Prop} {P : StableStore → Prop} {store after : StableStore}
  {request : Request} {result : Except StoreError (List StoredMessage)} {owed : Bool}

theorem Lasting.fails (lasting : Lasting sets P) (starts : P store) (fails : Fails store after) :
    P after := by
  cases fails with
  | unchanged => exact starts
  | torn => exact lasting.opens false starts
  | lost => exact lasting.opens false (lasting.loses starts)

theorem Lasting.refreshes (lasting : Lasting sets P) (starts : P store)
    (refreshes : Refreshes store result after) : P after := by
  cases refreshes with
  | done flushed =>
      rcases flushed with rfl | ⟨never, behind⟩
      · exact lasting.opens true (lasting.reads (lasting.flushes starts))
      · have lazily : store.policy ≠ .everyWrite := by
          rw [never]
          rintro ⟨⟩
        exact lasting.opens true (lasting.reads (lasting.undoes starts (.inr ⟨lazily, behind⟩)))
  | @stops kept usable error undone stays => exact lasting.opens usable (lasting.undoes starts undone)
  | drops error undone =>
      exact lasting.opens false (lasting.loses (lasting.reads (lasting.undoes starts undone)))

theorem Lasting.replaces (lasting : Lasting sets P) (starts : P store)
    (replaces : Replaces store request result after) : P after := by
  cases replaces with
  | done carries => exact lasting.opens true (lasting.writes starts carries (.inl rfl))
  | late error carries => exact lasting.opens false (lasting.writes starts carries (.inl rfl))

theorem Lasting.marks (lasting : Lasting sets P) (starts : P store) (may : sets owed)
    (marks : Marks store owed result after) : P after := by
  cases marks with
  | carried held kept => exact lasting.saysOwed may starts (.inr ⟨rfl, held, kept⟩)
  | done => exact lasting.saysOwed may (lasting.marked may starts) (.inr ⟨rfl, rfl, rfl⟩)
  | @fails begun after error begins fails =>
      have begun : P begun ∧ begun.owed = store.owed := by
        rcases begins with rfl | rfl
        · exact ⟨starts, rfl⟩
        · exact ⟨lasting.marked may starts, rfl⟩
      have same : after.owed = store.owed := by
        rw [← begun.2]
        cases fails <;> rfl
      rw [← same]
      exact lasting.saysOwed may (lasting.fails begun.1 fails) (.inl rfl)

/-- What every part of a move keeps, the move keeps. -/
theorem Lasting.moves (lasting : Lasting sets P) (starts : P store) {move : StoreMove}
    (may : ∀ owed, move = .call (.setResetOwed owed) → sets owed)
    (moves : Moves store (move, result) after) : P after := by
  cases moves with
  | idle => exact starts
  | compaction replaced => exact lasting.replaces starts replaced
  | reopening reads => exact lasting.refreshes starts reads
  | call serves =>
      cases serves with
      | reads isRead usable answers => exact starts
      | refused error honest => exact starts
      | writes isWrite usable carries flushed => exact lasting.writes starts carries flushed
      | syncs isSync usable => exact lasting.flushes starts
      | fails error writes usable fails => exact lasting.fails starts fails
      | replaces replaces usable replaced => exact lasting.replaces starts replaced
      | refreshes isRefresh refreshed => exact lasting.refreshes starts refreshed
      | marks isMark opens marks =>
          have allowed := may _ (congrArg StoreMove.call isMark)
          rcases opens with ⟨-, rfl⟩ | refreshed
          · exact lasting.marks starts allowed marks
          · exact lasting.marks (lasting.refreshes starts refreshed) allowed marks
      | closed error isMark stops => exact lasting.refreshes starts stops

end Lasts

/-- The policy is the one the store was opened with. -/
theorem policy_lasting (policy : SyncPolicy) : Lasting (fun _ => True) fun store => store.policy = policy where
  writes same _ _ := same
  flushes same := same
  loses same := same
  undoes same _ := same
  reads same := same
  opens _ same := same
  saysOwed _ same _ := same
  marked _ same := same

/-! ### The owed-reset marker -/

/-- The marker is set, wherever the store is read from. -/
structure Owes (store : StableStore) : Prop where
  held : store.held.resetOwed = true
  kept : store.kept.resetOwed = true
  owed : store.owed = true

/-- The marker is kept by whatever is not asked to clear it. -/
theorem owes_lasting : Lasting (· = true) Owes where
  writes := by
    intro store request marker kept owes carries flushed
    have isOwed : marker = true := by
      rcases carries with rfl | rfl
      · exact owes.held
      · exact owes.owed
    rcases flushed with rfl | ⟨rfl, -⟩
    · exact ⟨isOwed, isOwed, owes.owed⟩
    · exact ⟨isOwed, owes.kept, owes.owed⟩
  flushes owes := ⟨owes.held, owes.held, owes.owed⟩
  loses owes := ⟨owes.kept, owes.kept, owes.owed⟩
  undoes := by
    intro store kept owes undone
    rcases undone with rfl | ⟨-, behind⟩
    · exact owes
    · exact ⟨owes.held, behind.resetOwed.trans owes.held, owes.owed⟩
  reads owes := ⟨owes.held, owes.kept, owes.held⟩
  opens _ owes := ⟨owes.held, owes.kept, owes.owed⟩
  saysOwed := by
    rintro store owed said rfl owes (rfl | ⟨rfl, -, -⟩)
    · exact ⟨owes.held, owes.kept, Bool.or_true _⟩
    · exact ⟨owes.held, owes.kept, rfl⟩
  marked := by
    rintro store owed rfl owes
    exact ⟨rfl, rfl, owes.owed⟩

/-- A call that set the marker has set it everywhere. -/
theorem Serves.owes {store after : StableStore} {messages : List StoredMessage}
    (serves : Serves store (.setResetOwed true) (.ok messages) after) : after.Owes := by
  cases serves with
  | reads isRead usable answers => cases isRead
  | writes isWrite usable carries flushed => cases isWrite
  | syncs isSync usable => cases isSync
  | replaces replaces usable replaced => cases replaces
  | refreshes isRefresh refreshed => cases isRefresh
  | marks isMark opens marks =>
      cases isMark
      cases marks with
      | carried held kept => exact ⟨held, kept, rfl⟩
      | done => exact ⟨rfl, rfl, rfl⟩

/-! ### Where frames come from -/

/-- Every frame that is held or kept was filed by a call that answered. -/
structure Known (store : StableStore) : Prop where
  held : ∀ entry ∈ store.held.messages.entries, entry ∈ store.filed
  kept : ∀ entry ∈ store.kept.messages.entries, entry ∈ store.filed

theorem mem_after {memory : MemoryStore} {request : Request} {entry : Nat × MsgType × Bytes}
    (member : entry ∈ (memory.after request).messages.entries) :
    entry ∈ memory.messages.entries ∨ entry ∈ request.filing := by
  cases request with
  | store seqNum msgType message =>
      rcases mem_put member with rfl | before
      · exact .inr List.mem_cons_self
      · exact .inl before
  | fileOutbound seqNum msgType message nextSender =>
      rcases mem_put member with rfl | before
      · exact .inr List.mem_cons_self
      · exact .inl before
  | resetTo nextSender nextTarget now => cases member
  | _ => exact .inl member

theorem known_lasting : Lasting (fun _ => True) Known where
  writes := by
    intro store request marker kept known carries flushed
    have filed : ∀ entry ∈ (store.after request marker).held.messages.entries,
        entry ∈ (store.after request marker).filed := by
      intro entry member
      refine List.mem_append.mpr ?_
      exact (mem_after member).imp_left (known.held entry)
    rcases flushed with rfl | ⟨rfl, -⟩
    · exact ⟨filed, filed⟩
    · refine ⟨filed, ?_⟩
      intro entry member
      exact List.mem_append_left _ (known.kept entry member)
  flushes known := ⟨known.held, known.held⟩
  loses known := ⟨known.kept, known.kept⟩
  undoes := by
    intro store kept known undone
    rcases undone with rfl | ⟨-, behind⟩
    · exact known
    · exact ⟨known.held, behind.messages⟩
  reads known := ⟨known.held, known.kept⟩
  opens _ known := ⟨known.held, known.kept⟩
  saysOwed _ known _ := ⟨known.held, known.kept⟩
  marked _ known := ⟨known.held, known.held⟩

/-! ### Stores that flush every write -/

/-- A store that flushes every write never holds what is not kept. -/
def Even (store : StableStore) : Prop := store.policy = .everyWrite → store.kept = store.held

theorem even_lasting : Lasting (fun _ => True) Even where
  writes := by
    rintro store request marker kept even carries (flushed | ⟨-, lazily⟩) every
    · exact flushed
    · exact absurd every lazily
  flushes _ _ := rfl
  loses _ _ := rfl
  undoes := by
    rintro store kept even (rfl | ⟨lazily, -⟩) every
    · exact even every
    · exact absurd every lazily
  reads even := even
  opens _ even := even
  saysOwed _ even _ := even
  marked _ _ _ := rfl

/-! ### Agreement with a store in memory -/

section Agreement

variable {store after : StableStore} {memory : MemoryStore} {request : Request}
  {result : Except StoreError (List StoredMessage)}

/-- A call that fails is not done, not even in part: calls that replace the
journal or set the marker do not fail, and others fail only where every write is
flushed. -/
def Whole (policy : SyncPolicy) (moved : Moved) : Prop :=
  ∀ request error, moved = (.call request, .error error) → policy = .everyWrite ∧
    (∀ nextSender nextTarget now, request ≠ .resetTo nextSender nextTarget now) ∧
      ∀ owed, request ≠ .setResetOwed owed

/-- The store holds what a store in memory does. -/
structure Agrees (store : StableStore) (memory : MemoryStore) : Prop where
  held : store.held = memory
  owed : store.owed = memory.resetOwed
  even : store.Even

theorem after_resetOwed (others : ∀ owed, request ≠ .setResetOwed owed) :
    (memory.after request).resetOwed = memory.resetOwed := by
  cases request with
  | setResetOwed owed => exact absurd rfl (others owed)
  | _ => rfl

theorem setResetOwed_self (memory : MemoryStore) : memory.setResetOwed memory.resetOwed = memory := rfl

/-- What is written is what a store in memory writes. -/
theorem Agrees.carried (agrees : Agrees store memory) {marker : Bool} (carries : store.Carries marker)
    (others : ∀ owed, request ≠ .setResetOwed owed) :
    (store.after request marker).held = memory.after request := by
  have same : marker = memory.resetOwed := by
    rcases carries with rfl | rfl
    · rw [agrees.held]
    · exact agrees.owed
  show (store.held.after request).setResetOwed marker = _
  rw [agrees.held, same, ← after_resetOwed others, setResetOwed_self]

/-- An answer of the store is the answer of a store in memory. -/
theorem Serves.answers {messages : List StoredMessage}
    (serves : Serves store request (.ok messages) after) : store.held.answer request = .ok messages := by
  generalize isResult : (Except.ok messages : Except StoreError (List StoredMessage)) = result at serves
  cases serves with
  | reads isRead usable answers => exact answers.symm
  | refused error honest => cases isResult
  | fails error writes usable fails => cases isResult
  | closed error isMark stops => cases isResult
  | writes isWrite usable carries flushed =>
      cases isResult
      cases request with
      | getRange | getPage => cases isWrite
      | _ => rfl
  | syncs isSync usable =>
      cases isResult
      rw [isSync]
      rfl
  | replaces replaces usable replaced =>
      cases replaced with
      | late error carries => cases isResult
      | done carries =>
          cases isResult
          cases request with
          | getRange | getPage => cases replaces
          | _ => rfl
  | refreshes isRefresh refreshed =>
      cases refreshed with
      | done flushed =>
          cases isResult
          rw [isRefresh]
          rfl
      | stops error undone stays | drops error undone => cases isResult
  | marks isMark opens marks =>
      cases marks with
      | fails error begins fails => cases isResult
      | carried held kept | done =>
          cases isResult
          rw [isMark]
          rfl

/-- A refresh that answers leaves what is held. -/
theorem Refreshes.holds {messages : List StoredMessage} (refreshes : Refreshes store (.ok messages) after) :
    after.held = store.held ∧ after.owed = store.held.resetOwed := by
  cases refreshes with
  | done flushed => exact ⟨rfl, rfl⟩

/-- A store of which nothing is held that is not kept is left as it was by a
refresh that fails. -/
theorem Refreshes.fails {error : StoreError} (refreshes : Refreshes store (.error error) after)
    (every : store.policy = .everyWrite) (even : store.Even) :
    after.held = store.held ∧ (after.owed = store.owed ∨ after.owed = store.held.resetOwed) := by
  cases refreshes with
  | stops error undone stays => exact ⟨rfl, .inl rfl⟩
  | drops error undone =>
      rcases undone with rfl | ⟨lazily, -⟩
      · exact ⟨even every, .inr rfl⟩
      · exact absurd every lazily

theorem Fails.holds (fails : Fails store after) (every : store.policy = .everyWrite) (even : store.Even) :
    after.held = store.held ∧ after.owed = store.owed := by
  cases fails with
  | unchanged | torn => exact ⟨rfl, rfl⟩
  | lost => exact ⟨even every, rfl⟩

/-- A call that fails leaves what is held. -/
theorem Agrees.fails {error : StoreError} (agrees : Agrees store memory)
    (whole : Whole store.policy (.call request, .error error))
    (serves : Serves store request (.error error) after) :
    after.held = memory ∧ after.owed = memory.resetOwed := by
  obtain ⟨every, kept, others⟩ := whole request error rfl
  have even := agrees.even
  have held := agrees.held
  have owed := agrees.owed
  cases serves with
  | reads isRead usable answers => exact ⟨held, owed⟩
  | refused error honest => exact ⟨held, owed⟩
  | fails error writes usable fails =>
      obtain ⟨same, said⟩ := fails.holds every even
      exact ⟨same.trans held, said.trans owed⟩
  | replaces replaces usable replaced =>
      cases request with
      | resetTo nextSender nextTarget now => exact absurd rfl (kept nextSender nextTarget now)
      | compact =>
          cases replaced with
          | late error carries => exact ⟨agrees.carried carries others, owed⟩
      | _ => cases replaces
  | refreshes isRefresh refreshed =>
      obtain ⟨same, said⟩ := refreshed.fails every even
      refine ⟨same.trans held, ?_⟩
      rcases said with said | said
      · exact said.trans owed
      · rw [said, held]
  | marks isMark opens marks => exact absurd isMark (others _)
  | closed error isMark stops => exact absurd isMark (others _)

/-- A call that answers changes what is held as a store in memory changes. -/
theorem Agrees.answers {messages : List StoredMessage} (agrees : Agrees store memory)
    (serves : Serves store request (.ok messages) after) :
    after.held = memory.after request ∧ after.owed = (memory.after request).resetOwed := by
  have held := agrees.held
  have owed := agrees.owed
  generalize isResult : (Except.ok messages : Except StoreError (List StoredMessage)) = result at serves
  cases serves with
  | refused error honest => cases isResult
  | fails error writes usable fails => cases isResult
  | closed error isMark stops => cases isResult
  | reads isRead usable answers =>
      cases request with
      | getRange | getPage => exact ⟨held, owed⟩
      | _ => cases isRead
  | writes isWrite usable carries flushed =>
      have others : ∀ owed, request ≠ .setResetOwed owed := by
        rintro owed rfl
        cases isWrite
      rw [after_resetOwed others]
      exact ⟨agrees.carried carries others, owed⟩
  | syncs isSync usable =>
      rw [isSync]
      exact ⟨held, owed⟩
  | replaces replaces usable replaced =>
      have others : ∀ owed, request ≠ .setResetOwed owed := by
        rintro owed rfl
        cases replaces
      rw [after_resetOwed others]
      cases replaced with
      | late error carries => cases isResult
      | done carries => exact ⟨agrees.carried carries others, owed⟩
  | refreshes isRefresh refreshed =>
      rw [← isResult] at refreshed
      obtain ⟨same, said⟩ := refreshed.holds
      rw [isRefresh]
      refine ⟨same.trans held, ?_⟩
      rw [said, held]
      rfl
  | @marks result owed' opened after isMark opens marks =>
      have opened : opened.held = memory := by
        rcases opens with ⟨-, rfl⟩ | refreshed
        · exact held
        · exact refreshed.holds.1.trans held
      rw [isMark]
      cases marks with
      | fails error begins fails => cases isResult
      | carried isHeld isKept =>
          have same : memory.setResetOwed owed' = memory := by
            rw [← isHeld, opened, setResetOwed_self]
          exact ⟨opened.trans same.symm, rfl⟩
      | done => exact ⟨congrArg (MemoryStore.setResetOwed · owed') opened, rfl⟩

end Agreement

end StableStore

/-- What a call that answered does to a store in memory; others do nothing. -/
def MemoryStore.move (memory : MemoryStore) : Moved → MemoryStore
  | (.call request, .ok _) => memory.after request
  | _ => memory

namespace StableStore

section Agreement

variable {store after : StableStore} {memory : MemoryStore} {moved : Moved}

theorem Agrees.moves (agrees : Agrees store memory) (whole : Whole store.policy moved)
    (moves : Moves store moved after) : Agrees after (memory.move moved) := by
  have even : after.Even := by
    obtain ⟨move, result⟩ := moved
    exact even_lasting.moves agrees.even (fun _ _ => trivial) moves
  cases moves with
  | idle => exact ⟨agrees.held, agrees.owed, even⟩
  | compaction replaced =>
      have others : ∀ owed, Request.compact ≠ .setResetOwed owed := by
        rintro owed ⟨⟩
      cases replaced with
      | done carries | late error carries => exact ⟨agrees.carried carries others, agrees.owed, even⟩
  | reopening reads =>
      obtain ⟨same, said⟩ := reads.holds
      refine ⟨same.trans agrees.held, ?_, even⟩
      rw [said, agrees.held]
      rfl
  | @call request result after serves =>
      cases result with
      | error error =>
          obtain ⟨held, owed⟩ := agrees.fails whole serves
          exact ⟨held, owed, even⟩
      | ok messages =>
          obtain ⟨held, owed⟩ := agrees.answers serves
          exact ⟨held, owed, even⟩

/-- A store that agrees with one in memory agrees with it along every run. -/
theorem Agrees.along {run : List Moved} (agrees : Agrees store memory)
    (whole : ∀ moved ∈ run, Whole store.policy moved) (trace : Trace Moves store run after) :
    Agrees after (run.foldl MemoryStore.move memory) := by
  refine (trace.follows (R := fun now memory => Agrees now memory ∧ now.policy = store.policy) ?_ ⟨agrees, rfl⟩).1
  intro now memory moved after member standing moves
  obtain ⟨agrees, policy⟩ := standing
  refine ⟨agrees.moves ?_ moves, ?_⟩
  · rw [policy]
    exact whole moved member
  · obtain ⟨move, result⟩ := moved
    exact (policy_lasting store.policy).moves policy (fun _ _ => trivial) moves

end Agreement

end StableStore

end IronFix.Store
