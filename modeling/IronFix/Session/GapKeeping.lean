import Mathlib.Algebra.Order.Group.Multiset
import Mathlib.Tactic.Abel
import IronFix.Lib.Runs
import IronFix.Session.Receiver

/-!
# What the gap queue keeps

Whatever is inserted, taken and cleared in whatever order, the byte count is the
sum of what is held, both bounds are kept, and every message held once is
released, superseded, cleared or held still.
-/

namespace IronFix.Session

open Lib.Ordered Lib.Decimal Lib.Runs

namespace GapQueue

variable {F : Type} (gappedBytes : F → Nat)

/-- The bytes of some entries. -/
def total (entries : List (Nat × GapEntry F)) : Nat :=
  (entries.map fun entry => entryBytes gappedBytes entry.2).sum

/-- The byte count is that of what is held, and both bounds are kept. -/
structure Counted (queue : GapQueue F) : Prop where
  bytes : queue.bytes = total gappedBytes queue.entries.entries
  withinBytes : queue.bytes ≤ queue.maxBytes
  withinMessages : queue.entries.entries.length ≤ queue.maxMessages

/-! ## One call -/

variable {gappedBytes}

theorem total_cons (entry : Nat × GapEntry F) (rest : List (Nat × GapEntry F)) :
    total gappedBytes (entry :: rest) =
      entryBytes gappedBytes entry.2 + total gappedBytes rest := by
  simp [total]

theorem total_append (entries others : List (Nat × GapEntry F)) :
    total gappedBytes (entries ++ others) =
      total gappedBytes entries + total gappedBytes others := by
  simp [total]

theorem total_perm {entries others : List (Nat × GapEntry F)} (perm : entries.Perm others) :
    total gappedBytes entries = total gappedBytes others :=
  (perm.map _).sum_eq

variable (gappedBytes) in
/-- The walk drops what is below the expectation, takes what is at it, and
keeps the count. -/
theorem takeEntries_eq (expected : Nat) {entries : List (Nat × GapEntry F)}
    (ascending : Lib.Ordered.Ascending entries) {superseded : Nat} (bounded : superseded ≤ usizeMax) :
    takeEntries gappedBytes expected entries (total gappedBytes entries) superseded =
      (⟨min (superseded + (below expected entries).length) usizeMax, find expected entries⟩,
        total gappedBytes (above expected entries), above expected entries) := by
  induction entries generalizing superseded with
  | nil => simp [takeEntries, find, total, bounded]
  | cons head rest ih =>
      obtain ⟨seq, held⟩ := head
      -- the count covers the head, so it is never restarted
      have left : bytesWithout gappedBytes (total gappedBytes ((seq, held) :: rest)) held rest =
          total gappedBytes rest := by
        unfold bytesWithout
        rw [total_cons, if_pos (Nat.le_add_right _ _), Nat.add_sub_cancel_left]
      unfold takeEntries
      rcases lt_trichotomy seq expected with lower | rfl | higher
      · obtain ⟨lowers, highers, found⟩ :=
          splits_of_lt (show (seq, held).1 < expected from lower)
        rw [if_neg (not_lt.mpr lower.le), left]
        dsimp only
        rw [if_neg lower.ne, ih (List.pairwise_cons.mp ascending).2 (Nat.min_le_right _ _),
          lowers, highers, found, List.length_cons]
        congr 2
        omega
      · obtain ⟨lowers, highers, found⟩ := splits_of_eq ascending
        rw [if_neg (lt_irrefl seq), left]
        dsimp only
        rw [if_pos rfl, lowers, highers, found]
        simp [bounded]
      · obtain ⟨lowers, highers, found⟩ := splits_of_gt ascending higher
        rw [if_pos higher, lowers, highers, found]
        simp [bounded]

/-- What a take finds and what it leaves. -/
theorem Counted.takeReady {queue : GapQueue F} (counted : Counted gappedBytes queue)
    (expected : Nat) :
    (queue.takeReady gappedBytes expected).1 =
        ⟨min (below expected queue.entries.entries).length usizeMax, queue.entries.get? expected⟩ ∧
      (queue.takeReady gappedBytes expected).2.entries.entries =
        above expected queue.entries.entries ∧
      (queue.takeReady gappedBytes expected).2.bytes =
        total gappedBytes (above expected queue.entries.entries) := by
  have walked := takeEntries_eq gappedBytes expected queue.entries.ascending
    (Nat.zero_le usizeMax)
  rw [← counted.bytes, Nat.zero_add] at walked
  unfold GapQueue.takeReady
  exact ⟨congrArg Prod.fst walked, congrArg (fun out => out.2.2) walked,
    congrArg (fun out => out.2.1) walked⟩

variable (gappedBytes) in
/-- What lies above the expectation is part of what was held. -/
theorem total_above_le (expected : Nat) {entries : List (Nat × GapEntry F)}
    (ascending : Lib.Ordered.Ascending entries) :
    total gappedBytes (above expected entries) ≤ total gappedBytes entries := by
  have whole := congrArg (total gappedBytes) (split_at expected ascending)
  rw [total_append] at whole
  omega

theorem Counted.takes {queue : GapQueue F} (counted : Counted gappedBytes queue)
    (expected : Nat) : Counted gappedBytes (queue.takeReady gappedBytes expected).2 := by
  obtain ⟨-, left, bytes⟩ := counted.takeReady expected
  have fewer : (above expected queue.entries.entries).length ≤ queue.entries.entries.length :=
    List.length_filter_le _ _
  have lighter := total_above_le gappedBytes expected queue.entries.ascending
  constructor
  · rw [left, bytes]
  · rw [bytes]
    exact lighter.trans (counted.bytes ▸ counted.withinBytes)
  · rw [left]
    exact fewer.trans counted.withinMessages

variable (gappedBytes) in
/-- An entry is held, or its number already is, or a bound refuses it; held,
it joins what was there. -/
theorem insert_cases (queue : GapQueue F) (seq : Nat) (entry : GapEntry F) :
    (queue.insert gappedBytes seq entry = (.duplicate, queue) ∧
        (queue.entries.get? seq).isSome) ∨
      (queue.insert gappedBytes seq entry = (.overflow, queue) ∧
        queue.entries.get? seq = none) ∨
      (queue.insert gappedBytes seq entry =
          (.queued, { queue with
            entries := queue.entries.insert seq entry
            bytes := queue.bytes + entryBytes gappedBytes entry }) ∧
        queue.entries.get? seq = none ∧
        queue.entries.entries.length < queue.maxMessages ∧
        queue.bytes + entryBytes gappedBytes entry ≤ queue.maxBytes) := by
  unfold GapQueue.insert
  by_cases held : (queue.entries.get? seq).isSome = true
  · exact .inl ⟨if_pos held, held⟩
  · have fresh : queue.entries.get? seq = none := by simpa using held
    rw [if_neg held]
    unfold checkedAdd
    by_cases fits : queue.bytes + entryBytes gappedBytes entry ≤ usizeMax
    · rw [if_pos fits]
      dsimp only
      by_cases refused : queue.entries.entries.length ≥ queue.maxMessages ∨
          queue.bytes + entryBytes gappedBytes entry > queue.maxBytes
      · rw [if_pos refused]
        exact .inr (.inl ⟨rfl, fresh⟩)
      · rw [if_neg refused]
        push Not at refused
        exact .inr (.inr ⟨rfl, fresh, refused.1, refused.2⟩)
    · rw [if_neg fits]
      exact .inr (.inl ⟨rfl, fresh⟩)

theorem Counted.inserts {queue : GapQueue F} (counted : Counted gappedBytes queue) (seq : Nat)
    (entry : GapEntry F) : Counted gappedBytes (queue.insert gappedBytes seq entry).2 := by
  obtain ⟨same, -⟩ | ⟨same, -⟩ | ⟨held, fresh, fewer, lighter⟩ :=
    insert_cases gappedBytes queue seq entry
  · rw [same]
    exact counted
  · rw [same]
    exact counted
  · rw [held]
    have joined : (put seq entry queue.entries.entries).Perm
        ((seq, entry) :: queue.entries.entries) := put_perm fresh
    constructor
    · show _ = total gappedBytes (put seq entry queue.entries.entries)
      rw [total_perm joined, total_cons, ← counted.bytes, Nat.add_comm]
    · exact lighter
    · show (put seq entry queue.entries.entries).length ≤ _
      rw [joined.length_eq]
      exact fewer

/-! ## Runs -/

/-- The calls a session makes of its queue. -/
inductive Call (F : Type) where
  | insert (seq : Nat) (entry : GapEntry F)
  | firstOverflow
  | takeReady (expected : Nat)
  | clear

/-- A queue and what became of every message it took in, each list in the
order in which it came about. -/
structure History (F : Type) where
  queue : GapQueue F
  inserted : List (Nat × GapEntry F)
  released : List (Nat × GapEntry F)
  superseded : List (Nat × GapEntry F)
  cleared : List (Nat × GapEntry F)

variable (gappedBytes)

namespace History

/-- A queue nothing was offered to. -/
def opened (maxMessages maxBytes : Nat) : History F :=
  ⟨⟨.empty, 0, maxMessages, maxBytes, false⟩, [], [], [], []⟩

def step (history : History F) : Call F → History F
  | .insert seq entry =>
      match history.queue.insert gappedBytes seq entry with
      | (.queued, queue) =>
          { history with queue, inserted := history.inserted ++ [(seq, entry)] }
      | (_, queue) => { history with queue }
  | .firstOverflow => { history with queue := history.queue.firstOverflow.2 }
  | .takeReady expected =>
      let taken := history.queue.takeReady gappedBytes expected
      { history with
        queue := taken.2
        released := history.released ++ (taken.1.next.map fun held => (expected, held)).toList
        superseded := history.superseded ++ below expected history.queue.entries.entries }
  | .clear =>
      { history with
        queue := history.queue.clear.2
        cleared := history.cleared ++ history.queue.entries.entries }

end History

/-- The expectations of the calls that take, in the order of the calls. -/
def expectations : List (Call F) → List Nat
  | [] => []
  | .takeReady expected :: calls => expected :: expectations calls
  | _ :: calls => expectations calls

/-- What every call keeps of a queue opened with these bounds. -/
structure Kept (maxMessages maxBytes : Nat) (history : History F) : Prop where
  counted : Counted gappedBytes history.queue
  maxMessages : history.queue.maxMessages = maxMessages
  maxBytes : history.queue.maxBytes = maxBytes
  conserved : history.inserted.Perm (history.released ++ history.superseded ++ history.cleared ++
    history.queue.entries.entries)

variable {gappedBytes} {maxMessages maxBytes : Nat}

theorem Kept.opened : Kept gappedBytes maxMessages maxBytes (History.opened maxMessages maxBytes) :=
  ⟨⟨rfl, Nat.zero_le _, Nat.zero_le _⟩, rfl, rfl, .refl _⟩

/-- What a message held under a new number adds to the account. -/
theorem Kept.inserts {history : History F} (kept : Kept gappedBytes maxMessages maxBytes history)
    (seq : Nat) (entry : GapEntry F) :
    Kept gappedBytes maxMessages maxBytes (history.step gappedBytes (.insert seq entry)) := by
  have counted := kept.counted.inserts seq entry
  unfold History.step
  dsimp only
  obtain ⟨same, -⟩ | ⟨same, -⟩ | ⟨held, fresh, -⟩ :=
    insert_cases gappedBytes history.queue seq entry
  · rw [same]
    exact kept
  · rw [same]
    exact kept
  · rw [held] at counted ⊢
    refine ⟨counted, kept.maxMessages, kept.maxBytes, ?_⟩
    have joined : (put seq entry history.queue.entries.entries).Perm
        (history.queue.entries.entries ++ [(seq, entry)]) :=
      (put_perm fresh).trans (List.perm_append_singleton _ _).symm
    show (history.inserted ++ [(seq, entry)]).Perm (_ ++ put seq entry history.queue.entries.entries)
    refine (kept.conserved.append_right [(seq, entry)]).trans ?_
    rw [List.append_assoc]
    exact (joined.symm.append_left _)

/-- A take moves what is at its expectation and below it. -/
theorem Kept.takes {history : History F} (kept : Kept gappedBytes maxMessages maxBytes history)
    (expected : Nat) :
    Kept gappedBytes maxMessages maxBytes (history.step gappedBytes (.takeReady expected)) := by
  obtain ⟨found, left, -⟩ := kept.counted.takeReady expected
  refine ⟨kept.counted.takes expected, kept.maxMessages, kept.maxBytes, ?_⟩
  show history.inserted.Perm (history.released ++
    ((history.queue.takeReady gappedBytes expected).1.next.map fun held => (expected, held)).toList ++
    (history.superseded ++ below expected history.queue.entries.entries) ++ history.cleared ++
    (history.queue.takeReady gappedBytes expected).2.entries.entries)
  rw [left, found]
  refine kept.conserved.trans ?_
  nth_rewrite 1 [split_at expected history.queue.entries.ascending]
  rw [← Multiset.coe_eq_coe]
  simp only [← Multiset.coe_add, OrderedMap.get?]
  abel

theorem Kept.clears {history : History F} (kept : Kept gappedBytes maxMessages maxBytes history) :
    Kept gappedBytes maxMessages maxBytes (history.step gappedBytes .clear) := by
  refine ⟨⟨rfl, Nat.zero_le _, Nat.zero_le _⟩, kept.maxMessages, kept.maxBytes, ?_⟩
  show history.inserted.Perm (history.released ++ history.superseded ++
    (history.cleared ++ history.queue.entries.entries) ++ [])
  rw [List.append_nil, ← List.append_assoc]
  exact kept.conserved

/-- Every call keeps the account. -/
theorem Kept.step {history : History F} (kept : Kept gappedBytes maxMessages maxBytes history)
    (call : Call F) : Kept gappedBytes maxMessages maxBytes (history.step gappedBytes call) := by
  cases call with
  | insert seq entry => exact kept.inserts seq entry
  | firstOverflow =>
      exact ⟨⟨kept.counted.bytes, kept.counted.withinBytes, kept.counted.withinMessages⟩,
        kept.maxMessages, kept.maxBytes, kept.conserved⟩
  | takeReady expected => exact kept.takes expected
  | clear => exact kept.clears

theorem Kept.run {history : History F} (kept : Kept gappedBytes maxMessages maxBytes history)
    (calls : List (Call F)) :
    Kept gappedBytes maxMessages maxBytes (run (History.step gappedBytes) history calls) :=
  invariant (fun _ call before _ => before.step call) kept (along_true _ calls)

variable (gappedBytes) in
/-- A call releases the message at its expectation, if it releases one. -/
theorem step_released (history : History F) (call : Call F) :
    ∃ more : List (Nat × GapEntry F),
      (history.step gappedBytes call).released = history.released ++ more ∧
      (more.map Prod.fst).Sublist (expectations [call]) := by
  cases call with
  | insert seq entry =>
      refine ⟨[], ?_, .refl _⟩
      rw [List.append_nil]
      unfold History.step
      dsimp only
      split <;> rfl
  | firstOverflow => exact ⟨[], (List.append_nil _).symm, .refl _⟩
  | clear => exact ⟨[], (List.append_nil _).symm, .refl _⟩
  | takeReady expected =>
      refine ⟨_, rfl, ?_⟩
      cases (history.queue.takeReady gappedBytes expected).1.next with
      | none => exact List.nil_sublist _
      | some held => exact .refl _

theorem expectations_cons (call : Call F) (calls : List (Call F)) :
    expectations (call :: calls) = expectations [call] ++ expectations calls := by
  cases call <;> rfl

variable (gappedBytes) in
/-- The numbers released are, in order, among the expectations they were asked with. -/
theorem run_released (history : History F) (calls : List (Call F)) :
    ∃ more : List (Nat × GapEntry F),
      (run (History.step gappedBytes) history calls).released = history.released ++ more ∧
      (more.map Prod.fst).Sublist (expectations calls) := by
  induction calls generalizing history with
  | nil => exact ⟨[], (List.append_nil _).symm, .refl _⟩
  | cons call calls ih =>
      obtain ⟨first, released, asked⟩ := step_released gappedBytes history call
      obtain ⟨more, later, askedLater⟩ := ih (history.step gappedBytes call)
      refine ⟨first ++ more, ?_, ?_⟩
      · rw [run_cons, later, released, List.append_assoc]
      · rw [List.map_append, expectations_cons]
        exact asked.append askedLater

/-! ## The order of releases -/

/-- What a call does to a queue it finds: a number held keeps its first copy, a
refused message changes nothing, and a take releases the message at its
expectation, drops those below it and leaves those above it. -/
structure Calls (gappedBytes : F → Nat) (queue : GapQueue F) : Prop where
  firstCopy : ∀ seq entry, (queue.entries.get? seq).isSome →
    queue.insert gappedBytes seq entry = (.duplicate, queue)
  refused : ∀ seq entry, (queue.insert gappedBytes seq entry).1 = .overflow →
    (queue.insert gappedBytes seq entry).2 = queue
  found : ∀ expected,
    (queue.takeReady gappedBytes expected).1.next = queue.entries.get? expected
  left : ∀ expected, (queue.takeReady gappedBytes expected).2.entries.entries =
    above expected queue.entries.entries

theorem Counted.calls {queue : GapQueue F} (counted : Counted gappedBytes queue) :
    Calls gappedBytes queue := by
  constructor
  · intro seq entry held
    exact if_pos held
  · intro seq entry overflows
    obtain ⟨same, -⟩ | ⟨same, -⟩ | ⟨held, -⟩ :=
      insert_cases gappedBytes queue seq entry
    · rw [same]
    · rw [same]
    · rw [held] at overflows
      cases overflows
  · intro expected
    rw [(counted.takeReady expected).1]
  · intro expected
    exact (counted.takeReady expected).2.1

variable (gappedBytes)

/-- Whatever the calls of a queue: the byte count is that of what is held, both
bounds are kept, every number is held once and its first copy stays, a refused
message changes nothing, every message is released, superseded, cleared or held,
one of them, and no message is released while a lower one stays held; messages
are released at their expectation, in ascending order when the expectations are. -/
theorem queue_keeps (maxMessages maxBytes : Nat) (calls : List (Call F)) :
    let history := run (History.step gappedBytes) (History.opened maxMessages maxBytes) calls
    Kept gappedBytes maxMessages maxBytes history ∧
      Lib.Ordered.Ascending history.queue.entries.entries ∧
      Calls gappedBytes history.queue ∧
      (history.released.map Prod.fst).Sublist (expectations calls) ∧
      ((expectations calls).Pairwise (· < ·) →
        (history.released.map Prod.fst).Pairwise (· < ·)) := by
  intro history
  have kept : Kept gappedBytes maxMessages maxBytes history := Kept.opened.run calls
  obtain ⟨more, released, asked⟩ :=
    run_released gappedBytes (History.opened maxMessages maxBytes) calls
  refine ⟨kept, history.queue.entries.ascending, kept.counted.calls, ?_, ?_⟩
  · show ((run (History.step gappedBytes) (History.opened maxMessages maxBytes) calls).released.map
      Prod.fst).Sublist _
    rw [released]
    exact asked
  · intro ascend
    show ((run (History.step gappedBytes) (History.opened maxMessages maxBytes) calls).released.map
      Prod.fst).Pairwise _
    rw [released]
    exact ascend.sublist asked

/-- A bounded queue, asked at three expectations that ascend. -/
theorem queue_keeps_ascending :
    let history := run (History.step String.length) (History.opened 2 8)
      [.insert 5 (.frame "e"), .insert 3 (.frame "c"), .takeReady 3, .takeReady 4, .takeReady 5]
    (history.released.map Prod.fst).Pairwise (· < ·) :=
  (queue_keeps String.length 2 8
    [.insert 5 (.frame "e"), .insert 3 (.frame "c"), .takeReady 3, .takeReady 4,
      .takeReady 5]).2.2.2.2 (by decide)

/-- A message inserted after a higher one was released is released after it. -/
theorem released_descends :
    ¬ ∀ (maxMessages maxBytes : Nat) (calls : List (Call String)),
      ((run (History.step String.length) (History.opened maxMessages maxBytes)
        calls).released.map Prod.fst).Pairwise (· ≤ ·) := by
  intro always
  have sorted := always 2 8
    [.insert 5 (.frame "e"), .takeReady 5, .insert 3 (.frame "c"), .takeReady 3]
  revert sorted
  decide

/-! ## The calls of a session -/

/-- `SessionCore::queue_gapped`: only an established session with no Logout reply
owed queues, and the first overflow is told apart. -/
def queueGapped (active logoutOwed : Bool) (seq : Nat) (entry : GapEntry F)
    (queue : Option (GapQueue F)) : GapAdmission × Option (GapQueue F) :=
  if !active || logoutOwed then (.bypassed, queue)
  else
    match queue with
    | none => (.bypassed, none)
    | some queue =>
        match queue.insert gappedBytes seq entry with
        | (.queued, queue) => (.queued, some queue)
        | (.duplicate, queue) => (.duplicate, some queue)
        | (.overflow, queue) =>
            if queue.firstOverflow.1 then (.firstOverflow, some queue.firstOverflow.2)
            else (.overflow, some queue.firstOverflow.2)

/-- `SessionCore::take_gap_ready`. -/
def takeGapReady (expected : Nat) (queue : Option (GapQueue F)) :
    Option (GapReady F) × Option (GapQueue F) :=
  match queue with
  | none => (none, none)
  | some queue =>
      if queue.isEmpty then (none, some queue)
      else
        let taken := queue.takeReady gappedBytes expected
        (some taken.1, some taken.2)

/-- A session's calls are calls of its queue. -/
theorem queueGapped_reaches (history : History F) (active logoutOwed : Bool) (seq : Nat)
    (entry : GapEntry F) :
    ∃ calls, (queueGapped gappedBytes active logoutOwed seq entry (some history.queue)).2 =
      some (run (History.step gappedBytes) history calls).queue := by
  unfold queueGapped
  by_cases bypassed : (!active || logoutOwed) = true
  · rw [if_pos bypassed]
    exact ⟨[], rfl⟩
  rw [if_neg bypassed]
  dsimp only
  obtain ⟨same, -⟩ | ⟨same, -⟩ | ⟨held, -⟩ := insert_cases gappedBytes history.queue seq entry
  · rw [same]
    exact ⟨[], rfl⟩
  · rw [same]
    refine ⟨[.firstOverflow], ?_⟩
    dsimp only
    split <;> rfl
  · refine ⟨[.insert seq entry], ?_⟩
    rw [run_cons, run_nil, History.step, held]

theorem takeGapReady_reaches (history : History F) (expected : Nat) :
    ∃ calls, (takeGapReady gappedBytes expected (some history.queue)).2 =
      some (run (History.step gappedBytes) history calls).queue := by
  unfold takeGapReady
  dsimp only
  split
  · exact ⟨[], rfl⟩
  · exact ⟨[.takeReady expected], rfl⟩

end GapQueue

namespace Receiver

/-- The receiver queues as `SessionCore` does. -/
theorem queueGapped_eq (receiver : Receiver) (seq : Nat) (entry : GapEntry InboundFrame) :
    let offered := GapQueue.queueGapped InboundFrame.size receiver.active receiver.logoutOwed seq
      entry receiver.queue
    Receiver.queueGapped seq entry receiver =
      .ok (decide (offered.1 = .duplicate)) { receiver with queue := offered.2 } := by
  intro offered
  have result : offered = GapQueue.queueGapped InboundFrame.size receiver.active
    receiver.logoutOwed seq entry receiver.queue := rfl
  obtain ⟨sequences, queue, heldLogon, lastRerequested, active, logoutOwed, closed, choices, trail⟩ :=
    receiver
  cases queue with
  | none =>
      rw [result]
      unfold GapQueue.queueGapped
      dsimp only
      split <;> rfl
  | some queue =>
      by_cases bypassed : (!active || logoutOwed) = true
      · rw [result, GapQueue.queueGapped, if_pos bypassed]
        show (if (!active || logoutOwed) = true then _ else _ : Handler Bool) _ = _
        rw [if_pos bypassed]
        rfl
      · rw [result, GapQueue.queueGapped, if_neg bypassed]
        show (if (!active || logoutOwed) = true then _ else _ : Handler Bool) _ = _
        rw [if_neg bypassed]
        dsimp only
        obtain ⟨same, -⟩ | ⟨same, -⟩ | ⟨held, -⟩ :=
          GapQueue.insert_cases InboundFrame.size queue seq entry
        · rw [same]
          rfl
        · rw [same]
          dsimp only
          split <;> rfl
        · rw [held]
          rfl

end Receiver

end IronFix.Session
