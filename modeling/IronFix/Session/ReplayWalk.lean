import Mathlib.Data.List.Chain
import IronFix.Session.Replay

/-!
# What a replay covers

Whatever the store answers and the application decides, the numbers of the
frames a replay tells its driver to write are the numbers from its first one
up to the reply cursor, each once and in order; at the end the cursor is the
end of the range.
-/

namespace IronFix.Session

open Lib.Decimal Lib.Runs

/-- A frame the driver is told to write. -/
inductive Reply where
  | fill (range : GapFillRange)
  | replay (seq : Nat)
  deriving DecidableEq, Repr

namespace Reply

/-- The numbers a frame stands for. -/
def numbers : Reply → List Nat
  | .fill range => List.range' range.atSeq (range.newSeq - range.atSeq)
  | .replay seq => [seq]

def isFill : Reply → Bool
  | .fill _ => true
  | .replay _ => false

end Reply

/-- The frames a step asks for. -/
def ReplayStep.told : ReplayStep → List Reply
  | .complete (some gapFill) => [.fill gapFill]
  | .readPage _ | .storeExhausted | .complete none => []

def ReplayStep.isComplete : ReplayStep → Bool
  | .complete _ => true
  | .readPage _ | .storeExhausted => false

/-- The frames an action asks for, in order. -/
def ReplayAction.told : ReplayAction → List Reply
  | .skip => []
  | .replay seq => [.replay seq]
  | .gapFillThenReplay gapFill seq => [.fill gapFill, .replay seq]

/-- A call of the driver. -/
inductive Call where
  | widen (other : ResendReplay)
  | pollStore
  | onPage (read : PageRead)
  | entry (seq : Nat) (isAdmin : Bool) (verdict : ReplayVerdict)

/-- A replay, the first number it owes, and what it has told the driver. -/
structure Walk where
  core : ResendReplay
  beginSeq : Nat
  told : List Reply
  finished : Bool

namespace Walk

def start (core : ResendReplay) : Walk := ⟨core, core.replyCursor, [], false⟩

/-- One call. An entry is screened, and decided if it is a candidate. -/
def call (walk : Walk) : Call → Walk
  | .widen other =>
      { walk with
        core := walk.core.widen other
        beginSeq := min walk.beginSeq other.replyCursor }
  | .pollStore =>
      let (step, core) := walk.core.pollStore
      { walk with
        core := core
        told := walk.told ++ step.told
        finished := walk.finished || step.isComplete }
  | .onPage read => { walk with core := walk.core.onPage read }
  | .entry seq isAdmin verdict =>
      if walk.core.screenEntry seq isAdmin = .skip then walk
      else
        let (action, core) := walk.core.decideEntry seq verdict
        { walk with core := core, told := walk.told ++ action.told }

/-- Only a replay that has not started is widened. -/
def Legal (walk : Walk) : Call → Prop
  | .widen _ => walk.core.started = false
  | .pollStore | .onPage _ | .entry _ _ _ => True

end Walk

/-! ## The calls -/

namespace ResendReplay

variable (replay : ResendReplay)

/-- A page changes nothing of the range and the cursor. -/
theorem onPage_keeps (read : PageRead) :
    (replay.onPage read).newSeq = replay.newSeq ∧ (replay.onPage read).endSeq = replay.endSeq ∧
      (replay.onPage read).replyCursor = replay.replyCursor ∧
      (replay.onPage read).started = true := by
  unfold onPage
  simp only
  split
  · exact ⟨rfl, rfl, rfl, rfl⟩
  · exact ⟨rfl, rfl, rfl, rfl⟩
  · split
    · exact ⟨rfl, rfl, rfl, rfl⟩
    · split
      · split
        · exact ⟨rfl, rfl, rfl, rfl⟩
        · exact ⟨rfl, rfl, rfl, rfl⟩
      · exact ⟨rfl, rfl, rfl, rfl⟩

/-- What a poll does: read on, note that the store has nothing left, or close
the range. -/
theorem pollStore_cases :
    (replay.storeDone = false ∧ replay.readFrom ≤ replay.endSeq ∧
      replay.pollStore = (.readPage ⟨replay.readFrom, replay.endSeq, REPLAY_PAGE_LIMIT⟩,
        { replay with started := true })) ∨
    (replay.storeDone = false ∧ replay.endSeq < replay.readFrom ∧
      replay.pollStore = (.storeExhausted, { replay with started := true, storeDone := true })) ∨
    (replay.storeDone = true ∧ replay.pollStore =
      (.complete (if replay.replyCursor < replay.newSeq
          then some ⟨replay.replyCursor, replay.newSeq⟩ else none),
        { replay with started := true, replyCursor := replay.newSeq, reached := le_refl _ })) := by
  unfold pollStore
  simp only
  cases done : replay.storeDone with
  | true => exact .inr (.inr ⟨rfl, by simp⟩)
  | false =>
      by_cases past : replay.readFrom > replay.endSeq
      · exact .inr (.inl ⟨rfl, past, by simp [past]⟩)
      · exact .inl ⟨rfl, Nat.le_of_not_lt past, by simp [past]⟩

theorem screenEntry_candidate {seq : Nat} {isAdmin : Bool} :
    replay.screenEntry seq isAdmin ≠ .skip ↔
      replay.replyCursor ≤ seq ∧ seq ≤ replay.endSeq ∧ isAdmin = false := by
  unfold screenEntry
  split
  · rename_i skips
    simp only [ne_eq, not_true_eq_false, false_iff, not_and]
    rcases skips with early | late | admin
    · omega
    · omega
    · simp [admin]
  · rename_i candidate
    simp only [not_or, not_lt] at candidate
    simpa using candidate

/-- What an entry does to the replay. -/
structure Decided (seq : Nat) (action : ReplayAction) (after : ResendReplay) : Prop where
  action : action = if seq > replay.replyCursor
    then .gapFillThenReplay ⟨replay.replyCursor, seq⟩ seq else .replay seq
  low : replay.replyCursor ≤ seq
  high : seq ≤ replay.endSeq
  cursor : after.replyCursor = seq + 1
  newSeq : after.newSeq = replay.newSeq
  endSeq : after.endSeq = replay.endSeq
  readFrom : after.readFrom = replay.readFrom
  storeDone : after.storeDone = replay.storeDone
  started : after.started = true

/-- A candidate is skipped, or replayed behind a fill of what precedes it. -/
theorem decideEntry_cases (seq : Nat) (verdict : ReplayVerdict) :
    (replay.decideEntry seq verdict = (.skip, { replay with started := true }) ∧
      (verdict = .gapFill ∨ replay.screenEntry seq false = .skip)) ∨
    (verdict = .replay ∧
      replay.Decided seq (replay.decideEntry seq verdict).1 (replay.decideEntry seq verdict).2) := by
  unfold decideEntry
  simp only
  split
  · rename_i skips
    exact .inl ⟨rfl, skips⟩
  · rename_i taken
    simp only [not_or] at taken
    have candidate : replay.replyCursor ≤ seq ∧ seq ≤ replay.endSeq ∧ false = false :=
      replay.screenEntry_candidate.mp taken.2
    have replays : verdict = .replay := by
      cases verdict with
      | replay => rfl
      | gapFill => exact absurd rfl taken.1
    refine .inr ⟨replays, ?_⟩
    -- a number below the end of the range is never the last of its type
    have fits : checkedAdd u64Max seq 1 = some (seq + 1) := by
      refine checkedAdd_eq_some.mpr ⟨rfl, ?_⟩
      have := replay.ends
      have := replay.isU64
      omega
    have cursor : (checkedAdd u64Max seq 1).getD replay.newSeq = seq + 1 := by rw [fits]; rfl
    by_cases behind : seq > replay.replyCursor
    · simp only [if_pos behind]
      exact ⟨(if_pos behind).symm, candidate.1, candidate.2.1, cursor, rfl, rfl, rfl, rfl, rfl⟩
    · simp only [if_neg behind]
      exact ⟨(if_neg behind).symm, candidate.1, candidate.2.1, cursor, rfl, rfl, rfl, rfl, rfl⟩

end ResendReplay

/-! ## The walk -/

theorem range'_join {start mid stop : Nat} (low : start ≤ mid) (high : mid ≤ stop) :
    List.range' start (mid - start) ++ List.range' mid (stop - mid) =
      List.range' start (stop - start) := by
  obtain ⟨before, rfl⟩ := Nat.exists_eq_add_of_le low
  obtain ⟨after, rfl⟩ := Nat.exists_eq_add_of_le high
  rw [Nat.add_sub_cancel_left, Nat.add_sub_cancel_left, List.range'_append_1]
  congr 1
  omega

namespace Walk

/-- What a walk has told its driver: the numbers from the first one up to the
cursor, each once and in order, with no two fills in a row. -/
structure Covers (walk : Walk) : Prop where
  ordered : walk.beginSeq ≤ walk.core.replyCursor
  numbers : walk.told.flatMap Reply.numbers =
    List.range' walk.beginSeq (walk.core.replyCursor - walk.beginSeq)
  filled : ∀ reply ∈ walk.told, reply.numbers ≠ []
  apart : walk.told.IsChain fun one two => ¬(one.isFill = true ∧ two.isFill = true)
  closing : ∀ reply, walk.told.getLast? = some reply → reply.isFill = true →
    walk.core.replyCursor = walk.core.newSeq
  finished : walk.finished = true → walk.core.replyCursor = walk.core.newSeq
  fresh : walk.core.started = false → walk.told = [] ∧ walk.finished = false ∧
    walk.core.replyCursor = walk.beginSeq

theorem covers_start {core : ResendReplay} : Covers (start core) where
  ordered := le_refl _
  numbers := by simp [start]
  filled := by simp [start]
  apart := by simp [start]
  closing := by simp [start]
  finished := by simp [start]
  fresh := fun _ => ⟨rfl, rfl, rfl⟩

variable {walk : Walk}

/-- Frames that carry the cursor on to `next` extend what is covered. The walk
is open: no fill has closed it. -/
theorem Covers.tell (covers : Covers walk) {frames : List Reply} {core : ResendReplay}
    (opened : walk.core.replyCursor ≠ walk.core.newSeq)
    (numbers : frames.flatMap Reply.numbers =
      List.range' walk.core.replyCursor (core.replyCursor - walk.core.replyCursor))
    (onward : walk.core.replyCursor ≤ core.replyCursor)
    (filled : ∀ reply ∈ frames, reply.numbers ≠ [])
    (apart : frames.IsChain fun one two => ¬(one.isFill = true ∧ two.isFill = true))
    (closing : ∀ reply, frames.getLast? = some reply → reply.isFill = true →
      core.replyCursor = core.newSeq) (nonempty : frames ≠ []) (started : core.started = true)
    {finished : Bool} (done : finished = true → core.replyCursor = core.newSeq) :
    Covers { walk with core := core, told := walk.told ++ frames, finished := finished } where
  ordered := le_trans covers.ordered onward
  numbers := by
    rw [List.flatMap_append, covers.numbers, numbers]
    exact range'_join covers.ordered onward
  filled := by
    intro reply member
    rcases List.mem_append.mp member with before | new
    · exact covers.filled reply before
    · exact filled reply new
  apart := by
    refine covers.apart.append apart ?_
    intro last lastBefore first _ both
    exact opened (covers.closing last lastBefore both.1)
  closing := by
    intro reply last isFill
    refine closing reply ?_ isFill
    rwa [List.getLast?_append_of_ne_nil _ nonempty] at last
  finished := done
  fresh := by
    intro unstarted
    rw [started] at unstarted
    cases unstarted

/-- A call that tells nothing and leaves range and cursor as they are. -/
theorem Covers.quiet (covers : Covers walk) {core : ResendReplay}
    (newSeq : core.newSeq = walk.core.newSeq) (cursor : core.replyCursor = walk.core.replyCursor)
    (started : core.started = true) {finished : Bool}
    (done : finished = true → core.replyCursor = core.newSeq) :
    Covers { walk with core := core, finished := finished } where
  ordered := cursor ▸ covers.ordered
  numbers := by
    rw [cursor]
    exact covers.numbers
  filled := covers.filled
  apart := covers.apart
  closing := by
    intro reply last isFill
    rw [cursor, newSeq]
    exact covers.closing reply last isFill
  finished := done
  fresh := by
    intro unstarted
    rw [started] at unstarted
    cases unstarted

theorem Covers.widen (covers : Covers walk) (other : ResendReplay)
    (unstarted : walk.core.started = false) : Covers (walk.call (.widen other)) := by
  obtain ⟨told, unfinished, cursor⟩ := covers.fresh unstarted
  have same : min walk.core.replyCursor other.replyCursor =
      min walk.beginSeq other.replyCursor := by rw [cursor]
  refine ⟨le_of_eq same.symm, ?_, ?_, ?_, ?_, ?_, fun _ => ⟨told, unfinished, same⟩⟩
  · show walk.told.flatMap Reply.numbers = List.range' _ (min _ _ - min _ _)
    rw [told, same, Nat.sub_self]
    rfl
  · exact covers.filled
  · exact covers.apart
  · intro reply last
    rw [show (walk.call (.widen other)).told = walk.told from rfl, told] at last
    cases last
  · intro finished
    rw [show (walk.call (.widen other)).finished = walk.finished from rfl, unfinished] at finished
    cases finished

theorem Covers.pollStore (covers : Covers walk) : Covers (walk.call .pollStore) := by
  rcases walk.core.pollStore_cases with ⟨_, _, reads⟩ | ⟨_, _, exhausted⟩ | ⟨_, completes⟩
  · have polled : walk.call .pollStore =
        { walk with core := { walk.core with started := true } } := by
      simp [call, reads, ReplayStep.told, ReplayStep.isComplete]
    rw [polled]
    refine covers.quiet ?_ ?_ ?_ ?_
    · rfl
    · rfl
    · rfl
    · exact covers.finished
  · have polled : walk.call .pollStore =
        { walk with core := { walk.core with started := true, storeDone := true } } := by
      simp [call, exhausted, ReplayStep.told, ReplayStep.isComplete]
    rw [polled]
    refine covers.quiet ?_ ?_ ?_ ?_
    · rfl
    · rfl
    · rfl
    · exact covers.finished
  · by_cases behind : walk.core.replyCursor < walk.core.newSeq
    · rw [if_pos behind] at completes
      simp only [call, completes]
      refine covers.tell (Nat.ne_of_lt behind) ?_ walk.core.reached ?_ ?_ ?_ ?_ rfl ?_
      · simp [ReplayStep.told, Reply.numbers]
      · intro reply member
        rw [List.mem_singleton.mp member]
        simp only [Reply.numbers, ne_eq, List.range'_eq_nil_iff]
        omega
      · simp [ReplayStep.told]
      · intro _ _ _
        rfl
      · simp [ReplayStep.told]
      · intro _
        rfl
    · -- the cursor is already at the end: nothing is left to fill
      have there : walk.core.replyCursor = walk.core.newSeq :=
        Nat.le_antisymm walk.core.reached (Nat.le_of_not_lt behind)
      rw [if_neg behind] at completes
      simp only [call, completes, ReplayStep.told, List.append_nil]
      refine covers.quiet ?_ ?_ ?_ ?_
      · rfl
      · exact there.symm
      · rfl
      · intro _
        rfl

theorem Covers.entry (covers : Covers walk) (seq : Nat) (isAdmin : Bool)
    (verdict : ReplayVerdict) : Covers (walk.call (.entry seq isAdmin verdict)) := by
  simp only [call]
  split
  · exact covers
  · rcases walk.core.decideEntry_cases seq verdict with ⟨skipped, _⟩ | ⟨_, decided⟩
    · rw [skipped]
      simp only [ReplayAction.told, List.append_nil]
      refine covers.quiet ?_ ?_ ?_ ?_
      · rfl
      · rfl
      · rfl
      · exact covers.finished
    · have inside := walk.core.ends
      obtain ⟨action, low, high, cursor, newSeq, _, _, _, started⟩ := decided
      have opened : walk.core.replyCursor ≠ walk.core.newSeq := by omega
      refine covers.tell opened ?_ (by omega) ?_ ?_ ?_ ?_ started ?_
      · rw [action, cursor]
        by_cases behind : seq > walk.core.replyCursor
        · rw [if_pos behind]
          have last := range'_join low (Nat.le_succ seq)
          simpa [ReplayAction.told, Reply.numbers] using last
        · have here : seq = walk.core.replyCursor := by omega
          rw [if_neg behind]
          simp [ReplayAction.told, Reply.numbers, here]
      · intro reply member
        rw [action] at member
        split at member
        · rename_i behind
          simp only [ReplayAction.told, List.mem_cons, List.not_mem_nil, or_false] at member
          rcases member with rfl | rfl
          · simp only [Reply.numbers, ne_eq, List.range'_eq_nil_iff]
            omega
          · simp [Reply.numbers]
        · rw [List.mem_singleton.mp member]
          simp [Reply.numbers]
      · rw [action]
        split <;> simp [ReplayAction.told, Reply.isFill]
      · -- a replayed message closes what the fill opened
        intro reply last isFill
        have replayed : reply = .replay seq := by
          rw [action] at last
          split at last <;> simpa [ReplayAction.told, eq_comm] using last
        rw [replayed] at isFill
        cases isFill
      · rw [action]
        split <;> simp [ReplayAction.told]
      · intro finished
        exact absurd (covers.finished finished) opened

/-- Every legal call keeps what is covered. -/
theorem covers_call (walk : Walk) (call : Call) (covers : Covers walk) (legal : walk.Legal call) :
    Covers (walk.call call) := by
  cases call with
  | widen other => exact covers.widen other legal
  | pollStore => exact covers.pollStore
  | onPage read =>
      obtain ⟨newSeq, _, cursor, started⟩ := walk.core.onPage_keeps read
      refine covers.quiet newSeq cursor started fun finished => ?_
      rw [cursor, newSeq]
      exact covers.finished finished
  | entry seq isAdmin verdict => exact covers.entry seq isAdmin verdict

/-- The range a walk covers only grows. -/
theorem extends_call (first last : Nat) (walk : Walk) (call : Call)
    (range : walk.beginSeq ≤ first ∧ last ≤ walk.core.newSeq) (_ : walk.Legal call) :
    (walk.call call).beginSeq ≤ first ∧ last ≤ (walk.call call).core.newSeq := by
  cases call with
  | widen other =>
      exact ⟨le_trans (min_le_left _ _) range.1, le_trans range.2 (le_max_left _ _)⟩
  | pollStore =>
      rcases walk.core.pollStore_cases with ⟨_, _, polled⟩ | ⟨_, _, polled⟩ | ⟨_, polled⟩
      · simpa [Walk.call, polled] using range
      · simpa [Walk.call, polled] using range
      · simpa [Walk.call, polled] using range
  | onPage read =>
      obtain ⟨newSeq, _⟩ := walk.core.onPage_keeps read
      exact ⟨range.1, newSeq ▸ range.2⟩
  | entry seq isAdmin verdict =>
      simp only [Walk.call]
      split
      · exact range
      · rcases walk.core.decideEntry_cases seq verdict with ⟨skipped, _⟩ | ⟨_, decided⟩
        · rw [skipped]
          exact range
        · exact ⟨range.1, decided.newSeq ▸ range.2⟩

theorem extends_run {core : ResendReplay} {calls : List Call}
    (legal : Along Walk.call Walk.Legal (start core) calls) :
    (run Walk.call (start core) calls).beginSeq ≤ core.replyCursor ∧
      core.newSeq ≤ (run Walk.call (start core) calls).core.newSeq :=
  invariant (extends_call core.replyCursor core.newSeq) ⟨le_refl _, le_refl _⟩ legal

/-- Every run of legal calls covers. -/
theorem covers_run {core : ResendReplay} {calls : List Call}
    (legal : Along Walk.call Walk.Legal (start core) calls) :
    Covers (run Walk.call (start core) calls) :=
  invariant covers_call covers_start legal

end Walk

end IronFix.Session
