import IronFix.Lib.Transitions
import IronFix.Session.ReplayExact

/-!
# Resends owed to the counterparty

A session answers ResendRequests one walk at a time. The others wait in a queue
of bounded length: past the bound a range is merged into the last one queued,
which has not started. What was asked for is owed until it is answered.
-/

namespace IronFix.Session

open Lib.Decimal Lib.Transitions

/-- Most resends queued, the one under way included. -/
def MAX_QUEUED_REPLAYS : Nat := 64

/-- Whether a new resend is merged into the last queued one. -/
def replayQueueFull (queued : Nat) : Bool := decide (queued ≥ MAX_QUEUED_REPLAYS)

/-- One resend owed, and the driver's payload for it. -/
structure ReplayJob (ρ : Type) where
  replay : ResendReplay
  payload : ρ

section Queue

variable {ρ : Type}

/-- Queues the resend of `beginSeq..newSeq`; an empty range queues nothing. -/
def queueReplay (replays : List (ReplayJob ρ)) (beginSeq newSeq : Fin (2 ^ 64)) (hasStore : Bool)
    (payload : ρ) : List (ReplayJob ρ) × Bool :=
  match ResendReplay.new beginSeq newSeq hasStore with
  | none => (replays, false)
  | some replay =>
      match if replayQueueFull replays.length then replays.getLast? else none with
      | some last => (replays.dropLast ++ [{ last with replay := last.replay.widen replay }], true)
      | none => (replays ++ [⟨replay, payload⟩], true)

/-- Takes the resend at the head. -/
def takeReplay : List (ReplayJob ρ) → Option (ReplayJob ρ) × List (ReplayJob ρ)
  | [] => (none, [])
  | job :: replays => (some job, replays)

/-- Puts back, at the head, a resend that is not done yet. -/
def resumeReplay (replays : List (ReplayJob ρ)) (job : ReplayJob ρ) : List (ReplayJob ρ) :=
  job :: replays

end Queue

/-! ## A session's resends -/

/-- A ResendRequest that was answered, as it arrived. -/
structure Request where
  beginSeq : Nat
  endSeq : Nat
  infinity : EndSeqNoInfinity
  nextSender : Nat
  /-- How many frames resends had been told to write. -/
  told : Nat

/-- The numbers it asks for that were sent. -/
def Request.Asks (request : Request) (n : Nat) : Prop :=
  request.beginSeq ≤ n ∧ (request.infinity.isOpenEnded request.endSeq ∨ n ≤ request.endSeq) ∧
    n < request.nextSender

/-- The resend taken from the queue, and whether it is done. -/
structure Running (ρ : Type) where
  job : ReplayJob ρ
  finished : Bool

/-- The resends of a session, what they had it write, and what they were asked
for. -/
structure Replaying (ρ : Type) where
  nextSender : Fin (2 ^ 64)
  queue : List (ReplayJob ρ)
  running : Option (Running ρ)
  told : List Reply
  requests : List Request

inductive ReplayEvent (ρ : Type) where
  /-- An inbound ResendRequest. -/
  | request (beginSeq endSeq : Option (Fin (2 ^ 64))) (infinity : EndSeqNoInfinity) (hasStore : Bool)
      (payload : ρ)
  /-- The session's own messages take numbers. -/
  | sent (nextSender : Fin (2 ^ 64))
  | take
  /-- The driver advances the resend it took. -/
  | drive (call : Call) (payload : ρ)
  | resume
  /-- The driver drops a resend that is done. -/
  | drop

namespace Replaying

variable {ρ : Type}

def start (nextSender : Fin (2 ^ 64)) : Replaying ρ := ⟨nextSender, [], none, [], []⟩

/-- The answer to a request: the range decided on is queued. -/
def onRequest (s : Replaying ρ) (beginSeq endSeq : Option (Fin (2 ^ 64)))
    (infinity : EndSeqNoInfinity) (hasStore : Bool) (payload : ρ) : Replaying ρ :=
  match decideResendRequest (beginSeq.map Fin.val) (endSeq.map Fin.val) s.nextSender infinity with
  | .replay first next =>
      { s with
        queue := (queueReplay s.queue (Fin.ofNat _ first) (Fin.ofNat _ next) hasStore payload).1
        requests := s.requests ++
          [⟨(beginSeq.map Fin.val).getD 0, (endSeq.map Fin.val).getD 0, infinity, s.nextSender,
            s.told.length⟩] }
  | _ => s

/-- One call on the resend under way. A widened one is in the queue. -/
def onDrive (s : Replaying ρ) (running : Running ρ) (call : Call) (payload : ρ) : Replaying ρ :=
  let walk := (Walk.start running.job.replay).call call
  { s with
    running := some ⟨⟨walk.core, payload⟩, running.finished || walk.finished⟩
    told := s.told ++ walk.told }

/-- An event, where the contract of `takeReplay` allows it: while a resend is
checked out, no other is queued or taken, and only a finished one is dropped. -/
def step (s : Replaying ρ) : ReplayEvent ρ → Option (Replaying ρ)
  | .request beginSeq endSeq infinity hasStore payload =>
      match s.running with
      | none => some (s.onRequest beginSeq endSeq infinity hasStore payload)
      | some _ => none
  | .sent nextSender => if s.nextSender ≤ nextSender then some { s with nextSender } else none
  | .take =>
      match s.running with
      | none =>
          let (job, queue) := takeReplay s.queue
          some { s with queue, running := job.map fun job => ⟨job, false⟩ }
      | some _ => none
  | .drive call payload =>
      match s.running, call with
      | none, _ | some _, .widen _ => none
      | some running, .pollStore | some running, .onPage _ | some running, .entry _ _ _ =>
          some (s.onDrive running call payload)
  | .resume =>
      match s.running with
      | none => none
      | some running => some { s with queue := resumeReplay s.queue running.job, running := none }
  | .drop =>
      match s.running with
      | none => none
      | some running => if running.finished then some { s with running := none } else none

/-- The resends owed, the one under way first. -/
def owed (s : Replaying ρ) : List (ReplayJob ρ) := (s.running.map Running.job).toList ++ s.queue

end Replaying

/-! ## One range -/

/-- What is left of a resend's range. -/
def ResendReplay.Owes (replay : ResendReplay) (n : Nat) : Prop :=
  replay.replyCursor ≤ n ∧ n < replay.newSeq

/-- A request that is answered asks for the numbers of the range it is answered
with. -/
theorem decideResendRequest_asks {beginSeq endSeq : Option Nat} {nextSender first next told : Nat}
    {infinity : EndSeqNoInfinity} (isU64 : nextSender ≤ u64Max)
    (decided : decideResendRequest beginSeq endSeq nextSender infinity = .replay first next) (n : Nat) :
    (Request.mk (beginSeq.getD 0) (endSeq.getD 0) infinity nextSender told).Asks n ↔
      first ≤ n ∧ n < next := by
  unfold decideResendRequest at decided
  unfold Request.Asks
  cases beginSeq with
  | none => cases decided
  | some beginSeq =>
      cases endSeq with
      | none => cases decided
      | some endSeq =>
          simp only [Option.getD_some] at decided ⊢
          by_cases outside : beginSeq = 0 ∨ beginSeq ≥ nextSender
          · rw [if_pos outside] at decided
            cases decided
          · rw [if_neg outside] at decided
            cases openEnded : infinity.isOpenEnded endSeq with
            | true =>
                simp only [openEnded, Bool.not_true, Bool.false_eq_true, false_and, if_false,
                  if_true] at decided
                cases decided
                simp
            | false =>
                simp only [openEnded, Bool.not_false, true_and, Bool.false_eq_true, if_false]
                  at decided
                by_cases below : endSeq < beginSeq
                · rw [if_pos below] at decided
                  cases decided
                · rw [if_neg below] at decided
                  cases bound : checkedAdd u64Max endSeq 1 with
                  | none =>
                      have huge : u64Max < endSeq + 1 := by
                        by_contra fits
                        rw [checkedAdd_eq_some.mpr ⟨rfl, Nat.le_of_not_lt fits⟩] at bound
                        cases bound
                      rw [bound] at decided
                      cases decided
                      simp only [Bool.false_eq_true, false_or]
                      omega
                  | some after =>
                      obtain ⟨rfl, -⟩ := checkedAdd_eq_some.mp bound
                      rw [bound] at decided
                      cases decided
                      simp only [Bool.false_eq_true, false_or]
                      by_cases early : endSeq + 1 < nextSender
                      · rw [if_pos early]
                        omega
                      · rw [if_neg early]
                        omega

/-- A widened range has both. -/
theorem ResendReplay.widen_owes {replay other : ResendReplay} {n : Nat}
    (owes : replay.Owes n ∨ other.Owes n) : (replay.widen other).Owes n := by
  rcases owes with ⟨low, high⟩ | ⟨low, high⟩
  · exact ⟨le_trans (min_le_left _ _) low, lt_of_lt_of_le high (le_max_left _ _)⟩
  · exact ⟨le_trans (min_le_right _ _) low, lt_of_lt_of_le high (le_max_right _ _)⟩

/-- A call of the driver that advances a resend. -/
def Call.advances : Call → Bool
  | .widen _ => false
  | .pollStore | .onPage _ | .entry _ _ _ => true

theorem Walk.call_newSeq (walk : Walk) {call : Call} (advances : call.advances = true) :
    (walk.call call).core.newSeq = walk.core.newSeq := by
  cases call with
  | widen other => cases advances
  | pollStore =>
      rcases walk.core.pollStore_cases with ⟨_, _, polled⟩ | ⟨_, _, polled⟩ | ⟨_, polled⟩
      · simp [Walk.call, polled]
      · simp [Walk.call, polled]
      · simp [Walk.call, polled]
  | onPage read => exact (walk.core.onPage_keeps read).1
  | entry seq isAdmin verdict =>
      simp only [Walk.call]
      by_cases skipped : walk.core.screenEntry seq isAdmin = .skip
      · rw [if_pos skipped]
      · rw [if_neg skipped]
        rcases walk.core.decideEntry_cases seq verdict with ⟨left, _⟩ | ⟨_, decided⟩
        · rw [left]
        · exact decided.newSeq

/-- What one call of the driver makes of a resend. -/
structure Advanced (before after : ResendReplay) (told : List Reply) : Prop where
  newSeq : after.newSeq = before.newSeq
  onward : before.replyCursor ≤ after.replyCursor
  numbers : told.flatMap Reply.numbers =
    List.range' before.replyCursor (after.replyCursor - before.replyCursor)

theorem advanced_call (replay : ResendReplay) {call : Call} (advances : call.advances = true) :
    Advanced replay ((Walk.start replay).call call).core ((Walk.start replay).call call).told ∧
      (((Walk.start replay).call call).finished = true →
        ((Walk.start replay).call call).core.replyCursor
          = ((Walk.start replay).call call).core.newSeq) := by
  have legal : (Walk.start replay).Legal call := by
    cases call with
    | widen other => cases advances
    | pollStore => trivial
    | onPage read => trivial
    | entry seq isAdmin verdict => trivial
  have covers := Walk.covers_call (Walk.start replay) call Walk.covers_start legal
  have first : ((Walk.start replay).call call).beginSeq = replay.replyCursor := by
    cases call with
    | widen other => cases advances
    | pollStore => rfl
    | onPage read => rfl
    | entry seq isAdmin verdict =>
        simp only [Walk.call]
        split <;> rfl
  refine ⟨⟨Walk.call_newSeq _ advances, first ▸ covers.ordered, ?_⟩, covers.finished⟩
  rw [covers.numbers, first]

/-- A number that was owed is still owed, or answered. -/
theorem Advanced.owes {before after : ResendReplay} {told : List Reply}
    (advanced : Advanced before after told) {n : Nat} (owes : before.Owes n) :
    after.Owes n ∨ n ∈ told.flatMap Reply.numbers := by
  by_cases answered : n < after.replyCursor
  · right
    rw [advanced.numbers, List.mem_range'_1]
    have := owes.1
    have := advanced.onward
    omega
  · exact .inl ⟨Nat.le_of_not_lt answered, advanced.newSeq ▸ owes.2⟩

/-! ## The queue -/

section Queue

variable {ρ : Type}

/-- A resend in the queue still owes the number. -/
def Owed (replays : List (ReplayJob ρ)) (n : Nat) : Prop := ∃ job ∈ replays, job.replay.Owes n

/-- What holds of the resends owed, the one under way first. -/
structure Bounded (nextSender : Nat) (replays : List (ReplayJob ρ)) : Prop where
  fits : replays.length ≤ MAX_QUEUED_REPLAYS
  sent : ∀ job ∈ replays, job.replay.newSeq ≤ nextSender
  waiting : ∀ job ∈ replays.tail, job.replay.started = false

/-- A queued range joins the queue, or the last one in it where that is full. -/
theorem queueReplay_cases (replays : List (ReplayJob ρ)) {beginSeq newSeq : Fin (2 ^ 64)}
    {hasStore : Bool} {replay : ResendReplay}
    (accepted : ResendReplay.new beginSeq newSeq hasStore = some replay) (payload : ρ) :
    (replays.length < MAX_QUEUED_REPLAYS ∧
      queueReplay replays beginSeq newSeq hasStore payload = (replays ++ [⟨replay, payload⟩], true)) ∨
    (∃ front last, replays = front ++ [last] ∧ front ≠ [] ∧
      queueReplay replays beginSeq newSeq hasStore payload
        = (front ++ [{ last with replay := last.replay.widen replay }], true)) := by
  unfold queueReplay
  rw [accepted]
  by_cases full : replays.length ≥ MAX_QUEUED_REPLAYS
  · have isFull : replayQueueFull replays.length = true := decide_eq_true full
    rw [if_pos isFull]
    unfold MAX_QUEUED_REPLAYS at full
    rcases List.eq_nil_or_concat' replays with rfl | ⟨front, last, rfl⟩
    · simp at full
    · refine .inr ⟨front, last, rfl, ?_, by simp⟩
      rintro rfl
      simp at full
  · have room : replayQueueFull replays.length = false := decide_eq_false full
    exact .inl ⟨Nat.lt_of_not_le full, by simp [room]⟩

/-- A range of numbers that were sent is queued: nothing that was owed is lost,
and no resend that has started is widened. -/
theorem queueReplay_owes {replays : List (ReplayJob ρ)} {nextSender : Nat}
    (bounded : Bounded nextSender replays) {beginSeq newSeq : Fin (2 ^ 64)} {hasStore : Bool}
    {replay : ResendReplay} (accepted : ResendReplay.new beginSeq newSeq hasStore = some replay)
    (sent : newSeq.val ≤ nextSender) (payload : ρ) :
    Bounded nextSender (queueReplay replays beginSeq newSeq hasStore payload).1 ∧
      ∀ n, (Owed replays n ∨ beginSeq.val ≤ n ∧ n < newSeq.val) →
        Owed (queueReplay replays beginSeq newSeq hasStore payload).1 n := by
  obtain ⟨cursor, ends, -⟩ := new_some accepted
  have fresh : replay.started = false := by
    unfold ResendReplay.new at accepted
    split at accepted
    · cases accepted
    · cases accepted
      rfl
  have owesNew : ∀ n, beginSeq.val ≤ n ∧ n < newSeq.val → replay.Owes n := by
    intro n inside
    unfold ResendReplay.Owes
    rw [cursor, ends]
    exact inside
  rcases queueReplay_cases replays accepted payload with
    ⟨room, queued⟩ | ⟨front, last, rfl, behind, queued⟩
  · rw [queued]
    refine ⟨⟨?_, ?_, ?_⟩, ?_⟩
    · rw [List.length_append]
      exact room
    · intro job member
      rcases List.mem_append.mp member with before | new
      · exact bounded.sent job before
      · rw [List.mem_singleton.mp new, ends]
        exact sent
    · intro job member
      cases replays with
      | nil => cases member
      | cons first others =>
          rcases List.mem_append.mp member with before | new
          · exact bounded.waiting job before
          · rw [List.mem_singleton.mp new]
            exact fresh
    · rintro n (⟨job, member, owes⟩ | inside)
      · exact ⟨job, List.mem_append_left _ member, owes⟩
      · exact ⟨_, List.mem_append_right _ (List.mem_singleton.mpr rfl), owesNew n inside⟩
  · rw [queued]
    obtain ⟨first, others, rfl⟩ := List.exists_cons_of_ne_nil behind
    refine ⟨⟨?_, ?_, ?_⟩, ?_⟩
    · have fits := bounded.fits
      rw [List.length_append] at fits ⊢
      exact fits
    · intro job member
      rcases List.mem_append.mp member with before | new
      · exact bounded.sent job (List.mem_append_left _ before)
      · rw [List.mem_singleton.mp new]
        have lastSent := bounded.sent last (List.mem_append_right _ (List.mem_singleton.mpr rfl))
        exact max_le lastSent (ends ▸ sent)
    · intro job member
      rcases List.mem_append.mp member with before | new
      · exact bounded.waiting job (List.mem_append_left _ before)
      · rw [List.mem_singleton.mp new]
        exact bounded.waiting last (List.mem_append_right _ (List.mem_singleton.mpr rfl))
    · rintro n (⟨job, member, owes⟩ | inside)
      · rcases List.mem_append.mp member with before | isLast
        · exact ⟨job, List.mem_append_left _ before, owes⟩
        · rw [List.mem_singleton.mp isLast] at owes
          exact ⟨_, List.mem_append_right _ (List.mem_singleton.mpr rfl),
            ResendReplay.widen_owes (.inl owes)⟩
      · exact ⟨_, List.mem_append_right _ (List.mem_singleton.mpr rfl),
          ResendReplay.widen_owes (.inr (owesNew n inside))⟩

end Queue

/-! ## The runs -/

namespace Replaying

variable {ρ : Type}

/-- What was asked for is owed, or was answered since. -/
structure Kept (s : Replaying ρ) : Prop where
  bounded : Bounded s.nextSender s.owed
  finished : ∀ running, s.running = some running → running.finished = true →
    running.job.replay.replyCursor = running.job.replay.newSeq
  answered : ∀ request ∈ s.requests, ∀ n, request.Asks n →
    Owed s.owed n ∨ n ∈ (s.told.drop request.told).flatMap Reply.numbers
  earlier : ∀ request ∈ s.requests, request.told ≤ s.told.length

theorem kept_start (nextSender : Fin (2 ^ 64)) : Kept (start nextSender : Replaying ρ) where
  bounded := ⟨Nat.zero_le _, by simp [start, owed], by simp [start, owed]⟩
  finished := by simp [start]
  answered := by simp [start]
  earlier := by simp [start]

theorem Kept.onRequest {s : Replaying ρ} (kept : Kept s) (idle : s.running = none)
    (beginSeq endSeq : Option (Fin (2 ^ 64))) (infinity : EndSeqNoInfinity) (hasStore : Bool)
    (payload : ρ) : Kept (s.onRequest beginSeq endSeq infinity hasStore payload) := by
  unfold Replaying.onRequest
  cases decided : decideResendRequest (beginSeq.map Fin.val) (endSeq.map Fin.val) s.nextSender infinity with
  | missingBeginSeqNo => exact kept
  | missingEndSeqNo => exact kept
  | beginSeqNoOutsideSent _ _ => exact kept
  | endSeqNoBelowBegin _ _ => exact kept
  | replay first next =>
      obtain ⟨positive, ordered, sent⟩ := decideResendRequest_replay decided
      have nextFits : next < 2 ^ 64 := lt_of_le_of_lt sent s.nextSender.isLt
      have firstVal : (Fin.ofNat (2 ^ 64) first).val = first :=
        Nat.mod_eq_of_lt (lt_trans ordered nextFits)
      have nextVal : (Fin.ofNat (2 ^ 64) next).val = next := Nat.mod_eq_of_lt nextFits
      have isQueue : s.owed = s.queue := by
        unfold owed
        rw [idle]
        rfl
      obtain ⟨replay, accepted⟩ : ∃ replay,
          ResendReplay.new (Fin.ofNat _ first) (Fin.ofNat _ next) hasStore = some replay := by
        unfold ResendReplay.new
        rw [dif_neg (by rw [firstVal, nextVal]; omega)]
        exact ⟨_, rfl⟩
      obtain ⟨bounded, owes⟩ := queueReplay_owes (isQueue ▸ kept.bounded) accepted
        (by rw [nextVal]; exact sent) payload
      rw [firstVal, nextVal] at owes
      have owedAfter : ∀ requests, ({ s with
          queue := (queueReplay s.queue (Fin.ofNat _ first) (Fin.ofNat _ next) hasStore payload).1
          requests := requests } : Replaying ρ).owed
            = (queueReplay s.queue (Fin.ofNat _ first) (Fin.ofNat _ next) hasStore payload).1 := by
        intro requests
        unfold owed
        rw [idle]
        rfl
      refine ⟨?_, kept.finished, ?_, ?_⟩
      · rw [owedAfter]
        exact bounded
      · intro request member n asks
        rw [owedAfter]
        rcases List.mem_append.mp member with before | new
        · rcases kept.answered request before n asks with owing | answered
          · exact .inl (owes n (.inl (isQueue ▸ owing)))
          · exact .inr answered
        · rw [List.mem_singleton.mp new] at asks
          have isU64 : s.nextSender.val ≤ u64Max := Nat.le_of_lt_succ s.nextSender.isLt
          exact .inl (owes n (.inr ((decideResendRequest_asks isU64 decided n).mp asks)))
      · intro request member
        rcases List.mem_append.mp member with before | new
        · exact kept.earlier request before
        · rw [List.mem_singleton.mp new]

theorem Kept.onDrive {s : Replaying ρ} (kept : Kept s) {running : Running ρ}
    (busy : s.running = some running) {call : Call} (advances : call.advances = true) (payload : ρ) :
    Kept (s.onDrive running call payload) := by
  obtain ⟨advanced, done⟩ := advanced_call running.job.replay advances
  have before : s.owed = running.job :: s.queue := by
    unfold owed
    rw [busy]
    rfl
  have bounded := kept.bounded
  rw [before] at bounded
  refine ⟨⟨bounded.fits, ?_, bounded.waiting⟩, ?_, ?_, ?_⟩
  · intro job member
    rcases List.mem_cons.mp member with rfl | waiting
    · rw [advanced.newSeq]
      exact bounded.sent running.job List.mem_cons_self
    · exact bounded.sent job (List.mem_cons_of_mem _ waiting)
  · rintro after here isDone
    obtain rfl := Option.some.inj here
    rcases Bool.or_eq_true_iff.mp isDone with already | now
    · -- nothing was left, and the cursor does not go past the end
      have closed := kept.finished running busy already
      have onward := advanced.onward
      have reached := ((Walk.start running.job.replay).call call).core.reached
      have newSeq := advanced.newSeq
      show ((Walk.start running.job.replay).call call).core.replyCursor
        = ((Walk.start running.job.replay).call call).core.newSeq
      omega
    · exact done now
  · intro request member n asks
    have early := kept.earlier request member
    show _ ∨ n ∈ ((s.told ++ _).drop request.told).flatMap Reply.numbers
    rw [List.drop_append_of_le_length early, List.flatMap_append]
    rcases kept.answered request member n asks with ⟨job, isOwed, owes⟩ | answered
    · rw [before] at isOwed
      rcases List.mem_cons.mp isOwed with rfl | waiting
      · rcases advanced.owes owes with still | answered
        · exact .inl ⟨_, List.mem_cons_self, still⟩
        · exact .inr (List.mem_append_right _ answered)
      · exact .inl ⟨job, List.mem_cons_of_mem _ waiting, owes⟩
    · exact .inr (List.mem_append_left _ answered)
  · intro request member
    refine le_trans (kept.earlier request member) ?_
    show _ ≤ (s.told ++ _).length
    rw [List.length_append]
    exact Nat.le_add_right _ _

/-- A step that owes the same resends, or leaves out one that is done. -/
theorem Kept.same {s s' : Replaying ρ} (kept : Kept s) (bounded : Bounded s'.nextSender s'.owed)
    (owes : ∀ n, Owed s.owed n → Owed s'.owed n) (told : s'.told = s.told)
    (requests : s'.requests = s.requests)
    (finished : ∀ running, s'.running = some running → running.finished = true →
      running.job.replay.replyCursor = running.job.replay.newSeq) : Kept s' := by
  refine ⟨bounded, finished, ?_, ?_⟩
  · intro request member n asks
    rw [requests] at member
    rw [told]
    exact (kept.answered request member n asks).imp_left (owes n)
  · intro request member
    rw [requests] at member
    rw [told]
    exact kept.earlier request member

theorem kept_step {s s' : Replaying ρ} {event : ReplayEvent ρ} (kept : Kept s)
    (taken : step s event = some s') : Kept s' := by
  cases event with
  | request beginSeq endSeq infinity hasStore payload =>
      cases running : s.running with
      | some _ =>
          simp only [step, running] at taken
          cases taken
      | none =>
          simp only [step, running] at taken
          cases taken
          exact kept.onRequest running beginSeq endSeq infinity hasStore payload
  | sent nextSender =>
      simp only [step] at taken
      by_cases later : s.nextSender ≤ nextSender
      · rw [if_pos later] at taken
        cases taken
        refine kept.same ⟨kept.bounded.fits, ?_, kept.bounded.waiting⟩ (fun _ owing => owing) rfl rfl
          kept.finished
        intro job member
        exact le_trans (kept.bounded.sent job member) later
      · rw [if_neg later] at taken
        cases taken
  | take =>
      cases running : s.running with
      | some _ =>
          simp only [step, running] at taken
          cases taken
      | none =>
          simp only [step, running] at taken
          cases taken
          have same : ({ s with
              queue := (takeReplay s.queue).2
              running := (takeReplay s.queue).1.map fun job => ⟨job, false⟩ } : Replaying ρ).owed
                = s.owed := by
            unfold owed takeReplay
            rw [running]
            cases s.queue <;> rfl
          refine kept.same ?_ ?_ rfl rfl ?_
          · rw [same]
            exact kept.bounded
          · rw [same]
            exact fun _ owing => owing
          · intro now here isDone
            obtain ⟨job, -, rfl⟩ := Option.map_eq_some_iff.mp here
            cases isDone
  | drive call payload =>
      cases running : s.running with
      | none =>
          simp only [step, running] at taken
          cases taken
      | some now =>
          cases call with
          | widen other =>
              simp only [step, running] at taken
              cases taken
          | pollStore =>
              simp only [step, running] at taken
              cases taken
              exact kept.onDrive running rfl payload
          | onPage read =>
              simp only [step, running] at taken
              cases taken
              exact kept.onDrive running rfl payload
          | entry seq isAdmin verdict =>
              simp only [step, running] at taken
              cases taken
              exact kept.onDrive running rfl payload
  | resume =>
      cases running : s.running with
      | none =>
          simp only [step, running] at taken
          cases taken
      | some now =>
          simp only [step, running] at taken
          cases taken
          have same : ({ s with
              queue := resumeReplay s.queue now.job
              running := none } : Replaying ρ).owed = s.owed := by
            unfold owed resumeReplay
            rw [running]
            rfl
          refine kept.same ?_ ?_ rfl rfl (by simp)
          · rw [same]
            exact kept.bounded
          · rw [same]
            exact fun _ owing => owing
  | drop =>
      cases running : s.running with
      | none =>
          simp only [step, running] at taken
          cases taken
      | some now =>
          simp only [step, running] at taken
          by_cases isDone : now.finished = true
          · rw [if_pos isDone] at taken
            cases taken
            have before : s.owed = now.job :: s.queue := by
              unfold owed
              rw [running]
              rfl
            have bounded := kept.bounded
            rw [before] at bounded
            refine kept.same ⟨?_, ?_, ?_⟩ ?_ rfl rfl (by simp)
            · exact le_trans (Nat.le_succ _) bounded.fits
            · exact fun job member => bounded.sent job (List.mem_cons_of_mem _ member)
            · exact fun job member => bounded.waiting job (List.mem_of_mem_tail member)
            · rintro n ⟨job, member, low, high⟩
              rw [before] at member
              rcases List.mem_cons.mp member with rfl | waiting
              · have closed := kept.finished now running isDone
                omega
              · exact ⟨job, waiting, low, high⟩
          · rw [if_neg isDone] at taken
            cases taken

/-- The resends owed stay within their bound and below the next number, and none
that may be widened has started. A number that was asked for is in the walk
under way, in a queued range, or answered since it was asked for. -/
theorem asked_is_owed {nextSender : Fin (2 ^ 64)} {events : List (ReplayEvent ρ)} {s : Replaying ρ}
    (ran : run step (start nextSender) events = some s) :
    s.owed.length ≤ MAX_QUEUED_REPLAYS ∧
      (∀ job ∈ s.owed, job.replay.newSeq ≤ s.nextSender) ∧
      (∀ job ∈ s.owed.tail, job.replay.started = false) ∧
      ∀ request ∈ s.requests, ∀ n, request.Asks n →
        (∃ running, s.running = some running ∧ running.job.replay.Owes n) ∨
          (∃ job ∈ s.queue, job.replay.Owes n) ∨
          n ∈ (s.told.drop request.told).flatMap Reply.numbers := by
  have kept : Kept s := (reaches_of_run ran).invariant
    (fun s event s' kept _ taken => kept_step kept taken) (kept_start nextSender)
  refine ⟨kept.bounded.fits, kept.bounded.sent, kept.bounded.waiting, ?_⟩
  intro request member n asks
  rcases kept.answered request member n asks with ⟨job, isOwed, owes⟩ | answered
  · rcases List.mem_append.mp isOwed with isRunning | queued
    · obtain ⟨running, here, rfl⟩ := Option.map_eq_some_iff.mp (Option.mem_toList.mp isRunning)
      exact .inl ⟨running, here, owes⟩
    · exact .inr (.inl ⟨job, queued, owes⟩)
  · exact .inr (.inr answered)

/-- Two requests while 1 to 9 were sent, the first of them answered. -/
def twoRequests : List (ReplayEvent Unit) :=
  [.request (some 3) (some 5) .zero false (), .request (some 4) (some 0) .zero false (), .take,
    .drive .pollStore (), .drop]

theorem asked_is_owed_two : ∃ s, run step (start 10) twoRequests = some s ∧
    s.owed.length ≤ MAX_QUEUED_REPLAYS ∧
      (∀ job ∈ s.owed, job.replay.newSeq ≤ s.nextSender) ∧
      (∀ job ∈ s.owed.tail, job.replay.started = false) ∧
      ∀ request ∈ s.requests, ∀ n, request.Asks n →
        (∃ running, s.running = some running ∧ running.job.replay.Owes n) ∨
          (∃ job ∈ s.queue, job.replay.Owes n) ∨
          n ∈ (s.told.drop request.told).flatMap Reply.numbers := by
  have ran : ∃ s, run step (start 10) twoRequests = some s := ⟨_, rfl⟩
  obtain ⟨s, ran⟩ := ran
  exact ⟨s, ran, asked_is_owed ran⟩

end Replaying

end IronFix.Session
