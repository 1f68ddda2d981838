import IronFix.Session.ThrottleOrder

/-!
# When a throttle wakes up

`next_release` names an instant, and no release finds a message before it. From
it on every release finds one, unless the instant is that of a bucket that is
full with every token reserved: such a bucket earns nothing.
-/

namespace IronFix.Session

open Lib.Lanes Lib.Runs

namespace Bucket

variable {T : Type} {burst rate per now later : Nat} {spent : List Nat} {bucket : Bucket T}

/-- Full, with every token reserved. -/
def Stuck (bucket : Bucket T) : Prop := bucket.available = 0 ∧ bucket.tokens = bucket.burst

/-- What a message at the head of the queue finds once the bucket is up to date:
a free token, or the instant of the next one, or no more to come. -/
theorem Paced.heads (paced : bucket.Paced burst rate per now spent) :
    bucket.available ≠ 0 ∨ bucket.Stuck ∨ (bucket.available = 0 ∧ bucket.tokens < bucket.burst) := by
  have capped : bucket.tokens ≤ bucket.burst := paced.windowed.capped
  unfold Stuck
  omega

@[simp] theorem refill_burst (now : Nat) (bucket : Bucket T) :
    (bucket.refill now).burst = bucket.burst := by
  rw [refill_eq]

@[simp] theorem refill_spacing (now : Nat) (bucket : Bucket T) :
    (bucket.refill now).spacing = bucket.spacing := by
  rw [refill_eq]

/-- A free token stays free. -/
theorem Paced.free (paced : bucket.Paced burst rate per now spent) (onward : now ≤ later)
    (free : bucket.available ≠ 0) : (bucket.refill later).available ≠ 0 := by
  have more : bucket.tokens ≤ (bucket.refill later).tokens := (paced.later onward).earns.more
  unfold available at free ⊢
  rw [refill_reserved]
  omega

/-- A full bucket earns nothing. -/
theorem Stuck.stays (stuck : bucket.Stuck) (later : Nat) : (bucket.refill later).available = 0 := by
  have tokens : (bucket.refill later).tokens = bucket.tokens := by
    unfold refill
    rw [if_pos stuck.2.ge]
    split <;> rfl
  unfold available
  rw [refill_reserved, tokens]
  exact stuck.1

/-- A bucket that is not full earns its next token a spacing after the last. -/
theorem Paced.short (paced : bucket.Paced burst rate per now spent) (onward : now ≤ later)
    (wanting : bucket.available = 0) (room : bucket.tokens < bucket.burst) :
    (bucket.refill later).available ≠ 0 ↔ bucket.refilledAt + bucket.spacing ≤ later := by
  have held := paced.held
  have since : bucket.refilledAt ≤ now := paced.windowed.since
  have positive := paced.positive
  unfold available at wanting ⊢
  rw [refill_reserved]
  unfold Bucket.refill
  rw [if_neg (not_le.mpr room), if_neg (not_lt.mpr (since.trans onward)), max_eq_left positive]
  dsimp only
  by_cases reached : bucket.refilledAt + bucket.spacing ≤ later
  · have earned : 0 < (later - bucket.refilledAt) / bucket.spacing :=
      Nat.div_pos (by omega) positive
    rw [if_neg earned.ne']
    split
    · show bucket.tokens + (later - bucket.refilledAt) / bucket.spacing - bucket.reserved ≠ 0 ↔ _
      omega
    · show bucket.burst - bucket.reserved ≠ 0 ↔ _
      omega
  · have nothing : (later - bucket.refilledAt) / bucket.spacing = 0 :=
      Nat.div_eq_of_lt (by omega)
    rw [if_pos nothing]
    omega

/-- When a bucket with messages expects its next token, up to date. -/
def wakeAt (now : Nat) (bucket : Bucket T) : Nat :=
  if bucket.available > 0 then now else bucket.refilledAt + bucket.spacing

theorem readyAt_eq (now : Nat) (filled : bucket.queue ≠ []) :
    bucket.readyAt now = (some ((bucket.refill now).wakeAt now), bucket.refill now) := by
  have nonempty : ¬ bucket.queue.isEmpty = true := fun empty => filled (List.isEmpty_iff.mp empty)
  unfold readyAt wakeAt
  rw [if_neg nonempty]
  dsimp only
  split <;> rfl

/-- Up to date, the next token is not in the past. -/
theorem Paced.wakeAt_ge (paced : bucket.Paced burst rate per now spent) :
    now ≤ (bucket.refill now).wakeAt now := by
  have earns := paced.earns
  unfold wakeAt
  split
  · exact le_refl _
  · rw [refill_spacing]
    have capped : (bucket.refill now).tokens ≤ bucket.burst := earns.capped paced.windowed.capped
    rcases Nat.lt_or_ge (bucket.refill now).tokens bucket.burst with room | full
    · exact (earns.current room).le
    · exact (earns.late (le_antisymm capped full)).trans (Nat.le_add_right _ _)

/-- A stuck bucket gives a spacing from now. -/
theorem Paced.wakeAt_stuck (paced : bucket.Paced burst rate per now spent)
    (stuck : (bucket.refill now).Stuck) : (bucket.refill now).wakeAt now = now + bucket.spacing := by
  have earns := paced.earns
  have full : (bucket.refill now).tokens = bucket.burst := stuck.2.trans (refill_burst now bucket)
  have late : now ≤ (bucket.refill now).refilledAt := earns.late full
  have since : (bucket.refill now).refilledAt ≤ now := paced.refill.windowed.since
  unfold wakeAt
  rw [if_neg (by rw [stuck.1]; exact lt_irrefl 0), refill_spacing]
  omega

end Bucket

namespace Throttle

variable {T : Type} {throttle : Throttle T} {waiting : List (HeldMessage T)}
  {burst rate per : Nat → Nat} {spent : Nat → List Nat} {now later deadline : Nat}

/-- A release finds a message when some message waiting can take a token. -/
theorem Holds.releases_iff (holds : throttle.Holds waiting)
    (paced : throttle.Paced burst rate per spent now) :
    (throttle.release now).1 ≠ none ↔
      ∃ bucket ∈ throttle.buckets, bucket.queue ≠ [] ∧ (bucket.refill now).available ≠ 0 := by
  have released := holds.releases paced
  split at released
  · rename_i nothing
    rw [released]
    refine ⟨fun found => (found rfl).elim, ?_⟩
    rintro ⟨bucket, listed, filled, free⟩
    obtain ⟨slot, inside, rfl⟩ := List.mem_iff_getElem.mp listed
    have at_slot := List.getElem?_eq_getElem inside
    -- a queue with a message in it belongs to a message waiting
    have lane : laneOf HeldMessage.slot slot waiting ≠ [] := by
      intro empty
      have queue : throttle.buckets[slot].queue =
          (laneOf HeldMessage.slot slot waiting).map fun message => (message.ticket, message.item) :=
        holds.queues slot _ at_slot
      rw [queue, empty] at filled
      exact filled rfl
    obtain ⟨message, inLane⟩ := List.exists_mem_of_ne_nil _ lane
    obtain ⟨member, rfl⟩ := (mem_laneOf _).mp inLane
    refine absurd ?_ (List.find?_eq_none.mp nothing message member)
    unfold ready
    rw [at_slot]
    exact decide_eq_true free
  · rename_i message first
    rw [released.2.1]
    refine ⟨fun _ => ?_, fun _ => nofun⟩
    obtain ⟨bucket, head, rest, at_slot, -, queue⟩ := holds.head (List.mem_of_find?_eq_some first)
    have isReady := List.find?_some first
    unfold ready at isReady
    rw [at_slot] at isReady
    refine ⟨bucket, List.mem_of_getElem? at_slot, ?_, of_decide_eq_true isReady⟩
    rw [queue]
    exact List.cons_ne_nil _ _

/-- What is waited for: the earliest of the instants of the buckets with messages. -/
theorem nextRelease_eq_some (next : (throttle.nextRelease now).1 = some deadline) :
    (∃ bucket ∈ throttle.buckets, bucket.queue ≠ [] ∧ (bucket.refill now).wakeAt now = deadline) ∧
      ∀ bucket ∈ throttle.buckets, bucket.queue ≠ [] → deadline ≤ (bucket.refill now).wakeAt now := by
  unfold nextRelease at next
  split at next
  · cases next
  · obtain ⟨listed, lowest⟩ := List.min?_eq_some_iff.mp next
    constructor
    · obtain ⟨polled, member, same⟩ := List.mem_filterMap.mp listed
      obtain ⟨bucket, inside, rfl⟩ := List.mem_map.mp member
      have filled : bucket.queue ≠ [] := by
        intro empty
        have silent : (bucket.readyAt now).1 = none := by
          unfold Bucket.readyAt
          rw [empty]
          rfl
        rw [silent] at same
        cases same
      rw [Bucket.readyAt_eq now filled] at same
      exact ⟨bucket, inside, filled, Option.some.inj same⟩
    · intro bucket inside filled
      refine lowest _ (List.mem_filterMap.mpr ⟨_, List.mem_map_of_mem inside, ?_⟩)
      rw [Bucket.readyAt_eq now filled]

/-- The buckets that were asked are up to date, the others as they were. -/
theorem nextRelease_buckets (next : (throttle.nextRelease now).1 = some deadline) :
    (throttle.nextRelease now).2.buckets =
      throttle.buckets.map fun bucket => (bucket.readyAt now).2 := by
  unfold nextRelease at next ⊢
  split at next
  · cases next
  · rename_i held
    rw [if_neg held]
    exact List.map_map

/-- Asking at `now` and releasing later, some message waiting can take a token. -/
theorem Holds.wakes_iff (holds : throttle.Holds waiting)
    (paced : throttle.Paced burst rate per spent now)
    (next : (throttle.nextRelease now).1 = some deadline) (onward : now ≤ later) :
    ((throttle.nextRelease now).2.release later).1 ≠ none ↔
      ∃ bucket ∈ throttle.buckets, bucket.queue ≠ [] ∧
        ((bucket.refill now).refill later).available ≠ 0 := by
  have asked : (throttle.nextRelease now).2.Paced burst rate per spent later :=
    (nextRelease_paced paced).mono fun _ _ before => before.later onward
  rw [(holds.nextRelease now).releases_iff asked, nextRelease_buckets next]
  constructor
  · rintro ⟨_, listed, filled, free⟩
    obtain ⟨bucket, inside, rfl⟩ := List.mem_map.mp listed
    rw [Bucket.readyAt_queue] at filled
    rw [Bucket.readyAt_eq now filled] at free
    exact ⟨bucket, inside, filled, free⟩
  · rintro ⟨bucket, inside, filled, free⟩
    refine ⟨_, List.mem_map_of_mem inside, ?_, ?_⟩
    · rw [Bucket.readyAt_queue]
      exact filled
    · rw [Bucket.readyAt_eq now filled]
      exact free

/-- Some bucket with messages has a free token, or earns its next one no later
than any stuck bucket with messages is expected to. -/
def Wakes (now : Nat) (throttle : Throttle T) : Prop :=
  ∃ bucket ∈ throttle.buckets, bucket.queue ≠ [] ∧
    ((bucket.refill now).available ≠ 0 ∨
      (bucket.refill now).tokens < bucket.burst ∧
        ∀ other ∈ throttle.buckets, other.queue ≠ [] → (other.refill now).Stuck →
          (bucket.refill now).refilledAt + bucket.spacing ≤ now + other.spacing)

theorem Paced.mem {bucket : Bucket T} (paced : throttle.Paced burst rate per spent now)
    (member : bucket ∈ throttle.buckets) :
    ∃ burst rate per spent, bucket.Paced burst rate per now spent := by
  obtain ⟨slot, inside, rfl⟩ := List.mem_iff_getElem.mp member
  exact ⟨_, _, _, _, paced slot _ (List.getElem?_eq_getElem inside)⟩

/-- No message is released before the instant named. -/
theorem Holds.sleeps (holds : throttle.Holds waiting)
    (paced : throttle.Paced burst rate per spent now)
    (next : (throttle.nextRelease now).1 = some deadline) (onward : now ≤ later)
    (early : later < deadline) : ((throttle.nextRelease now).2.release later).1 = none := by
  by_contra found
  obtain ⟨bucket, member, filled, free⟩ := (holds.wakes_iff paced next onward).mp found
  obtain ⟨_, _, _, _, own⟩ := paced.mem member
  have bounded := (nextRelease_eq_some next).2 bucket member filled
  unfold Bucket.wakeAt at bounded
  split at bounded
  · omega
  · rename_i none_free
    have wanting : (bucket.refill now).available = 0 := by omega
    rcases own.refill.heads with spare | stuck | ⟨-, room⟩
    · exact spare wanting
    · exact free (stuck.stays later)
    · have reached := (own.refill.short onward wanting room).mp free
      omega

/-- From the instant named on, every release finds a message exactly when the
throttle wakes. -/
theorem Holds.wakes (holds : throttle.Holds waiting)
    (paced : throttle.Paced burst rate per spent now)
    (next : (throttle.nextRelease now).1 = some deadline) :
    (∀ later, deadline ≤ later → ((throttle.nextRelease now).2.release later).1 ≠ none) ↔
      throttle.Wakes now := by
  obtain ⟨⟨first, firstMember, firstFilled, attained⟩, lowest⟩ := nextRelease_eq_some next
  obtain ⟨_, _, _, _, firstPaced⟩ := paced.mem firstMember
  have reached : now ≤ deadline := attained ▸ firstPaced.wakeAt_ge
  constructor
  · intro always
    obtain ⟨bucket, member, filled, free⟩ :=
      (holds.wakes_iff paced next reached).mp (always deadline (le_refl _))
    obtain ⟨_, _, _, _, own⟩ := paced.mem member
    refine ⟨bucket, member, filled, ?_⟩
    rcases own.refill.heads with spare | stuck | ⟨wanting, room⟩
    · exact .inl spare
    · exact absurd (stuck.stays deadline) free
    · refine .inr ⟨by rwa [Bucket.refill_burst] at room, fun other listed busy stuck => ?_⟩
      obtain ⟨_, _, _, _, otherPaced⟩ := paced.mem listed
      have due := (own.refill.short reached wanting room).mp free
      have bounded := lowest other listed busy
      rw [otherPaced.wakeAt_stuck stuck] at bounded
      rw [Bucket.refill_spacing] at due
      omega
  · rintro ⟨bucket, member, filled, wakes⟩ later after
    obtain ⟨_, _, _, _, own⟩ := paced.mem member
    have onward := reached.trans after
    refine (holds.wakes_iff paced next onward).mpr ?_
    rcases wakes with spare | ⟨room, soonest⟩
    · exact ⟨bucket, member, filled, own.refill.free onward spare⟩
    · -- the bucket whose instant was named, unless it is stuck
      rcases firstPaced.refill.heads with spare | stuck | ⟨wanting, firstRoom⟩
      · exact ⟨first, firstMember, firstFilled, firstPaced.refill.free onward spare⟩
      · rw [firstPaced.wakeAt_stuck stuck] at attained
        have due := soonest first firstMember firstFilled stuck
        refine ⟨bucket, member, filled, ?_⟩
        rcases own.refill.heads with spare | full | ⟨wanting, bucketRoom⟩
        · exact own.refill.free onward spare
        · exact absurd full.2 (by rw [Bucket.refill_burst]; exact room.ne)
        · refine (own.refill.short onward wanting bucketRoom).mpr ?_
          rw [Bucket.refill_spacing]
          omega
      · refine ⟨first, firstMember, firstFilled,
          (firstPaced.refill.short onward wanting firstRoom).mpr ?_⟩
        unfold Bucket.wakeAt at attained
        rw [if_neg (by omega)] at attained
        omega

end Throttle

/-! ## Runs -/

namespace ThrottleBook

variable {T : Type}

/-- In every state that calls in the order of time reach, when `next_release`
names an instant: every release from it on finds a message and none before it
does, exactly when the throttle wakes. -/
theorem wakeup_law (specs : List TokenBucketSpec) (start : Nat) (calls : List (ThrottleCall T))
    (monotone : Along step Monotone (opened specs start) calls) (now deadline : Nat)
    (onward : (run step (opened specs start) calls).live.clock ≤ now) :
    let throttle := (run step (opened specs start) calls).live.throttle
    (throttle.nextRelease now).1 = some deadline →
      (((∀ later, deadline ≤ later → ((throttle.nextRelease now).2.release later).1 ≠ none) ∧
          ∀ later, now ≤ later → later < deadline →
            ((throttle.nextRelease now).2.release later).1 = none) ↔
        throttle.Wakes now) := by
  intro throttle next
  have kept : (run step (opened specs start) calls).Kept (bursts specs) :=
    invariant (fun _ call before legal => before.step call legal) (kept_opened specs start) monotone
  have paced : throttle.Paced (bursts specs) (fun _ => 0) (fun _ => 0)
      (Throttling.spentAt · (run step (opened specs start) calls).live.charges) now :=
    kept.paced.mono fun slot bucket at_clock => at_clock.later onward
  rw [kept.holds.wakes paced next]
  refine ⟨fun law => law.1, fun wakes => ⟨wakes, fun later reached early => ?_⟩⟩
  exact kept.holds.sleeps paced next reached early

/-- One token, reserved and then charged: the message held goes a spacing later. -/
theorem wakeup_law_charged :
    let throttle := (run step (opened [⟨10, 1, some 4⟩] 0 : ThrottleBook String)
      [.admitItem 0 "a" 0, .admitItem 0 "b" 0, .chargeAt 0 1]).live.throttle
    (((∀ later, 11 ≤ later → ((throttle.nextRelease 2).2.release later).1 ≠ none) ∧
        ∀ later, 2 ≤ later → later < 11 → ((throttle.nextRelease 2).2.release later).1 = none) ↔
      throttle.Wakes 2) :=
  wakeup_law [⟨10, 1, some 4⟩] 0 [.admitItem 0 "a" 0, .admitItem 0 "b" 0, .chargeAt 0 1]
    ⟨by decide, by decide, by decide, trivial⟩ 2 11 (by decide) (by decide)

/-- One token, reserved and not charged: a release at the instant named finds nothing. -/
theorem wakeup_stuck :
    ¬ ∀ (specs : List TokenBucketSpec) (start : Nat) (calls : List (ThrottleCall String)),
      Along step Monotone (opened specs start) calls → ∀ now deadline,
        (run step (opened specs start) calls).live.clock ≤ now →
        ((run step (opened specs start) calls).live.throttle.nextRelease now).1 = some deadline →
        (((run step (opened specs start) calls).live.throttle.nextRelease now).2.release
          deadline).1 ≠ none := by
  intro always
  have found := always [⟨10, 1, some 1⟩] 0 [.admitItem 0 "a" 0, .admitItem 0 "b" 0]
    ⟨by decide, by decide, trivial⟩ 0 10 (by decide) (by decide)
  revert found
  decide

end ThrottleBook

end IronFix.Session
