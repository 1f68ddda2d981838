import Mathlib.Data.List.Induction
import IronFix.Lib.Lanes
import IronFix.Session.Throttle
import Mathlib.Algebra.GroupWithZero.Nat

/-!
# The order of held messages

The buckets of a throttle hold what one list of messages in order of admission
holds, each message in the lane of its slot: a release takes the first message
of that list whose bucket has a free token.
-/

namespace IronFix.Session

open Lib.Lanes Lib.Runs

/-- A message held: the ticket it got, its slot and what it carries. -/
structure HeldMessage (T : Type) where
  ticket : Nat
  slot : Nat
  item : T

namespace Bucket

variable {T : Type} {bucket : Bucket T} {now : Nat}

@[simp] theorem refill_queue (now : Nat) (bucket : Bucket T) :
    (bucket.refill now).queue = bucket.queue := by
  rw [refill_eq]

@[simp] theorem refill_reserved (now : Nat) (bucket : Bucket T) :
    (bucket.refill now).reserved = bucket.reserved := by
  rw [refill_eq]

@[simp] theorem reserve_queue (now : Nat) (bucket : Bucket T) :
    (bucket.reserve now).2.queue = bucket.queue := by
  unfold reserve
  dsimp only
  split
  · exact refill_queue now bucket
  · exact refill_queue now bucket

@[simp] theorem readyAt_queue (now : Nat) (bucket : Bucket T) :
    (bucket.readyAt now).2.queue = bucket.queue := by
  unfold readyAt
  dsimp only
  split
  · rfl
  · split
    · exact refill_queue now bucket
    · exact refill_queue now bucket

@[simp] theorem charge_queue (now : Nat) (bucket : Bucket T) :
    (bucket.charge now).queue = bucket.queue := by
  unfold charge
  split
  · rfl
  · exact refill_queue now bucket

/-- A bucket with a free token grants it, whatever time brings. -/
theorem reserve_granted {burst rate per : Nat} {spent : List Nat}
    (paced : bucket.Paced burst rate per now spent) (free : bucket.available ≠ 0) :
    (bucket.reserve now).1 = true := by
  have more : bucket.tokens ≤ (bucket.refill now).tokens := paced.earns.more
  unfold reserve
  dsimp only
  rw [if_neg]
  unfold available at free ⊢
  rw [refill_reserved]
  omega

end Bucket

namespace Throttle

variable {T : Type} {throttle : Throttle T} {waiting : List (HeldMessage T)}

/-- The throttle holds the messages waiting, each queue in their order. -/
structure Holds (waiting : List (HeldMessage T)) (throttle : Throttle T) : Prop where
  ascending : waiting.Pairwise fun earlier later => earlier.ticket < later.ticket
  issued : ∀ message ∈ waiting, message.ticket < throttle.nextTicket
  /-- The slot of a message held is one a budget names. -/
  placed : ∀ message ∈ waiting, message.slot < 256 ∧ message.slot < throttle.buckets.length
  queues : throttle.Each fun slot bucket => bucket.queue =
    (laneOf HeldMessage.slot slot waiting).map fun message => (message.ticket, message.item)
  counted : throttle.held = waiting.length

/-- Only the queues and the two counters matter. -/
theorem Holds.same {after : Throttle T} (holds : throttle.Holds waiting)
    (length : after.buckets.length = throttle.buckets.length)
    (queues : after.Each fun slot bucket => bucket.queue =
      (laneOf HeldMessage.slot slot waiting).map fun message => (message.ticket, message.item))
    (tickets : after.nextTicket = throttle.nextTicket) (held : after.held = throttle.held) :
    after.Holds waiting := by
  refine ⟨holds.ascending, ?_, ?_, queues, held.trans holds.counted⟩
  · rw [tickets]
    exact holds.issued
  · rw [length]
    exact holds.placed

theorem holds_new (specs : List TokenBucketSpec) (now : Nat) :
    (new specs now : Throttle T).Holds [] := by
  refine ⟨.nil, by simp, by simp, ?_, rfl⟩
  intro slot bucket at_slot
  have mapped : (specs.map fun spec => (Bucket.new spec now : Bucket T))[slot]? = some bucket := at_slot
  rw [List.getElem?_map] at mapped
  obtain ⟨spec, -, rfl⟩ := Option.map_eq_some_iff.mp mapped
  rfl

/-- Nothing waits where no bucket is, or an empty queue. -/
theorem Holds.lane_nil {slot : Nat} (holds : throttle.Holds waiting)
    (empty : ∀ bucket, throttle.buckets[slot]? = some bucket → bucket.queue = []) :
    laneOf HeldMessage.slot slot waiting = [] := by
  refine List.eq_nil_iff_forall_not_mem.mpr fun message inLane => ?_
  obtain ⟨member, rfl⟩ := (mem_laneOf _).mp inLane
  obtain ⟨bucket, at_slot⟩ : ∃ bucket, throttle.buckets[message.slot]? = some bucket :=
    ⟨_, List.getElem?_eq_getElem (holds.placed message member).2⟩
  have queue : bucket.queue =
      (laneOf HeldMessage.slot message.slot waiting).map fun other => (other.ticket, other.item) :=
    holds.queues _ _ at_slot
  rw [empty _ at_slot] at queue
  exact List.ne_nil_of_mem inLane (List.map_eq_nil_iff.mp queue.symm)

/-- A bucket whose queue stays is put back. -/
theorem Holds.setBucket {slot : Nat} {bucket after : Bucket T} (holds : throttle.Holds waiting)
    (at_slot : throttle.buckets[slot]? = some bucket) (queue : after.queue = bucket.queue) :
    (throttle.setBucket slot after).Holds waiting :=
  holds.same List.length_set
    (holds.queues.setBucket (queue.trans (holds.queues slot bucket at_slot))) rfl rfl

theorem Holds.map {change : Bucket T → Bucket T} (holds : throttle.Holds waiting)
    (queue : ∀ bucket, (change bucket).queue = bucket.queue) :
    ({ throttle with buckets := throttle.buckets.map change } : Throttle T).Holds waiting :=
  holds.same (List.length_map _)
    (each_map holds.queues fun _ bucket before => (queue bucket).trans before) rfl rfl

theorem Holds.refreshed (holds : throttle.Holds waiting) (now : Nat) :
    (throttle.refreshed now).Holds waiting := by
  refine holds.map fun bucket => ?_
  split
  · rfl
  · exact Bucket.refill_queue now bucket

/-! ## Admissions -/

/-- The slot of a budget is one a budget names. -/
theorem slot_lt (budget : UInt8) (throttle : Throttle T) : throttle.slot budget < 256 := by
  unfold slot
  split
  · exact budget.toNat_lt
  · decide

/-- A budget falls back to a slot, and the slot's own budget stays in it. -/
theorem slot_budgetAt {slot : Nat} (named : slot < 256) (configured : slot < throttle.buckets.length) :
    throttle.slot (budgetAt slot) = slot := by
  have same : (UInt8.ofNat slot).toNat = slot := UInt8.toNat_ofNat_of_lt' named
  unfold Throttle.slot budgetAt
  rw [if_pos named, same, if_pos configured]

/-- What becomes of a message handed in: it goes at once, its queue being empty
or its budget without a bucket, or joins the queue, or is refused. -/
theorem admit_cases (budget : UInt8) (item : T) (now : Nat) (throttle : Throttle T) :
    (throttle.buckets[throttle.slot budget]? = none ∧
        throttle.admitItem budget item now = (.now item, throttle)) ∨
      ∃ bucket after : Bucket T, throttle.buckets[throttle.slot budget]? = some bucket ∧
        after.queue = bucket.queue ∧
        ((bucket.queue = [] ∧
            throttle.admitItem budget item now =
              (.now item, throttle.setBucket (throttle.slot budget) after)) ∨
          throttle.admitItem budget item now = (.held,
            { throttle.setBucket (throttle.slot budget) { after with
                queue := after.queue ++ [(throttle.nextTicket, item)] } with
              nextTicket := throttle.nextTicket + 1
              held := throttle.held + 1 }) ∨
          throttle.admitItem budget item now =
            (.refused item, throttle.setBucket (throttle.slot budget) after)) := by
  unfold admitItem
  dsimp only
  cases at_slot : throttle.buckets[throttle.slot budget]? with
  | none => exact .inl ⟨rfl, rfl⟩
  | some bucket =>
      right
      dsimp only
      by_cases empty : bucket.queue.isEmpty = true
      · rw [if_pos empty]
        refine ⟨bucket, (bucket.reserve now).2, rfl, Bucket.reserve_queue now bucket, ?_⟩
        by_cases granted : (bucket.reserve now).1 = true
        · rw [if_pos granted]
          exact .inl ⟨List.isEmpty_iff.mp empty, rfl⟩
        · rw [if_neg granted]
          split
          · exact .inr (.inl rfl)
          · exact .inr (.inr rfl)
      · rw [if_neg empty]
        refine ⟨bucket, bucket, rfl, rfl, ?_⟩
        rw [if_neg Bool.false_ne_true]
        split
        · exact .inr (.inl rfl)
        · exact .inr (.inr rfl)

/-- A message held is the last of its lane. -/
theorem Holds.admits {budget : UInt8} {bucket after : Bucket T} {item : T}
    (holds : throttle.Holds waiting)
    (at_slot : throttle.buckets[throttle.slot budget]? = some bucket)
    (queue : after.queue = bucket.queue) :
    ({ throttle.setBucket (throttle.slot budget) { after with
        queue := after.queue ++ [(throttle.nextTicket, item)] } with
      nextTicket := throttle.nextTicket + 1
      held := throttle.held + 1 } : Throttle T).Holds
      (waiting ++ [⟨throttle.nextTicket, throttle.slot budget, item⟩]) := by
  have length : (throttle.setBucket (throttle.slot budget) { after with
      queue := after.queue ++ [(throttle.nextTicket, item)] }).buckets.length =
      throttle.buckets.length := List.length_set
  have inside : throttle.slot budget < throttle.buckets.length := (List.getElem?_eq_some_iff.mp at_slot).1
  refine ⟨?_, ?_, ?_, ?_, ?_⟩
  · refine List.pairwise_append.mpr ⟨holds.ascending, List.pairwise_singleton _ _, ?_⟩
    intro earlier listed later last
    rw [List.mem_singleton.mp last]
    exact holds.issued earlier listed
  · intro message listed
    rcases List.mem_append.mp listed with earlier | last
    · exact Nat.lt_succ_of_lt (holds.issued message earlier)
    · rw [List.mem_singleton.mp last]
      exact Nat.lt_succ_self _
  · intro message listed
    rw [length]
    rcases List.mem_append.mp listed with earlier | last
    · exact holds.placed message earlier
    · rw [List.mem_singleton.mp last]
      exact ⟨slot_lt budget throttle, inside⟩
  · intro slot found at_found
    have placed : (throttle.buckets.set (throttle.slot budget) { after with
        queue := after.queue ++ [(throttle.nextTicket, item)] })[slot]? = some found := at_found
    rw [laneOf_append, List.map_append]
    rw [List.getElem?_set] at placed
    split at placed
    · rename_i same
      subst same
      obtain rfl := Option.some.inj placed
      show after.queue ++ _ = _
      rw [queue, holds.queues _ _ at_slot]
      simp [laneOf]
    · rename_i other
      have elsewhere : laneOf HeldMessage.slot slot
          [⟨throttle.nextTicket, throttle.slot budget, item⟩] = [] :=
        laneOf_cons_other HeldMessage.slot other
      rw [holds.queues _ _ placed, elsewhere, List.map_nil, List.append_nil]
  · show throttle.held + 1 = _
    rw [List.length_append, holds.counted, List.length_singleton]

/-! ## Releases -/

/-- The head of a queue that can take a token. -/
def Candidate (bucket : Bucket T) (ticket : Nat) : Prop :=
  bucket.available ≠ 0 ∧ ∃ item rest, bucket.queue = (ticket, item) :: rest

/-- The walk keeps the candidate of the lowest ticket. -/
theorem earliest_spec (buckets : List (Bucket T)) :
    (∀ slot ticket, earliest buckets = some (slot, ticket) →
        ∃ bucket, buckets[slot]? = some bucket ∧ Candidate bucket ticket) ∧
      ∀ (slot : Nat) (bucket : Bucket T) (ticket : Nat), buckets[slot]? = some bucket →
        Candidate bucket ticket →
        ∃ first lowest, earliest buckets = some (first, lowest) ∧ lowest ≤ ticket := by
  induction buckets using List.reverseRecOn with
  | nil => exact ⟨nofun, nofun⟩
  | append_singleton buckets last ih =>
      obtain ⟨found, bounds⟩ := ih
      have walked_none (nothing : last.queue.head? = none) :
          earliest (buckets ++ [last]) = earliest buckets := by
        unfold earliest
        rw [List.zipIdx_append, List.foldl_append, Nat.zero_add]
        simp only [List.zipIdx_cons, List.zipIdx_nil, List.foldl_cons, List.foldl_nil, nothing]
      have walked {ticket : Nat} {item : T} (front : last.queue.head? = some (ticket, item)) :
          earliest (buckets ++ [last]) =
            if last.available = 0 then earliest buckets
            else if (earliest buckets).all (ticket < ·.2) then some (buckets.length, ticket)
            else earliest buckets := by
        unfold earliest
        rw [List.zipIdx_append, List.foldl_append, Nat.zero_add]
        simp only [List.zipIdx_cons, List.zipIdx_nil, List.foldl_cons, List.foldl_nil, front]
      have lifted (slot ticket : Nat) (before : earliest buckets = some (slot, ticket)) :
          ∃ bucket, (buckets ++ [last])[slot]? = some bucket ∧ Candidate bucket ticket := by
        obtain ⟨bucket, at_slot, candidate⟩ := found slot ticket before
        refine ⟨bucket, ?_, candidate⟩
        rw [List.getElem?_append_left (List.getElem?_eq_some_iff.mp at_slot).1]
        exact at_slot
      -- a bucket is one of those before, or the last
      have placed {slot : Nat} {bucket : Bucket T} (at_slot : (buckets ++ [last])[slot]? = some bucket) :
          buckets[slot]? = some bucket ∨ bucket = last := by
        rcases Nat.lt_or_ge slot buckets.length with before | after
        · rw [List.getElem?_append_left before] at at_slot
          exact .inl at_slot
        · rw [List.getElem?_append_right after] at at_slot
          exact .inr (List.mem_singleton.mp (List.mem_of_getElem? at_slot))
      by_cases takes : ∃ ticket, Candidate last ticket ∧
          (earliest buckets).all (ticket < ·.2) = true
      · obtain ⟨ticket, ⟨free, item, rest, queue⟩, lower⟩ := takes
        rw [walked (by rw [queue, List.head?_cons]), if_neg free, if_pos lower]
        constructor
        · intro slot lowest same
          cases same
          exact ⟨last, by simp, free, item, rest, queue⟩
        · intro slot bucket other at_slot candidate
          refine ⟨_, _, rfl, ?_⟩
          rcases placed at_slot with before | rfl
          · obtain ⟨first, lowest, already, bounded⟩ := bounds slot bucket other before candidate
            rw [already] at lower
            exact (of_decide_eq_true lower).le.trans bounded
          · obtain ⟨-, item', rest', queue'⟩ := candidate
            rw [queue] at queue'
            cases queue'
            exact le_refl _
      · have stays : earliest (buckets ++ [last]) = earliest buckets := by
          cases queue : last.queue with
          | nil => exact walked_none (by rw [queue]; rfl)
          | cons head rest =>
              obtain ⟨ticket, item⟩ := head
              rw [walked (by rw [queue, List.head?_cons])]
              split
              · rfl
              · rename_i free
                exact if_neg fun lower => takes ⟨ticket, ⟨free, item, rest, queue⟩, lower⟩
        rw [stays]
        refine ⟨lifted, ?_⟩
        intro slot bucket ticket at_slot candidate
        rcases placed at_slot with before | rfl
        · exact bounds slot bucket ticket before candidate
        · cases already : earliest buckets with
          | none => exact (takes ⟨ticket, candidate, by rw [already]; rfl⟩).elim
          | some chosen =>
              refine ⟨chosen.1, chosen.2, rfl, not_lt.mp fun lower => takes ⟨ticket, candidate, ?_⟩⟩
              rw [already]
              exact decide_eq_true lower

/-- Whether a message of the slot can take a token at `now`. -/
def ready (now : Nat) (throttle : Throttle T) (slot : Nat) : Bool :=
  throttle.buckets[slot]?.any fun bucket => (bucket.refill now).available ≠ 0

theorem refreshed_getElem? (now slot : Nat) (throttle : Throttle T) :
    (throttle.refreshed now).buckets[slot]? = throttle.buckets[slot]?.map fun bucket =>
      if bucket.queue.isEmpty then bucket else bucket.refill now :=
  List.getElem?_map

/-- The bucket of a slot with messages waiting, and the head of its queue. -/
theorem Holds.head {message : HeldMessage T} (holds : throttle.Holds waiting)
    (member : message ∈ waiting) :
    ∃ bucket head rest, throttle.buckets[message.slot]? = some bucket ∧
      laneOf HeldMessage.slot message.slot waiting = head :: rest ∧
      bucket.queue = (head.ticket, head.item) :: rest.map fun other => (other.ticket, other.item) := by
  obtain ⟨bucket, at_slot⟩ : ∃ bucket, throttle.buckets[message.slot]? = some bucket :=
    ⟨_, List.getElem?_eq_getElem (holds.placed message member).2⟩
  have inLane : message ∈ laneOf HeldMessage.slot message.slot waiting :=
    (mem_laneOf _).mpr ⟨member, rfl⟩
  obtain ⟨head, rest, lane_eq⟩ := List.exists_cons_of_ne_nil (List.ne_nil_of_mem inLane)
  refine ⟨bucket, head, rest, at_slot, lane_eq, ?_⟩
  rw [holds.queues _ _ at_slot, lane_eq]
  rfl

/-- The head of a ready slot is a candidate once the buckets are up to date. -/
theorem Holds.candidate {message : HeldMessage T} {now : Nat} (holds : throttle.Holds waiting)
    (member : message ∈ waiting) (isReady : throttle.ready now message.slot = true) :
    ∃ bucket head rest, (throttle.refreshed now).buckets[message.slot]? = some bucket ∧
      laneOf HeldMessage.slot message.slot waiting = head :: rest ∧ Candidate bucket head.ticket := by
  obtain ⟨bucket, head, rest, at_slot, lane_eq, queue⟩ := holds.head member
  unfold ready at isReady
  rw [at_slot] at isReady
  refine ⟨bucket.refill now, head, rest, ?_, lane_eq, of_decide_eq_true isReady, ?_⟩
  · rw [refreshed_getElem?, at_slot, Option.map_some, queue]
    rfl
  · exact ⟨head.item, _, (Bucket.refill_queue now bucket).trans queue⟩

/-- What is left of the buckets once the head of a queue is taken. -/
theorem Holds.takes {slot : Nat} {after : Bucket T} {head : HeldMessage T}
    {rest : List (HeldMessage T)} (holds : throttle.Holds waiting)
    (lane_eq : laneOf HeldMessage.slot slot waiting = head :: rest)
    (queue : after.queue = rest.map fun other => (other.ticket, other.item)) :
    ({ throttle.setBucket slot after with
      held := throttle.held - 1
      nextTicket := if throttle.held - 1 = 0 then 0 else throttle.nextTicket } : Throttle T).Holds
      (takeFrom HeldMessage.slot slot waiting) := by
  have inLane : head ∈ laneOf HeldMessage.slot slot waiting := lane_eq ▸ List.mem_cons_self
  obtain ⟨member, own⟩ := (mem_laneOf _).mp inLane
  have fewer := length_takeFrom HeldMessage.slot member own
  have sublist := takeFrom_sublist HeldMessage.slot slot waiting
  have counted : throttle.held - 1 = (takeFrom HeldMessage.slot slot waiting).length := by
    rw [holds.counted]
    omega
  refine ⟨holds.ascending.sublist sublist, ?_, ?_, ?_, counted⟩
  · intro message listed
    show message.ticket < if throttle.held - 1 = 0 then 0 else throttle.nextTicket
    rw [counted, if_neg (List.length_pos_of_mem listed).ne']
    exact holds.issued message (sublist.subset listed)
  · intro message listed
    show _ ∧ message.slot < (throttle.buckets.set slot after).length
    rw [List.length_set]
    exact holds.placed message (sublist.subset listed)
  · intro other found at_found
    have placed : (throttle.buckets.set slot after)[other]? = some found := at_found
    rw [List.getElem?_set] at placed
    split at placed
    · rename_i same
      subst same
      split at placed
      · obtain rfl := Option.some.inj placed
        rw [laneOf_takeFrom_self, lane_eq]
        exact queue
      · cases placed
    · rename_i differ
      rw [laneOf_takeFrom_other _ (Ne.symm differ)]
      exact holds.queues other found placed

/-- A release takes the first message waiting whose budget has a free token,
and there is none only where no message has. -/
theorem Holds.releases {burst rate per : Nat → Nat} {spent : Nat → List Nat} {now : Nat}
    (holds : throttle.Holds waiting) (paced : throttle.Paced burst rate per spent now) :
    match waiting.find? fun message => throttle.ready now message.slot with
    | none => throttle.release now = (none, throttle.refreshed now)
    | some message =>
        (∃ rest, laneOf HeldMessage.slot message.slot waiting = message :: rest) ∧
          (throttle.release now).1 = some (budgetAt message.slot, message.item) ∧
          (throttle.release now).2.Holds (takeFrom HeldMessage.slot message.slot waiting) := by
  have current := holds.refreshed now
  obtain ⟨found, bounds⟩ := earliest_spec (throttle.refreshed now).buckets
  cases chosen : earliest (throttle.refreshed now).buckets with
  | none =>
      have nothing : waiting.find? (fun message => throttle.ready now message.slot) = none := by
        rw [List.find?_eq_none]
        intro message member isReady
        obtain ⟨bucket, head, rest, at_slot, -, candidate⟩ := holds.candidate member isReady
        obtain ⟨first, lowest, same, -⟩ := bounds _ _ _ at_slot candidate
        rw [chosen] at same
        cases same
      rw [nothing]
      unfold release
      dsimp only
      rw [chosen]
  | some first =>
      obtain ⟨slot, ticket⟩ := first
      obtain ⟨bucket, at_slot, free, item, rest, queue⟩ := found slot ticket chosen
      have lane : bucket.queue = (laneOf HeldMessage.slot slot waiting).map
          fun message => (message.ticket, message.item) := current.queues slot bucket at_slot
      rw [queue] at lane
      obtain ⟨message, others, lane_eq, same, restQueue⟩ := List.map_eq_cons_iff.mp lane.symm
      cases same
      have inLane : message ∈ laneOf HeldMessage.slot slot waiting := lane_eq ▸ List.mem_cons_self
      obtain ⟨member, rfl⟩ := (mem_laneOf _).mp inLane
      have isReady : throttle.ready now message.slot = true := by
        rw [refreshed_getElem?] at at_slot
        obtain ⟨before, at_before, rfl⟩ := Option.map_eq_some_iff.mp at_slot
        have filled : before.queue.isEmpty = false := by
          split at queue
          · rename_i empty
            rw [List.isEmpty_iff.mp empty] at queue
            cases queue
          · rename_i filled
            exact Bool.eq_false_iff.mpr filled
        rw [filled] at free
        unfold ready
        rw [at_before]
        exact decide_eq_true free
      have first : waiting.find? (fun message => throttle.ready now message.slot) = some message := by
        refine find_of_least HeldMessage.slot HeldMessage.ticket (throttle.ready now) holds.ascending
          member isReady ?_
        intro other listed otherReady isHead
        obtain ⟨bucket, head, rest, at_other, lane_other, candidate⟩ := holds.candidate listed otherReady
        rw [lane_other] at isHead
        cases isHead
        obtain ⟨first, lowest, same, bounded⟩ := bounds _ _ _ at_other candidate
        rw [chosen] at same
        cases same
        exact bounded
      have granted : (bucket.reserve now).1 = true :=
        Bucket.reserve_granted (refreshed_paced paced _ _ at_slot) free
      have taken : throttle.release now =
          (some (budgetAt message.slot, message.item),
            { (throttle.refreshed now).setBucket message.slot
                { (bucket.reserve now).2 with queue := rest } with
              held := (throttle.refreshed now).held - 1
              nextTicket :=
                if (throttle.refreshed now).held - 1 = 0 then 0
                else (throttle.refreshed now).nextTicket }) := by
        unfold release
        dsimp only
        rw [chosen]
        dsimp only
        rw [at_slot]
        dsimp only
        rw [granted, Bucket.reserve_queue, queue]
      rw [first, taken]
      exact ⟨⟨others, lane_eq⟩, rfl, current.takes lane_eq restQueue.symm⟩

/-! ## The other calls -/

theorem Holds.nextRelease (holds : throttle.Holds waiting) (now : Nat) :
    (throttle.nextRelease now).2.Holds waiting := by
  unfold Throttle.nextRelease
  split
  · exact holds
  · dsimp only
    rw [List.map_map]
    exact holds.map (Bucket.readyAt_queue now)

theorem Holds.chargeAt (holds : throttle.Holds waiting) (budget : UInt8) (now : Nat) :
    (throttle.chargeAt budget now).Holds waiting := by
  unfold Throttle.chargeAt
  dsimp only
  split
  · exact holds
  · rename_i bucket at_slot
    exact holds.setBucket at_slot (Bucket.charge_queue now bucket)

theorem Holds.refund (holds : throttle.Holds waiting) (budget : UInt8) :
    (throttle.refund budget).Holds waiting := by
  unfold Throttle.refund
  dsimp only
  split
  · exact holds
  · rename_i bucket at_slot
    exact holds.setBucket at_slot rfl

/-- A drained throttle holds nothing. -/
theorem Holds.drain (holds : throttle.Holds waiting) : throttle.drain.2.Holds [] :=
  ⟨.nil, nofun, nofun, each_map holds.queues fun _ _ _ => rfl, rfl⟩

/-- The items of the queue of a slot. -/
def queued (slot : Nat) (throttle : Throttle T) : List T :=
  throttle.buckets[slot]?.elim [] fun bucket => bucket.queue.map Prod.snd

theorem Holds.queued_eq (holds : throttle.Holds waiting) (slot : Nat) :
    throttle.queued slot = (laneOf HeldMessage.slot slot waiting).map HeldMessage.item := by
  unfold queued
  cases at_slot : throttle.buckets[slot]? with
  | none =>
      rw [holds.lane_nil (by simp [at_slot])]
      rfl
  | some bucket =>
      show bucket.queue.map Prod.snd = _
      rw [holds.queues slot bucket at_slot, List.map_map]
      rfl

/-- What a drain yields of each slot is its queue. -/
theorem Holds.drained (holds : throttle.Holds waiting) (slot : Nat) :
    (laneOf Prod.fst slot
        (throttle.drain.1.map fun out => (throttle.slot out.1, out.2))).map Prod.snd =
      (laneOf HeldMessage.slot slot waiting).map HeldMessage.item := by
  have grouped : (throttle.drain.1.map fun out => (throttle.slot out.1, out.2)) =
      ((throttle.buckets.map fun bucket => bucket.queue.map Prod.snd).zipIdx 0).flatMap
        fun entry => entry.1.map fun item => (throttle.slot (budgetAt entry.2), item) := by
    unfold Throttle.drain
    rw [List.map_flatMap, List.zipIdx_map, List.flatMap_map]
    simp [Function.comp_def]
  rw [grouped, lane_of_groups fun index => throttle.slot (budgetAt index)]
  · rw [if_neg (Nat.not_lt_zero slot), Nat.sub_zero, List.getElem?_map, ← holds.queued_eq slot]
    unfold queued
    cases throttle.buckets[slot]? with
    | none => rfl
    | some bucket => rfl
  · intro index group at_index nonempty
    rw [List.getElem?_map] at at_index
    obtain ⟨bucket, at_slot, rfl⟩ := Option.map_eq_some_iff.mp at_index
    rw [Nat.zero_add]
    have lane : laneOf HeldMessage.slot index waiting ≠ [] := by
      intro empty
      rw [holds.queues index bucket at_slot, empty] at nonempty
      exact nonempty rfl
    obtain ⟨message, inLane⟩ := List.exists_mem_of_ne_nil _ lane
    obtain ⟨member, rfl⟩ := (mem_laneOf _).mp inLane
    exact slot_budgetAt (holds.placed message member).1 (holds.placed message member).2

/-- The messages held are those of the queues. -/
theorem Holds.total (holds : throttle.Holds waiting) :
    throttle.held = (throttle.buckets.map fun bucket => bucket.queue.length).sum := by
  have lengths : (throttle.buckets.map fun bucket => bucket.queue.length) =
      (List.range throttle.buckets.length).map fun slot =>
        (laneOf HeldMessage.slot slot waiting).length := by
    refine List.ext_getElem (by simp) fun slot inside _ => ?_
    rw [List.length_map] at inside
    have queue := holds.queues slot _ (List.getElem?_eq_getElem inside)
    rw [List.getElem_map, List.getElem_map, List.getElem_range, queue, List.length_map]
  rw [lengths, sum_lanes fun message member => (holds.placed message member).2, holds.counted]

end Throttle

/-! ## Runs -/

/-- A throttle with the messages waiting in order of admission, those it
accepted and those that left it, each with its slot, oldest first. -/
structure ThrottleBook (T : Type) where
  live : Throttling T
  waiting : List (HeldMessage T)
  accepted : List (Nat × T)
  departed : List (Nat × T)

namespace ThrottleBook

variable {T : Type}

/-- A throttle nothing was handed to. -/
def opened (specs : List TokenBucketSpec) (start : Nat) : ThrottleBook T :=
  ⟨⟨.new specs start, start, []⟩, [], [], []⟩

/-- What a call enters. -/
def step (book : ThrottleBook T) (call : ThrottleCall T) : ThrottleBook T :=
  let throttle := book.live.throttle
  let after := { book with live := book.live.step call }
  match call with
  | .admitItem budget item now =>
      let slot := throttle.slot budget
      match (throttle.admitItem budget item now).1 with
      | .now item =>
          { after with
            accepted := book.accepted ++ [(slot, item)]
            departed := book.departed ++ [(slot, item)] }
      | .held =>
          { after with
            accepted := book.accepted ++ [(slot, item)]
            waiting := book.waiting ++ [⟨throttle.nextTicket, slot, item⟩] }
      | .refused _ => after
  | .release now =>
      match (throttle.release now).1 with
      | none => after
      | some (budget, item) =>
          let slot := throttle.slot budget
          { after with
            waiting := takeFrom HeldMessage.slot slot book.waiting
            departed := book.departed ++ [(slot, item)] }
  | .drain =>
      { after with
        waiting := []
        departed := book.departed ++
          throttle.drain.1.map fun out => (throttle.slot out.1, out.2) }
  | .nextRelease _ | .chargeAt .. | .refund _ => after

/-- Time does not run backwards. -/
def Monotone (book : ThrottleBook T) (call : ThrottleCall T) : Prop := book.live.Monotone call

instance (book : ThrottleBook T) (call : ThrottleCall T) : Decidable (book.Monotone call) :=
  inferInstanceAs (Decidable (_ ≤ _))

/-- The items of a slot. -/
def itemsOf (slot : Nat) (entries : List (Nat × T)) : List T :=
  (laneOf Prod.fst slot entries).map Prod.snd

/-- The books of a throttle: what it accepted of each budget is what left it,
then what waits, in the same order. -/
structure Kept (burst : Nat → Nat) (book : ThrottleBook T) : Prop where
  paced : book.live.Paced burst (fun _ => 0) (fun _ => 0)
  holds : book.live.throttle.Holds book.waiting
  /-- What waits was accepted in the order in which it waits. -/
  awaited : (book.waiting.map fun message => (message.slot, message.item)).Sublist book.accepted
  inOrder : ∀ slot, itemsOf slot book.accepted = itemsOf slot book.departed ++
    (laneOf HeldMessage.slot slot book.waiting).map HeldMessage.item

variable {burst : Nat → Nat} {book : ThrottleBook T}

theorem itemsOf_append (slot : Nat) (entries more : List (Nat × T)) :
    itemsOf slot (entries ++ more) = itemsOf slot entries ++ itemsOf slot more := by
  unfold itemsOf
  rw [laneOf_append, List.map_append]

/-- A message of a slot, for that slot and for no other. -/
theorem itemsOf_singleton (slot other : Nat) (item : T) :
    itemsOf slot [(other, item)] = if other = slot then [item] else [] := by
  unfold itemsOf laneOf
  by_cases same : other = slot
  · simp [same]
  · simp [same]

/-- A message that goes at once enters and leaves where nothing waits. -/
theorem inOrder_now {slot : Nat} {item : T} {accepted departed : List (Nat × T)}
    {waiting : List (HeldMessage T)}
    (inOrder : ∀ other, itemsOf other accepted = itemsOf other departed ++
      (laneOf HeldMessage.slot other waiting).map HeldMessage.item)
    (empty : laneOf HeldMessage.slot slot waiting = []) (other : Nat) :
    itemsOf other (accepted ++ [(slot, item)]) = itemsOf other (departed ++ [(slot, item)]) ++
      (laneOf HeldMessage.slot other waiting).map HeldMessage.item := by
  rw [itemsOf_append, itemsOf_append, inOrder other, itemsOf_singleton]
  by_cases same : slot = other
  · subst same
    rw [empty, List.map_nil, List.append_nil, List.append_nil]
  · rw [if_neg same, List.append_nil, List.append_nil]

theorem Kept.admits (kept : book.Kept burst) (budget : UInt8) (item : T) (now : Nat)
    (paced : (book.live.step (.admitItem budget item now)).Paced burst (fun _ => 0) (fun _ => 0)) :
    (book.step (.admitItem budget item now)).Kept burst := by
  have live : (book.live.step (.admitItem budget item now)).throttle =
      (book.live.throttle.admitItem budget item now).2 := rfl
  unfold step
  dsimp only
  obtain ⟨none_at, same⟩ | ⟨bucket, after, at_slot, queue, ⟨empty, same⟩ | same | same⟩ :=
    Throttle.admit_cases budget item now book.live.throttle
  · -- no bucket: the message goes at once
    rw [same] at live ⊢
    refine ⟨paced, ?_, kept.awaited.trans (List.sublist_append_left _ _), ?_⟩
    · show (book.live.step _).throttle.Holds book.waiting
      rw [live]
      exact kept.holds
    · exact inOrder_now kept.inOrder (kept.holds.lane_nil (by simp [none_at]))
  · rw [same] at live ⊢
    refine ⟨paced, ?_, kept.awaited.trans (List.sublist_append_left _ _), ?_⟩
    · show (book.live.step _).throttle.Holds book.waiting
      rw [live]
      exact kept.holds.setBucket at_slot queue
    · refine inOrder_now kept.inOrder (kept.holds.lane_nil fun found at_found => ?_)
      rw [at_slot] at at_found
      cases at_found
      exact empty
  · rw [same] at live ⊢
    refine ⟨paced, ?_, ?_, fun slot => ?_⟩
    · show (book.live.step _).throttle.Holds (book.waiting ++ _)
      rw [live]
      exact kept.holds.admits at_slot queue
    · show ((book.waiting ++ [_]).map _).Sublist _
      rw [List.map_append]
      exact kept.awaited.append_right _
    · show itemsOf slot (book.accepted ++ _) = itemsOf slot book.departed ++
        (laneOf _ slot (book.waiting ++ _)).map _
      rw [itemsOf_append, kept.inOrder slot, laneOf_append, List.map_append, List.append_assoc,
        itemsOf_singleton]
      congr 2
      by_cases here : book.live.throttle.slot budget = slot
      · simp [laneOf, here]
      · simp [laneOf, here]
  · rw [same] at live ⊢
    refine ⟨paced, ?_, kept.awaited, kept.inOrder⟩
    show (book.live.step _).throttle.Holds book.waiting
    rw [live]
    exact kept.holds.setBucket at_slot queue

theorem Kept.releases (kept : book.Kept burst) (now : Nat) (onward : book.live.clock ≤ now)
    (paced : (book.live.step (.release now)).Paced burst (fun _ => 0) (fun _ => 0)) :
    (book.step (.release now)).Kept burst := by
  have before : book.live.throttle.Paced burst (fun _ => 0) (fun _ => 0)
      (Throttling.spentAt · book.live.charges) now :=
    kept.paced.mono fun slot bucket at_clock => at_clock.later onward
  have released := kept.holds.releases before
  have live : (book.live.step (.release now)).throttle = (book.live.throttle.release now).2 := rfl
  unfold step
  dsimp only
  cases first : book.waiting.find? (fun message => book.live.throttle.ready now message.slot) with
  | none =>
      rw [first] at released
      rw [released] at live ⊢
      refine ⟨paced, ?_, kept.awaited, kept.inOrder⟩
      show (book.live.step _).throttle.Holds book.waiting
      rw [live]
      exact kept.holds.refreshed now
  | some message =>
      rw [first] at released
      obtain ⟨⟨rest, lane_eq⟩, output, holds⟩ := released
      have member := List.mem_of_find?_eq_some first
      obtain ⟨named, configured⟩ := kept.holds.placed message member
      rw [output]
      dsimp only
      rw [Throttle.slot_budgetAt named configured]
      refine ⟨paced, ?_, ((takeFrom_sublist _ _ _).map _).trans kept.awaited, fun slot => ?_⟩
      · show (book.live.step _).throttle.Holds (takeFrom _ _ book.waiting)
        rw [live]
        exact holds
      · show itemsOf slot book.accepted = itemsOf slot (book.departed ++ _) ++
          (laneOf _ slot (takeFrom _ _ book.waiting)).map _
        rw [itemsOf_append, kept.inOrder slot, itemsOf_singleton]
        by_cases here : message.slot = slot
        · subst here
          rw [if_pos rfl, laneOf_takeFrom_self, lane_eq, List.tail_cons, List.append_assoc]
          rfl
        · rw [if_neg here, laneOf_takeFrom_other _ (Ne.symm here), List.append_nil]

theorem Kept.drains (kept : book.Kept burst)
    (paced : (book.live.step .drain).Paced burst (fun _ => 0) (fun _ => 0)) :
    (book.step .drain).Kept burst := by
  refine ⟨paced, kept.holds.drain, List.nil_sublist _, fun slot => ?_⟩
  show itemsOf slot book.accepted = itemsOf slot (book.departed ++ _) ++ []
  rw [itemsOf_append, kept.inOrder slot, List.append_nil]
  exact congrArg _ (kept.holds.drained slot).symm

/-- Every call at or after the last keeps the books. -/
theorem Kept.step (kept : book.Kept burst) (call : ThrottleCall T) (monotone : book.Monotone call) :
    (book.step call).Kept burst := by
  have paced := Throttling.step_paced book.live call kept.paced monotone
  cases call with
  | admitItem budget item now => exact kept.admits budget item now paced
  | release now => exact kept.releases now monotone paced
  | nextRelease now => exact ⟨paced, kept.holds.nextRelease now, kept.awaited, kept.inOrder⟩
  | chargeAt budget now => exact ⟨paced, kept.holds.chargeAt budget now, kept.awaited, kept.inOrder⟩
  | refund budget => exact ⟨paced, kept.holds.refund budget, kept.awaited, kept.inOrder⟩
  | drain => exact kept.drains paced

/-- The bursts of the budgets, by their slots. -/
def bursts (specs : List TokenBucketSpec) (slot : Nat) : Nat :=
  specs[slot]?.elim 0 fun spec => max spec.burst 1

theorem kept_opened (specs : List TokenBucketSpec) (start : Nat) :
    (opened specs start : ThrottleBook T).Kept (bursts specs) := by
  refine ⟨?_, Throttle.holds_new specs start, .refl _, fun _ => rfl⟩
  intro slot bucket at_slot
  have mapped : (specs.map fun spec => (Bucket.new spec start : Bucket T))[slot]? = some bucket :=
    at_slot
  rw [List.getElem?_map] at mapped
  obtain ⟨spec, at_spec, rfl⟩ := Option.map_eq_some_iff.mp mapped
  have burst : bursts specs slot = max spec.burst 1 := by rw [bursts, at_spec]; rfl
  show (Bucket.new spec start).Paced (bursts specs slot) 0 0 start []
  rw [burst]
  exact Bucket.paced_new spec start (Nat.zero_le _)

/-- In every state that calls in the order of time reach: no bucket reserves more
than its tokens nor holds more than its burst, the messages held are those of the
queues, what a budget accepted is what left it and then what it holds, in that
order, and a release takes, of the messages held in the order of admission, the
first whose budget has a free token. -/
theorem throttle_keeps_order (specs : List TokenBucketSpec) (start : Nat)
    (calls : List (ThrottleCall T)) (monotone : Along step Monotone (opened specs start) calls) :
    let book := run step (opened specs start) calls
    let throttle := book.live.throttle
    (throttle.Each fun slot bucket => bucket.reserved ≤ bucket.tokens ∧
        bucket.tokens ≤ bucket.burst ∧ bucket.burst = bursts specs slot) ∧
      throttle.held = (throttle.buckets.map fun bucket => bucket.queue.length).sum ∧
      (∀ slot, itemsOf slot book.accepted = itemsOf slot book.departed ++ throttle.queued slot) ∧
      (book.waiting.map fun message => (message.slot, message.item)).Sublist book.accepted ∧
      (∀ slot, throttle.queued slot =
        (laneOf HeldMessage.slot slot book.waiting).map HeldMessage.item) ∧
      ∀ now, book.live.clock ≤ now →
        (throttle.release now).1 =
          (book.waiting.find? fun message => throttle.ready now message.slot).map
            fun message => (Throttle.budgetAt message.slot, message.item) := by
  intro book throttle
  have kept : book.Kept (bursts specs) :=
    invariant (fun _ call before legal => before.step call legal) (kept_opened specs start) monotone
  refine ⟨?_, kept.holds.total, fun slot => ?_, kept.awaited, kept.holds.queued_eq, ?_⟩
  · exact kept.paced.mono fun slot bucket paced =>
      ⟨paced.held, paced.windowed.capped, paced.bursts⟩
  · rw [kept.holds.queued_eq]
    exact kept.inOrder slot
  · intro now onward
    have paced : throttle.Paced (bursts specs) (fun _ => 0) (fun _ => 0)
        (Throttling.spentAt · book.live.charges) now :=
      kept.paced.mono fun slot bucket at_clock => at_clock.later onward
    have released := kept.holds.releases paced
    split at released
    · rename_i nothing
      rw [released, nothing]
      rfl
    · rename_i message first
      rw [released.2.1, first]
      rfl

/-- Two messages for one token: the second waits until the first is charged. -/
theorem throttle_keeps_order_paced :
    let book := run step (opened [⟨10, 1, some 4⟩] 0 : ThrottleBook String)
      [.admitItem 0 "a" 0, .admitItem 0 "b" 0, .chargeAt 0 1, .release 11]
    book.live.throttle.held =
      (book.live.throttle.buckets.map fun bucket => bucket.queue.length).sum :=
  (throttle_keeps_order [⟨10, 1, some 4⟩] 0
    [.admitItem 0 "a" 0, .admitItem 0 "b" 0, .chargeAt 0 1, .release 11]
    ⟨by decide, by decide, by decide, by decide, trivial⟩).2.1

end ThrottleBook

end IronFix.Session
