import IronFix.Lib.Runs
import IronFix.Lib.TokenBucket

/-!
# The outbound throttle

One token bucket for each budget, with the messages it holds. A message that
may go reserves a token, which stays in the bucket until its frame is fed.
Instants and durations are nanoseconds; a ticket is a 64-bit count of messages
held, which no busy period exhausts.
-/

namespace IronFix.Session

def DEFAULT_BUDGET : UInt8 := 0

structure TokenBucketSpec where
  spacing : Nat
  burst : Nat
  maxDepth : Option Nat
  deriving DecidableEq, Repr

inductive ThrottleAdmission (T : Type) where
  | now (item : T)
  | held
  | refused (item : T)
  deriving DecidableEq, Repr

/-- One budget: its tokens, those reserved included, and the messages held for them. -/
structure Bucket (T : Type) where
  spacing : Nat
  burst : Nat
  tokens : Nat
  reserved : Nat
  refilledAt : Nat
  maxDepth : Option Nat
  queue : List (Nat × T)
  deriving Repr

namespace Bucket

variable {T : Type}

def new (spec : TokenBucketSpec) (now : Nat) : Bucket T where
  spacing := max spec.spacing 1
  burst := max spec.burst 1
  tokens := max spec.burst 1
  reserved := 0
  refilledAt := now
  maxDepth := spec.maxDepth
  queue := []

/-- One token for each whole `spacing`, up to `burst`; time spent full is not banked. -/
def refill (now : Nat) (bucket : Bucket T) : Bucket T :=
  if bucket.burst ≤ bucket.tokens then
    if bucket.refilledAt < now then { bucket with refilledAt := now } else bucket
  else if now < bucket.refilledAt then bucket
  else
    let earned := (now - bucket.refilledAt) / max bucket.spacing 1
    if earned = 0 then bucket
    else if earned < bucket.burst - bucket.tokens then
      { bucket with
        tokens := bucket.tokens + earned
        refilledAt := bucket.refilledAt + bucket.spacing * earned }
    else
      { bucket with
        tokens := bucket.burst
        refilledAt := now }

/-- Tokens held and not reserved. -/
def available (bucket : Bucket T) : Nat := bucket.tokens - bucket.reserved

def reserve (now : Nat) (bucket : Bucket T) : Bool × Bucket T :=
  let refilled := bucket.refill now
  if refilled.available = 0 then (false, refilled)
  else (true, { refilled with reserved := refilled.reserved + 1 })

/-- When the message at the head of the queue can take a token. -/
def readyAt (now : Nat) (bucket : Bucket T) : Option Nat × Bucket T :=
  if bucket.queue.isEmpty then (none, bucket)
  else
    let refilled := bucket.refill now
    if refilled.available > 0 then (some now, refilled)
    else (some (refilled.refilledAt + refilled.spacing), refilled)

/-- Takes a reserved token, the bucket brought up to date with it still inside. -/
def charge (now : Nat) (bucket : Bucket T) : Bucket T :=
  if bucket.reserved = 0 then bucket
  else
    let refilled := bucket.refill now
    { refilled with
      reserved := bucket.reserved - 1
      tokens := refilled.tokens - 1 }

def refund (bucket : Bucket T) : Bucket T := { bucket with reserved := bucket.reserved - 1 }

end Bucket

structure Throttle (T : Type) where
  buckets : List (Bucket T)
  nextTicket : Nat
  held : Nat
  deriving Repr

namespace Throttle

variable {T : Type}

def new (specs : List TokenBucketSpec) (now : Nat) : Throttle T :=
  ⟨specs.map fun spec => .new spec now, 0, 0⟩

/-- Where a budget's bucket is: one that is not configured falls back to the default. -/
def slot (budget : UInt8) (throttle : Throttle T) : Nat :=
  if budget.toNat < throttle.buckets.length then budget.toNat else DEFAULT_BUDGET.toNat

def setBucket (slot : Nat) (bucket : Bucket T) (throttle : Throttle T) : Throttle T :=
  { throttle with buckets := throttle.buckets.set slot bucket }

def admitItem (budget : UInt8) (item : T) (now : Nat) (throttle : Throttle T) :
    ThrottleAdmission T × Throttle T :=
  let slot := throttle.slot budget
  match throttle.buckets[slot]? with
  | none => (.now item, throttle)
  | some bucket =>
    -- a message never overtakes one of its own budget
    let (granted, bucket) :=
      if bucket.queue.isEmpty then bucket.reserve now else (false, bucket)
    if granted then (.now item, throttle.setBucket slot bucket)
    else if bucket.maxDepth.any (bucket.queue.length < ·) then
      (.held,
        { throttle.setBucket slot { bucket with
            queue := bucket.queue ++ [(throttle.nextTicket, item)] } with
          nextTicket := throttle.nextTicket + 1
          held := throttle.held + 1 })
    else (.refused item, throttle.setBucket slot bucket)

/-- The budget whose head may go and was handed in first, among buckets brought up to date. -/
def earliest (buckets : List (Bucket T)) : Option (Nat × Nat) :=
  buckets.zipIdx.foldl (fun first (bucket, slot) =>
    match bucket.queue.head? with
    | none => first
    | some (ticket, _) =>
      if bucket.available = 0 then first
      else if first.all (ticket < ·.2) then some (slot, ticket)
      else first) none

/-- The budget of a slot. -/
def budgetAt (slot : Nat) : UInt8 := if slot < 256 then UInt8.ofNat slot else DEFAULT_BUDGET

/-- The buckets that hold messages, brought up to date. -/
def refreshed (now : Nat) (throttle : Throttle T) : Throttle T :=
  { throttle with buckets := throttle.buckets.map fun bucket =>
      if bucket.queue.isEmpty then bucket else bucket.refill now }

/-- Releases the held message that may go: of the heads that can take a token, the one handed in
first. -/
def release (now : Nat) (throttle : Throttle T) : Option (UInt8 × T) × Throttle T :=
  let current := throttle.refreshed now
  match earliest current.buckets with
  | none => (none, current)
  | some (slot, _) =>
    match current.buckets[slot]? with
    | none => (none, current)
    | some bucket =>
      let (granted, bucket) := bucket.reserve now
      match granted, bucket.queue with
      | true, (_, item) :: queue =>
        let held := current.held - 1
        (some (budgetAt slot, item),
          { current.setBucket slot { bucket with queue } with
            held
            nextTicket := if held = 0 then 0 else current.nextTicket })
      | _, _ => (none, current.setBucket slot bucket)

/-- When the next held message may go. -/
def nextRelease (now : Nat) (throttle : Throttle T) : Option Nat × Throttle T :=
  if throttle.held = 0 then (none, throttle)
  else
    let polled := throttle.buckets.map (Bucket.readyAt now)
    ((polled.filterMap Prod.fst).min?, { throttle with buckets := polled.map Prod.snd })

def chargeAt (budget : UInt8) (now : Nat) (throttle : Throttle T) : Throttle T :=
  let slot := throttle.slot budget
  match throttle.buckets[slot]? with
  | none => throttle
  | some bucket => throttle.setBucket slot (bucket.charge now)

def refund (budget : UInt8) (throttle : Throttle T) : Throttle T :=
  let slot := throttle.slot budget
  match throttle.buckets[slot]? with
  | none => throttle
  | some bucket => throttle.setBucket slot bucket.refund

/-- Every held message, budget by budget. -/
def drain (throttle : Throttle T) : List (UInt8 × T) × Throttle T :=
  (throttle.buckets.zipIdx.flatMap fun (bucket, slot) =>
      bucket.queue.map fun (_, item) => (budgetAt slot, item),
    ⟨throttle.buckets.map fun bucket => { bucket with queue := [] }, 0, 0⟩)

end Throttle

/-! ## The tokens of a bucket -/

namespace Bucket

open Lib.TokenBucket

variable {T : Type}

def level (bucket : Bucket T) : Level := ⟨bucket.tokens, bucket.refilledAt⟩

variable {bucket : Bucket T} {now : Nat}

/-- Bringing a bucket up to date changes only its level. -/
theorem refill_eq (now : Nat) (bucket : Bucket T) : bucket.refill now =
    { bucket with
      tokens := (bucket.refill now).tokens
      refilledAt := (bucket.refill now).refilledAt } := by
  unfold refill
  dsimp only
  split
  · split <;> rfl
  · split
    · rfl
    · split
      · rfl
      · split <;> rfl

theorem refill_earns (now : Nat) (positive : 0 < bucket.spacing)
    (capped : bucket.tokens ≤ bucket.burst) :
    Earns bucket.spacing bucket.burst now bucket.level (bucket.refill now).level := by
  unfold refill level
  dsimp only
  split
  · rename_i full
    have same : bucket.tokens = bucket.burst := le_antisymm capped full
    split
    · rename_i later
      refine ⟨le_refl _, fun _ => capped, le_of_lt later, le_max_right _ _, ?_, fun below => ?_,
        fun _ => le_refl _⟩
      · show bucket.spacing * bucket.tokens + bucket.refilledAt ≤ bucket.spacing * bucket.tokens + now
        omega
      · have below : bucket.tokens < bucket.burst := below
        omega
    · rename_i current
      refine ⟨le_refl _, fun _ => capped, le_refl _, le_max_left _ _, le_refl _, fun below => ?_,
        fun _ => not_lt.mp current⟩
      have below : bucket.tokens < bucket.burst := below
      omega
  · rename_i short
    split
    · rename_i early
      refine ⟨le_refl _, fun _ => capped, le_refl _, le_max_left _ _, le_refl _, fun _ => ?_,
        fun full => (short (ge_of_eq full)).elim⟩
      show now < bucket.refilledAt + bucket.spacing
      omega
    · rename_i reached
      have spacing : max bucket.spacing 1 = bucket.spacing := max_eq_left positive
      rw [spacing]
      have whole := Nat.div_add_mod (now - bucket.refilledAt) bucket.spacing
      have rest := Nat.mod_lt (now - bucket.refilledAt) positive
      generalize (now - bucket.refilledAt) / bucket.spacing = earned at whole ⊢
      generalize (now - bucket.refilledAt) % bucket.spacing = finished at whole rest
      split
      · rename_i nothing
        subst nothing
        refine ⟨le_refl _, fun _ => capped, le_refl _, le_max_left _ _, le_refl _, fun _ => ?_,
          fun full => (short (ge_of_eq full)).elim⟩
        show now < bucket.refilledAt + bucket.spacing
        omega
      · split
        · rename_i room
          -- the time since the last token earned counts toward the next
          refine ⟨Nat.le_add_right _ _, fun _ => ?_, Nat.le_add_right _ _,
            le_trans ?_ (le_max_right _ _), ?_, fun _ => ?_, fun full => ?_⟩
          · show bucket.tokens + earned ≤ bucket.burst
            omega
          · show bucket.refilledAt + bucket.spacing * earned ≤ now
            omega
          · show bucket.spacing * (bucket.tokens + earned) + bucket.refilledAt ≤
              bucket.spacing * bucket.tokens + (bucket.refilledAt + bucket.spacing * earned)
            rw [Nat.mul_add]
            omega
          · show now < bucket.refilledAt + bucket.spacing * earned + bucket.spacing
            omega
          · have full : bucket.tokens + earned = bucket.burst := full
            omega
        · rename_i fills
          refine ⟨capped, fun _ => le_refl _, ?_, le_max_right _ _, ?_, fun below => ?_,
            fun _ => le_refl _⟩
          · show bucket.refilledAt ≤ now
            omega
          · show bucket.spacing * bucket.burst + bucket.refilledAt ≤
              bucket.spacing * bucket.tokens + now
            have enough : bucket.spacing * bucket.burst ≤ bucket.spacing * (bucket.tokens + earned) :=
              Nat.mul_le_mul_left _ (by omega)
            rw [Nat.mul_add] at enough
            omega
          · exact absurd below (lt_irrefl _)

/-- A bucket whose reserved tokens are held, and what went through it. -/
structure Paced (burst rate per clock : Nat) (spent : List Nat) (bucket : Bucket T) : Prop where
  bursts : bucket.burst = burst
  positive : 0 < bucket.spacing
  held : bucket.reserved ≤ bucket.tokens
  rated : per ≤ bucket.spacing * rate
  windowed : Windowed bucket.spacing bucket.burst rate per clock spent bucket.level

namespace Paced

variable {burst rate per clock : Nat} {spent : List Nat}

theorem later (paced : bucket.Paced burst rate per clock spent) (onward : clock ≤ now) :
    bucket.Paced burst rate per now spent :=
  { paced with windowed := paced.windowed.later onward }

/-- The queue says nothing of the tokens. -/
theorem queue (paced : bucket.Paced burst rate per clock spent) (queue : List (Nat × T)) :
    ({ bucket with queue } : Bucket T).Paced burst rate per clock spent :=
  ⟨paced.bursts, paced.positive, paced.held, paced.rated, paced.windowed⟩

theorem earns (paced : bucket.Paced burst rate per now spent) :
    Earns bucket.spacing bucket.burst now bucket.level (bucket.refill now).level :=
  refill_earns now paced.positive paced.windowed.capped

theorem refill (paced : bucket.Paced burst rate per now spent) :
    (bucket.refill now).Paced burst rate per now spent := by
  have earns := paced.earns
  have windowed := paced.windowed.earns earns
  have more : bucket.tokens ≤ (bucket.refill now).tokens := earns.more
  rw [refill_eq]
  exact ⟨paced.bursts, paced.positive, le_trans paced.held more, paced.rated, windowed⟩

theorem reserve (paced : bucket.Paced burst rate per now spent) :
    (bucket.reserve now).2.Paced burst rate per now spent := by
  have current := paced.refill
  unfold Bucket.reserve
  dsimp only
  split
  · exact current
  · rename_i free
    have room : (bucket.refill now).reserved + 1 ≤ (bucket.refill now).tokens := by
      unfold available at free
      omega
    exact ⟨current.bursts, current.positive, room, current.rated, current.windowed⟩

theorem refund (paced : bucket.Paced burst rate per clock spent) :
    bucket.refund.Paced burst rate per clock spent :=
  ⟨paced.bursts, paced.positive, le_trans (Nat.sub_le _ _) paced.held, paced.rated, paced.windowed⟩

/-- A token that was reserved is spent when its frame is fed. -/
theorem charge (paced : bucket.Paced burst rate per now spent) :
    (bucket.charge now).Paced burst rate per now
      (spent ++ if bucket.reserved = 0 then [] else [now]) := by
  unfold Bucket.charge
  split
  · rw [List.append_nil]
    exact paced
  · rename_i asked
    have earns := paced.earns
    have current := paced.refill
    have reserved : (bucket.refill now).reserved = bucket.reserved := by rw [refill_eq]
    have positive := current.held
    rw [reserved] at positive
    obtain ⟨tokens, same⟩ : ∃ tokens, (bucket.refill now).tokens = tokens + 1 :=
      ⟨(bucket.refill now).tokens - 1, by omega⟩
    have spacing : (bucket.refill now).spacing = bucket.spacing := by rw [refill_eq]
    have burst : (bucket.refill now).burst = bucket.burst := by rw [refill_eq]
    have windowed := current.windowed
    have soon : (bucket.refill now).tokens < (bucket.refill now).burst →
        now < (bucket.refill now).refilledAt + (bucket.refill now).spacing := by
      rw [burst, spacing]
      exact earns.current
    have late : (bucket.refill now).tokens = (bucket.refill now).burst →
        now ≤ (bucket.refill now).refilledAt := by
      rw [burst]
      exact earns.late
    unfold level at windowed
    rw [same] at windowed soon late positive
    have spends := windowed.spend current.rated soon late
    refine ⟨current.bursts, current.positive, ?_, current.rated, ?_⟩
    · show bucket.reserved - 1 ≤ (bucket.refill now).tokens - 1
      omega
    · unfold level
      dsimp only
      rw [same]
      exact spends

end Paced

theorem paced_new {rate per : Nat} (spec : TokenBucketSpec) (now : Nat)
    (rated : per ≤ max spec.spacing 1 * rate) : (new spec now : Bucket T).Paced (max spec.burst 1) rate per now [] :=
  ⟨rfl, lt_of_lt_of_le Nat.one_pos (le_max_right _ _), Nat.zero_le _, rated, .start now⟩

end Bucket

/-! ## Runs -/

/-- What a driver calls on a throttle. -/
inductive ThrottleCall (T : Type) where
  | admitItem (budget : UInt8) (item : T) (now : Nat)
  | release (now : Nat)
  | nextRelease (now : Nat)
  | chargeAt (budget : UInt8) (now : Nat)
  | refund (budget : UInt8)
  | drain

/-- A throttle with the time of the last call and the charges made, each with its slot. -/
structure Throttling (T : Type) where
  throttle : Throttle T
  clock : Nat
  charges : List (Nat × Nat)

namespace Throttling

variable {T : Type}

/-- The time of a call; the others take no time. -/
def timeOf (state : Throttling T) : ThrottleCall T → Nat
  | .admitItem _ _ now | .release now | .nextRelease now | .chargeAt _ now => now
  | .refund _ | .drain => state.clock

/-- The charge of a call that finds a token reserved. -/
def charged (throttle : Throttle T) : ThrottleCall T → List (Nat × Nat)
  | .chargeAt budget now =>
    match throttle.buckets[throttle.slot budget]? with
    | some bucket => if bucket.reserved = 0 then [] else [(throttle.slot budget, now)]
    | none => []
  | .admitItem .. | .release _ | .nextRelease _ | .refund _ | .drain => []

def called (throttle : Throttle T) : ThrottleCall T → Throttle T
  | .admitItem budget item now => (throttle.admitItem budget item now).2
  | .release now => (throttle.release now).2
  | .nextRelease now => (throttle.nextRelease now).2
  | .chargeAt budget now => throttle.chargeAt budget now
  | .refund budget => throttle.refund budget
  | .drain => throttle.drain.2

def step (state : Throttling T) (call : ThrottleCall T) : Throttling T where
  throttle := called state.throttle call
  clock := state.timeOf call
  charges := state.charges ++ charged state.throttle call

/-- Time does not run backwards. -/
def Monotone (state : Throttling T) (call : ThrottleCall T) : Prop := state.clock ≤ state.timeOf call

/-- When tokens of a slot were spent. -/
def spentAt (slot : Nat) (charges : List (Nat × Nat)) : List Nat :=
  (charges.filter fun charge => charge.1 = slot).map Prod.snd

theorem spentAt_append (slot : Nat) (charges more : List (Nat × Nat)) :
    spentAt slot (charges ++ more) = spentAt slot charges ++ spentAt slot more := by
  unfold spentAt
  rw [List.filter_append, List.map_append]

end Throttling

namespace Throttle

variable {T : Type} {throttle : Throttle T} {P Q : Nat → Bucket T → Prop}

/-- What holds of every bucket, by its slot. -/
def Each (P : Nat → Bucket T → Prop) (throttle : Throttle T) : Prop :=
  ∀ slot bucket, throttle.buckets[slot]? = some bucket → P slot bucket

theorem Each.mono (each : throttle.Each P) (widens : ∀ slot bucket, P slot bucket → Q slot bucket) :
    throttle.Each Q := fun slot bucket at_slot => widens slot bucket (each slot bucket at_slot)

/-- One bucket changes. -/
theorem Each.setBucket {slot : Nat} {bucket : Bucket T} (each : throttle.Each P)
    (keeps : P slot bucket) : (throttle.setBucket slot bucket).Each P := by
  intro other found at_other
  have placed : (throttle.buckets.set slot bucket)[other]? = some found := at_other
  rw [List.getElem?_set] at placed
  split at placed
  · rename_i same
    subst same
    split at placed
    · obtain rfl := Option.some.inj placed
      exact keeps
    · cases placed
  · exact each other found placed

/-- Every bucket changes. -/
theorem each_map {change : Bucket T → Bucket T} {nextTicket held : Nat} (each : throttle.Each P)
    (keeps : ∀ slot bucket, P slot bucket → Q slot (change bucket)) :
    (⟨throttle.buckets.map change, nextTicket, held⟩ : Throttle T).Each Q := by
  intro slot found at_slot
  have mapped : (throttle.buckets.map change)[slot]? = some found := at_slot
  rw [List.getElem?_map] at mapped
  obtain ⟨bucket, before, rfl⟩ := Option.map_eq_some_iff.mp mapped
  exact keeps slot bucket (each slot bucket before)

/-! ### What each call keeps -/

section

variable {burst rate per : Nat → Nat} {spent : Nat → List Nat} {now : Nat}

/-- The buckets at `now`, with what went through each. -/
def Paced (burst rate per : Nat → Nat) (spent : Nat → List Nat) (now : Nat)
    (throttle : Throttle T) : Prop :=
  throttle.Each fun slot bucket => bucket.Paced (burst slot) (rate slot) (per slot) now (spent slot)

theorem admit_paced (budget : UInt8) (item : T) (paced : throttle.Paced burst rate per spent now) :
    (throttle.admitItem budget item now).2.Paced burst rate per spent now := by
  unfold admitItem
  dsimp only
  split
  · exact paced
  · rename_i bucket at_slot
    have before := paced _ _ at_slot
    generalize granted : (if bucket.queue.isEmpty = true then bucket.reserve now
      else (false, bucket)) = outcome
    have after : outcome.2.Paced (burst (throttle.slot budget)) (rate (throttle.slot budget))
        (per (throttle.slot budget)) now (spent (throttle.slot budget)) := by
      rw [← granted]
      split
      · exact before.reserve
      · exact before
    split
    · exact Each.setBucket paced after
    · split
      · exact Each.setBucket paced (after.queue _)
      · exact Each.setBucket paced after

theorem refreshed_paced (paced : throttle.Paced burst rate per spent now) :
    (throttle.refreshed now).Paced burst rate per spent now := by
  refine each_map paced fun slot bucket before => ?_
  split
  · exact before
  · exact before.refill

theorem release_paced (paced : throttle.Paced burst rate per spent now) :
    (throttle.release now).2.Paced burst rate per spent now := by
  unfold release
  dsimp only
  have current_paced := refreshed_paced paced
  split
  · exact current_paced
  · rename_i slot ticket first
    split
    · exact current_paced
    · rename_i bucket at_slot
      have after := (current_paced _ _ at_slot).reserve
      split
      · exact Each.setBucket current_paced (after.queue _)
      · exact Each.setBucket current_paced after

theorem nextRelease_paced (paced : throttle.Paced burst rate per spent now) :
    (throttle.nextRelease now).2.Paced burst rate per spent now := by
  unfold nextRelease
  split
  · exact paced
  · dsimp only
    rw [List.map_map]
    refine each_map paced fun slot bucket before => ?_
    show (bucket.readyAt now).2.Paced _ _ _ _ _
    unfold Bucket.readyAt
    dsimp only
    split
    · exact before
    · split
      · exact before.refill
      · exact before.refill

theorem refund_paced (budget : UInt8) (paced : throttle.Paced burst rate per spent now) :
    (throttle.refund budget).Paced burst rate per spent now := by
  unfold refund
  dsimp only
  split
  · exact paced
  · rename_i bucket at_slot
    exact Each.setBucket paced (paced _ _ at_slot).refund

theorem drain_paced (paced : throttle.Paced burst rate per spent now) :
    throttle.drain.2.Paced burst rate per spent now :=
  each_map paced fun _ _ before => before.queue []

/-- A charge counts for its own budget. -/
theorem chargeAt_paced (budget : UInt8) {charges : List (Nat × Nat)}
    (paced : throttle.Paced burst rate per (Throttling.spentAt · charges) now) :
    (throttle.chargeAt budget now).Paced burst rate per
      (Throttling.spentAt · (charges ++ Throttling.charged throttle (.chargeAt budget now))) now := by
  unfold chargeAt Throttling.charged
  dsimp only
  cases at_slot : throttle.buckets[throttle.slot budget]? with
  | none =>
      dsimp only
      rw [List.append_nil]
      exact paced
  | some bucket =>
      dsimp only
      have after := (paced _ _ at_slot).charge
      intro slot found at_found
      have placed : (throttle.buckets.set (throttle.slot budget) (bucket.charge now))[slot]? =
        some found := at_found
      rw [List.getElem?_set] at placed
      show found.Paced _ _ _ _ (Throttling.spentAt slot (charges ++ _))
      rw [Throttling.spentAt_append]
      split at placed
      · rename_i same
        subst same
        split at placed
        · obtain rfl := Option.some.inj placed
          have spends : Throttling.spentAt (throttle.slot budget)
              (if bucket.reserved = 0 then [] else [(throttle.slot budget, now)]) =
                if bucket.reserved = 0 then [] else [now] := by
            unfold Throttling.spentAt
            split
            · rfl
            · simp
          rw [spends]
          exact after
        · cases placed
      · rename_i other
        have silent : Throttling.spentAt slot
            (if bucket.reserved = 0 then [] else [(throttle.slot budget, now)]) = [] := by
          unfold Throttling.spentAt
          split
          · rfl
          · simp [other]
        rw [silent, List.append_nil]
        exact paced _ _ placed

end

end Throttle

namespace Throttling

variable {T : Type} {burst rate per : Nat → Nat}

/-- Every budget is within its window so far. -/
def Paced (burst rate per : Nat → Nat) (state : Throttling T) : Prop :=
  state.throttle.Paced burst rate per (spentAt · state.charges) state.clock

theorem step_paced (state : Throttling T) (call : ThrottleCall T) (paced : state.Paced burst rate per)
    (monotone : state.Monotone call) : (state.step call).Paced burst rate per := by
  have later : state.throttle.Paced burst rate per (spentAt · state.charges) (state.timeOf call) :=
    paced.mono fun slot bucket before => before.later monotone
  have silent (next : Throttle T)
      (kept : next.Paced burst rate per (spentAt · state.charges) (state.timeOf call)) :
      next.Paced burst rate per (spentAt · (state.charges ++ [])) (state.timeOf call) := by
    rw [List.append_nil]
    exact kept
  cases call with
  | admitItem budget item now => exact silent _ (Throttle.admit_paced budget item later)
  | release now => exact silent _ (Throttle.release_paced later)
  | nextRelease now => exact silent _ (Throttle.nextRelease_paced later)
  | chargeAt budget now => exact Throttle.chargeAt_paced budget later
  | refund budget => exact silent _ (Throttle.refund_paced budget later)
  | drain => exact silent _ (Throttle.drain_paced later)

/-- No call adds or removes a budget. -/
theorem length_called (throttle : Throttle T) (call : ThrottleCall T) :
    (called throttle call).buckets.length = throttle.buckets.length := by
  cases call with
  | admitItem budget item now =>
      show (throttle.admitItem budget item now).2.buckets.length = _
      unfold Throttle.admitItem Throttle.setBucket
      dsimp only
      split
      · rfl
      · rename_i bucket _
        generalize (if bucket.queue.isEmpty = true then bucket.reserve now else (false, bucket)) =
          outcome
        split
        · exact List.length_set
        · split
          · exact List.length_set
          · exact List.length_set
  | release now =>
      have current : (throttle.refreshed now).buckets.length = throttle.buckets.length :=
        List.length_map _
      show (throttle.release now).2.buckets.length = _
      unfold Throttle.release Throttle.setBucket
      dsimp only
      split
      · exact current
      · split
        · exact current
        · split
          · exact List.length_set.trans current
          · exact List.length_set.trans current
  | nextRelease now =>
      show (throttle.nextRelease now).2.buckets.length = _
      unfold Throttle.nextRelease
      split
      · rfl
      · dsimp only
        rw [List.length_map, List.length_map]
  | chargeAt budget now =>
      show (throttle.chargeAt budget now).buckets.length = _
      unfold Throttle.chargeAt Throttle.setBucket
      dsimp only
      split
      · rfl
      · exact List.length_set
  | refund budget =>
      show (throttle.refund budget).buckets.length = _
      unfold Throttle.refund Throttle.setBucket
      dsimp only
      split
      · rfl
      · exact List.length_set
  | drain => exact List.length_map _

theorem length_run (state : Throttling T) (calls : List (ThrottleCall T)) :
    (Lib.Runs.run step state calls).throttle.buckets.length = state.throttle.buckets.length := by
  induction calls generalizing state with
  | nil => rfl
  | cons call calls ih => exact (ih (state.step call)).trans (length_called state.throttle call)

/-- Over any run whose time does not run backwards. -/
theorem run_paced {state : Throttling T} {calls : List (ThrottleCall T)} (paced : state.Paced burst rate per)
    (monotone : Lib.Runs.Along step Monotone state calls) :
    (Lib.Runs.run step state calls).Paced burst rate per :=
  Lib.Runs.invariant step_paced paced monotone

end Throttling

end IronFix.Session
