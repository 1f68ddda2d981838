import IronFix.Core.Bytes
import IronFix.Session.Throttle

/-!
# Throttle budgets

A budget of `rate` messages for each `per`, as the engine checks it and hands it
to the session. Within any interval of length `per`, at most
`burst + rate - 1` messages of a budget are charged.
-/

namespace IronFix.Engine

open IronFix.Session

def MAX_THROTTLE_BUDGETS : Nat := 16

def MAX_THROTTLE_QUEUE_DEPTH : Nat := 65536

/-- One day, in nanoseconds. -/
def MAX_THROTTLE_WINDOW : Nat := 86400 * 1000000000

/-- What a message that finds no token gets. -/
inductive ThrottlePolicy where
  | queue (maxDepth : Nat)
  | refuse
  deriving DecidableEq, Repr

structure ThrottleBudget where
  rate : Nat
  per : Nat
  burst : Nat
  policy : ThrottlePolicy
  deriving DecidableEq, Repr

inductive ThrottleConfigError where
  | zeroRate (budget : UInt8)
  | zeroBurst (budget : UInt8)
  | windowOutOfRange (budget : UInt8) (per : Nat)
  | queueDepthOutOfRange (budget : UInt8) (maxDepth : Nat)
  | tooManyBudgets (count : Nat)
  deriving DecidableEq

namespace ThrottleBudget

/-- The time to earn one token, rounded up. -/
def spacing (budget : ThrottleBudget) : Nat :=
  let rate := max budget.rate 1
  let nanos := max ((budget.per + (rate - 1)) / rate) 1
  if nanos ≤ u64Max then nanos else budget.per

def bucketSpec (budget : ThrottleBudget) : TokenBucketSpec where
  spacing := budget.spacing
  burst := max budget.burst 1
  maxDepth :=
    match budget.policy with
    | .queue maxDepth => some maxDepth
    | .refuse => none

def validate (id : UInt8) (budget : ThrottleBudget) : Except ThrottleConfigError Unit :=
  if budget.rate = 0 then .error (.zeroRate id)
  else if budget.burst = 0 then .error (.zeroBurst id)
  else if budget.per = 0 ∨ budget.per > MAX_THROTTLE_WINDOW then
    .error (.windowOutOfRange id budget.per)
  else
    match budget.policy with
    | .queue maxDepth =>
      if 1 ≤ maxDepth ∧ maxDepth ≤ MAX_THROTTLE_QUEUE_DEPTH then .ok ()
      else .error (.queueDepthOutOfRange id maxDepth)
    | .refuse => .ok ()

theorem validate_positive {id : UInt8} {budget : ThrottleBudget}
    (valid : budget.validate id = .ok ()) : 0 < budget.rate ∧ 0 < budget.burst := by
  unfold validate at valid
  split at valid
  · cases valid
  · rename_i rate
    split at valid
    · cases valid
    · rename_i burst
      exact ⟨Nat.pos_of_ne_zero rate, Nat.pos_of_ne_zero burst⟩

/-- `rate` tokens never take less than `per`. -/
theorem per_le_spacing {budget : ThrottleBudget} (rate : 0 < budget.rate) :
    budget.per ≤ max budget.spacing 1 * budget.rate := by
  have rated : max budget.rate 1 = budget.rate := max_eq_left rate
  have enough : budget.per ≤ budget.spacing * budget.rate := by
    unfold spacing
    dsimp only
    rw [rated]
    split
    · have whole := Nat.div_add_mod (budget.per + (budget.rate - 1)) budget.rate
      have rest := Nat.mod_lt (budget.per + (budget.rate - 1)) rate
      have ceiling : budget.per ≤
          (budget.per + (budget.rate - 1)) / budget.rate * budget.rate := by
        rw [Nat.mul_comm]
        omega
      exact le_trans ceiling (Nat.mul_le_mul_right _ (le_max_left _ _))
    · exact Nat.le_mul_of_pos_right _ rate
  exact le_trans enough (Nat.mul_le_mul_right _ (le_max_left _ _))

end ThrottleBudget

/-- The first budget, in order, that is not valid. -/
def validateBudgets : UInt8 → List ThrottleBudget → Except ThrottleConfigError Unit
  | _, [] => .ok ()
  | id, budget :: budgets =>
    match budget.validate id with
    | .error error => .error error
    | .ok () => validateBudgets (id + 1) budgets

/-- The budgets of a session, the default one first, each of them checked. -/
structure ThrottleConfig where
  budgets : List ThrottleBudget
  counted : budgets.length ≤ MAX_THROTTLE_BUDGETS
  checked : validateBudgets 0 budgets = .ok ()

/-- `ThrottleConfigBuilder::build`. -/
def ThrottleConfig.build (budgets : List ThrottleBudget) : Except ThrottleConfigError ThrottleConfig :=
  if counted : budgets.length ≤ MAX_THROTTLE_BUDGETS then
    match checked : validateBudgets 0 budgets with
    | .ok () => .ok ⟨budgets, counted, checked⟩
    | .error error => .error error
  else .error (.tooManyBudgets budgets.length)

def ThrottleConfig.bucketSpecs (config : ThrottleConfig) : List TokenBucketSpec :=
  config.budgets.map ThrottleBudget.bucketSpec

theorem validateBudgets_mem {id : UInt8} {budgets : List ThrottleBudget}
    (checked : validateBudgets id budgets = .ok ()) :
    ∀ budget ∈ budgets, 0 < budget.rate ∧ 0 < budget.burst := by
  induction budgets generalizing id with
  | nil => simp
  | cons budget budgets ih =>
      unfold validateBudgets at checked
      split at checked
      · cases checked
      · rename_i valid
        intro found mem
        rcases List.mem_cons.mp mem with rfl | mem
        · exact ThrottleBudget.validate_positive valid
        · exact ih checked found mem

/-! ## The window bound -/

namespace ThrottleConfig

variable {T : Type} (config : ThrottleConfig)

/-- The throttle of a new session. -/
def throttling (now : Nat) : Throttling T := ⟨.new config.bucketSpecs now, now, []⟩

/-- The rate and the window of the budget at a slot. -/
def rateAt (slot : Nat) : Nat := (config.budgets[slot]?.map ThrottleBudget.rate).getD 0

def perAt (slot : Nat) : Nat := (config.budgets[slot]?.map ThrottleBudget.per).getD 0

def burstAt (slot : Nat) : Nat := (config.budgets[slot]?.map ThrottleBudget.burst).getD 0

theorem throttling_paced (now : Nat) :
    (config.throttling now : Throttling T).Paced config.burstAt config.rateAt config.perAt := by
  intro slot bucket at_slot
  have placed : ((config.budgets.map ThrottleBudget.bucketSpec).map fun spec =>
    (Bucket.new spec now : Bucket T))[slot]? = some bucket := at_slot
  rw [List.map_map, List.getElem?_map] at placed
  obtain ⟨budget, found, rfl⟩ := Option.map_eq_some_iff.mp placed
  have positive := validateBudgets_mem config.checked budget (List.mem_of_getElem? found)
  have rate : config.rateAt slot = budget.rate := by
    unfold rateAt
    rw [found]
    rfl
  have per : config.perAt slot = budget.per := by
    unfold perAt
    rw [found]
    rfl
  have burst : config.burstAt slot = max budget.burst 1 := by
    unfold burstAt
    rw [found, max_eq_left positive.2]
    rfl
  have bursts : max (max budget.burst 1) 1 = max budget.burst 1 := max_eq_left (le_max_right _ _)
  rw [rate, per, burst, ← bursts]
  exact Bucket.paced_new budget.bucketSpec now (ThrottleBudget.per_le_spacing positive.1)

end ThrottleConfig

/-- How many messages of a slot are charged in `[t, t + per)`. -/
def chargedWithin (slot t per : Nat) (charges : List (Nat × Nat)) : Nat :=
  charges.countP fun charge => charge.1 = slot && (t ≤ charge.2 && charge.2 < t + per)

/-- Counting a slot's charges is counting when its tokens were spent. -/
theorem chargedWithin_eq (slot t per : Nat) (charges : List (Nat × Nat)) :
    chargedWithin slot t per charges =
      (Throttling.spentAt slot charges).countP fun instant => t ≤ instant && instant < t + per := by
  unfold chargedWithin Throttling.spentAt
  rw [List.countP_map, List.countP_filter]
  refine List.countP_congr fun charge _ => ?_
  simp [Function.comp_apply, and_comm]

/-- In any run and for any budget, whatever passes between reserving a token and charging it. -/
theorem charged_within_window {T : Type} (config : ThrottleConfig) (start : Nat)
    (calls : List (ThrottleCall T))
    (monotone : Lib.Runs.Along Throttling.step Throttling.Monotone (config.throttling start) calls)
    (slot : Nat) (budget : ThrottleBudget) (configured : config.budgets[slot]? = some budget)
    (t : Nat) :
    chargedWithin slot t budget.per
        (Lib.Runs.run Throttling.step (config.throttling start) calls).charges ≤
      budget.burst + budget.rate - 1 := by
  have paced := Throttling.run_paced (config.throttling_paced start) monotone
  have length := Throttling.length_run (config.throttling start) calls
  generalize Lib.Runs.run Throttling.step (config.throttling start) calls = state at paced length ⊢
  have inside : slot < state.throttle.buckets.length := by
    have slots : (config.throttling start : Throttling T).throttle.buckets.length =
        config.budgets.length := by
      show ((config.budgets.map ThrottleBudget.bucketSpec).map _).length = _
      rw [List.length_map, List.length_map]
    rw [length, slots]
    exact (List.getElem?_eq_some_iff.mp configured).1
  have kept := paced slot _ (List.getElem?_eq_getElem inside)
  have burst : config.burstAt slot = budget.burst := by
    unfold ThrottleConfig.burstAt
    rw [configured]
    rfl
  have rate : config.rateAt slot = budget.rate := by
    unfold ThrottleConfig.rateAt
    rw [configured]
    rfl
  have per : config.perAt slot = budget.per := by
    unfold ThrottleConfig.perAt
    rw [configured]
    rfl
  have bounded := kept.windowed.bounded t
  rw [kept.bursts, burst, rate, per] at bounded
  rw [chargedWithin_eq]
  exact bounded

/-- Two messages for each ten nanoseconds, none held. -/
def twoInTen : ThrottleConfig :=
  ⟨[⟨2, 10, 1, .refuse⟩], by decide, rfl⟩

/-- A message charged at once and one charged late, and a third that finds no token. -/
def threeAsked : List (ThrottleCall Unit) :=
  [.admitItem 0 () 0, .chargeAt 0 0, .admitItem 0 () 6, .chargeAt 0 9, .admitItem 0 () 9, .chargeAt 0 9]

theorem twoInTen_charges_two :
    (Lib.Runs.run Throttling.step (twoInTen.throttling 0) threeAsked).charges = [(0, 0), (0, 9)] ∧
      chargedWithin 0 0 10 (Lib.Runs.run Throttling.step (twoInTen.throttling 0) threeAsked).charges ≤
        1 + 2 - 1 :=
  ⟨by decide,
    charged_within_window twoInTen 0 threeAsked
      ⟨Nat.le_refl 0, Nat.le_refl 0, Nat.zero_le 6, Nat.le_add_right 6 3, Nat.le_refl 9,
        Nat.le_refl 9, trivial⟩ 0 ⟨2, 10, 1, .refuse⟩ rfl 0⟩

end IronFix.Engine
