import Mathlib.Data.List.Basic
import Mathlib.Data.Nat.Basic

/-!
# Token buckets

A bucket holds tokens up to a burst and earns one back every `spacing`. However
its tokens are earned and spent, what goes through it in any window is bounded
by the burst and by what the window can earn (`Windowed`).
-/

namespace Lib.TokenBucket

/-- The tokens held, and the instant they were last brought up to date. -/
structure Level where
  tokens : Nat
  since : Nat

/-- A bucket brought up to date at `now`: a token takes `spacing` to earn. -/
structure Earns (spacing burst now : Nat) (before after : Level) : Prop where
  more : before.tokens ≤ after.tokens
  capped : before.tokens ≤ burst → after.tokens ≤ burst
  onward : before.since ≤ after.since
  within : after.since ≤ max before.since now
  paid : spacing * after.tokens + before.since ≤ spacing * before.tokens + after.since
  /-- No whole token is left to earn. -/
  current : after.tokens < burst → now < after.since + spacing
  /-- Time spent full counts for nothing. -/
  late : after.tokens = burst → now ≤ after.since

/-- The `n` tokens spent since `t`, and those still held, were in the burst or earned since. -/
def Funded (spacing burst t n : Nat) (level : Level) : Prop :=
  n = 0 ∨ spacing * (n + level.tokens) + t ≤ spacing * burst + level.since

section

variable {spacing burst now t n : Nat} {before after : Level}

theorem Funded.earns (funded : Funded spacing burst t n before)
    (earns : Earns spacing burst now before after) : Funded spacing burst t n after := by
  rcases funded with none_spent | funded
  · exact .inl none_spent
  · have paid := earns.paid
    rw [Nat.mul_add] at funded
    right
    rw [Nat.mul_add]
    omega

/-- A token is spent at `now`, the bucket being up to date. -/
theorem Funded.spend {tokens since : Nat} (funded : Funded spacing burst t n ⟨tokens + 1, since⟩)
    (reached : t ≤ now) (capped : tokens + 1 ≤ burst)
    (current : tokens + 1 < burst → now < since + spacing) (late : tokens + 1 = burst → now ≤ since) :
    Funded spacing burst t (n + 1) ⟨tokens, since⟩ := by
  right
  rcases funded with none_spent | funded
  · subst none_spent
    show spacing * (0 + 1 + tokens) + t ≤ spacing * burst + since
    rcases Nat.lt_or_ge (tokens + 1) burst with below | full
    · -- one token is missing already, and the next is not earned yet
      have soon := current below
      have room : spacing * (tokens + 1 + 1) ≤ spacing * burst := Nat.mul_le_mul_left _ below
      rw [Nat.mul_add _ _ 1, Nat.mul_one] at room
      rw [Nat.zero_add, Nat.add_comm 1 tokens]
      omega
    · have same : tokens + 1 = burst := le_antisymm capped full
      have now_full := late same
      rw [Nat.zero_add, Nat.add_comm 1 tokens, same]
      omega
  · show spacing * (n + 1 + tokens) + t ≤ spacing * burst + since
    have regroup : n + 1 + tokens = n + (tokens + 1) := by omega
    rw [regroup]
    exact funded

theorem Funded.bound {per rate : Nat} (funded : Funded spacing burst t n after)
    (inside : after.since < t + per) (rated : per ≤ spacing * rate) : n ≤ burst + rate - 1 := by
  rcases funded with none_spent | funded
  · omega
  · have less : spacing * n < spacing * (burst + rate) := by
      rw [Nat.mul_add] at funded ⊢
      omega
    have fewer := Nat.lt_of_mul_lt_mul_left less
    omega

end

/-- The tokens spent, and how many fit in a window of length `per` however it is placed. -/
structure Windowed (spacing burst rate per clock : Nat) (spent : List Nat) (level : Level) : Prop where
  past : ∀ instant ∈ spent, instant ≤ clock
  since : level.since ≤ clock
  capped : level.tokens ≤ burst
  funded : ∀ t, Funded spacing burst t (spent.countP fun instant => t ≤ instant) level
  bounded : ∀ t, (spent.countP fun instant => t ≤ instant && instant < t + per) ≤ burst + rate - 1

namespace Windowed

variable {spacing burst rate per clock now : Nat} {spent : List Nat} {before after : Level}

/-- A bucket starts full. -/
theorem start (now : Nat) : Windowed spacing burst rate per now [] ⟨burst, now⟩ where
  past := by simp
  since := le_refl _
  capped := le_refl _
  funded _ := .inl rfl
  bounded _ := Nat.zero_le _

theorem later (windowed : Windowed spacing burst rate per clock spent before) (onward : clock ≤ now) :
    Windowed spacing burst rate per now spent before where
  past instant mem := le_trans (windowed.past instant mem) onward
  since := le_trans windowed.since onward
  capped := windowed.capped
  funded := windowed.funded
  bounded := windowed.bounded

theorem earns (windowed : Windowed spacing burst rate per now spent before)
    (earns : Earns spacing burst now before after) :
    Windowed spacing burst rate per now spent after where
  past := windowed.past
  since := le_trans earns.within (max_le windowed.since (le_refl _))
  capped := earns.capped windowed.capped
  funded t := (windowed.funded t).earns earns
  bounded := windowed.bounded

/-- A token is spent at `now`. -/
theorem spend {tokens since : Nat} (windowed : Windowed spacing burst rate per now spent ⟨tokens + 1, since⟩)
    (rated : per ≤ spacing * rate) (current : tokens + 1 < burst → now < since + spacing)
    (late : tokens + 1 = burst → now ≤ since) :
    Windowed spacing burst rate per now (spent ++ [now]) ⟨tokens, since⟩ := by
  have funded (t : Nat) :
      Funded spacing burst t ((spent ++ [now]).countP fun instant => t ≤ instant) ⟨tokens, since⟩ := by
    rcases Nat.lt_or_ge now t with before | reached
    · -- nothing was spent since a later instant
      left
      refine List.countP_eq_zero.mpr fun instant mem => ?_
      have past : instant ≤ now := by
        rcases List.mem_append.mp mem with mem | mem
        · exact windowed.past instant mem
        · exact le_of_eq (List.mem_singleton.mp mem)
      simp only [decide_eq_true_eq]
      omega
    · have spends := (windowed.funded t).spend reached windowed.capped current late
      rw [List.countP_append, List.countP_singleton, if_pos (by simpa using reached)]
      exact spends
  refine ⟨?_, windowed.since, le_trans (Nat.le_succ _) windowed.capped, funded, fun t => ?_⟩
  · intro instant mem
    rcases List.mem_append.mp mem with mem | mem
    · exact windowed.past instant mem
    · exact le_of_eq (List.mem_singleton.mp mem)
  · by_cases inside : t ≤ now ∧ now < t + per
    · -- the window is still open: all that was spent since `t` lies in it
      have fewer : ((spent ++ [now]).countP fun instant => t ≤ instant && instant < t + per) ≤
          (spent ++ [now]).countP fun instant => t ≤ instant := by
        refine List.countP_mono_left fun instant _ within => ?_
        simp only [Bool.and_eq_true] at within
        exact within.1
      have soon : since < t + per := lt_of_le_of_lt windowed.since inside.2
      exact le_trans fewer ((funded t).bound soon rated)
    · rw [List.countP_append, List.countP_singleton, if_neg (by simpa using inside), Nat.add_zero]
      exact windowed.bounded t

end Windowed

end Lib.TokenBucket
