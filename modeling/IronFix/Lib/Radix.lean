import Mathlib.Algebra.Order.Ring.Int
import Mathlib.Data.List.Induction
import Mathlib.Tactic.Linarith
import Mathlib.Tactic.Ring

/-!
# Digits of an integer

Digits are read from the most significant one on, above a start: `0`, or `-1`
for an integer in the radix complement. The integer stays on the start's side
of zero, so a bound on the whole bounds every step of the reading
(`product_fits`).
-/

namespace Lib.Radix

variable {radix : Nat}

/-- The integer of the digits, the most significant first, above `start`. -/
def ofDigits (radix : Nat) (start : Int) (digits : List Nat) : Int :=
  digits.foldl (fun (value : Int) (digit : Nat) => value * radix + digit) start

@[simp] theorem ofDigits_nil (start : Int) : ofDigits radix start [] = start := rfl

@[simp] theorem ofDigits_cons (start : Int) (digit : Nat) (digits : List Nat) :
    ofDigits radix start (digit :: digits) = ofDigits radix (start * radix + digit) digits := rfl

theorem ofDigits_concat (start : Int) (digits : List Nat) (digit : Nat) :
    ofDigits radix start (digits ++ [digit]) = ofDigits radix start digits * radix + digit := by
  unfold ofDigits
  rw [List.foldl_append]
  rfl

/-- The sign in front of a number is no part of it. -/
theorem ofDigits_zero (digits : List Nat) :
    ofDigits radix 0 (0 :: digits) = ofDigits radix 0 digits := by
  simp

theorem ofDigits_complement (large : 1 ≤ radix) (digits : List Nat) :
    ofDigits radix (-1) ((radix - 1) :: digits) = ofDigits radix (-1) digits := by
  have carried : -1 * (radix : Int) + ((radix - 1 : Nat) : Int) = -1 := by
    rw [Int.ofNat_sub large]
    omega
  rw [ofDigits_cons, carried]

theorem start_le (large : 1 ≤ radix) {start : Int} (positive : 0 ≤ start) (digits : List Nat) :
    start ≤ ofDigits radix start digits := by
  induction digits generalizing start with
  | nil => exact le_refl start
  | cons digit digits ih =>
      have grown : start ≤ start * radix + digit := by
        have := mul_le_mul_of_nonneg_left (Int.ofNat_le.mpr large) positive
        have := Int.natCast_nonneg digit
        push_cast at *
        linarith
      rw [ofDigits_cons]
      exact le_trans grown (ih (le_trans positive grown))

theorem le_start {start : Int} (negative : start < 0) {digits : List Nat}
    (small : ∀ digit ∈ digits, digit < radix) : ofDigits radix start digits ≤ start := by
  induction digits generalizing start with
  | nil => exact le_refl start
  | cons digit digits ih =>
      have digitSmall : (digit : Int) + 1 ≤ radix := by
        exact_mod_cast small digit List.mem_cons_self
      have shrunk : start * radix + digit ≤ start := by nlinarith
      rw [ofDigits_cons]
      refine le_trans (ih (lt_of_le_of_lt shrunk negative) fun other member => ?_) shrunk
      exact small other (List.mem_cons_of_mem _ member)

/-- Where the whole lies between bounds, so does the product each step makes. -/
theorem product_fits {low high value : Int} {digit : Nat} {digits : List Nat}
    (small : ∀ other ∈ digit :: digits, other < radix) (multiple : (radix : Int) ∣ low)
    (lowest : low ≤ 0) (highest : 0 ≤ high)
    (fits : low ≤ ofDigits radix value (digit :: digits) ∧
      ofDigits radix value (digit :: digits) ≤ high) :
    low ≤ value * radix ∧ value * radix ≤ high := by
  have digitSmall : digit < radix := small digit List.mem_cons_self
  rw [ofDigits_cons] at fits
  rcases lt_or_ge value 0 with negative | positive
  · have stepNegative : value * radix + digit < 0 := by
      have : (digit : Int) < radix := by exact_mod_cast digitSmall
      nlinarith
    have above := le_trans fits.1
      (le_start stepNegative fun other member => small other (List.mem_cons_of_mem _ member))
    obtain ⟨quotient, rfl⟩ := multiple
    have quotientLe : quotient ≤ value := by
      have : (digit : Int) < radix := by exact_mod_cast digitSmall
      by_contra larger
      have : value + 1 ≤ quotient := by omega
      nlinarith
    constructor
    · nlinarith
    · nlinarith
  · have stepPositive : 0 ≤ value * radix := mul_nonneg positive (Int.natCast_nonneg _)
    have below := le_trans (start_le (by omega) (by omega) digits) fits.2
    omega

/-- What lies above a start, and below the next. -/
theorem ofDigits_range {start : Int} {digits : List Nat} (small : ∀ digit ∈ digits, digit < radix) :
    start * (radix : Int) ^ digits.length ≤ ofDigits radix start digits ∧
      ofDigits radix start digits < (start + 1) * (radix : Int) ^ digits.length := by
  induction digits generalizing start with
  | nil => simp
  | cons digit digits ih =>
      have digitSmall : (digit : Int) + 1 ≤ radix := by
        exact_mod_cast small digit List.mem_cons_self
      have positive : (0 : Int) ≤ (radix : Int) ^ digits.length := pow_nonneg (Int.natCast_nonneg _) _
      obtain ⟨above, below⟩ := @ih (start * radix + digit) fun other member =>
        small other (List.mem_cons_of_mem _ member)
      rw [ofDigits_cons, List.length_cons, pow_succ]
      have digitNonneg := Int.natCast_nonneg digit
      constructor
      · have lower : start * radix ≤ start * radix + digit := by omega
        calc start * ((radix : Int) ^ digits.length * radix)
            = start * radix * (radix : Int) ^ digits.length := by ring
          _ ≤ (start * radix + digit) * (radix : Int) ^ digits.length :=
            mul_le_mul_of_nonneg_right lower positive
          _ ≤ _ := above
      · have upper : start * radix + digit + 1 ≤ (start + 1) * radix := by
          rw [add_mul, one_mul]
          omega
        calc ofDigits radix (start * radix + digit) digits
            < (start * radix + digit + 1) * (radix : Int) ^ digits.length := below
          _ ≤ (start + 1) * radix * (radix : Int) ^ digits.length :=
            mul_le_mul_of_nonneg_right upper positive
          _ = (start + 1) * ((radix : Int) ^ digits.length * radix) := by ring

/-- As many digits give an integer in one way only. -/
theorem ofDigits_inj {start start' : Int} {digits digits' : List Nat}
    (small : ∀ digit ∈ digits, digit < radix) (small' : ∀ digit ∈ digits', digit < radix)
    (alike : digits.length = digits'.length)
    (same : ofDigits radix start digits = ofDigits radix start' digits') :
    start = start' ∧ digits = digits' := by
  induction digits using List.reverseRecOn generalizing digits' with
  | nil =>
      obtain rfl := List.length_eq_zero_iff.mp alike.symm
      exact ⟨same, rfl⟩
  | append_singleton digits digit ih =>
      rcases List.eq_nil_or_concat digits' with rfl | ⟨others, other, rfl⟩
      · simp at alike
      · have digitSmall : (digit : Int) < radix := by
          exact_mod_cast small digit (by simp)
        have otherSmall : (other : Int) < radix := by
          exact_mod_cast small' other (by simp)
        rw [List.concat_eq_append, ofDigits_concat, ofDigits_concat] at same
        have digitNonneg := Int.natCast_nonneg digit
        have otherNonneg := Int.natCast_nonneg other
        -- the last digit is the remainder, the rest the quotient
        have rest : ofDigits radix start digits = ofDigits radix start' others := by
          have left := Int.add_mul_ediv_right digit (ofDigits radix start digits)
            (show (radix : Int) ≠ 0 by omega)
          have right := Int.add_mul_ediv_right other (ofDigits radix start' others)
            (show (radix : Int) ≠ 0 by omega)
          rw [Int.ediv_eq_zero_of_lt digitNonneg digitSmall, zero_add, add_comm] at left
          rw [Int.ediv_eq_zero_of_lt otherNonneg otherSmall, zero_add, add_comm] at right
          rw [← left, ← right, same]
        have last : digit = other := by
          rw [rest] at same
          omega
        obtain ⟨starts, front⟩ := ih (fun one member => small one (by simp [member]))
          (fun one member => small' one (by simp [member])) (by simpa using alike) rest
        exact ⟨starts, by rw [front, last, List.concat_eq_append]⟩

end Lib.Radix
