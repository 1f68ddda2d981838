import Mathlib.Data.Nat.Digits.Lemmas
import Mathlib.Data.List.Basic

/-!
# Decimal numbers in ASCII

Printing a natural number in base ten, and the bounded fold that reads one
back: at most `maxDigits` bytes, each an ASCII digit, each step checked
against `bound`. Leading zeros are read; a sign is not.
-/

namespace Lib.Decimal

/-- ASCII digit test. -/
def isAsciiDigit (b : UInt8) : Bool :=
  0x30 ≤ b && b ≤ 0x39

/-- Value of an ASCII digit. -/
def digitValue (b : UInt8) : Nat :=
  b.toNat - 0x30

/-- The ASCII digit of `d`, for `d < 10`. -/
def digitByte (d : Nat) : UInt8 :=
  UInt8.ofNat (0x30 + d)

/-- Decimal representation, without leading zeros. -/
def decimal (n : Nat) : List UInt8 :=
  if n = 0 then [digitByte 0] else (Nat.digits 10 n).reverse.map digitByte

/-- `a * b`, if it does not exceed `bound`. -/
def checkedMul (bound a b : Nat) : Option Nat :=
  if a * b ≤ bound then some (a * b) else none

/-- `a + b`, if it does not exceed `bound`. -/
def checkedAdd (bound a b : Nat) : Option Nat :=
  if a + b ≤ bound then some (a + b) else none

/-- Folds ASCII digits onto `acc`, checking every step against `bound`. -/
def foldDigits (bound : Nat) : Nat → List UInt8 → Option Nat
  | acc, [] => some acc
  | acc, b :: bs =>
      if isAsciiDigit b then do
        let scaled ← checkedMul bound acc 10
        let next ← checkedAdd bound scaled (digitValue b)
        foldDigits bound next bs
      else none

/-- Reads a non-empty run of at most `maxDigits` ASCII digits. -/
def parseDigits (maxDigits bound : Nat) (bytes : List UInt8) : Option Nat :=
  if bytes.isEmpty || bytes.length > maxDigits then none
  else foldDigits bound 0 bytes

/-- The number a run of digits stands for, unbounded. -/
def digitsValue (bytes : List UInt8) : Nat :=
  bytes.foldl (fun acc b => acc * 10 + digitValue b) 0

theorem checkedAdd_eq_some {bound a b c : Nat} :
    checkedAdd bound a b = some c ↔ a + b = c ∧ c ≤ bound := by
  unfold checkedAdd
  split <;> simp <;> omega

/-- A sum that fits is reached step by step. -/
theorem foldlM_checkedAdd {bound : Nat} (terms : List Nat) (start : Nat)
    (fits : start + terms.sum ≤ bound) :
    terms.foldlM (checkedAdd bound) start = some (start + terms.sum) := by
  induction terms generalizing start with
  | nil => rfl
  | cons term terms ih =>
      rw [List.sum_cons] at fits
      have first : checkedAdd bound start term = some (start + term) :=
        checkedAdd_eq_some.mpr ⟨rfl, by omega⟩
      rw [List.foldlM_cons, first, List.sum_cons, ← Nat.add_assoc]
      exact ih (start + term) (by omega)

theorem checkedMul_eq_some {bound a b c : Nat} :
    checkedMul bound a b = some c ↔ a * b = c ∧ c ≤ bound := by
  unfold checkedMul
  split
  · simp
    rintro rfl
    assumption
  · simp
    rintro rfl
    omega

theorem isAsciiDigit_digitByte {d : Nat} (h : d < 10) :
    isAsciiDigit (digitByte d) = true := by
  interval_cases d <;> rfl

theorem digitValue_digitByte {d : Nat} (h : d < 10) :
    digitValue (digitByte d) = d := by
  interval_cases d <;> rfl

/-- A byte outside the digits is not in any run of digits. -/
theorem notMem_of_digits {bytes : List UInt8} {x : UInt8}
    (h : ∀ b ∈ bytes, isAsciiDigit b = true) (hx : isAsciiDigit x = false) :
    x ∉ bytes := by
  intro member
  rw [h x member] at hx
  cases hx

private theorem foldl_ge (bytes : List UInt8) (acc : Nat) :
    acc ≤ bytes.foldl (fun acc b => acc * 10 + digitValue b) acc := by
  induction bytes generalizing acc with
  | nil => simp
  | cons b bs ih =>
      have := ih (acc * 10 + digitValue b)
      simp only [List.foldl_cons]
      omega

theorem foldDigits_eq_some {bound : Nat} {bytes : List UInt8} {acc n : Nat}
    (hacc : acc ≤ bound) :
    foldDigits bound acc bytes = some n ↔
      (∀ b ∈ bytes, isAsciiDigit b = true) ∧
      bytes.foldl (fun acc b => acc * 10 + digitValue b) acc = n ∧ n ≤ bound := by
  induction bytes generalizing acc with
  | nil =>
      simp only [foldDigits, Option.some.injEq, List.foldl_nil]
      constructor
      · rintro rfl
        exact ⟨by simp, rfl, hacc⟩
      · exact fun h => h.2.1
  | cons b bs ih =>
      by_cases hb : isAsciiDigit b = true
      · simp only [foldDigits, hb, if_true, List.foldl_cons, List.forall_mem_cons, true_and]
        constructor
        · intro h
          simp only [Option.bind_eq_bind, Option.bind_eq_some_iff, checkedMul_eq_some,
            checkedAdd_eq_some] at h
          obtain ⟨_, ⟨rfl, _⟩, _, ⟨rfl, hle⟩, h⟩ := h
          exact (ih hle).mp h
        · rintro ⟨hall, rfl, hle⟩
          have grow := foldl_ge bs (acc * 10 + digitValue b)
          have step : acc * 10 + digitValue b ≤ bound := by omega
          simp only [Option.bind_eq_bind, Option.bind_eq_some_iff, checkedMul_eq_some,
            checkedAdd_eq_some]
          exact ⟨_, ⟨rfl, by omega⟩, _, ⟨rfl, step⟩, (ih step).mpr ⟨hall, rfl, hle⟩⟩
      · simp [foldDigits, hb]

/-- What `parseDigits` accepts: digits only, few enough, and within bounds. -/
theorem parseDigits_eq_some {maxDigits bound : Nat} {bytes : List UInt8} {n : Nat} :
    parseDigits maxDigits bound bytes = some n ↔
      bytes ≠ [] ∧ bytes.length ≤ maxDigits ∧
      (∀ b ∈ bytes, isAsciiDigit b = true) ∧ digitsValue bytes = n ∧ n ≤ bound := by
  unfold parseDigits
  split
  · rename_i bad
    simp only [Bool.or_eq_true, List.isEmpty_iff, decide_eq_true_eq] at bad
    constructor
    · simp
    · rintro ⟨ne, len, _⟩
      rcases bad with bad | bad
      · exact absurd bad ne
      · omega
  · rename_i good
    simp only [Bool.or_eq_true, List.isEmpty_iff, decide_eq_true_eq, not_or, not_lt] at good
    rw [foldDigits_eq_some (Nat.zero_le _)]
    simp [good, digitsValue]

theorem decimal_ne_nil (n : Nat) : decimal n ≠ [] := by
  unfold decimal
  split
  · simp
  · rename_i pos
    simp [Nat.digits_ne_nil_iff_ne_zero.mpr pos]

theorem decimal_digits (n : Nat) : ∀ b ∈ decimal n, isAsciiDigit b = true := by
  intro b hb
  unfold decimal at hb
  split at hb
  · rw [List.mem_singleton.mp hb]
    rfl
  · obtain ⟨d, hd, rfl⟩ := List.mem_map.mp hb
    exact isAsciiDigit_digitByte (Nat.digits_lt_base (by norm_num) (List.mem_reverse.mp hd))

theorem digitsValue_decimal (n : Nat) : digitsValue (decimal n) = n := by
  unfold decimal digitsValue
  split
  · rename_i zero
    rw [zero]
    rfl
  · rw [List.foldl_map, List.foldl_reverse]
    have digits : ∀ ds : List Nat, (∀ d ∈ ds, d < 10) →
        ds.foldr (fun d acc => acc * 10 + digitValue (digitByte d)) 0 = Nat.ofDigits 10 ds := by
      intro ds
      induction ds with
      | nil => simp
      | cons d ds ih =>
          intro small
          simp only [List.forall_mem_cons] at small
          rw [List.foldr_cons, ih small.2, digitValue_digitByte small.1, Nat.ofDigits_cons]
          omega
    rw [digits _ (fun d hd => Nat.digits_lt_base (by norm_num) hd), Nat.ofDigits_digits]

/-- A number below `10 ^ k` prints in at most `k` digits, and only such a
number does. -/
theorem decimal_length_le_iff {n k : Nat} (hk : 0 < k) :
    (decimal n).length ≤ k ↔ n < 10 ^ k := by
  unfold decimal
  split
  · rename_i zero
    simp only [List.length_singleton, zero]
    exact ⟨fun _ => by positivity, fun _ => hk⟩
  · rw [List.length_map, List.length_reverse]
    constructor
    · intro h
      have := Nat.lt_base_pow_length_digits (b := 10) (m := n) (by norm_num)
      exact lt_of_lt_of_le this (Nat.pow_le_pow_right (by norm_num) h)
    · intro h
      by_contra long
      push Not at long
      have := Nat.base_pow_length_digits_le 10 n (by norm_num) (by assumption)
      have big : 10 ^ (k + 1) ≤ 10 ^ (Nat.digits 10 n).length :=
        Nat.pow_le_pow_right (by norm_num) long
      rw [pow_succ] at big
      omega

/-- The bounded reader reads back every number that fits. -/
theorem parseDigits_decimal {maxDigits bound n : Nat} (hd : 0 < maxDigits)
    (hlen : n < 10 ^ maxDigits) (hn : n ≤ bound) :
    parseDigits maxDigits bound (decimal n) = some n :=
  parseDigits_eq_some.mpr ⟨decimal_ne_nil n, (decimal_length_le_iff hd).mpr hlen,
    decimal_digits n, digitsValue_decimal n, hn⟩

example : parseDigits 10 4294967295 (decimal 4294967295) = some 4294967295 := by decide

end Lib.Decimal
