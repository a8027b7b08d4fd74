import Metrology.Error

/-!
# Exact arithmetic that can fail

Division and integer powers of rational numbers, with a cause where they have no value: division
by zero, and negative powers of zero. The power zero is one, that of zero included. Powers of zero,
one and minus one are known without multiplication, however large the exponent (`power_eq`).
-/

namespace Metrology.Exact

/-- The quotient of two numbers. -/
def div (a b : Rat) : Outcome Rat := if b = 0 then .error .divisionByZero else .ok (a / b)

/-- An integer power of a number; the negative powers of zero count as zero. -/
def power (q : Rat) (n : Int) : Rat :=
  if q = 0 then if n = 0 then 1 else 0
  else if q = 1 then 1
  else if q = -1 then if n % 2 = 0 then 1 else -1
  else q ^ n

/-- An integer power of a number. -/
def pow (q : Rat) (n : Int) : Outcome Rat :=
  if n < 0 ∧ q = 0 then .error .zeroToNegativePower else .ok (power q n)

/-- The sign of a number: one, zero or minus one. -/
def sign (q : Rat) : Int := if 0 < q then 1 else if q < 0 then -1 else 0

/-- The integer next to a number in the direction of zero. -/
def truncate (q : Rat) : Int := q.num.tdiv q.den

theorem mul_ne_zero {a b : Rat} (ha : a ≠ 0) (hb : b ≠ 0) : a * b ≠ 0 := by
  intro h
  rcases Rat.mul_eq_zero.mp h with h | h
  · exact ha h
  · exact hb h

theorem inv_ne_zero {a : Rat} (ha : a ≠ 0) : a⁻¹ ≠ 0 := by
  intro h
  have := Rat.mul_inv_cancel a ha
  rw [h, Rat.mul_zero] at this
  exact absurd this (by decide)

theorem div_ne_zero {a b : Rat} (ha : a ≠ 0) (hb : b ≠ 0) : a / b ≠ 0 := by
  rw [Rat.div_def]
  exact mul_ne_zero ha (inv_ne_zero hb)

theorem pow_nat_ne_zero {a : Rat} (ha : a ≠ 0) (n : Nat) : a ^ n ≠ 0 := by
  induction n with
  | zero =>
    rw [Rat.pow_zero]
    decide
  | succ n ih =>
    rw [Rat.pow_succ]
    exact mul_ne_zero ih ha

theorem zpow_negSucc (a : Rat) (n : Nat) : a ^ Int.negSucc n = (a ^ (n + 1))⁻¹ := by
  rw [Int.negSucc_eq, Rat.zpow_neg, ← Rat.zpow_natCast]
  rfl

theorem zpow_ne_zero {a : Rat} (ha : a ≠ 0) (n : Int) : a ^ n ≠ 0 := by
  cases n with
  | ofNat n =>
    have := pow_nat_ne_zero ha n
    rwa [← Rat.zpow_natCast] at this
  | negSucc n =>
    rw [zpow_negSucc]
    exact inv_ne_zero (pow_nat_ne_zero ha (n + 1))

theorem zero_pow_succ (n : Nat) : (0 : Rat) ^ (n + 1) = 0 := by
  rw [Rat.pow_succ, Rat.mul_zero]

theorem one_pow (n : Nat) : (1 : Rat) ^ n = 1 := by
  induction n with
  | zero => exact Rat.pow_zero 1
  | succ n ih => rw [Rat.pow_succ, ih, Rat.mul_one]

theorem neg_one_pow (n : Nat) : (-1 : Rat) ^ n = if n % 2 = 0 then 1 else -1 := by
  induction n with
  | zero => exact Rat.pow_zero (-1)
  | succ n ih =>
    rw [Rat.pow_succ, ih]
    by_cases h : n % 2 = 0
    · rw [if_pos h, if_neg (by omega), Rat.one_mul]
    · rw [if_neg h, if_pos (by omega)]
      decide +kernel

/-- The shortcuts give what multiplication gives. -/
theorem power_eq (q : Rat) (n : Int) : power q n = q ^ n := by
  unfold power
  split
  · -- Powers of zero.
    rename_i hq
    subst hq
    cases n with
    | ofNat n =>
      cases n with
      | zero => exact (Rat.zpow_zero 0).symm
      | succ n =>
        rw [if_neg (by simp only [Int.ofNat_eq_natCast]; omega), Int.ofNat_eq_natCast,
          Rat.zpow_natCast, zero_pow_succ]
    | negSucc n =>
      rw [if_neg (by simp), zpow_negSucc, zero_pow_succ]
      decide +kernel
  · split
    · -- Powers of one.
      rename_i hq
      subst hq
      cases n with
      | ofNat n => rw [Int.ofNat_eq_natCast, Rat.zpow_natCast, one_pow]
      | negSucc n =>
        rw [zpow_negSucc, one_pow]
        decide +kernel
    · split
      · -- Powers of minus one, which go by the parity of the exponent.
        rename_i hq
        subst hq
        cases n with
        | ofNat n =>
          rw [Int.ofNat_eq_natCast, Rat.zpow_natCast, neg_one_pow]
          by_cases h : n % 2 = 0
          · rw [if_pos h, if_pos (by omega)]
          · rw [if_neg h, if_neg (by omega)]
        | negSucc n =>
          rw [zpow_negSucc, neg_one_pow]
          by_cases h : (n + 1) % 2 = 0
          · rw [if_pos h, if_pos (by rw [Int.negSucc_eq]; omega)]
            decide +kernel
          · rw [if_neg h, if_neg (by rw [Int.negSucc_eq]; omega)]
            decide +kernel
      · rfl

theorem power_ne_zero {a : Rat} (ha : a ≠ 0) (n : Int) : power a n ≠ 0 := by
  rw [power_eq]
  exact zpow_ne_zero ha n

end Metrology.Exact
