import Metrology.Error

/-!
# Powers modulo an integer

A power modulo an integer is the remainder of the power, which has the sign of the modulus. Negative
exponents mean powers of the inverse, where there is one.
-/

namespace Metrology.Modular

/-- The remainder of a power of a natural number, by squaring. -/
def powerOf (modulus base exponent : Nat) : Nat :=
  if _h : exponent = 0 then 1 % modulus
  else
    let half := powerOf modulus base (exponent / 2)
    let square := half * half % modulus
    if exponent % 2 = 0 then square else square * base % modulus
termination_by exponent

/-- The first coefficient of Bézout's identity and the greatest common divisor, where `a` and `b`
are the last two remainders and `x` and `y` the coefficients that belong to them. -/
def bezout (a b : Nat) (x y : Int) : Int × Nat :=
  if _h : b = 0 then (x, a) else bezout b (a % b) y (x - (a / b : Nat) * y)
termination_by b
decreasing_by exact Nat.mod_lt a (Nat.pos_of_ne_zero _h)

/-- The inverse of an integer for a modulus. -/
def inverse (modulus : Nat) (a : Int) : Outcome Int :=
  let (x, divisor) := bezout (a % modulus).toNat modulus 1 0
  if divisor = 1 then .ok (x % modulus) else .error .notInvertible

/-- The power of an integer modulo an integer. -/
def power (base exponent modulus : Int) : Outcome Int := do
  if modulus = 0 then throw .notInvertible
  let m := modulus.natAbs
  let base ← if exponent < 0 then inverse m base else pure base
  let rest := powerOf m (base % m).toNat exponent.natAbs
  return if modulus < 0 ∧ rest ≠ 0 then rest - m else rest

end Metrology.Modular
