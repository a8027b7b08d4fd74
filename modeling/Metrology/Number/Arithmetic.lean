import Metrology.Number.Modular
import Metrology.Number.Number
import Metrology.Number.Scientific.Power

/-!
# Arithmetic of other formats

Two integers give an integer, but for their quotient, which is a double. A fraction beside a
fraction or an integer gives a fraction, and a double turns every number beside it into a double,
but for decimal numbers, which combine with integers and among themselves only. Sums, products and
quotients of doubles are the doubles nearest to the exact results; a zero has the sign that the
operands give it.
-/

namespace Metrology

namespace Binary64

/-- The double with the given 64 bits. -/
def ofBits (n : Nat) : Binary64 :=
  let half := mantissaBound / 2
  let negative : Bool := n / 0x8000000000000000 % 2 = 1
  let mantissa := n % half
  match n / half % 2048 with
  | 0 => finite negative mantissa leastExponent
  | 2047 => if mantissa = 0 then infinite negative else undefined negative
  | exponent + 1 => finite negative (half + mantissa) (leastExponent + exponent)

/-- Whether a double is one of the two zeros. -/
def isZero : Binary64 → Bool
  | finite _ m _ => m = 0
  | _ => false

/-- Whether a double has a minus sign. -/
def isNegative : Binary64 → Bool
  | finite negative _ _ => negative
  | infinite negative => negative
  | undefined negative => negative

/-- Whether a double is no number. -/
def isUndefined : Binary64 → Bool
  | undefined _ => true
  | _ => false

/-- The double that operations without a result give. -/
def noResult : Binary64 := undefined true

/-- A double with the sign asked for. -/
def withSign (negative : Bool) : Binary64 → Binary64
  | finite _ m e => finite negative m e
  | infinite _ => infinite negative
  | undefined _ => undefined negative

/-- The zero with the sign of a double. -/
def withMagnitudeZero (x : Binary64) : Binary64 := finite x.isNegative 0 leastExponent

/-- The double of the opposite sign. -/
def neg (x : Binary64) : Binary64 := x.withSign !x.isNegative

/-- The sum of two doubles. Of two that are no numbers the first is the result, here as in all
operations. -/
def add : Binary64 → Binary64 → Binary64
  | undefined a, _ => undefined a
  | _, undefined b => undefined b
  | infinite a, infinite b => if a = b then infinite a else noResult
  | infinite a, finite _ _ _ => infinite a
  | finite _ _ _, infinite b => infinite b
  | finite a m e, finite b n f =>
    let q := Literal.withSign a (m * power 2 e) + Literal.withSign b (n * power 2 f)
    nearestMagnitude (if q = 0 then a && b else q < 0) q.abs

/-- The difference of two doubles. -/
def sub (x y : Binary64) : Binary64 := if y.isUndefined then x.add y else x.add y.neg

/-- The product of two doubles. -/
def mul (x y : Binary64) : Binary64 :=
  let negative := x.isNegative != y.isNegative
  match x, y with
  | undefined a, _ => undefined a
  | _, undefined b => undefined b
  | finite _ m e, finite _ n f => nearestMagnitude negative (m * power 2 e * (n * power 2 f))
  | _, _ => if x.isZero || y.isZero then noResult else infinite negative

/-- The quotient of two doubles, of which the second is not zero. -/
def div (x y : Binary64) : Outcome Binary64 :=
  let negative := x.isNegative != y.isNegative
  if y.isZero then .error .zeroDenominator
  else match x, y with
    | undefined a, _ => .ok (undefined a)
    | _, undefined b => .ok (undefined b)
    | finite _ m e, finite _ n f =>
      .ok (nearestMagnitude negative (m * power 2 e / (n * power 2 f)))
    | infinite _, finite _ _ _ => .ok (infinite negative)
    | finite _ _ _, infinite _ => .ok (finite negative 0 leastExponent)
    | infinite _, infinite _ => .ok noResult

/-- The remainder of the division of two doubles, with the sign of the first; it is exact. -/
def remainder : Binary64 → Binary64 → Binary64
  | undefined a, _ => undefined a
  | _, undefined b => undefined b
  | finite a m e, finite _ n f =>
    if n = 0 then noResult
    else
      let x := m * power 2 e
      let y := n * power 2 f
      nearestMagnitude a (x - y * (x / y).floor)
  | finite a m e, infinite _ => finite a m e
  | infinite _, _ => noResult

/-- The double of the integer at or below a double. -/
def floor (x : Binary64) : Binary64 :=
  match x.toRat? with
  | some q => if q.floor = 0 then x.withMagnitudeZero else nearest q.floor
  | none => x

/-- The quotient of two doubles as an integer and the remainder, each step taken with doubles: the
remainder is exact, and the quotient of what it leaves is moved to the next integer. -/
def divMod (x y : Binary64) : Outcome (Binary64 × Binary64) := do
  if y.isZero then throw .zeroDenominator
  let rest := x.remainder y
  let quotient ← (x.sub rest).div y
  let flips := !rest.isZero && !rest.isUndefined && rest.isNegative != y.isNegative
  let one := nearest 1
  let quotient := if flips then quotient.sub one else quotient
  let rest := if flips then rest.add y else if rest.isZero then rest.withSign y.isNegative else rest
  let below := quotient.floor
  let whole ← if quotient.isZero then (·.withMagnitudeZero) <$> x.div y
    else pure (if 1 / 2 < (quotient.sub below).toRat?.getD 0 then below.add one else below)
  return (whole, rest)

/-- Whether a double is a number with a fraction. -/
def hasFraction (x : Binary64) : Bool := x.toRat?.any fun q => q.den ≠ 1

/-- The power of two doubles as the machine computes it. -/
def machinePower (x y : Binary64) : Binary64 :=
  let asFloat (z : Binary64) : Float := Float.ofBits (UInt64.ofNat z.bits)
  ofBits (Float.pow (asFloat x) (asFloat y)).toBits.toNat

/-- Whether a double is finite. -/
def isFinite (x : Binary64) : Bool := x.toRat?.isSome

/-- The power of two doubles. There is none for a zero and a negative exponent, nor for a negative
number and an exponent with a fraction; the latter is said only of powers within range. Every power
with the exponent zero is one, and so is every power of one. -/
def pow (x y : Binary64) : Outcome Binary64 :=
  if y.isZero then .ok (nearest 1)
  else if x.isUndefined then .ok x
  else if y.isUndefined then .ok (if x.toRat? = some 1 then x else y)
  else if x.isZero && y.isNegative && y.isFinite then .error .zeroDenominator
  else
    let isReal := !(x.isFinite && x.isNegative && !x.isZero && y.hasFraction)
    let result := machinePower (if isReal then x else x.neg) y
    if x.isFinite && y.isFinite && !result.isFinite then .error .beyondDoubles
    else if isReal then .ok result
    else .error .unsupportedOperands

/-- The double nearest to a number that is not beyond the range of doubles. -/
def ofRat (q : Rat) : Outcome Binary64 :=
  match nearest q with
  | infinite _ => .error .beyondDoubles
  | x => .ok x

end Binary64

namespace Number

/-- The value of a number that is kept exactly. -/
def exactValue? : Number → Option Rat
  | integer n => some n
  | rational q => some q
  | fraction q => some q
  | double _ => none
  | decimal _ => none

/-- The integer that a number kept exactly is equal to. -/
def whole? (n : Number) : Option Int :=
  match n.exactValue? with
  | some q => if q.den = 1 then some q.num else none
  | none => none

/-- A number as a double. -/
def toDouble (n : Number) : Outcome Binary64 :=
  match n, n.exactValue? with
  | double x, _ => .ok x
  | _, some q => Binary64.ofRat q
  | _, none => .error .unsupportedOperands

/-- Two numbers in the format in which they combine. -/
inductive Common
  | integers (a b : Int)
  | fractions (a b : Rat)
  | doubles (a b : Binary64)
  | decimals (a b : Scientific)
  deriving DecidableEq, Repr

/-- Brings two numbers to the format in which they combine. -/
def common (a b : Number) : Outcome Common :=
  match a, b, a.exactValue?, b.exactValue? with
  | integer m, integer n, _, _ => .ok (.integers m n)
  | decimal x, decimal y, _, _ => .ok (.decimals x y)
  | decimal x, integer n, _, _ => .ok (.decimals x (.ofInt n))
  | integer m, decimal y, _, _ => .ok (.decimals (.ofInt m) y)
  | decimal _, _, _, _ => .error .unsupportedOperands
  | _, decimal _, _, _ => .error .unsupportedOperands
  | _, _, some p, some q => .ok (.fractions p q)
  | _, _, _, _ => do return .doubles (← a.toDouble) (← b.toDouble)

/-- The sum of two numbers. -/
def add (a b : Number) : Outcome Number := do
  match ← common a b with
  | .integers m n => return integer (m + n)
  | .fractions p q => return fraction (p + q)
  | .doubles x y => return double (x.add y)
  | .decimals x y => return decimal (← x.add y)

/-- The difference of two numbers. -/
def sub (a b : Number) : Outcome Number := do
  match ← common a b with
  | .integers m n => return integer (m - n)
  | .fractions p q => return fraction (p - q)
  | .doubles x y => return double (x.sub y)
  | .decimals x y => return decimal (← x.sub y)

/-- The product of two numbers. -/
def mul (a b : Number) : Outcome Number := do
  match ← common a b with
  | .integers m n => return integer (m * n)
  | .fractions p q => return fraction (p * q)
  | .doubles x y => return double (x.mul y)
  | .decimals x y => return decimal (← x.mul y)

/-- The quotient of two numbers. -/
def div (a b : Number) : Outcome Number := do
  match ← common a b with
  | .integers m n =>
    if n = 0 then throw .zeroDenominator
    else return double ((← Binary64.ofRat (Rat.divInt m n)).withSign ((m < 0) != (n < 0)))
  | .fractions p q => if q = 0 then throw .zeroDenominator else return fraction (p / q)
  | .doubles x y => return double (← x.div y)
  | .decimals x y => return decimal (← x.div y)

/-- The quotient of two numbers as an integer, in the format of the two, and the remainder. -/
def divMod (a b : Number) : Outcome (Number × Number) := do
  match ← common a b with
  | .integers m n =>
    if n = 0 then throw .zeroDenominator else return (integer (m.fdiv n), integer (m.fmod n))
  | .fractions p q =>
    if q = 0 then throw .zeroDenominator
    else
      let whole := (p / q).floor
      return (integer whole, fraction (p - q * whole))
  | .doubles x y => do
    let (q, r) ← x.divMod y
    return (double q, double r)
  | .decimals x y => do
    let (q, r) ← x.divMod y
    return (decimal q, decimal r)

/-- An exponent as it counts for a base that keeps no exact value: an integer of whatever format is
itself, and any other exact number is a double. -/
def looseExponent (b : Number) : Outcome Number :=
  match b, b.whole? with
  | integer n, _ => .ok (integer n)
  | _, some n => .ok (integer n)
  | _, none => if b.exactValue?.isSome then double <$> b.toDouble else .ok b

/-- The power of two numbers. An integer exponent of whatever format keeps an exact base exact; only
the negative power of one integer and another is a double. -/
def pow (a b : Number) : Outcome Number :=
  match a, b, a.exactValue?, b.whole? with
  | decimal x, _, _, _ => do
    match ← b.looseExponent with
    | integer n => return decimal (← x.pow (.ofInt n))
    | decimal y => return decimal (← x.pow y)
    | _ => throw .unsupportedOperands
  | integer m, decimal y, _, _ => decimal <$> (Scientific.ofInt m).pow y
  | _, decimal _, _, _ => do
    -- The base is looked at first.
    let _ ← a.toDouble
    throw .unsupportedOperands
  | integer m, _, some q, some e =>
    if 0 ≤ e then .ok (integer (Exact.power q e).num)
    else match b with
      | integer _ => do return double (← (← Binary64.ofRat m).pow (← Binary64.ofRat e))
      | _ => if m = 0 then .error .zeroDenominator else .ok (fraction (Exact.power q e))
  | _, _, some q, some e =>
    if q = 0 ∧ e < 0 then .error .zeroDenominator else .ok (fraction (Exact.power q e))
  | _, _, _, _ => do return double (← (← a.toDouble).pow (← b.toDouble))

/-- A number as a decimal number, which only integers can be taken for. -/
def toDecimal : Number → Outcome Scientific
  | integer n => .ok (.ofInt n)
  | decimal x => .ok x
  | _ => .error .unsupportedOperands

/-- The power of two numbers modulo a third; only integers and decimal numbers have such powers. -/
def powMod (a b m : Number) : Outcome Number :=
  match a, b, m with
  | integer a, integer b, integer m => integer <$> Modular.power a b m
  | _, _, _ => do
    if !(a.isDecimal || b.isDecimal || m.isDecimal) then throw .unsupportedOperands
    return decimal (← Scientific.powMod (← a.toDecimal) (← b.toDecimal) (← m.toDecimal))

/-- The number of the opposite sign. -/
def neg : Number → Outcome Number
  | integer n => .ok (integer (-n))
  | rational q => .ok (rational (-q))
  | fraction q => .ok (fraction (-q))
  | double x => .ok (double x.neg)
  | decimal x => decimal <$> x.neg

/-- A number itself, in the digits that results have. -/
def pos : Number → Outcome Number
  | decimal x => decimal <$> x.pos
  | n => .ok n

/-- The absolute value of a number. -/
def abs : Number → Outcome Number
  | integer n => .ok (integer n.natAbs)
  | rational q => .ok (rational q.abs)
  | fraction q => .ok (fraction q.abs)
  | double x => .ok (double (x.withSign false))
  | decimal x => decimal <$> x.abs

/-- The integer next to a number in the direction of zero. -/
def truncate (n : Number) : Outcome Int :=
  let isSmall := match n with
    | decimal x => x.isSmall
    | _ => false
  if isSmall then .ok 0
  else match n.position with
    | .point q => .ok (Exact.truncate q)
    | .infinite _ => .error .beyondDoubles
    | .nowhere => .error .undefinedDouble

end Number

end Metrology
