import Metrology.Number.Scientific.Rounding

/-!
# Arithmetic of decimal numbers

Sums, products, quotients and remainders are the exact results, rounded once. An operation without a
result, such as the difference of two infinities, fails; so does every operation on an undefined
number that announces itself, while one that does not is the result of the operation.
-/

namespace Metrology.Scientific

/-- Whether a number is negative; zeros have signs too. -/
def isNegative : Scientific → Bool
  | finite negative _ _ => negative
  | infinite negative => negative
  | undefined negative _ _ => negative

/-- A number with the sign asked for. -/
def withSign (negative : Bool) : Scientific → Scientific
  | finite _ n e => finite negative n e
  | infinite _ => infinite negative
  | undefined _ signaling payload => undefined negative signaling payload

/-- Whether a number is one of the zeros. -/
def isZero : Scientific → Bool
  | finite _ n _ => n = 0
  | _ => false

/-- Whether a number is finite or infinite. -/
def isDefined : Scientific → Bool
  | undefined _ _ _ => false
  | _ => true

/-- Whether a number is undefined and announces itself. -/
def isSignaling : Scientific → Bool
  | undefined _ signaling _ => signaling
  | _ => false

/-- The undefined operand that is the result of an operation, if there is one. -/
def undefinedResult? (x y : Scientific) : Option (Outcome Scientific) :=
  if x.isSignaling || y.isSignaling then some (.error .undefinedOperation)
  else if !x.isDefined then some x.asResult
  else if !y.isDefined then some y.asResult
  else none

/-- The number of the opposite sign. A zero has no sign afterwards. -/
def neg (x : Scientific) : Outcome Scientific :=
  if x.isDefined then (x.withSign (!x.isNegative && !x.isZero)).asResult else x.asResult

/-- The number itself, rounded. A zero has no sign afterwards. -/
def pos (x : Scientific) : Outcome Scientific :=
  if x.isZero then (x.withSign false).asResult else x.asResult

/-- The absolute value. -/
def abs (x : Scientific) : Outcome Scientific :=
  if x.isDefined then (x.withSign false).asResult else x.asResult

/-! ### Sums -/

/-- The smaller summand `n · 10 ^ f` as it counts beside `m · 10 ^ e`: what is too small to be seen
in the result is as good as one unit just below its digits, and the places of a zero count only as
far as the result has digits. -/
def besides (m : Nat) (e : Int) (n : Nat) (f : Int) : Nat × Int :=
  let floor := e + min (-1) ((digitCount m : Int) - precision - 2)
  if m = 0 then (n, f)
  else if n = 0 then (0, max f (e - precision - 1))
  else if f < e ∧ topExponent n f < floor then (1, floor)
  else (n, f)

/-- The sum of two numbers. -/
def add (x y : Scientific) : Outcome Scientific :=
  match undefinedResult? x y with
  | some result => result
  | none =>
    match x, y with
    | finite a m e, finite b n f =>
      let (n', f') := besides m e n f
      let (m', e') := besides n f m e
      let least := min e' f'
      let summand (negative : Bool) (n : Nat) (e : Int) : Int :=
        let n : Int := if n = 0 then 0 else n * Nat.pow 10 (e - least).toNat
        if negative then -n else n
      let sum := summand a m' e' + summand b n' f'
      rounded (if sum = 0 then a && b else sum < 0) sum.natAbs least
    | infinite a, infinite b => if a = b then .ok (infinite a) else .error .undefinedOperation
    | infinite a, _ => .ok (infinite a)
    | _, y => .ok y

/-- The difference of two numbers. -/
def sub (x y : Scientific) : Outcome Scientific :=
  match undefinedResult? x y with
  | some result => result
  | none => x.add (y.withSign !y.isNegative)

/-! ### Products and quotients -/

/-- The product of two numbers. -/
def mul (x y : Scientific) : Outcome Scientific :=
  match undefinedResult? x y with
  | some result => result
  | none =>
    match x, y with
    | finite a m e, finite b n f => rounded (a != b) (m * n) (e + f)
    | x, y =>
      if x.isZero || y.isZero then .error .undefinedOperation
      else .ok (infinite (x.isNegative != y.isNegative))

/-- A coefficient and an exponent without zeros at the end of the coefficient, as long as the
exponent stays at most `e`. -/
def stripped : Nat → Int → Nat → Int → Nat × Int
  | 0, _, n, f => (n, f)
  | fuel + 1, e, n, f =>
    if f < e ∧ n % 10 = 0 ∧ n ≠ 0 then stripped fuel e (n / 10) (f + 1) else (n, f)

/-- The quotient `m · 10 ^ e / (n · 10 ^ f)` with more than `width` digits, of which the last one
says whether it is exact. -/
def longQuotient (width m : Nat) (e : Int) (n : Nat) (f : Int) : Nat × Int :=
  let shift := digitCount n + width + 1 - digitCount m
  let dividend := m * Nat.pow 10 shift
  let quotient := dividend / n
  let exponent := e - f - shift
  if dividend % n = 0 then stripped (width + 1 + shift) (e - f) quotient exponent
  else (if quotient % 5 = 0 then quotient + 1 else quotient, exponent)

/-- The quotient of two numbers. -/
def div (x y : Scientific) : Outcome Scientific :=
  match undefinedResult? x y with
  | some result => result
  | none =>
    let negative := x.isNegative != y.isNegative
    match x, y with
    | finite _ m e, finite _ n f =>
      if n = 0 then
        .error (if m = 0 then .undefinedOperation else .decimalDivisionByZero)
      else if m = 0 then rounded negative 0 (e - f)
      else
        let (quotient, exponent) := longQuotient precision m e n f
        rounded negative quotient exponent
    | infinite _, infinite _ => .error .undefinedOperation
    | infinite _, _ => .ok (infinite negative)
    | _, _ => .ok (finite negative 0 leastUnit)

/-- The integer part of the quotient of two numbers and the remainder; a quotient with too many
digits is none. -/
def divMod (x y : Scientific) : Outcome (Scientific × Scientific) :=
  match undefinedResult? x y with
  | some result => do
    let r ← result
    return (r, r)
  | none =>
    let negative := x.isNegative != y.isNegative
    match x, y with
    | finite a m e, finite _ n f =>
      let least := min e f
      if n = 0 then .error .undefinedOperation
      else if m = 0 then do return (finite negative 0 0, ← rounded a 0 least)
      else if topExponent m e + 1 < topExponent n f then do
        return (finite negative 0 0, ← rounded a (m * Nat.pow 10 (e - least).toNat) least)
      else if topExponent n f + precision < topExponent m e then .error .undefinedOperation
      else
        let dividend := m * Nat.pow 10 (e - least).toNat
        let divisor := n * Nat.pow 10 (f - least).toNat
        let quotient := dividend / divisor
        if precision < digitCount quotient then .error .undefinedOperation
        else do return (finite negative quotient 0, ← rounded a (dividend % divisor) least)
    | infinite _, _ => .error .undefinedOperation
    | x, _ => do return (finite negative 0 0, ← x.asResult)

end Metrology.Scientific
