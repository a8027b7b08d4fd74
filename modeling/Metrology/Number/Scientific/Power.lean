import Metrology.Number.Modular
import Metrology.Number.Scientific.Arithmetic

/-!
# Powers of decimal numbers

An integer power is computed by squaring, with as many further digits as the exponent has; any other
power by exponential and logarithm, in fixed-point arithmetic with so many places that the digits of
the result are right. Powers that would be too large fail and those that would be too small are
zero, both without being computed.
-/

namespace Metrology.Scientific

/-! ### Exponential and logarithm -/

/-- How many places a fixed-point number has. -/
def places : Nat := 80

/-- The fixed-point number one. -/
def fixedOne : Nat := Nat.pow 10 places

/-- How many terms of a series are summed up at most. -/
def termLimit : Nat := 1000

/-- The terms `z ^ n / n` of every second power from the given one on. -/
def arcTerms (square : Nat) : Nat → Nat → Nat → Nat
  | 0, _, _ => 0
  | fuel + 1, n, power =>
    if power = 0 then 0 else power / n + arcTerms square fuel (n + 2) (power * square / fixedOne)

/-- The natural logarithm of a fixed-point number that is at least one and at most ten. -/
def fixedLog (m : Nat) : Nat :=
  let z := (m - fixedOne) * fixedOne / (m + fixedOne)
  2 * arcTerms (z * z / fixedOne) termLimit 1 z

/-- The natural logarithm of ten. -/
def logTen : Nat := fixedLog (10 * fixedOne)

/-- The terms `r ^ n / n!` from the given one on. -/
def expTerms (r : Nat) : Nat → Nat → Nat → Nat
  | 0, _, _ => 0
  | fuel + 1, n, term =>
    if term = 0 then 0 else term + expTerms r fuel (n + 1) (term * r / (fixedOne * (n + 1)))

/-- The exponential of a fixed-point number. -/
def fixedExp (r : Nat) : Nat := expTerms r termLimit 0 fixedOne

/-- The natural logarithm of `n · 10 ^ e` as a fixed-point number; `n` is not zero. -/
def logOf (n : Nat) (e : Int) : Int :=
  let top := topExponent n e
  -- The coefficient with the point behind its first digit.
  let leading := n * fixedOne / Nat.pow 10 (digitCount n - 1)
  fixedLog leading + top * logTen

/-- A fixed-point number times `± n · 10 ^ e`. -/
def scaledBy (x : Int) (negative : Bool) (n : Nat) (e : Int) : Int :=
  let product := x * (if negative then -(n : Int) else n)
  if 0 ≤ e then product * Nat.pow 10 e.toNat
  -- Nothing is left of a product with fewer digits than are cut off.
  else if (digitCount product.natAbs : Int) < -e then 0
  else product / (Nat.pow 10 (-e).toNat : Nat)

/-! ### Powers -/

/-- Whether `n · 10 ^ e` is an integer. -/
def isInteger (n : Nat) (e : Int) : Bool :=
  n = 0 || 0 ≤ e || (-e ≤ digitCount n && n % Nat.pow 10 (-e).toNat = 0)

/-- The integer `n · 10 ^ e`. -/
def wholeValue (n : Nat) (e : Int) : Nat :=
  if 0 ≤ e then n * Nat.pow 10 e.toNat else n / Nat.pow 10 (-e).toNat

/-- Whether the integer `n · 10 ^ e` is odd. -/
def isOdd (n : Nat) (e : Int) : Bool := e ≤ 0 && wholeValue n e % 2 = 1

/-- The power of `n · 10 ^ e` with at most `width` digits. -/
def squaredPower (width n : Nat) (e : Int) (exponent : Nat) : Nat × Int :=
  if _h : exponent = 0 then (1, 0)
  else
    let (m, f) := squaredPower width n e (exponent / 2)
    let (m, f) := squeezed width (f + f) (m * m) (f + f)
    if exponent % 2 = 0 then (m, f) else squeezed width (f + e) (m * n) (f + e)
termination_by exponent

/-- Powers whose leading digit lies beyond this decade are too large or too small without doubt. -/
def farDecade : Int := 1000100

/-- The power of `n · 10 ^ e` and the number `± m · 10 ^ f`, both not zero. -/
def magnitudePower (result : Bool) (n : Nat) (e : Int) (negative : Bool) (m : Nat) (f : Int) :
    Outcome Scientific :=
  -- An exponent of that size matters only for its sign.
  let power := scaledBy (logOf n e) negative m (min f 100)
  let decade := power / logTen
  if farDecade < decade then .error .beyondDecimals
  else if decade < -farDecade then rounded result 0 leastUnit
  else if isInteger m f then
    let exponent := wholeValue m (min f 100)
    let width := precision + digitCount exponent + 6
    let (n, e) := if negative then longQuotient width 1 0 n e else (n, e)
    let (c, d) := squaredPower width n e exponent
    rounded result c d
  else
    let rest := (power - decade * logTen).toNat
    rounded result (fixedExp rest) (decade - places)

/-- The power of a number that is not zero and an infinity. -/
def infinitePower (n : Nat) (e : Int) (negative : Bool) : Outcome Scientific :=
  match compareMagnitudes n e 1 0 with
  | .eq => .ok (finite false 1 0)
  | o => .ok (if (o = .lt) = (negative = true) then infinite false else finite false 0 0)

/-- The power of two numbers. -/
def pow (x y : Scientific) : Outcome Scientific :=
  match undefinedResult? x y with
  | some result => result
  | none =>
    let oddExponent := match y with
      | finite _ m f => isInteger m f && isOdd m f
      | _ => false
    let negative := x.isNegative && oddExponent
    let integerExponent := match y with
      | finite _ m f => isInteger m f
      | _ => false
    if x.isZero then
      if y.isZero then .error .undefinedOperation
      else .ok (if y.isNegative then infinite negative else finite negative 0 0)
    else if x.isNegative && !integerExponent then .error .undefinedOperation
    else match x, y with
      | finite _ n e, finite b m f =>
        if m = 0 then .ok (finite false 1 0) else magnitudePower negative n e b m f
      | finite _ n e, _ => infinitePower n e y.isNegative
      | _, y =>
        if y.isZero then .ok (finite false 1 0)
        else .ok (if y.isNegative then finite negative 0 0 else infinite negative)

/-- The remainder of the integer `n · 10 ^ e`. -/
def remainderOf (modulus n : Nat) (e : Int) : Nat :=
  if e < 0 then wholeValue n e % modulus
  else n % modulus * Modular.powerOf modulus 10 e.toNat % modulus

/-- The remainder of the power of `base` with the integer exponent `n · 10 ^ e`: the base is raised
to its tenth power as often as `e` says. -/
def remainderOfPower (modulus base n : Nat) (e : Int) : Nat :=
  if e < 0 then Modular.powerOf modulus base (wholeValue n e)
  else Modular.powerOf modulus (e.toNat.repeat (fun b => Modular.powerOf modulus b 10) base) n

/-- The power of two integers modulo a third, of which a power of zero to zero and negative powers
are none, nor powers modulo zero or a number with too many digits. -/
def powMod (x y z : Scientific) : Outcome Scientific :=
  if x.isSignaling || y.isSignaling || z.isSignaling then .error .undefinedOperation
  else if !x.isDefined then x.asResult
  else if !y.isDefined then y.asResult
  else if !z.isDefined then z.asResult
  else match x, y, z with
    | finite a m e, finite b n f, finite _ k g =>
      if !(isInteger m e && isInteger n f && isInteger k g) || k = 0 ||
          (precision : Int) ≤ topExponent k g || (b && n ≠ 0) || (m = 0 && n = 0) then
        .error .undefinedOperation
      else
        let modulus := wholeValue k g
        let rest := remainderOfPower modulus (remainderOf modulus m e) n f
        .ok (finite (a && isOdd n f) rest 0)
    | _, _, _ => .error .undefinedOperation

end Metrology.Scientific
