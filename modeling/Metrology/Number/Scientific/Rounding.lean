import Metrology.Error
import Metrology.Number.Scientific

/-!
# Rounding of decimal numbers

The results of decimal arithmetic have a bounded number of digits and a bounded exponent. What has
more digits is rounded to the nearest number with so many, a half going to the even neighbour; what
lies below the least exponent keeps fewer digits, down to none; and what lies above the greatest is
a failure.
-/

namespace Metrology.Scientific

/-- Results have at most this many digits. -/
def precision : Nat := 28

/-- The greatest exponent of the leading digit of a result. -/
def greatestTop : Int := 999999

/-- The least exponent of the leading digit of a result that keeps all its digits. -/
def leastTop : Int := -999999

/-- The least exponent of the last digit of a result. -/
def leastUnit : Int := leastTop - (precision - 1)

/-- A coefficient without its last `places` digits, rounded, a half going to the even neighbour. -/
def dropDigits (n places : Nat) : Nat :=
  if digitCount n < places then 0
  else
    let unit := Nat.pow 10 places
    let below := n / unit
    let excess := 2 * (n % unit)
    if excess < unit then below
    else if unit < excess then below + 1
    else below + below % 2

/-- A coefficient and an exponent rounded to at most `width` digits, none of them below `least`. -/
def squeezed (width : Nat) (least : Int) (n : Nat) (e : Int) : Nat × Int :=
  let excess := max (digitCount n - width) (least - e).toNat
  let kept := dropDigits n excess
  -- Rounding up may carry into one digit more.
  if width < digitCount kept then (kept / 10, e + excess + 1) else (kept, e + excess)

/-- The result next to `± n · 10 ^ e`. -/
def rounded (negative : Bool) (n : Nat) (e : Int) : Outcome Scientific :=
  let (n, e) := squeezed precision leastUnit n e
  if n = 0 then .ok (finite negative 0 (min e greatestTop))
  else if greatestTop < topExponent n e then .error .beyondDecimals
  else .ok (finite negative n e)

/-- An operand as the result of an operation that changes nothing else about it. -/
def asResult : Scientific → Outcome Scientific
  | finite negative n e => rounded negative n e
  | infinite negative => .ok (infinite negative)
  | undefined _ true _ => .error .undefinedOperation
  | undefined negative false payload =>
    -- Of a payload the last digits are kept.
    let kept := payload.drop (payload.length - precision)
    .ok (undefined negative false (kept.dropWhile (· == '0')))

end Metrology.Scientific
