/-!
# Numbers as text

`render places q` writes `q` in decimal notation with at most `places` digits behind the point: the
absolute value is rounded to that many places, a half going up, and zeros at the end of the
fraction are left out. A zero is never negative. `exactText q` writes `q` without loss, as an
integer or a quotient.
-/

namespace Metrology.Decimal

/-- The decimal digits of a number. -/
def digits (n : Nat) : List Char := Nat.toDigits 10 n

/-- The last `places` decimal digits of a number, filled with zeros. -/
def lastDigits : Nat → Nat → List Char
  | 0, _ => []
  | places + 1, n => lastDigits places (n / 10) ++ [Nat.digitChar (n % 10)]

/-- The integer nearest to `n / d`, a half going up. -/
def roundHalfUp (n d : Nat) : Nat := n / d + if d ≤ 2 * (n % d) then 1 else 0

/-- A row of digits without the zeros at its end. -/
def stripZeros (cs : List Char) : List Char := (cs.reverse.dropWhile (· == '0')).reverse

/-- The number `n / 10 ^ places` in decimal notation. -/
def unsignedText (places n : Nat) : List Char :=
  let whole := digits (n / Nat.pow 10 places)
  match stripZeros (lastDigits places n) with
  | [] => whole
  | fraction => whole ++ '.' :: fraction

/-- A number in decimal notation, rounded to the given number of places. -/
def render (places : Nat) (q : Rat) : String :=
  let n := roundHalfUp (q.num.natAbs * Nat.pow 10 places) q.den
  String.ofList ((if q.num < 0 ∧ n ≠ 0 then ['-'] else []) ++ unsignedText places n)

/-- A number written exactly, with a slash before its denominator unless that is one. -/
def exactText (q : Rat) : String := if q.den = 1 then s!"{q.num}" else s!"{q.num}/{q.den}"

end Metrology.Decimal
