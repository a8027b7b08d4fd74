import Metrology.Number.Literal
import Metrology.Number.Decimal
import Metrology.Number.Binary64

/-!
# Decimal floating-point numbers

A number in scientific notation keeps the digits that were written, `± coefficient · 10 ^ exponent`,
so that `1.50` and `1.5` are equal in value and differ in text. There are also the infinities and
two kinds of undefined number, which may carry digits as a payload. `Scientific.compare` orders two
numbers by their values, and looks at their digits only where the leading exponents agree.
-/

namespace Metrology

/-- A decimal floating-point number. -/
inductive Scientific
  /-- The number `± coefficient · 10 ^ exponent`. -/
  | finite (negative : Bool) (coefficient : Nat) (exponent : Int)
  /-- An infinity. -/
  | infinite (negative : Bool)
  /-- Not a number; `signaling` kinds announce themselves when they are used. -/
  | undefined (negative signaling : Bool) (payload : List Char)
  deriving DecidableEq, Repr

namespace Scientific

/-- How many decimal digits a number has. -/
def digitCount (n : Nat) : Nat :=
  -- The estimate falls short by at most two.
  let k := n.log2 * 30103 / 100000
  if n < Nat.pow 10 k then max 1 k else if n < Nat.pow 10 (k + 1) then k + 1 else k + 2

/-- The exponent of the leading digit of `n · 10 ^ e`. -/
def topExponent (n : Nat) (e : Int) : Int := e + digitCount n - 1

/-! ### Reading -/

/-- Whether a text is one of `names`, letter case set aside. -/
def isWordOf (names : List String) (cs : List Char) : Bool :=
  names.contains (String.ofList (cs.map Char.toLower))

/-- The digits behind a word at the front of a text, letter case set aside. -/
def payload? (word : String) (cs : List Char) : Option (List Char) :=
  let n := word.length
  let digits := cs.drop n
  if isWordOf [word] (cs.take n) && digits.all Text.isDigit then
    some ((digits.map fun c => Nat.digitChar (Text.digitValue c)).dropWhile (· == '0'))
  else none

/-- The greatest exponent of a leading digit that can be written. -/
def greatestWritten : Int := 999999999999999999

/-- The least exponent of a last digit that can be written. -/
def leastWritten : Int := -1999999999999999997

/-- The number that a text writes. Separators count for nothing, wherever they stand. -/
def ofText? (text : String) : Option Scientific :=
  let written := (Text.trimBlank text.toList).filter (· != '_')
  let (sign, unsigned) := signRow written
  let negative := sign == ['-']
  if isWordOf ["inf", "infinity"] unsigned then some (.infinite negative)
  else match payload? "nan" unsigned, payload? "snan" unsigned with
    | some payload, _ => some (.undefined negative false payload)
    | none, some payload => some (.undefined negative true payload)
    | none, none =>
      match Numeral.scan unsigned with
      | some (numeral, []) =>
        let n := rowValue (numeral.whole ++ numeral.fraction)
        let e := numeral.shift
        if numeral.hasDoubleMark || greatestWritten < topExponent n e || e < leastWritten then none
        else some (.finite negative n e)
      | _ => none

/-- The exact value of a number that has one. -/
def toRat? : Scientific → Option Rat
  | finite negative n e =>
    some (if n = 0 then 0 else Literal.withSign negative (n * Binary64.power 10 e))
  | infinite _ => none
  | undefined _ _ _ => none

/-- Whether a number lies between minus one and one. -/
def isSmall : Scientific → Bool
  | finite _ n e => n = 0 || topExponent n e < 0
  | _ => false

/-- An integer as a decimal number. -/
def ofInt (n : Int) : Scientific := finite (n < 0) n.natAbs 0

/-! ### Order -/

/-- How `m · 10 ^ e` and `n · 10 ^ f` compare. -/
def compareMagnitudes (m : Nat) (e : Int) (n : Nat) (f : Int) : Ordering :=
  if m = 0 ∨ n = 0 then Ord.compare m n
  else match Ord.compare (topExponent m e) (topExponent n f) with
    | .eq =>
      let least := min e f
      Ord.compare (m * Nat.pow 10 (e - least).toNat) (n * Nat.pow 10 (f - least).toNat)
    | o => o

/-- How two signed magnitudes compare, given whether each is negative, whether each is zero, and how
the magnitudes compare. -/
def compareSigned (a b aIsZero bIsZero : Bool) (magnitudes : Ordering) : Ordering :=
  match a && !aIsZero, b && !bIsZero with
  | true, true => magnitudes.swap
  | true, false => .lt
  | false, true => .gt
  | false, false => magnitudes

/-- How `± m · 10 ^ e` and an exact number compare. -/
def compareRat (negative : Bool) (m : Nat) (e : Int) (q : Rat) : Ordering :=
  let n := q.num.natAbs
  let width : Int := digitCount n - digitCount q.den
  let magnitudes :=
    if m = 0 ∨ n = 0 then Ord.compare m n
    else if width + 1 ≤ topExponent m e then .gt
    else if topExponent m e + 1 ≤ width - 1 then .lt
    else
      -- Both sides as integers over a common denominator.
      Ord.compare (m * Nat.pow 10 e.toNat * q.den) (n * Nat.pow 10 (-e).toNat)
  compareSigned negative (q < 0) (m = 0) (n = 0) magnitudes

/-! ### Writing -/

/-- The exponents of the leading digit from which on a number with a fraction is written out. -/
def leastPositional : Int := -6

/-- The digits of a coefficient with the point put `e` places from their end. -/
def finiteText (n : Nat) (e : Int) : List Char :=
  let ds := Decimal.digits n
  let top : Int := e + ds.length - 1
  if e ≤ 0 ∧ leastPositional ≤ top then
    if e = 0 then ds
    else
      let places := (-e).toNat
      let padded := List.replicate (places + 1 - ds.length) '0' ++ ds
      let width := padded.length - places
      padded.take width ++ '.' :: padded.drop width
  else
    let mantissa := match ds with
      | [] => []
      | [d] => [d]
      | d :: rest => d :: '.' :: rest
    mantissa ++ 'E' :: (if top < 0 then '-' else '+') :: Decimal.digits top.natAbs

/-- The number as it is written: digits and exponent are kept. -/
def text (x : Scientific) : String :=
  let signed (negative : Bool) (cs : List Char) :=
    String.ofList (if negative then '-' :: cs else cs)
  match x with
  | finite negative n e => signed negative (finiteText n e)
  | infinite negative => signed negative "Infinity".toList
  | undefined negative signaling payload =>
    signed negative ((if signaling then "sNaN".toList else "NaN".toList) ++ payload)

end Scientific

end Metrology
