import Metrology.Number.Literal
import Metrology.Number.Decimal

/-!
# Doubles

A double is `± mantissa · 2 ^ exponent` with a mantissa of at most 53 bits, an infinity, or no
number at all. `Binary64.nearest` rounds a number to the nearest double, ties going to the even
mantissa; `Binary64.shortest` is the other direction: of the decimal numbers with the fewest
digits that round to a given double, the one nearest to it.
-/

namespace Metrology

/-- A double-precision number. -/
inductive Binary64
  /-- The number `± mantissa · 2 ^ exponent`. -/
  | finite (negative : Bool) (mantissa : Nat) (exponent : Int)
  /-- An infinity. -/
  | infinite (negative : Bool)
  /-- Not a number; it has a sign all the same. -/
  | undefined (negative : Bool)
  deriving DecidableEq, Repr

namespace Binary64

/-- Mantissas lie below this bound. -/
def mantissaBound : Nat := 0x20000000000000

/-- The least exponent, that of the numbers next to zero. -/
def leastExponent : Int := -1074

/-- The greatest exponent of a finite double. -/
def greatestExponent : Int := 971

/-- An integer power of a natural number. -/
def power (base : Nat) (e : Int) : Rat := (base : Rat) ^ e

/-- The exponent of the greatest power of `base` that is at most the positive number `q`. -/
def floorLog (base : Nat) (q : Rat) : Int :=
  let estimate : Int :=
    (Nat.toDigits base q.num.natAbs).length - (Nat.toDigits base q.den).length
  if power base estimate ≤ q then estimate else estimate - 1

/-- The integer nearest to the number `q`, which is not negative, ties going to the even one. -/
def roundHalfEven (q : Rat) : Nat :=
  let below := q.floor.toNat
  let excess := 2 * (q - below)
  if excess < 1 then below
  else if 1 < excess then below + 1
  else below + below % 2

/-- The double nearest to `q`, with the sign asked for. -/
def nearestMagnitude (negative : Bool) (q : Rat) : Binary64 :=
  if q = 0 then .finite negative 0 leastExponent
  else
    let e := max leastExponent (floorLog 2 q - 52)
    let m := roundHalfEven (q / power 2 e)
    -- Rounding up may carry into one bit more.
    let (m, e) := if m = mantissaBound then (mantissaBound / 2, e + 1) else (m, e)
    if greatestExponent < e then .infinite negative else .finite negative m e

/-- The double nearest to a number, an infinity when the number is beyond the greatest double. -/
def nearest (q : Rat) : Binary64 := nearestMagnitude (q < 0) q.abs

/-- Whether every separator of a text stands between two digits, given the character before it. -/
def separatorsJoinDigits : Char → List Char → Bool
  | before, [] => before != '_'
  | before, c :: rest =>
    (if c == '_' then Text.isDigit before else before != '_' || Text.isDigit c) &&
      separatorsJoinDigits c rest

/-- No finite double has its leading digit at or above this power of ten. -/
def greatestDecade : Int := 310

/-- Below this power of ten every number rounds to zero. -/
def leastDecade : Int := -330

/-- The double that a text writes: a decimal numeral, `inf`, `infinity` or `nan`, the case of whose
letters does not matter. -/
def ofText? (text : String) : Option Binary64 :=
  let (sign, unsigned) := signRow (Literal.unpadded text.toList)
  let negative := sign == ['-']
  let word := String.ofList (unsigned.map Char.toLower)
  if word = "inf" ∨ word = "infinity" then some (.infinite negative)
  else if word = "nan" then some (.undefined negative)
  else if !separatorsJoinDigits ' ' unsigned then none
  else match Numeral.scan (unsigned.filter (· != '_')) with
    | some (numeral, []) =>
      let top : Int := numeral.shift + rowDigits (numeral.whole ++ numeral.fraction)
      if numeral.hasDoubleMark then none
      else if rowValue (numeral.whole ++ numeral.fraction) = 0 ∨ top < leastDecade then
        some (.finite negative 0 leastExponent)
      else if greatestDecade + rowDigits (numeral.whole ++ numeral.fraction) < top then
        some (.infinite negative)
      else some (nearestMagnitude negative numeral.value)
    | _ => none

/-- The number that a double stands for exactly. -/
def toRat? : Binary64 → Option Rat
  | finite negative m e => some (Literal.withSign negative (m * power 2 e))
  | infinite _ => none
  | undefined _ => none

/-- A decimal number: digits, read as an integer, times a power of ten. -/
structure Shortened where
  digits : Nat
  exponent : Int
  deriving DecidableEq, Repr

/-- The number that a shortened decimal stands for. -/
def Shortened.value (s : Shortened) : Rat := s.digits * power 10 s.exponent

/-- The multiple of `10 ^ e` nearest to `v`, of those that `accepts` takes; the two neighbours of
`v` are tried, and a tie goes to the even one. -/
def onGrid (accepts : Rat → Bool) (v : Rat) (e : Int) : Option Shortened :=
  let below := (v / power 10 e).floor.toNat
  let low : Shortened := ⟨below, e⟩
  let high : Shortened := ⟨below + 1, e⟩
  match accepts low.value, accepts high.value with
  | false, false => none
  | true, false => some low
  | false, true => some high
  | true, true => if roundHalfEven (v / power 10 e) = below then some low else some high

/-- Whether `x` rounds to the positive double `m · 2 ^ e`. The doubles below a power of two lie
closer together than those above it. -/
def roundsTo (m : Nat) (e : Int) (x : Rat) : Bool :=
  let v := m * power 2 e
  let above := v + power 2 (e - 1)
  let below :=
    if m = mantissaBound / 2 ∧ leastExponent < e then v - power 2 (e - 2) else v - power 2 (e - 1)
  if m % 2 = 0 then below ≤ x && x ≤ above else below < x && x < above

/-- The decimal with the fewest digits that rounds to the positive double `m · 2 ^ e`; seventeen
digits always suffice. -/
def shortest (m : Nat) (e : Int) : Shortened :=
  if m = 0 then ⟨0, 0⟩
  else
    let v := m * power 2 e
    let top := floorLog 10 v
    -- The grid of one digit comes first, that of seventeen last.
    let grids := (List.range 17).map fun (k : Nat) => top - k
    (grids.findSome? (onGrid (roundsTo m e) v)).getD ⟨0, 0⟩

/-- A finite double as the shortest decimal that rounds to it. -/
def toShortRat? : Binary64 → Option Rat
  | finite negative m e => some (Literal.withSign negative (shortest m e).value)
  | infinite _ => none
  | undefined _ => none

/-- The exponents of ten below which a double is written with all its digits, and from which on
with an exponent. -/
def positionalRange : Int × Int := (-4, 16)

/-- The digits of a shortened decimal without zeros at their end. -/
def Shortened.significant (s : Shortened) : List Char :=
  Decimal.stripZeros (Decimal.digits s.digits)

/-- A shortened decimal as a double is written: at least one digit on both sides of the point, and
an exponent of two digits or more outside of `positionalRange`. -/
def Shortened.text (s : Shortened) : List Char :=
  if s.digits = 0 then "0.0".toList
  else
    let ds := s.significant
    let top : Int := s.exponent + (Decimal.digits s.digits).length - 1
    if positionalRange.1 ≤ top ∧ top < positionalRange.2 then
      if top < 0 then "0.".toList ++ List.replicate (-top - 1).toNat '0' ++ ds
      else
        let width := top.toNat + 1
        let whole := ds.take width ++ List.replicate (width - ds.length) '0'
        let fraction := ds.drop width
        whole ++ '.' :: (if fraction.isEmpty then ['0'] else fraction)
    else
      let sign := if top < 0 then '-' else '+'
      let size := Decimal.digits top.natAbs
      let mantissa := match ds with
        | [] => []
        | [d] => [d]
        | d :: rest => d :: '.' :: rest
      mantissa ++ 'e' :: sign :: (if size.length < 2 then '0' :: size else size)

/-- A double as text, by its shortest decimal. -/
def text : Binary64 → String
  | finite negative m e =>
    String.ofList ((if negative then ['-'] else []) ++ (shortest m e).text)
  | infinite negative => if negative then "-inf" else "inf"
  | undefined _ => "nan"

/-- The bit of the sign. -/
def signBit (negative : Bool) : Nat := if negative then 0x8000000000000000 else 0

/-- The 64 bits of a double as a number: sign, biased exponent and mantissa. -/
def bits : Binary64 → Nat
  | finite negative m e =>
    let half := mantissaBound / 2
    if m < half then signBit negative + m
    else signBit negative + (e - leastExponent + 1).toNat * half + (m - half)
  | infinite negative => signBit negative + 0x7FF0000000000000
  | undefined negative => signBit negative + 0x7FF8000000000000

end Binary64

end Metrology
