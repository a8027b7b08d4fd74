import Metrology.Error
import Metrology.Number.Numeral
import Metrology.Text.Blank
import Metrology.Text.Search

/-!
# Numeric literals

A literal is a signed decimal numeral, or a quotient `n/d` of a signed and an unsigned row of
digits; blanks may stand around it and around the slash. `Literal.read` gives its exact value.

In a quotient the separators have to stand singly between digits, while in a numeral they may
stand anywhere behind the first digit of a row. A numeral may lack its digits before the point, the
point, the digits behind it and the exponent, as long as a digit comes first or behind the point.
-/

namespace Metrology

open Text

/-- A number as it is written. -/
inductive Literal
  /-- A signed decimal numeral. -/
  | decimal (negative : Bool) (numeral : Numeral)
  /-- A quotient of two rows of digits. -/
  | quotient (negative : Bool) (numerator denominator : List Char)
  deriving DecidableEq, Repr

namespace Literal

/-- The quotient that a text writes. -/
def quotient? (cs : List Char) : Option Literal :=
  let (sign, unsigned) := signRow (dropBlank cs)
  match digitRow unsigned with
  | ([], _) => none
  | (numerator, afterNumerator) =>
    match dropBlank afterNumerator with
    | '/' :: afterSlash =>
      match digitRow (dropBlank afterSlash) with
      | ([], _) => none
      | (denominator, rest) =>
        if rest.all isBlank then some (.quotient (sign == ['-']) numerator denominator) else none
    | _ => none

/-- Whether a text begins with a digit, or with a point in front of one. -/
def digitAhead : List Char → Bool
  | '.' :: c :: _ => isDigit c
  | c :: _ => isDigit c
  | [] => false

/-- The point in front of a text and the digits behind it, of which either may be missing, and what
follows them. -/
def fractionRow : List Char → (Bool × List Char) × List Char
  | '.' :: cs => ((true, (digitRow cs).1), (digitRow cs).2)
  | cs => ((false, []), cs)

/-- The marks of exponents in the order in which they are looked for. -/
def exponentMarks : List (List Char) := [['e', 'e'], ['e'], ['E']]

/-- The exponent in front of a text, if there is one, and what follows it. -/
def exponentRow (cs : List Char) : Option Exponent × List Char :=
  match exponentMarks.findSome? fun mark => (dropMarker mark cs).bind (Exponent.afterMark mark) with
  | some (e, rest) => (some e, rest)
  | none => (none, cs)

/-- The unsigned numeral in front of a text, and what follows it. All of its parts may be missing,
as long as there is a digit ahead. -/
def unsigned? (cs : List Char) : Option (Numeral × List Char) :=
  if digitAhead cs then
    let whole := digitRow cs
    let fraction := fractionRow whole.2
    let exponent := exponentRow fraction.2
    some (⟨whole.1, fraction.1.1, fraction.1.2, exponent.1⟩, exponent.2)
  else none

/-- The signed numeral that a text writes. -/
def decimal? (cs : List Char) : Option Literal :=
  let (sign, unsigned) := signRow (dropBlank cs)
  match unsigned? unsigned with
  | some (numeral, rest) =>
    if rest.all isBlank then some (.decimal (sign == ['-']) numeral) else none
  | none => none

/-- The literal that a text writes. -/
def ofText? (cs : List Char) : Option Literal := quotient? cs <|> decimal? cs

/-- Whether every separator of a row stands between two digits. -/
def separatorsAreSingle : List Char → Bool
  | [] => true
  | ['_'] => false
  | '_' :: '_' :: _ => false
  | _ :: rest => separatorsAreSingle rest

/-- The value of a row of digits with separators between them. -/
def strictRowValue (row : List Char) : Outcome Nat :=
  if separatorsAreSingle row then .ok (rowValue row) else .error .misplacedSeparator

/-- A number with the sign asked for. -/
def withSign (negative : Bool) (q : Rat) : Rat := if negative then -q else q

/-- The value of a literal, which is written as `text`. -/
def value (text : String) : Literal → Outcome Rat
  | decimal negative numeral => .ok (withSign negative numeral.value)
  | quotient negative numerator denominator => do
    let d ← strictRowValue denominator
    if d = 0 then throw (.zeroDenominatorLiteral text)
    let n ← strictRowValue numerator
    return withSign negative (mkRat n d)

/-- The exact number that a text writes. -/
def read (text : String) : Outcome Rat :=
  match ofText? text.toList with
  | some literal => literal.value text
  | none => .error (.invalidLiteral text)

/-- Whether a character may stand around an integer: the information separators may not. -/
def isPadding (c : Char) : Bool := isBlank c && !(0x1C ≤ c.toNat && c.toNat ≤ 0x1F)

/-- A text without the padding at its ends. -/
def unpadded (cs : List Char) : List Char :=
  ((cs.dropWhile isPadding).reverse.dropWhile isPadding).reverse

/-- The integer that a text writes: a signed row of digits, the separators in it single, with
padding around it. -/
def readInteger (text : String) : Outcome Int :=
  let (sign, unsigned) := signRow (unpadded text.toList)
  match digitRow unsigned with
  | (row@(_ :: _), []) =>
    if separatorsAreSingle row then
      let n : Int := rowValue row
      .ok (if sign == ['-'] then -n else n)
    else .error .notAnInteger
  | _ => .error .notAnInteger

end Literal

end Metrology
