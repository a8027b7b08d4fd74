import Metrology.Text.Blank
import Metrology.Text.Digit

/-!
# Names of composed units

Products are written with a middle dot, quotients with a slash, powers with a caret. An atom is a
name without blanks, dots, slashes, carets and parentheses, perhaps raised to an integer. What is
raised to a power or stands behind a slash is put in parentheses unless it is an atom; a factor of
a product, or what stands before a slash, only when it has a slash. Nothing is composed of a name
that is missing.
-/

namespace Metrology.Name

open Text

/-- Whether a character may stand in an atom. -/
def isAtomChar (c : Char) : Bool :=
  !(isBlank c || c == '·' || c == '/' || c == '^' || c == '(' || c == ')')

/-- Whether a text is a row of digits, perhaps with a minus sign before it. -/
def isSignedRow : List Char → Bool
  | '-' :: ds => !ds.isEmpty && ds.all isDigit
  | ds => !ds.isEmpty && ds.all isDigit

/-- The integer written by a row of digits with or without a minus sign. -/
def signedValue : List Char → Int
  | '-' :: ds => -(positional ds : Int)
  | ds => positional ds

/-- A name that is an atom: its base and, if it has one, its exponent. -/
def atom? (cs : List Char) : Option (List Char × Option Int) :=
  let base := cs.takeWhile isAtomChar
  if base.isEmpty then none
  else match cs.dropWhile isAtomChar with
    | [] => some (base, none)
    | '^' :: e => if isSignedRow e then some (base, some (signedValue e)) else none
    | _ => none

/-- Whether a name is an atom, perhaps raised to an integer. -/
def isAtom (name : String) : Bool := (atom? name.toList).isSome

/-- A name between parentheses. -/
def parenthesized (name : String) : String := "(" ++ name ++ ")"

/-- A name as it stands behind a slash or under an exponent. -/
def operand (name : String) : String := if isAtom name then name else parenthesized name

/-- A name as it stands in a product or before a slash. -/
def factor (name : String) : String :=
  if name.toList.contains '/' then parenthesized name else name

/-- The name of an integer power. -/
def power (name : String) (n : Int) : String :=
  if name = "" then ""
  else if n = 0 then "1"
  else if n = 1 then name
  else match atom? name.toList with
    | some (base, some e) =>
      if e * n = 1 then String.ofList base else String.ofList base ++ "^" ++ toString (e * n)
    | _ => operand name ++ "^" ++ toString n

/-- The name of a product. The product of a name with itself is its square. -/
def product (a b : String) : String :=
  if a = "" ∨ b = "" then ""
  else if a = b then power a 2
  else factor a ++ "·" ++ factor b

/-- The name of a quotient. -/
def quotient (a b : String) : String :=
  if a = "" ∨ b = "" then "" else factor a ++ "/" ++ operand b

end Metrology.Name
