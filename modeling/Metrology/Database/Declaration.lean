import Metrology.Database.Dialect
import Metrology.Text.Blank
import Metrology.Text.Search
import Metrology.Text.Word

/-!
# Declarations

A record declares something when it has names, a marker and a body in this order, with blanks
between them or not; the marker says what is declared. Only for a primitive are the names behind
the marker. A record is read as the first kind that it fits, and cut as far to the right as it can
be: the longest names that leave a marker behind them, and then the longest blanks.
-/

namespace Metrology

open Text

/-- The names under which something is declared, of which there is at least one. -/
structure DeclaredNames where
  first : String
  others : List String
  deriving DecidableEq, Repr

/-- All the names, in the order in which they stand. -/
def DeclaredNames.toList (names : DeclaredNames) : List String := names.first :: names.others

/-- What a record declares. -/
inductive Declaration
  /-- A new dimension and the unit in which it is measured. -/
  | primitive (dimension : String) (names : DeclaredNames)
  /-- A prefix that may stand alone. -/
  | standalone (names : DeclaredNames) (body : String)
  /-- A prefix. -/
  | factor (names : DeclaredNames) (body : String)
  /-- A unit defined by an expression. -/
  | derived (names : DeclaredNames) (body : String)
  /-- The name of the quantities of a dimension. -/
  | quantity (names : DeclaredNames) (body : String)
  deriving DecidableEq, Repr

namespace Declaration

/-- How far a row of names has been read. -/
inductive NamesState
  /-- Nothing has been read. -/
  | start
  /-- The last character belongs to a name. -/
  | within
  /-- The last character is a blank behind a name. -/
  | between
  deriving DecidableEq, Repr

/-- Reads the next character of a row of names. -/
def NamesState.step : NamesState → Char → Option NamesState
  | start, c => if isNameStart c then some within else none
  | within, c => if isWord c then some within else if isBlank c then some between else none
  | between, c => if isBlank c then some between else if isNameStart c then some within else none

/-- The ways to cut a text behind a row of names, of which `read` characters have been read: how
many characters the row has, and what follows it. The longest row comes first, and those already
`found` come last. -/
def namesCuts (state : NamesState) (read : Nat) (found : List (Nat × List Char)) :
    List Char → List (Nat × List Char)
  | [] => found
  | c :: cs =>
    match state.step c with
    | none => found
    | some next =>
      namesCuts next (read + 1) (if next = .within then (read + 1, cs) :: found else found) cs

/-- The ways to cut a record behind a row of names, the longest row first. -/
def cuts (record : List Char) : List (Nat × List Char) := namesCuts .start 0 [] record

/-- Whether a text is a row of names. -/
def isNames (cs : List Char) : Bool := cs.foldlM NamesState.step .start == some .within

/-- What is left of a text when some of the blanks at its front are removed, the most first. -/
def blankCuts : List Char → List (List Char)
  | [] => [[]]
  | c :: cs => (if isBlank c then blankCuts cs else []) ++ [c :: cs]

/-- Whether a text can be the body of a declaration. -/
def isBody (cs : List Char) : Bool := !cs.isEmpty && !cs.contains '\n'

/-- The two sides of a marker in a record: what is before it, which is one of `fronts`, and what is
behind it, which `accepts` takes. -/
def sides (marker record : List Char) (fronts : List (Nat × List Char))
    (accepts : List Char → Bool) : Option (List Char × List Char) :=
  fronts.findSome? fun (n, afterFront) =>
    (blankCuts afterFront).findSome? fun fromMarker =>
      match dropMarker marker fromMarker with
      | none => none
      | some afterMarker =>
        ((blankCuts afterMarker).find? accepts).map fun back => (record.take n, back)

/-- The names in a row of names. -/
def namesOf? (cs : List Char) : Option DeclaredNames :=
  match (words cs).map String.ofList with
  | [] => none
  | first :: others => some ⟨first, others⟩

/-- The names and the body of a record with the given marker. -/
def marked? (marker : String) (record : List Char) : Option (DeclaredNames × String) := do
  let (front, back) ← sides marker.toList record (cuts record) isBody
  let names ← namesOf? front
  return (names, String.ofList back)

/-- The dimension and the names of a record that declares a primitive. -/
def primitive? (marker : String) (record : List Char) : Option (String × DeclaredNames) := do
  let firstName := record.takeWhile isWord
  -- The dimension is a single name, so a cut lies within the first word.
  let fronts := (cuts record).filter fun cut => cut.1 ≤ firstName.length
  let (front, back) ← sides marker.toList record fronts isNames
  let names ← namesOf? back
  return (String.ofList front, names)

/-- What a record declares. -/
def ofRecord? (d : Dialect) (record : List Char) : Option Declaration :=
  ((primitive? d.markers.primitive record).map fun (dim, names) => primitive dim names) <|>
  ((marked? d.markers.standalone record).map fun (names, body) => standalone names body) <|>
  ((marked? d.markers.factor record).map fun (names, body) => factor names body) <|>
  ((marked? d.markers.derived record).map fun (names, body) => derived names body) <|>
  ((marked? d.markers.quantity record).map fun (names, body) => quantity names body)

end Declaration

end Metrology
