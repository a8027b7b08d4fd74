import Metrology.Database.Comment
import Metrology.Text.Blank
import Metrology.Text.Lines

/-!
# Records of a database

A record is a logical line: the physical lines that a continuation marker joins, without comments
and without blanks at their ends, with one space between each two. It has the number of the first
of its physical lines. Records without text are left out.
-/

namespace Metrology

open Text

/-- A logical line of a database. -/
structure Record where
  /-- The number of its first physical line, counted from one. -/
  line : Nat
  /-- Its text. -/
  text : List Char
  deriving DecidableEq, Repr

namespace Record

/-- Texts joined with one space between each two. -/
def joined : List (List Char) → List Char
  | [] => []
  | [part] => part
  | part :: rest => part ++ ' ' :: joined rest

/-- The record made of the given parts, if it has any text. -/
def ofParts (line : Nat) (parts : List (List Char)) : List Record :=
  match trimBlank (joined (parts.map trimBlank)) with
  | [] => []
  | text => [⟨line, text⟩]

/-- The records of the physical lines from the given number on, where the parts of a record that
began at line `start` wait to be continued. -/
def ofLines (d : Dialect) (number : Nat) (inBlock : Bool) (start : Nat)
    (pending : List (List Char)) : List (List Char) → List Record
  | [] => ofParts start pending
  | raw :: rest =>
    let (stripped, isOpen) := d.stripComments inBlock raw
    let line := trimBlank stripped
    let first := if pending.isEmpty then number else start
    -- A marker counts only where comments and blanks have been removed behind it.
    match dropLastMarker d.markers.continuation.toList line with
    | some kept => ofLines d (number + 1) isOpen first (pending ++ [kept]) rest
    | none => ofParts first (pending ++ [line]) ++ ofLines d (number + 1) isOpen first [] rest

/-- The records that end on the given lines; parts that wait to be continued are left out. -/
def ended (d : Dialect) (number : Nat) (inBlock : Bool) (start : Nat)
    (pending : List (List Char)) : List (List Char) → List Record
  | [] => []
  | raw :: rest =>
    let (stripped, isOpen) := d.stripComments inBlock raw
    let line := trimBlank stripped
    let first := if pending.isEmpty then number else start
    match dropLastMarker d.markers.continuation.toList line with
    | some kept => ended d (number + 1) isOpen first (pending ++ [kept]) rest
    | none => ofParts first (pending ++ [line]) ++ ended d (number + 1) isOpen first [] rest

/-- The records of a database. -/
def ofText (d : Dialect) (text : String) : List Record :=
  ofLines d 1 false 0 [] (lines text.toList)

end Record

end Metrology
