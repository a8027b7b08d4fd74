import Metrology.Catalogue.Activity
import Metrology.Database.Declaration
import Metrology.Database.Record

/-!
# Reading a database

A database is read from its first record to its last; a record can use everything that is declared
above it. A record that declares nothing, or whose declaration fails in a way that its text may
cause, is skipped, and an event says why. A database gives a catalogue when it defines at least one
unit.
-/

namespace Metrology

/-- Whether a failure of this kind concerns one record only, so that reading goes on. -/
def ErrorKind.isRecoverable : ErrorKind → Bool
  | .malformedText | .unknownUnit | .incompatibleUnits | .invalidValue | .zeroDivision => true
  | .invalidType | .overflow | .memory | .missingAttribute | .undefinedOperation | .decimalDivision
  | .decimalOverflow => false

/-- A database that has been read in part. -/
structure Reader where
  /-- The catalogue so far, and the events. -/
  journal : Journal
  /-- How many primitives have been minted. -/
  minted : Nat
  /-- How many records declared something. -/
  accepted : Nat
  /-- How many records were skipped. -/
  skipped : Nat

/-- A database that has been read. -/
structure Reading where
  /-- The catalogue, if any unit was defined. -/
  catalogue : Option Catalogue
  /-- What happened. -/
  events : List Event
  /-- How many primitives have been minted. -/
  minted : Nat

namespace Declaration

open Catalogue

/-- The factor that the body of a declaration writes. -/
def evaluateFactor (body : String) : Activity Rat := do
  let value ← evaluate body
  MonadExcept.ofExcept value.toNumber

/-- Carries a declaration out, given the number of the next primitive, and gives the number of the
one after it. -/
def apply (d : Dialect) (minted : Nat) : Declaration → Activity Nat
  | primitive dim names => do
    define names.toList (.ofPrimitive ⟨minted, dim⟩ names.first)
    return minted + 1
  | derived names body => do
    let value ← evaluate body
    let unit ← MonadExcept.ofExcept (value.toUnit d.numericDefinitions)
    define names.toList (unit.renamed names.first)
    return minted
  | standalone names body => do
    let f ← evaluateFactor body
    defineFactor names.toList f
    let unit ← MonadExcept.ofExcept (UnitOfMeasure.ofScale .dimensionless f names.first)
    define names.toList unit
    return minted
  | factor names body => do
    let f ← evaluateFactor body
    defineFactor names.toList f
    return minted
  | quantity names body => do
    let value ← evaluate body
    let unit ← MonadExcept.ofExcept (value.toUnit false)
    nameQuantity unit.dim names.first
    return minted

end Declaration

namespace Reader

/-- A reader that has read nothing; primitives are numbered from `minted` on. -/
def start (d : Dialect) (minted : Nat) : Reader := ⟨(Catalogue.empty d.plurals).start, minted, 0, 0⟩

/-- Passes a record over, for the given reason. -/
def skip (r : Reader) (record : Record) (reason : String) : Reader :=
  { r with
    journal := { r.journal with
      events := r.journal.events ++
        [.skipped record.line reason (String.ofList record.text)] }
    skipped := r.skipped + 1 }

/-- Reads one record. -/
def feed (d : Dialect) (r : Reader) (record : Record) : Outcome Reader :=
  match Declaration.ofRecord? d record.text with
  | none => .ok (r.skip record "unrecognized record")
  | some declaration =>
    match declaration.apply d r.minted r.journal with
    | (.ok minted, journal) => .ok ⟨journal, minted, r.accepted + 1, r.skipped⟩
    | (.error e, journal) =>
      if e.kind.isRecoverable then .ok (skip { r with journal := journal } record e.reason)
      else .error e

/-- What has been read. -/
def finish (r : Reader) : Reading :=
  let c := r.journal.catalogue
  if c.units.size = 0 then
    ⟨none, r.journal.events ++ [.noUnits r.skipped], r.minted⟩
  else
    ⟨some c, r.journal.events ++
      [.parsed c.units.size c.prefixes.size r.accepted r.skipped], r.minted⟩

end Reader

/-- Reads a database; primitives are numbered from `minted` on. -/
def Reading.ofText (d : Dialect) (minted : Nat) (text : String) : Outcome Reading :=
  if Text.trim text = "" then .ok ⟨none, [.noText], minted⟩
  else do
    let reader ← (Record.ofText d text).foldlM (Reader.feed d) (Reader.start d minted)
    return reader.finish

end Metrology
