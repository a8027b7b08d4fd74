import Metrology.Catalogue
import Metrology.Event
import Metrology.Expression.Parser

/-!
# Catalogues in use

A catalogue in use keeps the units that it composes, which every definition makes it forget, and
leaves events behind. An activity reads or changes it. `Catalogue.lookup` gives the same answers as
`Catalogue.find`, and evaluating an expression looks its names up one after the other.
-/

namespace Metrology

/-- A catalogue in use, with the events so far. -/
structure Journal where
  catalogue : Catalogue
  events : List Event

/-- An activity that reads or changes a catalogue in use, and may fail. Whatever it did before it
failed remains done. -/
abbrev Activity := ExceptT Error (StateM Journal)

namespace Catalogue

/-- A catalogue in use from now on. -/
def start (c : Catalogue) : Journal := ⟨c, []⟩

/-! ### Reading a catalogue in use -/

/-- The unit that a name means. A unit that is composed is kept for the next time. -/
def lookup (name : String) : Activity UnitOfMeasure := fun journal =>
  let c := journal.catalogue
  match c.units.get? name with
  | some unit => (.ok unit, journal)
  | none =>
    match c.composed.get? name with
    | some unit => (.ok unit, journal)
    | none =>
      match c.compose name with
      | .ok unit =>
        -- Kept until the next definition.
        (.ok unit,
          { catalogue := { c with composed := c.composed.put name unit }
            events := journal.events ++ [.composed name unit.scale] })
      | .error e => (.error e, journal)

/-- Whether a name means a unit. -/
def has (name : String) : Activity Bool := fun journal =>
  match lookup name journal with
  | (.ok _, after) => (.ok true, after)
  | (.error (.unknownUnit _), after) => (.ok false, after)
  | (.error e, after) => (.error e, after)

/-- What a name means in an expression, looked up in a catalogue in use. -/
def lookupQuantity (name : String) : Activity Quantity := fun journal =>
  match lookup name journal with
  | (.ok unit, after) => (.ok (.unit unit), after)
  | (.error (.unknownUnit unknown), after) =>
    match after.catalogue.prefixes.get? name with
    | some f => (.ok (.number f), after)
    | none => (.error (.unknownUnit unknown), after)
  | (.error e, after) => (.error e, after)

/-- The value of the expression that a text writes. -/
def evaluate (text : String) : Activity Quantity := do
  let e ← MonadExcept.ofExcept (Expression.ofText text)
  e.evalM lookupQuantity

/-- The unit that an expression writes. One that is made of a measurement is called by the text. -/
def unit (text : String) : Activity UnitOfMeasure := do
  let value ← evaluate text
  let unit ← MonadExcept.ofExcept (value.toUnit false)
  match value with
  | .measurement _ => return unit.renamed (Text.trim text)
  | _ => return unit

/-- The measurement of a value in the unit that an expression writes. The unit comes first, so that
of two failures that of the expression counts. -/
def measure (value : Outcome Rat) (text : String) : Activity Measurement := do
  let unit ← unit text
  return ⟨← MonadExcept.ofExcept value, unit⟩

/-! ### Defining units and prefixes -/

/-- The events of giving values to `names` one after the other. -/
def redefinitions {α : Type} (event : String → Event) (value : α) :
    Table String α → List String → List Event
  | _, [] => []
  | table, name :: rest =>
    let later := redefinitions event value (table.put name value) rest
    if table.contains name then event name :: later else later

/-- Defines a unit under every one of `names`. -/
def define (names : List String) (unit : UnitOfMeasure) : Activity Unit := fun journal =>
  let c := journal.catalogue
  (.ok (),
    { catalogue := { c with
        units := names.foldl (fun table name => table.put name unit) c.units
        composed := .empty }
      events := journal.events ++ redefinitions .redefinedUnit unit c.units names })

/-- Defines a factor for every one of the prefixes `names`. -/
def defineFactor (names : List String) (factor : Rat) : Activity Unit := fun journal =>
  let c := journal.catalogue
  (.ok (),
    { catalogue := { c with
        prefixes := names.foldl (fun table name => table.put name factor) c.prefixes
        composed := .empty }
      events := journal.events ++ redefinitions .redefinedFactor factor c.prefixes names })

/-- Records the name of the quantities of a dimension, unless they have one. -/
def nameQuantity (d : Dimension) (name : String) : Activity Unit := fun journal =>
  let c := journal.catalogue
  (.ok (), { journal with catalogue := { c with quantities := c.quantities.putNew d name } })

end Catalogue

end Metrology
