import Metrology.Quantity
import Metrology.Table

/-!
# Catalogues of units

A catalogue gives units to names, factors to prefixes, and names to the dimensions of quantities.
A name that is not defined may still be composed, in this order of preference:

* a prefix followed by a defined name, the longest such prefix;
* a defined name followed by a plural `s`;
* a prefix followed by the plural of a defined name, the longest such prefix.

The last two are open only to catalogues with plurals. Nothing is composed of two prefixes or of a
composed name. `Catalogue.find` says what a name means, by the tables of defined units and prefixes
alone; the units that a catalogue in use has composed and kept do not count.
-/

namespace Metrology

/-- A catalogue of units. -/
structure Catalogue where
  /-- The defined units. -/
  units : Table String UnitOfMeasure
  /-- The factors of the prefixes. -/
  prefixes : Table String Rat
  /-- The names of the quantities of given dimensions. -/
  quantities : Table Dimension String
  /-- The units composed since the last definition. -/
  composed : Table String UnitOfMeasure
  /-- Whether a name may be a plural. -/
  plurals : Bool

namespace Catalogue

/-- The catalogue without definitions. -/
def empty (plurals : Bool) : Catalogue := ⟨.empty, .empty, .empty, .empty, plurals⟩

instance : Inhabited Catalogue := ⟨empty true⟩

/-- The catalogue with the given definitions, of which later ones replace earlier ones. -/
def ofDefinitions (units : List (String × UnitOfMeasure)) (factors : List (String × Rat))
    (plurals : Bool) : Catalogue :=
  { empty plurals with
    units := .ofList units
    prefixes := .ofList factors }

/-! ### What a name means -/

/-- The prefixes of a catalogue, the longest first; those of one length stand in the order in which
they were defined. -/
def prefixesByLength (c : Catalogue) : List String :=
  c.prefixes.keys.mergeSort fun a b => decide (b.length ≤ a.length)

/-- No prefix of a catalogue has more characters than this. -/
def reach (c : Catalogue) : Nat := c.prefixes.keys.foldl (fun n name => max n name.length) 0

/-- The unit that is defined under a name. -/
def defined? (c : Catalogue) (name : List Char) : Option UnitOfMeasure :=
  c.units.get? (String.ofList name)

/-- What the name stands for of which the text is a plural: the text without the `s` at its end,
of which something has to be left. -/
def singular? {α : Type} (base : List Char → Option α) (name : List Char) : Option α :=
  if 1 < name.length ∧ name.getLast? = some 's' then base name.dropLast else none

/-- The factor of the prefix that is the first `n` characters of a name, if something is left of
the name that `base` knows, and what that is. -/
def prefixedAt? {α : Type} (c : Catalogue) (base : List Char → Option α) (name : List Char)
    (n : Nat) : Option (Rat × α) :=
  if n < name.length then
    match c.prefixes.get? (String.ofList (name.take n)) with
    | some factor => (base (name.drop n)).map fun b => (factor, b)
    | none => none
  else none

/-- The factor of the longest prefix behind which `base` knows the rest, and what that is. -/
def prefixed? {α : Type} (c : Catalogue) (base : List Char → Option α) (name : List Char) :
    Option (Rat × α) :=
  (List.range (c.reach + 1)).reverse.findSome? (c.prefixedAt? base name)

/-- How a name is composed of one that stands for a base. -/
inductive Composition (α : Type)
  /-- The name is a plural. -/
  | plural (base : α)
  /-- The name is a prefix and another name or its plural. -/
  | multiple (factor : Rat) (base : α)

/-- What a composed name is composed of. -/
def Composition.base {α : Type} : Composition α → α
  | plural b => b
  | multiple _ b => b

/-- How a name is composed of the names that `base` knows. -/
def composition? {α : Type} (c : Catalogue) (base : List Char → Option α) (name : List Char) :
    Option (Composition α) :=
  match c.prefixed? base name with
  | some (factor, b) => some (.multiple factor b)
  | none =>
    if c.plurals then
      match singular? base name with
      | some b => some (.plural b)
      | none => (c.prefixed? (singular? base) name).map fun (factor, b) => .multiple factor b
    else none

/-- The unit called `name` that is a multiple of another. -/
def multiple (name : String) (factor : Rat) (base : UnitOfMeasure) : Outcome UnitOfMeasure := do
  let unit ← base.scaled factor
  return unit.renamed name

/-- The unit composed for a name that is not defined. -/
def compose (c : Catalogue) (name : String) : Outcome UnitOfMeasure :=
  match c.composition? c.defined? name.toList with
  | some (.multiple factor base) => multiple name factor base
  | some (.plural unit) => .ok unit
  | none => .error (.unknownUnit name)

/-- The unit that a name means. -/
def find (c : Catalogue) (name : String) : Outcome UnitOfMeasure :=
  match c.units.get? name with
  | some unit => .ok unit
  | none => c.compose name

/-- The factor of a prefix. -/
def factor (c : Catalogue) (name : String) : Outcome Rat :=
  match c.prefixes.get? name with
  | some f => .ok f
  | none => .error (.unknownUnit name)

/-- What a name means in an expression: its unit, or else the factor of a prefix. -/
def resolve (c : Catalogue) (name : String) : Outcome Quantity :=
  match c.find name with
  | .error (.unknownUnit unknown) =>
    match c.prefixes.get? name with
    | some f => .ok (.number f)
    | none => .error (.unknownUnit unknown)
  | .error e => .error e
  | .ok unit => .ok (.unit unit)

/-- The name recorded for the quantities of a dimension. -/
def quantityName? (c : Catalogue) (d : Dimension) : Option String := c.quantities.get? d

/-- The defined names in alphabetical order. -/
def names (c : Catalogue) : List String := c.units.keys.mergeSort fun a b => decide (a ≤ b)

/-- How many units and prefixes a catalogue has, in words. -/
def countsText (units prefixes : Nat) : String :=
  s!"UnitCatalogue({units} units, {prefixes} prefixes)"

end Catalogue

end Metrology
