import Metrology.Catalogue
import Metrology.Database.Dialect
import Metrology.Number.Number

/-!
# Values of a calculation

A calculator takes values of many types: the numbers, dimensions, units, measurements and
catalogues of the library, and besides them texts, lists and tables from which these are made, and
values that it knows nothing about. Operations that want one type of value say in their failures
which type they got. Whatever has parts can be gone through part by part (`Value.items`).

A primitive or a unit is called by a text, but any value may be put in its place. Such a label is
shown where all parts are listed; as a text of its own it is refused.
-/

namespace Metrology.Calculator

/-- A value of a calculation. -/
inductive Value
  | nothing
  | truth (b : Bool)
  | number (n : Number)
  | text (s : String)
  | list (items : List Value)
  /-- A list of fixed length, such as an entry of a dimension. -/
  | tuple (items : List Value)
  | table (entries : List (Value × Value))
  | primitive (p : Primitive)
  | dimension (d : Dimension)
  | unit (u : UnitOfMeasure)
  | measurement (m : Measurement)
  /-- A primitive that is called by a value that is no text. -/
  | labelledPrimitive (p : Primitive) (label : Value)
  /-- A unit that is called by a value that is no text. -/
  | labelledUnit (u : UnitOfMeasure) (label : Value)
  /-- A measurement in such a unit. -/
  | labelledMeasurement (m : Measurement) (label : Value)
  /-- A catalogue in use, known by the place where it is kept, with the names that it defines and
  the number of its prefixes. -/
  | catalogue (place : Nat) (names : List Value) (prefixes : Nat)
  /-- What was given for each setting of a dialect, in the order of the settings. -/
  | settings (values : List Value)
  | foreign

namespace Value

instance : Inhabited Value := ⟨nothing⟩

/-- An integer as a value. -/
def integer (n : Int) : Value := number (.integer n)

/-- A number of the library as a value. -/
def rational (q : Rat) : Value := number (.rational q)

/-- The value of an expression. -/
def ofQuantity : Quantity → Value
  | .number q => rational q
  | .unit u => unit u
  | .measurement m => measurement m

/-- What the type of a value is called. -/
def typeName : Value → String
  | nothing => "NoneType"
  | truth _ => "bool"
  | number (.integer _) => "int"
  | number (.rational _) => "Rational"
  | number (.fraction _) => "Fraction"
  | number (.double _) => "float"
  | number (.decimal _) => "Decimal"
  | text _ => "str"
  | list _ => "list"
  | tuple _ => "tuple"
  | table _ => "dict"
  | primitive _ | labelledPrimitive _ _ => "Primitive"
  | dimension _ => "Dimension"
  | unit _ | labelledUnit _ _ => "Unit"
  | measurement _ | labelledMeasurement _ _ => "Measurement"
  | catalogue _ _ _ => "UnitCatalogue"
  | settings _ => "ParserConfig"
  | foreign => "object"

/-- Where the type of a value is defined, with a dot behind it, or nothing for the basic types. -/
def typeHome : Value → String
  | number (.rational _) => "mensura.core.rational."
  | number (.fraction _) => "fractions."
  | number (.decimal _) => "decimal."
  | primitive _ | labelledPrimitive _ _ | dimension _ => "mensura.core.dimensions."
  | unit _ | labelledUnit _ _ => "mensura.core.unit."
  | measurement _ | labelledMeasurement _ _ => "mensura.core.measurement."
  | catalogue _ _ _ => "mensura.units.catalogue."
  | settings _ => "mensura.units.database."
  | _ => ""

/-- The type of a value with the place where it is defined. -/
def typePath (v : Value) : String := s!"<class '{v.typeHome}{v.typeName}'>"

/-! ### Views -/

/-- A value as a number. The truth values count as one and zero. -/
def number? : Value → Option Number
  | truth b => some (.integer (if b then 1 else 0))
  | number n => some n
  | _ => none

/-- A value as an integer. -/
def integer? (v : Value) : Option Int :=
  match v.number? with
  | some (.integer n) => some n
  | _ => none

/-- The exact number that a value stands for; a text stands for the number that it writes. -/
def toRat (v : Value) : Outcome Rat :=
  match v, v.number? with
  | text s, _ => Literal.read s
  | _, some n => n.toRat
  | _, none => .error (.notANumber v.typeName)

/-- A value as the exponent of a power. -/
def toExponent (v : Value) : Outcome Int :=
  match v.integer? with
  | some n => .ok n
  | none => .error (.exponentType v.typeName)

/-- A value that has to be a text. -/
def asText : Value → Outcome String
  | text s => .ok s
  | _ => .error .unsupportedOperands

/-- A value as a primitive. -/
def primitive? : Value → Option Primitive
  | primitive p | labelledPrimitive p _ => some p
  | _ => none

/-- A value as a unit, which is called by a text or not. -/
def unit? : Value → Option UnitOfMeasure
  | unit u | labelledUnit u _ => some u
  | _ => none

/-- A value as a measurement, whose unit is called by a text or not. -/
def measurement? : Value → Option Measurement
  | measurement m | labelledMeasurement m _ => some m
  | _ => none

/-- Whether a value counts as true: zeros and empty collections do not. -/
def isTrue : Value → Bool
  | nothing => false
  | truth b => b
  | number n => n.isNonzero
  | text s => s != ""
  | list items | tuple items => !items.isEmpty
  | table entries => !entries.isEmpty
  | dimension d => !d.isDimensionless
  | catalogue _ names _ => !names.isEmpty
  | primitive _ | unit _ | measurement _ | labelledPrimitive _ _ | labelledUnit _ _
  | labelledMeasurement _ _ | settings _ | foreign => true

mutual

/-- Whether a value may be a key. Lists and tables may not, nor a number that announces that it is
none, nor settings that hold such a value. -/
def isKey : Value → Bool
  | list _ | table _ => false
  | number n => !n.isSignaling
  | settings values => areKeys values
  | _ => true

/-- Whether all values may be keys. -/
def areKeys : List Value → Bool
  | [] => true
  | v :: rest => v.isKey && areKeys rest

end

mutual

/-- Whether a value is or holds a catalogue in use, which cannot be stored. -/
def holdsCatalogue : Value → Bool
  | list items | tuple items => anyHoldsCatalogue items
  | table entries => entriesHoldCatalogue entries
  | catalogue _ _ _ => true
  | _ => false

/-- Whether one of some values holds a catalogue. -/
def anyHoldsCatalogue : List Value → Bool
  | [] => false
  | v :: rest => v.holdsCatalogue || anyHoldsCatalogue rest

/-- Whether one of the entries of a table holds a catalogue. -/
def entriesHoldCatalogue : List (Value × Value) → Bool
  | [] => false
  | e :: rest => entryHoldsCatalogue e || entriesHoldCatalogue rest

/-- Whether an entry of a table holds a catalogue. -/
def entryHoldsCatalogue : Value × Value → Bool
  | (k, v) => k.holdsCatalogue || v.holdsCatalogue

end

/-! ### Parts -/

/-- A text of one character. -/
def character (c : Char) : Value := text (String.ofList [c])

/-- An entry of a dimension as a value. -/
def ofEntry (e : Entry) : Value := tuple [primitive e.1, integer e.2]

/-- The parts of a value one after the other: the characters of a text, the keys of a table, the
entries of a dimension, the names of a catalogue. -/
def items : Value → Outcome (List Value)
  | list items | tuple items => .ok items
  | text s => .ok (s.toList.map character)
  | table entries => .ok (entries.map Prod.fst)
  | dimension d => .ok (d.entries.map ofEntry)
  | catalogue _ names _ => .ok names
  | _ => .error .unsupportedOperands

/-- How many parts a value has, if it has parts. -/
def size? (v : Value) : Option Nat :=
  match v.items with
  | .ok parts => some parts.length
  | .error _ => none

/-- The two parts of a value that is a pair. -/
def asPair (v : Value) : Outcome (Value × Value) := do
  match ← v.items with
  | [a, b] => return (a, b)
  | _ => throw .notAPair

/-- The unit of a measurement as a value. -/
def ofUnitOf : Value → Value
  | measurement m => unit m.unit
  | labelledMeasurement m label => labelledUnit m.unit label
  | v => v

/-! ### Dimensions from entries -/

/-- An entry of a dimension: a primitive and an integer. -/
def toEntry (key exponent : Value) : Outcome Entry :=
  match key.primitive?, exponent.integer? with
  | some p, some n => .ok (p, n)
  | some _, none => .error (.dimensionExponent exponent.typeName)
  | none, _ => .error (.dimensionKey key.typeName)

/-- The dimension that a value describes, by itself or by its entries. -/
def toDimension : Value → Outcome Dimension
  | dimension d => .ok d
  | table entries => do
    return .ofEntries (← entries.mapM fun (key, exponent) => toEntry key exponent)
  | v => do
    let entries ← (← v.items).mapM fun item => do
      let (key, exponent) ← item.asPair
      toEntry key exponent
    return .ofEntries entries

/-! ### Text -/

mutual

/-- A value with all its parts. -/
def listing : Value → String
  | nothing => "None"
  | truth b => if b then "True" else "False"
  | number (.integer n) => s!"{n}"
  | number (.rational q) => s!"Rational({q.num}, {q.den})"
  | number (.fraction q) => s!"Fraction({q.num}, {q.den})"
  | number (.double x) => x.text
  | number (.decimal x) => s!"Decimal('{x.text}')"
  | text s => Text.quoted s
  | list items => "[" ++ ", ".intercalate (listings items) ++ "]"
  | tuple items =>
    "(" ++ ", ".intercalate (listings items) ++ (if items.length = 1 then ",)" else ")")
  | table entries => "\x7b" ++ ", ".intercalate (entryListings entries) ++ "\x7d"
  | primitive p => Primitive.listingOf (Text.quoted p.name)
  | dimension d => d.listing
  | unit u => u.listing
  | measurement m => m.listing
  | labelledPrimitive _ label => Primitive.listingOf label.listing
  | labelledUnit u label => u.listingAs label.listing
  | labelledMeasurement m label => m.listingAs label.listing
  | catalogue _ names prefixes => Catalogue.countsText names.length prefixes
  | settings values =>
    let shown := List.zipWith (fun name v => name ++ "=" ++ v) Dialect.settingNames
      (listings values)
    "ParserConfig(" ++ ", ".intercalate shown ++ ")"
  | foreign => "<object object>"

/-- Values with all their parts. -/
def listings : List Value → List String
  | [] => []
  | v :: rest => v.listing :: listings rest

/-- Entries of a table with all their parts. -/
def entryListings : List (Value × Value) → List String
  | [] => []
  | e :: rest => entryListing e :: entryListings rest

/-- An entry of a table with all its parts. -/
def entryListing : Value × Value → String
  | (k, v) => k.listing ++ ": " ++ v.listing

end

/-- A unit as a reader sees it. A label that counts as false is no name, and any other is none that
could be read. -/
def labelledText (u : UnitOfMeasure) (label : Value) : Outcome String :=
  if label.isTrue then .error .unsupportedOperands else .ok (u.renamed "").text

/-- A value as a reader sees it. -/
def display : Value → Outcome String
  | text s => .ok s
  | number (.rational q) => .ok (Decimal.exactText q)
  | number (.fraction q) => .ok (Decimal.exactText q)
  | number (.decimal x) => .ok x.text
  | primitive p => .ok p.name
  | dimension d => .ok d.text
  | unit u => .ok u.text
  | measurement m => .ok m.text
  | labelledPrimitive _ _ => .error .unsupportedOperands
  | labelledUnit u label => labelledText u label
  | labelledMeasurement m label => do
    return m.textWith (← labelledText m.unit label)
  | v => .ok v.listing

end Value

end Metrology.Calculator
