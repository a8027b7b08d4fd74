import Metrology.Error

/-!
# What the library offers by name

A client finds the parts of the library by the names of two modules. This table says which names
each module offers, of which sort each is and where it is defined.
-/

namespace Metrology.Calculator

/-- A part of the library that a client finds by name. -/
structure Feature where
  name : String
  /-- The sort of thing it is. -/
  sort : String
  /-- The module that defines it. -/
  home : String
  deriving DecidableEq, Repr

namespace Feature

/-- A feature as a client sees it: its sort, and its name in the module that defines it. -/
def text (f : Feature) : String := s!"{f.sort} {f.home}.{f.name}"

end Feature

/-- A module of the library. -/
structure Module where
  name : String
  /-- What can be found in it by name. -/
  features : List Feature
  /-- What it lists besides. -/
  listed : List String

namespace Module

/-- The names that every module lists and that have nothing to be shown. -/
def commonNames : List String :=
  ["__builtins__", "__cached__", "__doc__", "__file__", "__loader__", "__name__", "__package__",
    "__path__", "__spec__"]

/-- What every module lists and has to show. -/
def commonFeatures (home : String) : List Feature :=
  [⟨"Any", "_AnyMeta", "typing"⟩,
    ⟨"__dir__", "function", home⟩,
    ⟨"__getattr__", "function", home⟩]

/-- What is found under names that every module knows without listing them. -/
def unlistedFeatures : List (String × Feature) :=
  ("__class__", ⟨"module", "type", "builtins"⟩) ::
    ["__format__", "__getstate__", "__init_subclass__", "__new__", "__reduce__", "__reduce_ex__",
      "__sizeof__", "__subclasshook__"].map fun name =>
        (name, ⟨name, "builtin_function_or_method", "None"⟩)

/-- The names that every module knows without listing them, and that have nothing to be shown. -/
def unlistedNames : List String :=
  ["__annotations__", "__delattr__", "__dict__", "__eq__", "__ge__", "__getattribute__", "__gt__",
    "__hash__", "__init__", "__le__", "__lt__", "__ne__", "__repr__", "__setattr__", "__str__"]

/-- The module with the whole public surface. -/
def top : Module where
  name := "mensura"
  features :=
    [⟨"Dimension", "type", "mensura.core.dimensions"⟩,
      ⟨"IncompatibleUnitsError", "type", "mensura.core.errors"⟩,
      ⟨"Measurement", "type", "mensura.core.measurement"⟩,
      ⟨"MensuraError", "type", "mensura.core.errors"⟩,
      ⟨"ParserConfig", "type", "mensura.units.database"⟩,
      ⟨"Primitive", "type", "mensura.core.dimensions"⟩,
      ⟨"Rational", "ABCMeta", "mensura.core.rational"⟩,
      ⟨"Unit", "type", "mensura.core.unit"⟩,
      ⟨"UnitCatalogue", "type", "mensura.units.catalogue"⟩,
      ⟨"UnitParseError", "type", "mensura.core.errors"⟩,
      ⟨"UnknownUnitError", "type", "mensura.core.errors"⟩,
      ⟨"compatible", "function", "mensura.core.unit"⟩,
      ⟨"divide", "function", "mensura.core.unit"⟩,
      ⟨"multiply", "function", "mensura.core.unit"⟩,
      ⟨"power", "function", "mensura.core.unit"⟩,
      ⟨"scale", "function", "mensura.core.unit"⟩]
  listed := ["DIMENSIONLESS", "__all__", "__license__", "__version__", "_metadata", "core", "units"]

/-- The module of catalogues and databases. -/
def units : Module where
  name := "mensura.units"
  features :=
    [⟨"ParserConfig", "type", "mensura.units.database"⟩,
      ⟨"UnitCatalogue", "type", "mensura.units.catalogue"⟩,
      ⟨"try_parse", "function", "mensura.units.database"⟩]
  listed := ["TYPE_CHECKING", "_LAZY", "catalogue", "database", "expression"]

/-- The module of the given name. -/
def ofName? (name : String) : Option Module := [top, units].find? fun m => m.name = name

/-- The module that another finds under a name. -/
def submodule? (m : Module) (name : String) : Option Module :=
  [top, units].find? fun inner => inner.name = m.name ++ "." ++ name

/-- What a module lists and has to show. -/
def listedFeatures (m : Module) : List Feature := m.features ++ commonFeatures m.name

/-- Whether a module lists a name. -/
def lists (m : Module) (name : String) : Bool :=
  m.listedFeatures.any (fun f => f.name = name) || m.listed.contains name ||
    commonNames.contains name

/-- The feature of a module that is found under a name. -/
def feature? (m : Module) (name : String) : Option Feature :=
  (m.listedFeatures.find? fun f => f.name = name) <|> unlistedFeatures.lookup name

/-- What a module offers under a name. A name may have nothing to be shown, and a module that finds
its own names says of which name this is. -/
def feature (m : Module) (name : String) : Outcome Feature :=
  match m.feature? name, m.submodule? name with
  | some f, _ => .ok f
  | none, some inner => .error (.missingName inner.name "__module__")
  | none, none =>
    if m.lists name || unlistedNames.contains name then .error .missingAttribute
    else .error (.missingName m.name name)

/-- The names that make up the public surface, in alphabetical order. -/
def exported : List String :=
  (["DIMENSIONLESS", "__license__", "__version__"] ++ top.features.map Feature.name).mergeSort
    fun a b => decide (a ≤ b)

end Module

end Metrology.Calculator
