import Metrology.Calculator.Catalogue

/-!
# Members of values

A member is what a value offers by name: something to read, or an operation that is called with
further operands. Several types of values share the names of members, so it is the first operand
that decides what a name means: a power belongs to units and to measurements, and measuring to units
and to catalogues. A value without the member fails before its operands are looked at.
-/

namespace Metrology.Calculator

/-- The names of the members of values. -/
inductive Member
  | sign
  | isInteger
  | toDouble
  | toDecimal
  | add
  | sub
  | mul
  | div
  | compare
  | pow
  | exponent
  | asTable
  | isDimensionless
  | name
  | dim
  | scale
  | scaled
  | multiply
  | divide
  | power
  | reciprocal
  | compatible
  | measure
  | renamed
  | value
  | unit
  | baseValue
  | convertTo
  | subtract
  | negate
  | lookup
  | factor
  | has
  | names
  | evaluate
  | quantityName
  | define
  | defineFactor
  | nameQuantity
  deriving DecidableEq, Repr

/-- What a value offers under the name of a member. -/
inductive Offer
  /-- A value to read. -/
  | property (v : Value)
  /-- An operation to call with further operands. -/
  | operation (run : List Value → Calculation Value)

namespace Offer

/-- An operation without further operands. -/
def constant (v : Outcome Value) : Offer :=
  operation fun
    | [] => MonadExcept.ofExcept v
    | _ => throw .unsupportedOperands

/-- An operation with one further operand. -/
def unary (f : Value → Outcome Value) : Offer :=
  operation fun
    | [a] => MonadExcept.ofExcept (f a)
    | _ => throw .unsupportedOperands

/-- A step with one further operand. -/
def unaryStep (f : Value → Calculation Value) : Offer :=
  operation fun
    | [a] => f a
    | _ => throw .unsupportedOperands

/-- A step with two further operands. -/
def binaryStep (f : Value → Value → Calculation Value) : Offer :=
  operation fun
    | [a, b] => f a b
    | _ => throw .unsupportedOperands

end Offer

namespace Value

open Offer

/-- What a number of the library offers. -/
def offerOfRational (q : Rat) : Member → Option Offer
  | .sign => some (property (integer (Exact.sign q)))
  | .isInteger => some (constant (.ok (truth (q.den = 1))))
  | .toDouble => some (constant do return number (.double (← Binary64.ofRat q)))
  | .toDecimal => some (operation fun
    | [] => MonadExcept.ofExcept (toDecimal q (integer 20))
    | [places] => MonadExcept.ofExcept (toDecimal q places)
    | _ => throw .unsupportedOperands)
  | .add => some (unary (withRat (fun p q => .ok (p + q)) q))
  | .sub => some (unary (withRat (fun p q => .ok (p - q)) q))
  | .mul => some (unary (withRat (fun p q => .ok (p * q)) q))
  | .div => some (unary (withRat Exact.div q))
  | .compare => some (unary (compareRat q))
  | .pow => some (unary (powRational q))
  | _ => none

/-- What a dimension offers. -/
def offerOfDimension (d : Dimension) : Member → Option Offer
  | .exponent => some (unary fun p => .ok (exponentIn d p))
  | .asTable => some (constant (.ok (asTable d)))
  | .isDimensionless => some (property (truth d.isDimensionless))
  | _ => none

/-- What a unit offers, which the value `v` stands for. -/
def offerOfUnit (v : Value) (u : UnitOfMeasure) : Member → Option Offer
  | .dim => some (property (dimension u.dim))
  | .scale => some (property (rational u.scale))
  | .name => some (property v.label)
  | .isDimensionless => some (property (truth u.isDimensionless))
  | .scaled => some (unary (scaleUnit v u))
  | .multiply => some (unary (multiplyUnits v))
  | .divide => some (unary (divideUnits v))
  | .power => some (unary (powerOfUnit v))
  | .reciprocal => some (constant (reciprocalOf v u))
  | .compatible => some (unary (areCompatible u))
  | .measure => some (unary fun value => value.newMeasurement v)
  | .renamed => some (unary fun name => .ok (v.relabelled name))
  | _ => none

/-- What a measurement offers, which the value `v` stands for. -/
def offerOfMeasurement (v : Value) (m : Measurement) : Member → Option Offer
  | .value => some (property (rational m.value))
  | .unit => some (property v.ofUnitOf)
  | .dim => some (property (dimension m.unit.dim))
  | .baseValue => some (constant (.ok (rational m.baseValue)))
  | .convertTo => some (unary (convertTo v m))
  | .multiply => some (unary (withMeasurements (fun a b => .ok (a.mul b)) productLabelOf v))
  | .divide => some (unary (withMeasurements Measurement.div quotientLabelOf v))
  | .scale => some (unary (scaleMeasurement v m))
  | .power => some (unary (powerOfMeasurement v m))
  | .add => some (unary (withSummands Measurement.add v))
  | .subtract => some (unary (withSummands Measurement.sub v))
  | .negate => some (constant v.neg)
  | _ => none

/-- What the catalogue in use at a place offers. -/
def offerOfCatalogue (place : Nat) : Member → Option Offer
  | .lookup => some (unaryStep (Calculation.lookup place))
  | .factor => some (unaryStep (Calculation.factorOf place))
  | .has => some (unaryStep (Calculation.has place))
  | .names => some (operation fun
    | [] => Calculation.names place
    | _ => throw .unsupportedOperands)
  | .evaluate => some (unaryStep (Calculation.evaluate place))
  | .unit => some (unaryStep (Calculation.unitBy place))
  | .measure => some (binaryStep (Calculation.measureBy place))
  | .quantityName => some (unaryStep (Calculation.quantityName place))
  | .define => some (binaryStep (Calculation.define place))
  | .defineFactor => some (binaryStep (Calculation.defineFactor place))
  | .nameQuantity => some (binaryStep (Calculation.nameQuantity place))
  | _ => none

/-- What a decimal number offers: comparison, with room for a setting that has to be left out. -/
def offerOfDecimal (x : Scientific) : Member → Option Offer
  | .compare => some (operation fun
    | [a] | [a, nothing] => MonadExcept.ofExcept (compareDecimals x a)
    | _ => throw .unsupportedOperands)
  | _ => none

/-- What a value offers under the name of a member. -/
def offer (v : Value) (m : Member) : Option Offer :=
  match v, m with
  | number (.rational q), _ => offerOfRational q m
  | number (.decimal x), _ => offerOfDecimal x m
  | number (.double x), .isInteger => some (constant (.ok (truth (x.isFinite && !x.hasFraction))))
  | primitive p, .name => some (property (text p.name))
  | labelledPrimitive _ name, .name => some (property name)
  | dimension d, _ => offerOfDimension d m
  | unit u, _ | labelledUnit u _, _ => offerOfUnit v u m
  | measurement n, _ | labelledMeasurement n _, _ => offerOfMeasurement v n m
  | catalogue place _ _, _ => offerOfCatalogue place m
  | _, _ => none

/-- Reads a member of a value. -/
def read (v : Value) (m : Member) : Calculation Value :=
  match v.offer m with
  | some (.property a) => pure a
  | some (.operation _) => throw .unsupportedOperands
  | none => throw .missingAttribute

/-- Calls a member of a value with further operands. -/
def call (v : Value) (m : Member) (operands : List Value) : Calculation Value :=
  match v.offer m with
  | some (.operation run) => run operands
  | some (.property _) => throw .unsupportedOperands
  | none => throw .missingAttribute

end Value

end Metrology.Calculator
