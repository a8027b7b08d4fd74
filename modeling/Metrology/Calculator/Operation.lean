import Metrology.Calculator.Operator
import Metrology.Quantity

/-!
# Operations on values

The operations of numbers, dimensions, units and measurements, for further operands whose types are
known only when they come. An operation looks at its operands in a fixed order, so that of two
unsuitable ones the same is always complained of.
-/

namespace Metrology.Calculator

namespace Value

/-- How many parts a collection has. -/
def length (v : Value) : Outcome Value := do
  return integer (← v.items).length

/-- The integer next to a number in the direction of zero, or the integer that a text writes. -/
def toWhole (v : Value) : Outcome Value :=
  match v, v.number? with
  | text s, _ => integer <$> Literal.readInteger s
  | _, some n => integer <$> n.truncate
  | _, none => .error .unsupportedOperands

/-! ### New numbers -/

/-- The quotient of two integers as a number of the library. -/
def newRational (numerator denominator : Value) : Outcome Value :=
  match numerator.integer?, denominator.integer? with
  | some n, some d => if d = 0 then .error .zeroDenominator else .ok (rational (Rat.divInt n d))
  | _, _ => .error .notIntegers

/-- The number that a text writes or a decimal number stands for. -/
def fromDecimal : Value → Outcome Value
  | text s => rational <$> Literal.read s
  | number (.decimal x) => rational <$> (Number.decimal x).toRat
  | _ => .error .unsupportedOperands

/-- The number that a double stands for exactly. -/
def fromDouble (v : Value) : Outcome Value :=
  match v, v.integer? with
  | _, some n => .ok (rational n)
  | number (.double x), none =>
    match x, x.toRat? with
    | _, some q => .ok (rational q)
    | .infinite _, none => .error .beyondDoubles
    | _, none => .error .undefinedDouble
  | _, none => .error .unsupportedOperands

/-! ### Numbers -/

/-- A text with a minus sign before it if that is asked for, unless it shows a zero. -/
def signedText (negative : Bool) (shown : String) : Value :=
  let isZero := shown.toList.all fun c => c == '0' || c == '.'
  text (if negative && !isZero then "-" ++ shown else shown)

/-- The absolute value of a number times a power of ten, rounded to an integer, a half going up,
where all steps are taken in the format of the power. -/
def shifted (q : Rat) (places : Value) : Outcome Value := do
  let product ← (integer q.num.natAbs).mul (← (integer 10).power places)
  let (whole, rest) ← product.divMod (integer q.den)
  if ← related .atLeast (← (integer 2).mul rest) (integer q.den) then whole.add (integer 1)
  else return whole

/-- A number in decimal notation with the given number of places. A number of another format serves
as well where it stands for no places at all. -/
def toDecimal (q : Rat) (places : Value) : Outcome Value := do
  match places.integer? with
  | some (.ofNat n) => return text (Decimal.render n q)
  | some (.negSucc n) =>
    -- The digits are cut as many places from their beginning.
    let shown := (← (← shifted q places).display).toList
    let fraction := Decimal.stripZeros (shown.drop (n + 1))
    let whole := shown.take (n + 1)
    return signedText (q < 0)
      (String.ofList (if fraction.isEmpty then whole else whole ++ '.' :: fraction))
  | none =>
    let whole ← shifted q places
    if ← places.equality (integer 0) then return signedText (q < 0) (← whole.display)
    else throw .unsupportedOperands

/-- Applies an operation on exact numbers to a number and what stands for one. -/
def withRat (f : Rat → Rat → Outcome Rat) (a : Rat) (b : Value) : Outcome Value := do
  return rational (← f a (← b.toRat))

/-- The sign of the difference of a number and what stands for one. -/
def compareRat (a : Rat) (b : Value) : Outcome Value := do
  return integer (Exact.sign (a - (← b.toRat)))

/-- The comparison of two decimal numbers, which gives a decimal number. -/
def compareDecimals (x : Scientific) (b : Value) : Outcome Value := do
  match b.number? with
  | some n =>
    let y ← n.toDecimal
    match x.undefinedResult? y with
    | some result => return number (.decimal (← result))
    | none =>
      match (Number.decimal x).compare? (.decimal y) with
      | some .lt => return number (.decimal (.ofInt (-1)))
      | some .gt => return number (.decimal (.ofInt 1))
      | _ => return number (.decimal (.ofInt 0))
  | none => throw .unsupportedOperands

/-! ### Dimensions -/

/-- The dimension of a primitive. -/
def dimensionOf (v : Value) : Outcome Value := do
  return dimension (.ofEntries [← toEntry v (integer 1)])

/-- The exponent of a primitive in a dimension. -/
def exponentIn (d : Dimension) (p : Value) : Value :=
  match p.primitive? with
  | some p => integer (d.exponent p)
  | none => integer 0

/-- A dimension as a table. -/
def asTable (d : Dimension) : Value :=
  table (d.entries.map fun e => (primitive e.1, integer e.2))

/-! ### Units -/

/-- The unit with the given dimension, scale and name. -/
def newUnit (dim scale name : Value) : Outcome Value := do
  let d ← dim.toDimension
  return (unit (← UnitOfMeasure.ofScale d (← scale.toRat) "")).relabelled name

/-- The result of an operation on one unit or measurement, called by the name that `name` gives. -/
def withLabel (v result : Value) (name : Value → Outcome Value) : Outcome Value := do
  if v.isLabelled then return result.relabelled (← name v.label) else return result

/-- A multiple of a unit. -/
def scaleUnit (v : Value) (u : UnitOfMeasure) (factor : Value) : Outcome Value := do
  let f ← factor.toRat
  if v.isLabelled then
    let name ← v.label.multipleName f
    return (unit (← u.scaled f)).relabelled name
  else return unit (← u.scaled f)

/-- The second unit of a product or quotient. A measurement has a dimension, but its scale is no
number. -/
def asUnit (v : Value) : Outcome UnitOfMeasure :=
  match v.unit?, v.measurement? with
  | some u, _ => .ok u
  | none, some _ => .error .unsupportedOperands
  | none, none => .error .missingAttribute

/-- The product of two units. -/
def multiplyUnits (v w : Value) : Outcome Value :=
  withLabels (fun v w => do return unit ((← v.asUnit).mul (← w.asUnit)))
    (fun v w => v.label.productName w.label) v w

/-- The quotient of two units. -/
def divideUnits (v w : Value) : Outcome Value :=
  withLabels (fun v w => do return unit ((← v.asUnit).div (← w.asUnit)))
    (fun v w => v.label.quotientName w.label) v w

/-- An integer power of a unit. -/
def powerOfUnit (v exponent : Value) : Outcome Value := do
  v.powWhole (← exponent.toExponent)

/-- The reciprocal of a unit. -/
def reciprocalOf (v : Value) (u : UnitOfMeasure) : Outcome Value :=
  withLabel v (unit u.reciprocal) reciprocalName

/-- The dimension of a unit or a measurement. -/
def dimensionBeside (v : Value) : Outcome Dimension :=
  match v.unit?, v.measurement? with
  | some u, _ => .ok u.dim
  | none, some m => .ok m.unit.dim
  | none, none => .error .missingAttribute

/-- Whether a unit and another value have the same dimension. -/
def areCompatible (u : UnitOfMeasure) (v : Value) : Outcome Value := do
  return truth (u.dim = (← v.dimensionBeside))

/-! ### Measurements -/

/-- The measurement of a value in a unit. -/
def newMeasurement (value unit : Value) : Outcome Value := do
  let q ← value.toRat
  match unit.unit? with
  | some u => return (measurement ⟨q, u⟩).relabelled unit.label
  | none => throw (.measurementUnit unit.typeName)

/-- A measurement in another unit. What is no unit but has a dimension is refused only where the
dimensions agree. -/
def convertTo (v : Value) (m : Measurement) (target : Value) : Outcome Value := do
  let dim ← target.dimensionBeside
  if m.unit.dim ≠ dim then
    throw (.incompatibleUnits (← v.ofUnitOf.display) (← target.display))
  match target.unit? with
  | some u => return (measurement (← m.convertTo u)).relabelled target.label
  | none => throw .unsupportedOperands

/-- The second measurement of an operation. -/
def asMeasurement (v : Value) : Outcome Measurement :=
  match v.measurement? with
  | some m => .ok m
  | none => .error .missingAttribute

/-- Applies an operation on measurements. -/
def withMeasurements (f : Measurement → Measurement → Outcome Measurement)
    (name : Value → Value → Outcome Value) : Value → Value → Outcome Value :=
  withLabels (fun v w => do return measurement (← f (← v.asMeasurement) (← w.asMeasurement))) name

/-- Applies an operation on measurements of equal dimension. -/
def withSummands (f : Measurement → Measurement → Outcome Measurement) (v w : Value) :
    Outcome Value := do
  let n ← w.asMeasurement
  w.requireConversion v n.unit.dim (← v.asMeasurement).unit.dim
  withMeasurements f firstLabelOf v w

/-- A multiple of a measurement. -/
def scaleMeasurement (v : Value) (m : Measurement) (factor : Value) : Outcome Value := do
  withLabel v (measurement (m.scale (← factor.toRat))) .ok

/-- An integer power of a measurement; an exponent that is a number of the library does for the
value and not for the unit. -/
def powerOfMeasurement (v : Value) (m : Measurement) (exponent : Value) : Outcome Value := do
  let _ ← powRational m.value exponent
  v.powWhole (← exponent.toExponent)

/-! ### Values of expressions -/

/-- A value as the unit that an expression with this value would define. -/
def toUnit (v allowNumbers : Value) : Outcome Value := do
  match v.unit?, v.measurement? with
  | some _, _ => return v
  | none, some m => v.ofUnitOf.scaleUnit m.unit (rational m.value)
  | none, none =>
    if allowNumbers.isTrue then
      return unit (← UnitOfMeasure.ofScale .dimensionless (← v.toRat) "")
    else throw (.bareNumber (← v.display))

/-- A value without dimension as a number. -/
def toPureNumber (v : Value) : Outcome Value := do
  match v, v.unit?, v.measurement? with
  | number (.rational q), _, _ => return rational q
  | _, some u, _ =>
    if u.isDimensionless then return rational u.scale
    else throw (.notPureNumber (← v.display))
  | _, none, some m =>
    if m.unit.isDimensionless then return rational m.baseValue
    else throw (.notPureNumber (← v.ofUnitOf.display))
  | _, none, none => throw (.measurementUnit v.typeName)

end Value

end Metrology.Calculator
