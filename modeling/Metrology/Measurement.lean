import Metrology.Unit

/-!
# Measurements

A measurement is a number of units, and stands for `value · unit.scale` of the primitive
combination of the unit's dimension, its base value. Sums and comparisons convert the second
operand to the unit of the first and need equal dimensions.
-/

namespace Metrology

/-- A number of units. -/
structure Measurement where
  /-- How many of the unit. -/
  value : Rat
  /-- The unit that is counted. -/
  unit : UnitOfMeasure
  deriving DecidableEq

namespace Measurement

/-- The value in primitive units. -/
def baseValue (m : Measurement) : Rat := m.value * m.unit.scale

/-- The same quantity in another unit. -/
def convertTo (m : Measurement) (target : UnitOfMeasure) : Outcome Measurement :=
  if m.unit.compatible target then .ok ⟨m.baseValue / target.scale, target⟩
  else .error (.incompatibleUnits m.unit.text target.text)

/-- The product of two measurements. -/
def mul (a b : Measurement) : Measurement := ⟨a.value * b.value, a.unit.mul b.unit⟩

/-- The quotient of two measurements. -/
def div (a b : Measurement) : Outcome Measurement :=
  if b.value = 0 then .error .zeroMeasurement
  else .ok ⟨a.value / b.value, a.unit.div b.unit⟩

/-- A multiple of a measurement, in the same unit. -/
def scale (m : Measurement) (f : Rat) : Measurement := ⟨f * m.value, m.unit⟩

/-- A measurement divided by a number, in the same unit. -/
def divNumber (m : Measurement) (f : Rat) : Outcome Measurement := do
  return ⟨← Exact.div m.value f, m.unit⟩

/-- An integer power of a measurement. -/
def pow (m : Measurement) (n : Int) : Outcome Measurement := do
  return ⟨← Exact.pow m.value n, m.unit.pow n⟩

/-- The sum of two measurements, in the unit of the first. -/
def add (a b : Measurement) : Outcome Measurement := do
  return ⟨a.value + (← b.convertTo a.unit).value, a.unit⟩

/-- The difference of two measurements, in the unit of the first. -/
def sub (a b : Measurement) : Outcome Measurement := do
  return ⟨a.value - (← b.convertTo a.unit).value, a.unit⟩

/-- A measurement of the opposite sign. -/
def neg (m : Measurement) : Measurement := ⟨-m.value, m.unit⟩

/-- Whether values and units agree; names count for nothing, and nothing is converted. -/
def equivalent (a b : Measurement) : Bool := a.value = b.value && a.unit.equivalent b.unit

/-- The sign of the difference of two measurements in the unit of the first. -/
def compare (a b : Measurement) : Outcome Int := do
  return Exact.sign (a.value - (← b.convertTo a.unit).value)

/-- A measurement as a reader sees it, its unit written as given; the unit `1` is left out. -/
def textWith (m : Measurement) (unit : String) : String :=
  let value := Decimal.render 15 m.value
  if unit = "1" then value else value ++ " " ++ unit

/-- A measurement as a reader sees it. -/
def text (m : Measurement) : String := m.textWith m.unit.text

/-- A measurement with all its parts, the name of its unit written as given. -/
def listingAs (m : Measurement) (name : String) : String :=
  s!"Measurement({Decimal.exactText m.value}, {m.unit.listingAs name})"

/-- A measurement with all its parts. -/
def listing (m : Measurement) : String := m.listingAs (Text.quoted m.unit.name)

end Measurement

end Metrology
