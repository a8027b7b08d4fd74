import Metrology.Measurement

/-!
# Quantities

The value of an expression is a number, a unit or a measurement. Numbers combine to numbers and
units to units; as soon as a number meets a unit, the result is a measurement. A unit is lifted to
the measurement of value one.
-/

namespace Metrology

/-- A value of an expression. -/
inductive Quantity
  | number (q : Rat)
  | unit (u : UnitOfMeasure)
  | measurement (m : Measurement)
  deriving DecidableEq

namespace Quantity

/-- A unit as the measurement of value one. -/
def one (u : UnitOfMeasure) : Measurement := ⟨1, u⟩

/-- The product of two values. -/
def mul : Quantity → Quantity → Quantity
  | number p, number q => number (p * q)
  | number p, unit v => measurement ((one v).scale p)
  | number p, measurement n => measurement (n.scale p)
  | unit u, number q => measurement ((one u).scale q)
  | unit u, unit v => unit (u.mul v)
  | unit u, measurement n => measurement ((one u).mul n)
  | measurement m, number q => measurement (m.scale q)
  | measurement m, unit v => measurement (m.mul (one v))
  | measurement m, measurement n => measurement (m.mul n)

/-- The quotient of two values. -/
def div : Quantity → Quantity → Outcome Quantity
  | number p, number q => number <$> Exact.div p q
  | number p, unit v => measurement <$> (⟨p, .one⟩ : Measurement).div (one v)
  | number p, measurement n => measurement <$> (⟨p, .one⟩ : Measurement).div n
  | unit u, number q => measurement <$> (one u).divNumber q
  | unit u, unit v => .ok (unit (u.div v))
  | unit u, measurement n => measurement <$> (one u).div n
  | measurement m, number q => measurement <$> m.divNumber q
  | measurement m, unit v => measurement <$> m.div (one v)
  | measurement m, measurement n => measurement <$> m.div n

/-- The value of the opposite sign. -/
def neg : Quantity → Quantity
  | number q => number (-q)
  | unit u => measurement (one u).neg
  | measurement m => measurement m.neg

/-- A value as a reader sees it. -/
def text : Quantity → String
  | number q => Decimal.exactText q
  | unit u => u.text
  | measurement m => m.text

/-- An integer power of a value. -/
def powInt : Quantity → Int → Outcome Quantity
  | number q, n => number <$> Exact.pow q n
  | unit u, n => .ok (unit (u.pow n))
  | measurement m, n => measurement <$> m.pow n

/-- A value raised to another, which has to be an integer. -/
def pow (base exponent : Quantity) : Outcome Quantity :=
  match exponent with
  | number q =>
    if q.den = 1 then base.powInt q.num else .error (.exponentNotInteger exponent.text)
  | _ => .error (.exponentNotInteger exponent.text)

/-- A value as a unit. The value of a measurement goes into the scale. A number is a unit only
where `allowNumbers` says so. -/
def toUnit (allowNumbers : Bool) : Quantity → Outcome UnitOfMeasure
  | unit u => .ok u
  | measurement m => m.unit.scaled m.value
  | number q =>
    if allowNumbers then UnitOfMeasure.ofScale .dimensionless q ""
    else .error (.bareNumber (number q).text)

/-- A value without dimension as a number. -/
def toNumber : Quantity → Outcome Rat
  | number q => .ok q
  | unit u => ofMeasurement (one u)
  | measurement m => ofMeasurement m
where
  ofMeasurement (m : Measurement) : Outcome Rat :=
    if m.unit.isDimensionless then .ok m.baseValue else .error (.notPureNumber m.unit.text)

end Quantity

end Metrology
