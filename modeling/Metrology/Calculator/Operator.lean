import Metrology.Calculator.Label
import Metrology.Number.Arithmetic

/-!
# Arithmetic between values

The operators combine numbers, units and measurements: a number scales a unit or a measurement,
and a unit beside a measurement multiplies or divides its unit. If one of two numbers is a number of
the library, so is the result; else they follow the arithmetic of their formats. Dimensions are
multiplied and divided by whatever describes a dimension, and texts and lists are joined and
repeated. All other combinations are refused.
-/

namespace Metrology.Calculator

/-- A value that takes part in products and quotients of quantities. -/
inductive Operand
  | number (n : Number)
  | unit (u : UnitOfMeasure)
  | measurement (m : Measurement)
  deriving DecidableEq

namespace Operand

/-- A value as an operand. -/
def ofValue? (v : Value) : Option Operand :=
  match v, v.number? with
  | .unit u, _ => some (unit u)
  | .measurement m, _ => some (measurement m)
  | _, some n => some (number n)
  | _, none => none

/-- An operand as a value. -/
def toValue : Operand → Value
  | number n => .number n
  | unit u => .unit u
  | measurement m => .measurement m

/-- Combines two numbers, exactly if one of them is a number of the library. -/
def combine (f : Rat → Rat → Outcome Rat) (g : Number → Number → Outcome Number) (a b : Number) :
    Outcome Operand :=
  if a.isRational || b.isRational then do
    return number (.rational (← f (← a.toRat) (← b.toRat)))
  else number <$> g a b

/-- The sum of two operands. -/
def add : Operand → Operand → Outcome Operand
  | number a, number b => combine (fun p q => .ok (p + q)) Number.add a b
  | measurement m, measurement n => measurement <$> m.add n
  | _, _ => .error .unsupportedOperands

/-- The difference of two operands. -/
def sub : Operand → Operand → Outcome Operand
  | number a, number b => combine (fun p q => .ok (p - q)) Number.sub a b
  | measurement m, measurement n => measurement <$> m.sub n
  | _, _ => .error .unsupportedOperands

/-- The product of two operands. -/
def mul : Operand → Operand → Outcome Operand
  | number a, number b => combine (fun p q => .ok (p * q)) Number.mul a b
  | number a, unit v => do return unit (← v.scaled (← a.toRat))
  | number a, measurement n => do return measurement (n.scale (← a.toRat))
  | unit u, number b => do return unit (← u.scaled (← b.toRat))
  | unit u, unit v => .ok (unit (u.mul v))
  | unit u, measurement n => .ok (measurement ⟨n.value, u.mul n.unit⟩)
  | measurement m, number b => do return measurement (m.scale (← b.toRat))
  | measurement m, unit v => .ok (measurement ⟨m.value, m.unit.mul v⟩)
  | measurement m, measurement n => .ok (measurement (m.mul n))

/-- The quotient of two operands. One divided by a unit is its reciprocal. -/
def div : Operand → Operand → Outcome Operand
  | number a, number b => combine Exact.div Number.div a b
  | number a, unit v => do
    if ← a.equality (.integer 1) then return unit v.reciprocal
    else return unit (← v.reciprocal.scaled (← a.toRat))
  | number a, measurement n =>
    if n.value = 0 then .error .zeroMeasurement
    else do return measurement ⟨(← a.toRat) / n.value, n.unit.reciprocal⟩
  | unit u, number b => do return unit (← u.scaled (← Exact.div 1 (← b.toRat)))
  | unit u, unit v => .ok (unit (u.div v))
  | unit u, measurement n =>
    if n.value = 0 then .error .zeroMeasurement
    else .ok (measurement ⟨Exact.power n.value (-1), u.div n.unit⟩)
  | measurement m, number b => do return measurement (← m.divNumber (← b.toRat))
  | measurement m, unit v => .ok (measurement ⟨m.value, m.unit.div v⟩)
  | measurement m, measurement n => measurement <$> m.div n

end Operand

namespace Value

/-- Applies an operation on operands to two values. -/
def liftOperands (f : Operand → Operand → Outcome Operand) (a b : Value) : Outcome Value :=
  match Operand.ofValue? a, Operand.ofValue? b with
  | some x, some y => Operand.toValue <$> f x y
  | _, _ => .error .unsupportedOperands

/-- Applies an operation on operands of equal dimension to two values. -/
def liftSummands (f : Operand → Operand → Outcome Operand) (a b : Value) : Outcome Value := do
  match a.measurement?, b.measurement? with
  | some m, some n => b.requireConversion a n.unit.dim m.unit.dim
  | _, _ => pure ()
  withLabels (liftOperands f) firstLabelOf a b

/-- The operator `+`. -/
def add (a b : Value) : Outcome Value :=
  match a, b with
  | text s, text t => .ok (text (s ++ t))
  | list l, list m => .ok (list (l ++ m))
  | tuple l, tuple m => .ok (tuple (l ++ m))
  | _, _ => liftSummands Operand.add a b

/-- The operator `-` between two values. -/
def sub (a b : Value) : Outcome Value := liftSummands Operand.sub a b

/-- Counts lie below this bound, and at or above its opposite. -/
def countBound : Int := 0x8000000000000000

/-- Texts and lists are shorter than this. -/
def lengthBound : Nat := 0x100000000

/-- How often a value of `length` parts is repeated if that is asked for `n` times: not at all where
nothing would come of it. -/
def repetitions (length : Nat) (isText : Bool) (n : Int) : Outcome Nat :=
  if n < -countBound ∨ countBound ≤ n then .error .beyondCounting
  else if length = 0 then .ok 0
  else if n.toNat * length < lengthBound then .ok n.toNat
  else if isText && decide (countBound ≤ n * length) then .error .beyondCounting
  else .error .beyondMemory

/-- A value repeated. -/
def repeated (v : Value) (n : Int) : Outcome Value := do
  match v with
  | text s => return text (String.join (List.replicate (← repetitions s.length true n) s))
  | list items =>
    return list (List.replicate (← repetitions items.length false n) items).flatten
  | tuple items =>
    return tuple (List.replicate (← repetitions items.length false n) items).flatten
  | _ => throw .unsupportedOperands

/-- Whether a value can be repeated. -/
def isRepeatable : Value → Bool
  | text _ | list _ | tuple _ => true
  | _ => false

/-- The operator `*`. -/
def mul (a b : Value) : Outcome Value :=
  match a, a.integer?, b.integer? with
  | dimension d, _, _ => do return dimension (d.mul (← b.toDimension))
  | _, some n, _ =>
    if b.isRepeatable then b.repeated n
    else withLabels (liftOperands Operand.mul) productLabelOf a b
  | _, none, some n =>
    if a.isRepeatable then a.repeated n
    else withLabels (liftOperands Operand.mul) productLabelOf a b
  | _, none, none => withLabels (liftOperands Operand.mul) productLabelOf a b

/-- The operator `/`. -/
def div (a b : Value) : Outcome Value :=
  match a with
  | dimension d => do return dimension (d.div (← b.toDimension))
  | _ => withLabels (liftOperands Operand.div) quotientLabelOf a b

/-- The quotient of two numbers as an integer, and the remainder. -/
def divMod (a b : Value) : Outcome (Value × Value) := do
  match a.number?, b.number? with
  | some x, some y => do
    let (q, r) ← x.divMod y
    return (number q, number r)
  | _, _ => throw .unsupportedOperands

/-- The power of a number of the library as its own operation gives it: an exponent that is such
a number has to be an integer. -/
def powRational (q : Rat) (exponent : Value) : Outcome Value :=
  match exponent with
  | number (.rational e) =>
    if e.den = 1 then rational <$> Exact.pow q e.num
    else .error (.fractionalExponent (Decimal.exactText e))
  | _ => do return rational (← Exact.pow q (← exponent.toExponent))

/-- An integer power of a unit or a measurement. -/
def powWhole (v : Value) (n : Int) : Outcome Value :=
  match v with
  | unit u => .ok (unit (u.pow n))
  | measurement m => measurement <$> m.pow n
  | labelledUnit u name => do return (unit (u.pow n)).relabelled (← name.wholePowerName n)
  | labelledMeasurement m name => do
    return (measurement (← m.pow n)).relabelled (← name.wholePowerName n)
  | _ => .error .unsupportedOperands

/-- The power of a value that is no number. -/
def powOther (base exponent : Value) : Outcome Value := do
  match exponent.number? with
  | none => throw .unsupportedOperands
  | some e =>
    match ← e.looseExponent with
    | .integer n => base.powWhole n
    | _ => throw .unsupportedOperands

/-- The operator `**` without a modulus. -/
def power (base exponent : Value) : Outcome Value :=
  match base with
  | number (.rational q) =>
    match exponent with
    | number (.rational _) | number (.integer _) => powRational q exponent
    | number (.fraction e) =>
      -- A fraction from elsewhere asks the number for its positive powers only.
      if e.den = 1 ∧ 0 ≤ e.num then rational <$> Exact.pow q e.num
      else number <$> Number.pow (.rational q) (.fraction e)
    | _ => .error .unsupportedOperands
  | dimension d => do return dimension (d.pow (← exponent.toExponent))
  | _ =>
    match base.number?, exponent.number? with
    | some a, some b => number <$> a.pow b
    | some (.fraction q), none => do
      -- The base is looked at first.
      let _ ← (Number.fraction q).toDouble
      throw .unsupportedOperands
    | some _, none => .error .unsupportedOperands
    | none, _ => base.powOther exponent

/-- The operator `**` with a modulus. -/
def powMod (base exponent modulus : Value) : Outcome Value :=
  match base with
  | number (.rational _) => .error (.moduloPower "Rational")
  | dimension _ => .error (.moduloPower "Dimension")
  | _ =>
    match base.number?, exponent.number?, modulus.number? with
    | some a, some b, some m => number <$> a.powMod b m
    | _, _, _ => .error .unsupportedOperands

/-- The operator `**`, with a modulus that is nothing in most cases. -/
def pow (base exponent modulus : Value) : Outcome Value :=
  match modulus with
  | nothing => base.power exponent
  | _ => base.powMod exponent modulus

/-- Applies an operation on numbers to a value. -/
def liftNumber (f : Number → Outcome Number) (v : Value) : Outcome Value :=
  match v.number? with
  | some n => number <$> f n
  | none => .error .unsupportedOperands

/-- The operator `-` before a value. -/
def neg : Value → Outcome Value
  | measurement m => .ok (measurement m.neg)
  | labelledMeasurement m name => .ok (labelledMeasurement m.neg name)
  | v => v.liftNumber Number.neg

/-- The operator `+` before a value. -/
def pos (v : Value) : Outcome Value := v.liftNumber Number.pos

/-- The absolute value. -/
def abs (v : Value) : Outcome Value := v.liftNumber Number.abs

end Value

end Metrology.Calculator
