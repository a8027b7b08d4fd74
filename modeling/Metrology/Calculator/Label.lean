import Metrology.Calculator.Comparison

/-!
# Labels of units

Units are called by texts, and the names of products, quotients and powers are composed of the names
of their parts. Any value may stand for a name, though: one without content gives no name, a factor
is put in parentheses when a slash is among its parts, and a value that has no text to be composed
of is refused. `Value.withLabels` does with units that are called by such labels what an operation
does with the units themselves, and then gives the result its label.
-/

namespace Metrology.Calculator

namespace Value

/-! ### Names composed of values -/

/-- A value between parentheses. -/
def parenthesized (v : Value) : Outcome String := return Name.parenthesized (← v.display)

/-- A value as it stands in the name of a product or before a slash. -/
def asFactorName (v : Value) : Outcome String := do
  if ← v.hasPart (text "/") then v.parenthesized else v.display

/-- The name of an integer power. -/
def wholePowerName (v : Value) (n : Int) : Outcome Value :=
  match v with
  | text name => .ok (text (Name.power name n))
  | _ =>
    if !v.isTrue then .ok (text "")
    else if n = 0 then .ok (text "1")
    else if n = 1 then .ok v
    else .error .unsupportedOperands

/-- The name of a product. -/
def productName (a b : Value) : Outcome Value :=
  match a, b with
  | text s, text t => .ok (text (Name.product s t))
  | _, _ => do
    if !a.isTrue || !b.isTrue then return text ""
    if ← a.equality b then a.wholePowerName 2
    else return text ((← a.asFactorName) ++ "·" ++ (← b.asFactorName))

/-- The name of a quotient. -/
def quotientName (a b : Value) : Outcome Value :=
  match a, b with
  | text s, text t => .ok (text (Name.quotient s t))
  | _, _ => do
    if !a.isTrue || !b.isTrue then return text ""
    else return text ((← a.asFactorName) ++ "/" ++ Name.operand (← b.asText))

/-- The name of a multiple. -/
def multipleName (f : Rat) (v : Value) : Outcome Value := do
  if v.isTrue then return text (UnitOfMeasure.factorText f ++ "·" ++ (← v.display))
  else return text ""

/-- The name of a reciprocal. -/
def reciprocalName (v : Value) : Outcome Value := quotientName (text "1") v

/-! ### Units and their labels -/

/-- What a unit, or the unit of a measurement, is called. -/
def label : Value → Value
  | unit u => text u.name
  | measurement m => text m.unit.name
  | labelledUnit _ name => name
  | labelledMeasurement _ name => name
  | _ => nothing

/-- Whether a unit or the unit of a measurement is called by a value that is no text. -/
def isLabelled : Value → Bool
  | labelledUnit _ _ | labelledMeasurement _ _ => true
  | _ => false

/-- A unit or a measurement without its label. -/
def unlabelled : Value → Value
  | labelledUnit u _ => unit (u.renamed "")
  | labelledMeasurement m _ => measurement { m with unit := m.unit.renamed "" }
  | v => v

/-- A unit or a measurement with its unit called by the given value. -/
def relabelled (v name : Value) : Value :=
  match v.unit?, v.measurement?, name with
  | some u, _, text s => unit (u.renamed s)
  | some u, _, _ => labelledUnit (u.renamed "") name
  | none, some m, text s => measurement { m with unit := m.unit.renamed s }
  | none, some m, _ => labelledMeasurement { m with unit := m.unit.renamed "" } name
  | none, none, _ => v

/-- Applies an operation to two values. If one of them has a label, the operation is applied without
labels and the result is given a name of its own. The name comes first where a number stands before
a unit, and before a scale of zero is refused. -/
def withLabels (f name : Value → Value → Outcome Value) (a b : Value) : Outcome Value :=
  if a.isLabelled || b.isLabelled then
    match f a.unlabelled b.unlabelled with
    | .ok result => do return result.relabelled (← name a b)
    | .error e => do
      if e = .zeroScale || (a.number?.isSome && b.unit?.isSome) then
        let _ ← name a b
      throw e
  else f a b

/-- Two measurements, or a measurement and a unit, that have to agree in their dimensions before the
first is converted to the unit of the second. -/
def requireConversion (source target : Value) (a b : Dimension) : Outcome PUnit := do
  if a = b then return ()
  else throw (.incompatibleUnits (← source.ofUnitOf.display) (← target.ofUnitOf.display))

/-! ### Names of results -/

/-- What the product of two values is called, given how a multiple of a unit is called. -/
def productLabel (ofMultiple : Number → Value → Outcome Value) (a b : Value) : Outcome Value :=
  match a.number?, b.number? with
  | some p, _ => if b.unit?.isSome then ofMultiple p b.label else .ok b.label
  | none, some q => if a.unit?.isSome then ofMultiple q a.label else .ok a.label
  | none, none => a.label.productName b.label

/-- What the product of two values is called. -/
def productLabelOf : Value → Value → Outcome Value :=
  productLabel fun q name => do name.multipleName (← q.toRat)

/-- What the quotient of two values is called. -/
def quotientLabelOf (a b : Value) : Outcome Value := do
  match a.number?, b.number? with
  | some p, _ =>
    let name ← b.label.reciprocalName
    if b.unit?.isSome && !(← p.equality (.integer 1)) then name.multipleName (← p.toRat)
    else return name
  | none, some q =>
    if a.unit?.isSome then a.label.multipleName (1 / (← q.toRat)) else return a.label
  | none, none => a.label.quotientName b.label

/-- What the result is called that is in the unit of the first value. -/
def firstLabelOf (a _b : Value) : Outcome Value := .ok a.label

end Value

end Metrology.Calculator
