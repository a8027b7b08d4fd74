import Metrology.Calculator.Operator
import Metrology.Expression.Parser

/-!
# Expressions over values

A name in an expression may stand for any value. As long as the values are numbers, units and
measurements, an expression has the value that `Expression.eval` gives it; a value of another kind
can be the whole value of an expression and is refused where it would have to be combined.
-/

namespace Metrology.Calculator

namespace Value

/-- A value that expressions combine. -/
def quantity? : Value → Option Quantity
  | number (.rational q) => some (.number q)
  | unit u => some (.unit u)
  | measurement m => some (.measurement m)
  | _ => none

/-- A value that expressions combine; any other would have to be a unit. -/
def asQuantity (v : Value) : Outcome Quantity :=
  match v.quantity? with
  | some q => .ok q
  | none => .error (.measurementUnit v.typeName)

/-- Combines two values of an expression, of which the first is looked at first. -/
def combined (f : Quantity → Quantity → Outcome Quantity) (a b : Value) : Outcome Value := do
  let p ← a.asQuantity
  return ofQuantity (← f p (← b.asQuantity))

/-- The product of two values of an expression. A number leaves the unit beside it as it is. -/
def product : Value → Value → Outcome Value :=
  withLabels (combined fun p q => .ok (p.mul q)) (productLabel fun _ name => .ok name)

/-- What the quotient of two values of an expression is called. -/
def plainQuotientLabel (a b : Value) : Outcome Value :=
  if a.number?.isSome then b.label.reciprocalName
  else if b.number?.isSome then .ok a.label
  else a.label.quotientName b.label

/-- The quotient of two values of an expression. -/
def quotient : Value → Value → Outcome Value :=
  withLabels (combined Quantity.div) plainQuotientLabel

/-- The value of the opposite sign. -/
def opposite (v : Value) : Outcome Value := do
  let q ← v.unlabelled.asQuantity
  if v.isLabelled then return (ofQuantity q.neg).relabelled v.label else return ofQuantity q.neg

/-- A value of an expression raised to another, which has to be an integer. -/
def raisedTo (base exponent : Value) : Outcome Value := do
  match exponent.quantity?, base.quantity? with
  | some e, some b => ofQuantity <$> b.pow e
  | some (.number q), none =>
    if q.den ≠ 1 then throw (.exponentNotInteger (← exponent.display))
    else if base.isLabelled then base.powWhole q.num
    else throw .missingAttribute
  | _, _ => throw (.exponentNotInteger (← exponent.display))

/-- The value of an expression whose names may stand for any values. -/
def ofExpression {m : Type → Type} [Monad m] [MonadExceptOf Error m] (resolve : String → m Value) :
    Expression → m Value
  | .number q => pure (rational q)
  | .name s => resolve s
  | .neg e => do
    let v ← ofExpression resolve e
    MonadExcept.ofExcept v.opposite
  | .pow base exponent => do
    let b ← ofExpression resolve base
    let e ← ofExpression resolve exponent
    MonadExcept.ofExcept (b.raisedTo e)
  | .mul left right => do
    let a ← ofExpression resolve left
    let b ← ofExpression resolve right
    MonadExcept.ofExcept (a.product b)
  | .div left right => do
    let a ← ofExpression resolve left
    let b ← ofExpression resolve right
    MonadExcept.ofExcept (a.quotient b)

/-! ### Reading expressions -/

/-- The tokens of a text; of what is no text only an empty collection has tokens, which are none. -/
def tokens : Value → Outcome (List Token)
  | text s => Token.ofText s
  | list [] | tuple [] | table [] => .ok []
  | list _ | tuple _ => .error .missingAttribute
  | dimension d => if d.isDimensionless then .ok [] else .error .missingAttribute
  | catalogue _ [] _ => .ok []
  | _ => .error .unsupportedOperands

/-- The expression that a value writes. -/
def toExpression (v : Value) : Outcome Expression :=
  match v with
  | text s => Expression.ofText s
  | _ =>
    if v.isKey then do Expression.ofTokens "" (← v.tokens)
    else .error .unsupportedOperands

/-- The quantities of a table whose values all are quantities. -/
def quantities? (entries : List (Value × Value)) : Option (List (Value × Quantity)) :=
  entries.mapM fun (key, v) => v.quantity?.map fun q => (key, q)

/-- What a list of names and what they stand for says of a name. -/
def entryOf {α : Type} (entries : List (Value × α)) (name : String) : Outcome α :=
  match entries.find? fun e => e.1.equal (text name) with
  | some (_, v) => .ok v
  | none => .error (.unknownUnit name)

end Value

end Metrology.Calculator
