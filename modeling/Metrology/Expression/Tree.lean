import Metrology.Quantity

/-!
# Expression trees

An expression is built from numbers and names by negation, powers, products and quotients. It is
evaluated by giving every name a value, in the order in which the names stand; names are looked up
only as far as evaluation gets.
-/

namespace Metrology

/-- An expression over numbers and names. -/
inductive Expression
  | number (q : Rat)
  | name (text : String)
  | neg (e : Expression)
  | pow (base exponent : Expression)
  | mul (left right : Expression)
  | div (left right : Expression)
  deriving DecidableEq

namespace Expression

/-- The value of an expression, where looking a name up may have effects of its own. -/
def evalM {m : Type → Type} [Monad m] [MonadExceptOf Error m] (resolve : String → m Quantity) :
    Expression → m Quantity
  | number q => pure (.number q)
  | name text => resolve text
  | neg e => do
    let v ← e.evalM resolve
    return v.neg
  | pow base exponent => do
    let b ← base.evalM resolve
    let e ← exponent.evalM resolve
    MonadExcept.ofExcept (b.pow e)
  | mul left right => do
    let a ← left.evalM resolve
    let b ← right.evalM resolve
    return a.mul b
  | div left right => do
    let a ← left.evalM resolve
    let b ← right.evalM resolve
    MonadExcept.ofExcept (a.div b)

/-- The value of an expression whose names have the given values. -/
def eval (resolve : String → Outcome Quantity) (e : Expression) : Outcome Quantity :=
  e.evalM resolve

end Expression

end Metrology
