import Metrology.Calculator.Formula
import Metrology.Calculator.Session
import Metrology.Calculator.Setting

/-!
# Catalogues of a calculation

Making, reading and changing catalogues, with operands whose types are known only when they come. A
catalogue is read and changed as such for as long as it holds only what a catalogue holds, and as a
register from then on.
-/

namespace Metrology.Calculator

namespace Value

/-! ### New catalogues -/

/-- The definitions that a value lists: the entries of a table or a list of pairs. -/
def definitions (v : Value) : Outcome (List (Value × Value)) :=
  if !v.isTrue then .ok []
  else match v with
    | table entries => .ok entries
    | _ => do
      let entries ← (← v.items).mapM fun item => do
        let (key, value) ← item.asPair
        if key.isKey then return (key, value) else throw Error.unsupportedOperands
      return tableOf entries

/-- The factors that a value lists: the entries of a table. -/
def factors (v : Value) : Outcome (List (Value × Value)) :=
  if !v.isTrue then .ok []
  else match v with
    | table entries =>
      entries.mapM fun (name, f) => do
        let f ← f.toRat
        if name.size?.isSome then return (name, rational f) else throw Error.unsupportedOperands
    | _ => .error .missingAttribute

/-- The catalogue with the given units and prefixes. -/
def newCatalogue (units prefixes plurals : Value) : Outcome Holding := do
  let units ← units.definitions
  let prefixes ← prefixes.factors
  match Register.toCatalogue? units prefixes plurals.isTrue with
  | some c => return .catalogue c
  | none =>
    let order ← Register.byLength (prefixes.map Prod.fst)
    return .register ⟨units, prefixes, order, [], [], plurals.isTrue⟩

/-- The dimension whose quantities are asked for: that of a unit, or one that is described. -/
def quantityDimension (v : Value) : Outcome Dimension :=
  match v.unit? with
  | some u => .ok u.dim
  | none => v.toDimension

end Value

namespace Calculation

open Value

/-! ### Reading a catalogue -/

/-- The value that a name means. -/
def lookup (place : Nat) (name : Value) : Calculation Value := do
  match ← holding place, name with
  | .catalogue c, text s => unit <$> onCatalogue place c (Catalogue.lookup s)
  | .catalogue c, name => MonadExcept.ofExcept ((Register.ofCatalogue c).lookup name).1
  | .register _, name => onRegister place fun r => r.lookup name

/-- Whether a name means something. -/
def has (place : Nat) (name : Value) : Calculation Value := do
  match ← observed (lookup place name) with
  | (.ok _, _) => return truth true
  | (.error (.unknownUnit _), _) => return truth false
  | (.error e, _) => throw e

/-- The factor of a prefix. -/
def factorOf (place : Nat) (name : Value) : Calculation Value := do
  MonadExcept.ofExcept ((← holding place).toRegister.factor name)

/-- The defined names in increasing order. -/
def names (place : Nat) : Calculation Value := do
  match ← holding place with
  | .catalogue c => return list (c.names.map text)
  | .register r => return list (← MonadExcept.ofExcept (sorted (r.units.map Prod.fst)))

/-- What a name means in an expression. -/
def lookupMeaning (place : Nat) (name : String) : Calculation Value := do
  match ← observed (lookup place (text name)) with
  | (.ok v, _) => return v
  | (.error (.unknownUnit unknown), _) =>
    match valueAt? (← holding place).toRegister.prefixes (text name) with
    | some f => return f
    | none => throw (.unknownUnit unknown)
  | (.error e, _) => throw e

/-- The value of an expression. -/
def evaluate (place : Nat) (expression : Value) : Calculation Value := do
  match ← holding place, expression with
  | .catalogue c, text s => ofQuantity <$> onCatalogue place c (Catalogue.evaluate s)
  | _, _ => ofExpression (lookupMeaning place) (← MonadExcept.ofExcept expression.toExpression)

/-- The unit that an expression writes. -/
def unitBy (place : Nat) (expression : Value) : Calculation Value := do
  match ← holding place, expression with
  | .catalogue c, text s => unit <$> onCatalogue place c (Catalogue.unit s)
  | _, _ =>
    let v ← evaluate place expression
    let u ← MonadExcept.ofExcept (v.toUnit (truth false))
    match v.measurement?, expression with
    | some _, text s => return u.relabelled (text (Text.trim s))
    | _, _ => return u

/-- The measurement of a value in the unit that an expression writes. -/
def measureBy (place : Nat) (v expression : Value) : Calculation Value := do
  match ← holding place, expression with
  | .catalogue c, text s => measurement <$> onCatalogue place c (Catalogue.measure v.toRat s)
  | _, _ => MonadExcept.ofExcept (v.newMeasurement (← unitBy place expression))

/-- The name of the quantities of a dimension. -/
def quantityName (place : Nat) (v : Value) : Calculation Value := do
  let d ← MonadExcept.ofExcept v.quantityDimension
  match ← holding place with
  | .catalogue c => return (c.quantityName? d).elim nothing text
  | .register r => return (valueAt? r.quantities (dimension d)).getD nothing

/-- Whether a value is among the parts of another. -/
def contains (whole part : Value) : Calculation Value :=
  match whole with
  | catalogue place _ _ => has place part
  | _ => truth <$> MonadExcept.ofExcept (whole.hasPart part)

/-! ### Evaluating an expression by itself -/

/-- The value of a name by a value that gives meanings to names. Only a table has them, so a name
that is among the parts of anything else is refused. -/
def meaning (names : Value) (name : String) : Calculation Value := do
  match names with
  | table entries => MonadExcept.ofExcept (entryOf entries name)
  | _ =>
    match ← contains names (text name) with
    | truth true => throw .unsupportedOperands
    | _ => throw (.unknownUnit name)

/-- The value of an expression whose names have the meanings that a value gives them. -/
def evaluateIn (expression names : Value) : Calculation Value := do
  let e ← MonadExcept.ofExcept expression.toExpression
  match names with
  | table entries =>
    match quantities? entries with
    | some known => return ofQuantity (← MonadExcept.ofExcept (e.eval (entryOf known)))
    | none => ofExpression (meaning names) e
  | _ => ofExpression (meaning names) e

/-! ### Changing a catalogue -/

/-- Gives a value to all the given names. -/
def define (place : Nat) (names v : Value) : Calculation Value := do
  let names ← MonadExcept.ofExcept names.items
  match ← holding place, names.mapM asText, v with
  | .catalogue c, .ok names, unit u => onCatalogue place c (Catalogue.define names u)
  | _, _, _ => onRegister place fun r => r.define names v
  return nothing

/-- Defines a factor for all the given prefixes. -/
def defineFactor (place : Nat) (names f : Value) : Calculation Value := do
  let q ← MonadExcept.ofExcept f.toRat
  let names ← MonadExcept.ofExcept names.items
  match ← holding place, names.mapM asText with
  | .catalogue c, .ok names => onCatalogue place c (Catalogue.defineFactor names q)
  | _, _ => onRegister place fun r => r.defineFactor names q
  return nothing

/-- Records the name of the quantities of a dimension. -/
def nameQuantity (place : Nat) (d name : Value) : Calculation Value := do
  match ← holding place, d, name with
  | .catalogue c, dimension d, text name => onCatalogue place c (Catalogue.nameQuantity d name)
  | _, _, _ => onRegister place fun r => r.nameQuantity d name
  return nothing

/-! ### Reading a database -/

/-- Reads a database and takes its catalogue into use, if it has one. What is no text has no text to
read. -/
def parse (r : Request) (v : Value) : Calculation (Option Value) := do
  let s ← get
  let source ← MonadExcept.ofExcept (r.source v s.minted)
  match source with
  | .complete reading =>
    set { s with minted := reading.minted, events := s.events ++ reading.events }
    match reading.catalogue with
    | some c => some <$> keep (.catalogue c)
    | none => return none
  | .broken minted e =>
    set { s with minted := minted }
    throw e

end Calculation

end Metrology.Calculator
