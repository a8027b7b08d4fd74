import Metrology.Calculator.Operator

/-!
# Exponents in names

The name of a power may have an exponent of any type that is multiplied by an integer, and so may a
superscript: they show what a reader sees of the exponent.
-/

namespace Metrology.Calculator

namespace Value

/-- A value as a superscript, which is left out when it equals one. -/
def superscript (v : Value) : Outcome Value := do
  if ← v.equality (integer 1) then return text ""
  else return text (Dimension.raised (← v.display))

/-- The name of a power whose exponent is no integer. -/
def unusualPowerName (v exponent : Value) : Outcome Value := do
  if !v.isTrue then return text ""
  if ← exponent.equality (integer 0) then return text "1"
  if ← exponent.equality (integer 1) then return v
  let name ← v.asText
  match Name.atom? name.toList with
  | some (base, some e) =>
    let base := String.ofList base
    let e ← (integer e).mul exponent
    if ← e.equality (integer 1) then return text base
    else return text (base ++ "^" ++ (← e.display))
  | _ => return text (Name.operand name ++ "^" ++ (← exponent.display))

/-- The name of a power. -/
def powerName (v exponent : Value) : Outcome Value :=
  match exponent.integer? with
  | some n => v.wholePowerName n
  | none => v.unusualPowerName exponent

end Value

end Metrology.Calculator
