import Metrology.Text.Quoted

/-!
# What can go wrong

Every failure of the library is one of the causes of `Error`. A cause has a kind (`Error.kind`),
by which a caller decides whether to go on, and usually a message (`Error.message`). Causes that
belong to the operands alone, such as an operator between values that do not combine, have a kind
and no message.
-/

namespace Metrology

/-- The kinds of failure that a caller can tell apart. -/
inductive ErrorKind
  /-- Text that is no expression or number. -/
  | malformedText
  /-- A name that stands for nothing. -/
  | unknownUnit
  /-- Units of different dimension where one is needed. -/
  | incompatibleUnits
  /-- A value outside the range of an operation. -/
  | invalidValue
  /-- A value of a type that an operation does not take. -/
  | invalidType
  /-- A division by zero. -/
  | zeroDivision
  /-- A number too large for the format asked for. -/
  | overflow
  /-- A result too long to be held. -/
  | memory
  /-- A value without the feature asked for. -/
  | missingAttribute
  /-- An operation on decimal numbers that has no result. -/
  | undefinedOperation
  /-- A division of a decimal number by zero. -/
  | decimalDivision
  /-- A result too large for a decimal number. -/
  | decimalOverflow
  deriving DecidableEq, Repr

/-- The causes of failure. -/
inductive Error
  /-- The text is not a numeric literal. -/
  | invalidLiteral (text : String)
  /-- The numeric literal is a quotient by zero. -/
  | zeroDenominatorLiteral (text : String)
  /-- A separator in a quotient literal is doubled or stands at the end. -/
  | misplacedSeparator
  /-- The number is infinite or undefined. -/
  | notFinite (shown : String)
  /-- A value of this type is not a number. -/
  | notANumber (typeName : String)
  /-- A fraction was asked for with a part that is no integer. -/
  | notIntegers
  /-- A fraction was asked for with the denominator zero. -/
  | zeroDenominator
  /-- A number was divided by zero. -/
  | divisionByZero
  /-- Zero was raised to a negative power. -/
  | zeroToNegativePower
  /-- The exponent is a number but no integer. -/
  | fractionalExponent (shown : String)
  /-- The exponent is of a type other than the integers. -/
  | exponentType (typeName : String)
  /-- A power was asked for modulo a number. -/
  | moduloPower (typeName : String)
  /-- The number is beyond the range of doubles. -/
  | beyondDoubles
  /-- The double is not a number. -/
  | undefinedDouble
  /-- The text does not write an integer. -/
  | notAnInteger
  /-- An integer has no inverse for the modulus, or the modulus is zero. -/
  | notInvertible
  /-- An operation on decimal numbers has no result, or an operand announces that it is none. -/
  | undefinedOperation
  /-- A decimal number was divided by zero. -/
  | decimalDivisionByZero
  /-- The number is beyond the range of decimal numbers. -/
  | beyondDecimals
  /-- A key of a dimension is no primitive. -/
  | dimensionKey (typeName : String)
  /-- An exponent of a dimension is no integer. -/
  | dimensionExponent (typeName : String)
  /-- An entry is not a pair. -/
  | notAPair
  /-- A unit would have the scale zero. -/
  | zeroScale
  /-- The unit of a measurement is no unit. -/
  | measurementUnit (typeName : String)
  /-- The units have different dimensions. -/
  | incompatibleUnits (source target : String)
  /-- A value was divided by a measurement of value zero. -/
  | zeroMeasurement
  /-- A measurement was compared with a value of this type. -/
  | incomparable (typePath : String)
  /-- No token begins at this position of an expression. -/
  | unexpectedCharacter (position : Nat) (excerpt : String)
  /-- The expression has no token. -/
  | emptyExpression
  /-- An expression ends before its text does. -/
  | trailingInput (position : Nat) (excerpt : String)
  /-- The text ends within an expression. -/
  | unexpectedEnd (expression : String)
  /-- A parenthesis is not closed. -/
  | unclosedParenthesis (expression : String)
  /-- Neither a number nor a name nor a parenthesis stands where one has to. -/
  | expectedAtom (position : Nat) (found : String)
  /-- The exponent of an expression is not an integer. -/
  | exponentNotInteger (shown : String)
  /-- A number stands where a unit has to. -/
  | bareNumber (shown : String)
  /-- A value with a dimension stands where a number has to. -/
  | notPureNumber (unit : String)
  /-- The name stands for nothing. -/
  | unknownUnit (name : String)
  /-- A marker of a database is the empty text. -/
  | emptyMarker (field : String)
  /-- A database has no such setting, or the setting is of another type. -/
  | unknownSetting
  /-- A value was to be repeated more often than can be counted. -/
  | beyondCounting
  /-- A value was to be repeated more often than can be held. -/
  | beyondMemory
  /-- An operator does not combine its operands. -/
  | unsupportedOperands
  /-- The value lacks the feature asked for. -/
  | missingAttribute
  /-- The module has no such name. -/
  | missingName (module name : String)
  deriving DecidableEq, Repr

namespace Error

/-- The kind of failure. -/
def kind : Error → ErrorKind
  | invalidLiteral _ | zeroDenominatorLiteral _ | unexpectedCharacter _ _ | emptyExpression
  | trailingInput _ _ | unexpectedEnd _ | unclosedParenthesis _ | expectedAtom _ _
  | exponentNotInteger _ | bareNumber _ | notPureNumber _ => .malformedText
  | unknownUnit _ => .unknownUnit
  | incompatibleUnits _ _ => .incompatibleUnits
  | misplacedSeparator | notFinite _ | fractionalExponent _ | undefinedDouble | zeroScale
  | emptyMarker _ | notAPair | notAnInteger | notInvertible => .invalidValue
  | zeroDenominator | divisionByZero | zeroToNegativePower | zeroMeasurement => .zeroDivision
  | beyondDoubles | beyondCounting => .overflow
  | beyondMemory => .memory
  | notANumber _ | notIntegers | exponentType _ | moduloPower _ | dimensionKey _
  | dimensionExponent _ | measurementUnit _ | incomparable _ | unknownSetting
  | unsupportedOperands => .invalidType
  | missingAttribute | missingName _ _ => .missingAttribute
  | undefinedOperation => .undefinedOperation
  | decimalDivisionByZero => .decimalDivision
  | beyondDecimals => .decimalOverflow

/-- The message of a failure, when it has one. -/
def message : Error → Option String
  | invalidLiteral text => some s!"Invalid numeric literal: {Text.quoted text}"
  | zeroDenominatorLiteral text =>
    some s!"Zero denominator in numeric literal: {Text.quoted text}"
  | misplacedSeparator => none
  | notFinite shown => some s!"Cannot represent {shown} as a Rational"
  | notANumber typeName => some s!"Cannot convert {typeName} to Rational"
  | notIntegers =>
    some ("Rational(numerator, denominator) takes integers; " ++
      "use Rational.coerce() for other values")
  | zeroDenominator => none
  | divisionByZero => some "Rational division by zero"
  | zeroToNegativePower => some "Cannot raise zero to a negative power"
  | fractionalExponent shown => some s!"Exponent must be an integer, got {shown}"
  | exponentType typeName => some s!"Exponent must be int, got {typeName}"
  | moduloPower typeName => some s!"Modulo exponentiation is not supported for {typeName}."
  | beyondDoubles => none
  | undefinedDouble => none
  | notAnInteger => none
  | notInvertible => none
  | undefinedOperation => none
  | decimalDivisionByZero => none
  | beyondDecimals => none
  | dimensionKey typeName => some s!"Dimension keys must be Primitive, got {typeName}"
  | dimensionExponent typeName => some s!"Dimension exponents must be int, got {typeName}"
  | notAPair => none
  | zeroScale => some "Unit scale must be nonzero"
  | measurementUnit typeName => some s!"Measurement unit must be a Unit, got {typeName}"
  | incompatibleUnits source target =>
    some s!"Cannot convert '{source}' to '{target}': dimensions differ"
  | zeroMeasurement => some "Measurement division by a zero value"
  | incomparable typePath => some s!"Cannot compare Measurement with type {typePath}"
  | unexpectedCharacter position excerpt =>
    some s!"Unexpected character at {position}: {Text.quoted excerpt}"
  | emptyExpression => some "Empty unit expression"
  | trailingInput position excerpt =>
    some s!"Unexpected trailing input at {position}: {Text.quoted excerpt}"
  | unexpectedEnd expression => some s!"Unexpected end of expression in {Text.quoted expression}"
  | unclosedParenthesis expression => some s!"Expected ')' in {Text.quoted expression}"
  | expectedAtom position found =>
    some s!"Expected number, unit name or '(' at {position}, got {Text.quoted found}"
  | exponentNotInteger shown => some s!"Exponent must be an integer number, got {shown}"
  | bareNumber shown => some s!"A bare number ({shown}) is not a unit"
  | notPureNumber unit => some s!"Expected a pure number, got a value in '{unit}'"
  | unknownUnit name => some s!"Unknown unit symbol: {name}"
  | emptyMarker field => some s!"ParserConfig.{field} must not be empty"
  | unknownSetting => none
  | beyondCounting => none
  | beyondMemory => none
  | unsupportedOperands => none
  | missingAttribute => none
  | missingName module name =>
    some s!"module {Text.quoted module} has no attribute {Text.quoted name}"

/-- The message of a failure, and nothing for one without. -/
def reason (e : Error) : String := e.message.getD ""

end Error

/-- The outcome of an operation that can fail. -/
abbrev Outcome := Except Error

/-- An operation that goes on after a value starts with it. -/
theorem Outcome.ok_bind {α β : Type} (a : α) (f : α → Outcome β) : Except.ok a >>= f = f a := rfl

/-- An operation that goes on after another has a value just where both have. -/
theorem Outcome.bind_eq_ok_iff {α β : Type} {x : Outcome α} {f : α → Outcome β} {b : β} :
    x >>= f = .ok b ↔ ∃ a, x = .ok a ∧ f a = .ok b := by
  cases x with
  | ok a =>
    constructor
    · intro h
      exact ⟨a, rfl, h⟩
    · rintro ⟨c, hc, h⟩
      cases hc
      exact h
  | error e =>
    constructor
    · intro h
      cases h
    · rintro ⟨c, hc, -⟩
      cases hc

end Metrology
