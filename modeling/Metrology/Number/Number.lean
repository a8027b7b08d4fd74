import Metrology.Number.Exact
import Metrology.Number.Scientific.Arithmetic

/-!
# Numbers of every format

A number comes as an integer, as a rational number of this library or a fraction from elsewhere, as
a double, or in decimal floating-point notation. Arithmetic reads all of them as exact rational
numbers (`Number.toRat`), a double by its shortest decimal; comparison reads a double as the number
that it stands for (`Number.position`). A number that is infinite or undefined can be compared and
not calculated with. Where a decimal number takes part, the order of an undefined number may not
even be asked for, nor the equality of one that announces itself.
-/

namespace Metrology

/-- A number in one of the formats. -/
inductive Number
  | integer (n : Int)
  | rational (q : Rat)
  | fraction (q : Rat)
  | double (x : Binary64)
  | decimal (x : Scientific)
  deriving DecidableEq, Repr

namespace Number

/-- The exact number that arithmetic uses. -/
def toRat : Number → Outcome Rat
  | integer n => .ok n
  | rational q => .ok q
  | fraction q => .ok q
  | double x =>
    match x.toShortRat? with
    | some q => .ok q
    | none => .error (.notFinite x.text)
  | decimal x =>
    match x.toRat? with
    | some q => .ok q
    | none => .error (.notFinite s!"Decimal('{x.text}')")

/-- Whether a number is one of this library. -/
def isRational : Number → Bool
  | rational _ => true
  | _ => false

/-- The place of a number on the extended line. -/
inductive Position
  | infinite (negative : Bool)
  | point (q : Rat)
  | nowhere
  deriving DecidableEq, Repr

/-- Where a number lies. -/
def position : Number → Position
  | integer n => .point n
  | rational q => .point q
  | fraction q => .point q
  | double x =>
    match x, x.toRat? with
    | .infinite negative, _ => .infinite negative
    | _, some q => .point q
    | _, none => .nowhere
  | decimal x =>
    match x, x.toRat? with
    | .infinite negative, _ => .infinite negative
    | _, some q => .point q
    | _, none => .nowhere

/-- How two positions compare, if they do. -/
def Position.compare? : Position → Position → Option Ordering
  | nowhere, _ => none
  | _, nowhere => none
  | infinite a, infinite b => some (if a = b then .eq else if a then .lt else .gt)
  | infinite negative, _ => some (if negative then .lt else .gt)
  | _, infinite negative => some (if negative then .gt else .lt)
  | .point p, .point q => some (if p < q then .lt else if p = q then .eq else .gt)

/-- How two numbers compare, if they do. -/
def compare? (a b : Number) : Option Ordering :=
  match a, b with
  | decimal (.finite a m e), decimal (.finite b n f) =>
    some (Scientific.compareSigned a b (m = 0) (n = 0) (Scientific.compareMagnitudes m e n f))
  | decimal (.finite a m e), b =>
    match b.position with
    | .point q => some (Scientific.compareRat a m e q)
    | p => (Position.point 0).compare? p
  | a, decimal (.finite b n f) =>
    match a.position with
    | .point q => some (Scientific.compareRat b n f q).swap
    | p => p.compare? (.point 0)
  | _, _ => a.position.compare? b.position

/-- Whether two numbers are equal. -/
def equal (a b : Number) : Bool := a.compare? b = some .eq

/-- Whether a number is in decimal notation. -/
def isDecimal : Number → Bool
  | decimal _ => true
  | _ => false

/-- Whether a number is undefined and announces itself in every comparison. -/
def isSignaling : Number → Bool
  | decimal x => x.isSignaling
  | _ => false

/-- Whether two numbers that may be compared are equal. -/
def equality (a b : Number) : Outcome Bool :=
  if a.isSignaling || b.isSignaling then .error .undefinedOperation else .ok (a.equal b)

/-- How two numbers that may be ordered compare, if they do. -/
def order (a b : Number) : Outcome (Option Ordering) :=
  match a.compare? b with
  | none => if a.isDecimal || b.isDecimal then .error .undefinedOperation else .ok none
  | some o => .ok (some o)

/-- Whether a number differs from zero. -/
def isNonzero (n : Number) : Bool := !n.equal (.integer 0)

end Number

end Metrology
