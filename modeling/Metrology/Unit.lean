import Metrology.Dimension
import Metrology.Name
import Metrology.Number.Exact
import Metrology.Number.Decimal
import Metrology.Number.Literal

/-!
# Units of measure

One of a unit is `scale` of the combination of primitive units that its dimension describes; the
scale is never zero, so products, quotients, powers and reciprocals of units always exist. A name
is what a unit is called and takes no part in what it is: two units are equivalent when dimension
and scale agree.
-/

namespace Metrology

/-- A unit of measure. -/
structure UnitOfMeasure where
  /-- The dimension of what is measured. -/
  dim : Dimension
  /-- How many of the primitive combination one of the unit is. -/
  scale : Rat
  /-- What the unit is called, empty if it has no name. -/
  name : String
  /-- No unit has the scale zero. -/
  scale_ne_zero : scale ≠ 0
  deriving DecidableEq

namespace UnitOfMeasure

/-- A number as it stands before a unit: in decimal notation with twelve places if that is exact,
else as an integer or a quotient. -/
def factorText (f : Rat) : String :=
  let text := Decimal.render 12 f
  match Literal.read text with
  | .ok q => if q = f then text else Decimal.exactText f
  | .error _ => Decimal.exactText f

/-- The unit of pure numbers. -/
def one : UnitOfMeasure := ⟨Dimension.dimensionless, 1, "1", by decide⟩

instance : Inhabited UnitOfMeasure := ⟨one⟩

/-- The unit of the given dimension, scale and name. -/
def ofScale (dim : Dimension) (scale : Rat) (name : String) : Outcome UnitOfMeasure :=
  if h : scale = 0 then .error .zeroScale else .ok ⟨dim, scale, name, h⟩

/-- The unit in which a primitive is measured. -/
def ofPrimitive (p : Primitive) (symbol : String) : UnitOfMeasure :=
  ⟨Dimension.ofPrimitive p, 1, symbol, by decide⟩

/-- A unit under another name. -/
def renamed (u : UnitOfMeasure) (name : String) : UnitOfMeasure := { u with name := name }

/-- The unit that is `f` times as large. -/
def scaled (u : UnitOfMeasure) (f : Rat) : Outcome UnitOfMeasure :=
  ofScale u.dim (f * u.scale) (if u.name = "" then "" else factorText f ++ "·" ++ u.name)

/-- The product of two units. -/
def mul (u v : UnitOfMeasure) : UnitOfMeasure where
  dim := u.dim.mul v.dim
  scale := u.scale * v.scale
  name := Name.product u.name v.name
  scale_ne_zero := Exact.mul_ne_zero u.scale_ne_zero v.scale_ne_zero

/-- The quotient of two units. -/
def div (u v : UnitOfMeasure) : UnitOfMeasure where
  dim := u.dim.div v.dim
  scale := u.scale / v.scale
  name := Name.quotient u.name v.name
  scale_ne_zero := Exact.div_ne_zero u.scale_ne_zero v.scale_ne_zero

/-- An integer power of a unit. -/
def pow (u : UnitOfMeasure) (n : Int) : UnitOfMeasure where
  dim := u.dim.pow n
  scale := Exact.power u.scale n
  name := Name.power u.name n
  scale_ne_zero := Exact.power_ne_zero u.scale_ne_zero n

/-- The unit that is one divided by `u`. -/
def reciprocal (u : UnitOfMeasure) : UnitOfMeasure where
  dim := Dimension.dimensionless.div u.dim
  scale := Exact.power u.scale (-1)
  name := if u.name = "" then "" else Name.quotient "1" u.name
  scale_ne_zero := Exact.power_ne_zero u.scale_ne_zero (-1)

/-- Whether two units measure the same dimension. -/
def compatible (u v : UnitOfMeasure) : Bool := u.dim = v.dim

/-- Whether two units are the same but for their names. -/
def equivalent (u v : UnitOfMeasure) : Bool := u.dim = v.dim && u.scale = v.scale

/-- Whether a unit measures pure numbers. -/
def isDimensionless (u : UnitOfMeasure) : Bool := u.dim.isDimensionless

/-- A unit as a reader sees it: its name, or its scale and dimension. -/
def text (u : UnitOfMeasure) : String :=
  if u.name ≠ "" then u.name
  else if u.scale = 1 then u.dim.text
  else factorText u.scale ++ "·" ++ u.dim.text

/-- A unit with all its parts, its name written as given. -/
def listingAs (u : UnitOfMeasure) (name : String) : String :=
  s!"Unit({name}, scale={Decimal.exactText u.scale}, dim={u.dim.listing})"

/-- A unit with all its parts. -/
def listing (u : UnitOfMeasure) : String := u.listingAs (Text.quoted u.name)

end UnitOfMeasure

end Metrology
