import Metrology.Proofs.Dimension.Group
import Metrology.Proofs.Measurement.BaseValue
import Mathlib.Algebra.Group.Prod
import Mathlib.Algebra.GroupWithZero.Units.Basic

/-!
# The group of units

Without its name, a unit is a number other than zero and a dimension.  Both come from abelian
groups, and products, quotients, powers and reciprocals of units are those of the two parts
(`nameless_mul`, `nameless_div`, `nameless_pow`, `nameless_reciprocal`).  Two units are equivalent
just when the two parts agree (`equivalent_iff`), so that the laws of abelian groups hold for units
up to equivalence, but not up to equality: the names of `u · v` and `v · u` differ.

The scale of a result is a quotient or power that could fail to exist, or could be zero and then be
refused.  It never is (`isTotal`), because no unit has the scale zero to begin with.
-/

namespace Metrology.UnitOfMeasure

variable (u v : UnitOfMeasure)

/-! ### Units without their names -/

/-- What a unit is apart from its name: an invertible number and a dimension. -/
def nameless : Ratˣ × Dimension := (Units.mk0 u.scale u.scale_ne_zero, u.dim)

theorem nameless_eq_iff : u.nameless = v.nameless ↔ u.scale = v.scale ∧ u.dim = v.dim := by
  rw [nameless, nameless, Prod.mk.injEq, Units.mk0_inj]

/-- Units are equivalent when they agree apart from their names. -/
theorem equivalent_iff : u.equivalent v = true ↔ u.nameless = v.nameless := by
  rw [nameless_eq_iff, equivalent, Bool.and_eq_true, decide_eq_true_iff, decide_eq_true_iff]
  exact And.comm

theorem nameless_one : one.nameless = 1 := Prod.ext (Units.ext rfl) rfl

theorem nameless_mul : (u.mul v).nameless = u.nameless * v.nameless :=
  Prod.ext (Units.ext (scale_mul u v)) rfl

theorem nameless_div : (u.div v).nameless = u.nameless / v.nameless := by
  refine Prod.ext (Units.ext ?_) rfl
  rw [Prod.fst_div, Units.val_div_eq_div_val]
  exact scale_div u v

theorem nameless_pow (n : Int) : (u.pow n).nameless = u.nameless ^ n := by
  refine Prod.ext (Units.ext ?_) rfl
  rw [Prod.pow_fst, Units.val_zpow_eq_zpow_val]
  exact scale_pow u n

theorem nameless_reciprocal : u.reciprocal.nameless = u.nameless⁻¹ := by
  refine Prod.ext (Units.ext ?_) ?_
  · rw [Prod.fst_inv, Units.val_inv_eq_inv_val]
    exact scale_reciprocal u
  · -- The dimension of pure numbers, divided by that of the unit, is the inverse of the latter.
    exact one_div u.dim

/-! ### Operations that cannot fail -/

/-- The unit of the given dimension and name whose scale comes of a calculation: there is none where
the calculation fails, or comes to zero. -/
def ofCalculation (dim : Dimension) (scale : Outcome Rat) (name : String) :
    Outcome UnitOfMeasure := do
  ofScale dim (← scale) name

/-- A calculation that comes to the scale of a unit gives this unit. -/
theorem ofCalculation_eq_ok {scale : Outcome Rat} (h : scale = .ok u.scale) :
    ofCalculation u.dim scale u.name = .ok u := by
  rw [h]
  exact dif_neg u.scale_ne_zero

/-- Whether products, quotients, powers and reciprocals of units come out of calculations with their
scales, of which none fails or comes to zero. -/
structure IsTotal (u v : UnitOfMeasure) (n : Int) : Prop where
  mul : ofCalculation (u.dim.mul v.dim) (.ok (u.scale * v.scale)) (Name.product u.name v.name) =
    .ok (u.mul v)
  div : ofCalculation (u.dim.div v.dim) (Exact.div u.scale v.scale)
    (Name.quotient u.name v.name) = .ok (u.div v)
  pow : ofCalculation (u.dim.pow n) (Exact.pow u.scale n) (Name.power u.name n) = .ok (u.pow n)
  reciprocal : ofCalculation (Dimension.dimensionless.div u.dim) (Exact.pow u.scale (-1))
    (if u.name = "" then "" else Name.quotient "1" u.name) = .ok u.reciprocal

theorem isTotal (n : Int) : IsTotal u v n := by
  -- Negative powers exist, since the scale is no zero.
  have hpow (k : Int) : Exact.pow u.scale k = .ok (Exact.power u.scale k) :=
    if_neg fun h => u.scale_ne_zero h.2
  have hdiv : Exact.div u.scale v.scale = .ok (u.scale / v.scale) :=
    Exact.div_of_ne_zero u.scale v.scale_ne_zero
  constructor
  · exact (u.mul v).ofCalculation_eq_ok rfl
  · exact (u.div v).ofCalculation_eq_ok hdiv
  · exact (u.pow n).ofCalculation_eq_ok (hpow n)
  · exact u.reciprocal.ofCalculation_eq_ok (hpow (-1))

/-! ### The laws -/

/-- **Units form an abelian group up to their names**, with all integer powers, and no operation of
it ever fails. -/
theorem abelian_group_up_to_name (u v w : UnitOfMeasure) (m n : Int) :
    (u.mul v).equivalent (v.mul u) ∧
    ((u.mul v).mul w).equivalent (u.mul (v.mul w)) ∧
    (u.mul one).equivalent u ∧ (one.mul u).equivalent u ∧
    (u.div v).equivalent (u.mul v.reciprocal) ∧
    (u.mul u.reciprocal).equivalent one ∧
    (u.pow (m + n)).equivalent ((u.pow m).mul (u.pow n)) ∧
    ((u.pow m).pow n).equivalent (u.pow (m * n)) ∧
    ((u.mul v).pow n).equivalent ((u.pow n).mul (v.pow n)) ∧
    (u.pow (-1)).equivalent u.reciprocal ∧
    IsTotal u v n := by
  simp only [equivalent_iff, nameless_mul, nameless_div, nameless_pow, nameless_reciprocal,
    nameless_one]
  generalize u.nameless = x
  generalize v.nameless = y
  generalize w.nameless = z
  exact ⟨mul_comm x y, mul_assoc x y z, mul_one x, one_mul x, div_eq_mul_inv x y,
    mul_inv_cancel x, zpow_add x m n, (zpow_mul x m n).symm, mul_zpow x y n, zpow_neg_one x,
    isTotal u v n⟩

end Metrology.UnitOfMeasure
