import Metrology.Measurement
import Mathlib.Algebra.Order.Field.Rat

/-!
# The base value of a measurement

The value in primitive units goes along with arithmetic: `baseValue_scale`, `baseValue_neg` and
`baseValue_mul` say what becomes of it, and so do `div_eq_ok`, `divNumber_eq_ok` and `pow_eq_ok` for
the operations that can fail.  Since no scale is zero, a measurement is zero in primitive units
only if it is zero in its own (`baseValue_eq_zero_iff`).
-/

namespace Metrology

namespace Exact

theorem div_of_ne_zero (a : Rat) {b : Rat} (hb : b ≠ 0) : div a b = .ok (a / b) := if_neg hb

theorem pow_of_not_zero_neg {q : Rat} {n : Int} (h : ¬ (n < 0 ∧ q = 0)) :
    pow q n = .ok (q ^ n) := by
  rw [pow, if_neg h, power_eq]

end Exact

namespace UnitOfMeasure

@[simp] theorem scale_mul (u v : UnitOfMeasure) : (u.mul v).scale = u.scale * v.scale := rfl

@[simp] theorem scale_div (u v : UnitOfMeasure) : (u.div v).scale = u.scale / v.scale := rfl

@[simp] theorem scale_pow (u : UnitOfMeasure) (n : Int) : (u.pow n).scale = u.scale ^ n :=
  Exact.power_eq u.scale n

@[simp] theorem dim_mul (u v : UnitOfMeasure) : (u.mul v).dim = u.dim.mul v.dim := rfl

@[simp] theorem dim_div (u v : UnitOfMeasure) : (u.div v).dim = u.dim.div v.dim := rfl

@[simp] theorem dim_pow (u : UnitOfMeasure) (n : Int) : (u.pow n).dim = u.dim.pow n := rfl

@[simp] theorem scale_reciprocal (u : UnitOfMeasure) : u.reciprocal.scale = u.scale⁻¹ :=
  (Exact.power_eq u.scale (-1)).trans (zpow_neg_one u.scale)

@[simp] theorem dim_reciprocal (u : UnitOfMeasure) :
    u.reciprocal.dim = Dimension.dimensionless.div u.dim := rfl

theorem dim_and_scale_of_ofScale {dim : Dimension} {q : Rat} {name : String} {u : UnitOfMeasure}
    (h : ofScale dim q name = .ok u) : u.dim = dim ∧ u.scale = q := by
  unfold ofScale at h
  split_ifs at h
  cases h
  exact ⟨rfl, rfl⟩

/-- Every number that is not zero scales a unit. -/
theorem scaled_eq_ok (u : UnitOfMeasure) {f : Rat} (hf : f ≠ 0) :
    ∃ v, u.scaled f = .ok v ∧ v.scale = f * u.scale ∧ v.dim = u.dim :=
  ⟨_, dif_neg (mul_ne_zero hf u.scale_ne_zero), rfl, rfl⟩

theorem scaled_zero (u : UnitOfMeasure) : u.scaled 0 = .error .zeroScale :=
  dif_pos (zero_mul u.scale)

end UnitOfMeasure

namespace Measurement

theorem baseValue_eq_zero_iff (m : Measurement) : m.baseValue = 0 ↔ m.value = 0 := by
  rw [baseValue, mul_eq_zero]
  exact or_iff_left m.unit.scale_ne_zero

/-- A measurement of a given base value in a given unit. -/
theorem baseValue_div_scale (x : Rat) (u : UnitOfMeasure) :
    (⟨x / u.scale, u⟩ : Measurement).baseValue = x :=
  div_mul_cancel₀ x u.scale_ne_zero

/-- A measurement is known by its unit and its base value. -/
theorem eq_of_baseValue {m n : Measurement} (hu : m.unit = n.unit)
    (hv : m.baseValue = n.baseValue) : m = n := by
  obtain ⟨x, u⟩ := m
  obtain ⟨y, v⟩ := n
  obtain rfl : u = v := hu
  have hxy : x = y := mul_right_cancel₀ u.scale_ne_zero hv
  rw [hxy]

/-! ### Arithmetic that cannot fail -/

@[simp] theorem baseValue_scale (m : Measurement) (f : Rat) :
    (m.scale f).baseValue = f * m.baseValue := mul_assoc f m.value m.unit.scale

@[simp] theorem baseValue_neg (m : Measurement) : m.neg.baseValue = -m.baseValue :=
  neg_mul m.value m.unit.scale

@[simp] theorem baseValue_mul (a b : Measurement) :
    (a.mul b).baseValue = a.baseValue * b.baseValue :=
  mul_mul_mul_comm a.value b.value a.unit.scale b.unit.scale

/-! ### Arithmetic that can fail -/

/-- A quotient by a measurement that is not zero is the quotient of the base values. -/
theorem div_eq_ok (a : Measurement) {b : Measurement} (hb : b.baseValue ≠ 0) :
    ∃ m, a.div b = .ok m ∧ m.baseValue = a.baseValue / b.baseValue ∧
      m.unit.dim = a.unit.dim.div b.unit.dim := by
  have hv : b.value ≠ 0 := fun h => hb (b.baseValue_eq_zero_iff.mpr h)
  refine ⟨⟨a.value / b.value, a.unit.div b.unit⟩, if_neg hv, ?_, rfl⟩
  exact div_mul_div_comm a.value b.value a.unit.scale b.unit.scale

theorem div_eq_error (a : Measurement) {b : Measurement} (hb : b.baseValue = 0) :
    a.div b = .error .zeroMeasurement :=
  if_pos (b.baseValue_eq_zero_iff.mp hb)

/-- A quotient by a number that is not zero is that of the base value, in the same unit. -/
theorem divNumber_eq_ok (m : Measurement) {f : Rat} (hf : f ≠ 0) :
    ∃ n, m.divNumber f = .ok n ∧ n.baseValue = m.baseValue / f ∧ n.unit = m.unit := by
  refine ⟨⟨m.value / f, m.unit⟩, ?_, ?_, rfl⟩
  · rw [divNumber, Exact.div_of_ne_zero m.value hf]
    rfl
  · exact div_mul_eq_mul_div m.value f m.unit.scale

/-- An integer power has the power of the base value, unless it is a negative power of zero. -/
theorem pow_eq_ok (m : Measurement) {n : Int} (h : ¬ (n < 0 ∧ m.baseValue = 0)) :
    ∃ k, m.pow n = .ok k ∧ k.baseValue = m.baseValue ^ n ∧ k.unit.dim = m.unit.dim.pow n := by
  rw [baseValue_eq_zero_iff] at h
  refine ⟨⟨m.value ^ n, m.unit.pow n⟩, ?_, ?_, rfl⟩
  · rw [pow, Exact.pow_of_not_zero_neg h]
    rfl
  · rw [baseValue, baseValue, UnitOfMeasure.scale_pow, mul_zpow]

theorem pow_eq_error {m : Measurement} {n : Int} (hn : n < 0) (hm : m.baseValue = 0) :
    m.pow n = .error .zeroToNegativePower := by
  rw [pow, Exact.pow, if_pos ⟨hn, m.baseValue_eq_zero_iff.mp hm⟩]
  rfl

end Measurement

end Metrology
