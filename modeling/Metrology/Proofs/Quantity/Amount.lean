import Metrology.Proofs.Dimension.Exponent
import Metrology.Proofs.Measurement.BaseValue
import Metrology.Quantity

/-!
# What a value stands for

Every value of an expression stands for a number of the primitive combination of a dimension, its
amount: a number for itself, a unit for its scale, a measurement for its base value.  The
operations on values, which distinguish nine pairs of kinds, work on amounts by one rule each:
`magnitude_mul` and `exponent_mul`, `magnitude_neg` and `dim_neg`, and for the operations that can
fail `div_eq_ok`, `div_eq_error`, `pow_eq_ok`, `pow_eq_error` and `pow_eq_error_of_not_integer`.
-/

namespace Metrology

/-- A number of the primitive combination of a dimension. -/
@[ext]
structure Amount where
  /-- How many of the primitive combination. -/
  magnitude : Rat
  /-- What is measured. -/
  dim : Dimension
  deriving DecidableEq

namespace Quantity

/-- How much a value is, in primitive units. -/
def magnitude : Quantity → Rat
  | number q => q
  | unit u => u.scale
  | measurement m => m.baseValue

/-- The dimension of a value; numbers have none. -/
def dim : Quantity → Dimension
  | number _ => .dimensionless
  | unit u => u.dim
  | measurement m => m.unit.dim

/-- What a value stands for. -/
def amount (v : Quantity) : Amount := ⟨v.magnitude, v.dim⟩

theorem amount_eq_iff {v w : Quantity} :
    v.amount = w.amount ↔ v.magnitude = w.magnitude ∧ v.dim = w.dim := Amount.ext_iff

/-- Whether a value is a bare number. -/
def isNumber : Quantity → Bool
  | number _ => true
  | unit _ | measurement _ => false

@[simp] theorem baseValue_one (u : UnitOfMeasure) : (one u).baseValue = u.scale := one_mul u.scale

@[simp] theorem one_unit (u : UnitOfMeasure) : (one u).unit = u := rfl

@[simp] theorem baseValue_number (q : Rat) : (⟨q, .one⟩ : Measurement).baseValue = q := mul_one q

/-! ### Values as units -/

/-- A value that is taken for a unit stands for what it stood for before. -/
theorem amount_of_toUnit {v : Quantity} {allowNumbers : Bool} {u : UnitOfMeasure}
    (h : v.toUnit allowNumbers = .ok u) : u.scale = v.magnitude ∧ u.dim = v.dim := by
  cases v with
  | unit u' =>
    cases h
    exact ⟨rfl, rfl⟩
  | measurement m =>
    obtain ⟨hdim, hscale⟩ := UnitOfMeasure.dim_and_scale_of_ofScale h
    exact ⟨hscale, hdim⟩
  | number q =>
    cases allowNumbers with
    | false => cases h
    | true =>
      obtain ⟨hdim, hscale⟩ := UnitOfMeasure.dim_and_scale_of_ofScale h
      exact ⟨hscale, hdim⟩

/-- Every value but zero and bare numbers is taken for a unit. -/
theorem toUnit_eq_ok {v : Quantity} (hnumber : v.isNumber = false) (hv : v.magnitude ≠ 0)
    (allowNumbers : Bool) : ∃ u, v.toUnit allowNumbers = .ok u := by
  cases v with
  | number q => cases hnumber
  | unit u => exact ⟨u, rfl⟩
  | measurement m =>
    have hvalue : m.value ≠ 0 := fun h => hv (m.baseValue_eq_zero_iff.mpr h)
    obtain ⟨u, hu, -⟩ := m.unit.scaled_eq_ok hvalue
    exact ⟨u, hu⟩

/-! ### Opposites and products -/

theorem magnitude_neg (v : Quantity) : v.neg.magnitude = -v.magnitude := by
  cases v with
  | number q => rfl
  | unit u => simp [neg, magnitude]
  | measurement m => exact m.baseValue_neg

theorem dim_neg (v : Quantity) : v.neg.dim = v.dim := by
  cases v <;> rfl

theorem isNumber_neg (v : Quantity) : v.neg.isNumber = v.isNumber := by
  cases v <;> rfl

theorem magnitude_mul (a b : Quantity) : (a.mul b).magnitude = a.magnitude * b.magnitude := by
  cases a <;> cases b <;> simp [mul, magnitude, mul_comm]

theorem exponent_mul (a b : Quantity) (p : Primitive) :
    (a.mul b).dim.exponent p = a.dim.exponent p + b.dim.exponent p := by
  cases a <;> cases b <;> simp [mul, dim, Measurement.mul, Measurement.scale]

theorem isNumber_mul (a b : Quantity) : (a.mul b).isNumber = (a.isNumber && b.isNumber) := by
  cases a <;> cases b <;> rfl

/-- What the product of two values has to be. -/
structure IsProduct (a b v : Quantity) : Prop where
  magnitude : v.magnitude = a.magnitude * b.magnitude
  exponent : ∀ p, v.dim.exponent p = a.dim.exponent p + b.dim.exponent p
  isNumber : v.isNumber = (a.isNumber && b.isNumber)

theorem isProduct_mul (a b : Quantity) : IsProduct a b (a.mul b) :=
  ⟨magnitude_mul a b, exponent_mul a b, isNumber_mul a b⟩

theorem IsProduct.comm {a b v : Quantity} (h : IsProduct a b v) : IsProduct b a v where
  magnitude := h.magnitude.trans (mul_comm _ _)
  exponent p := (h.exponent p).trans (add_comm _ _)
  isNumber := h.isNumber.trans (Bool.and_comm _ _)

/-- Two products of the same values stand for the same. -/
theorem IsProduct.amount_eq {a b v w : Quantity} (hv : IsProduct a b v) (hw : IsProduct a b w) :
    v.amount = w.amount :=
  amount_eq_iff.mpr ⟨hv.magnitude.trans hw.magnitude.symm,
    Dimension.ext_exponent fun p => (hv.exponent p).trans (hw.exponent p).symm⟩

/-! ### Quotients -/

/-- What the quotient of two values has to be. -/
structure IsQuotient (a b v : Quantity) : Prop where
  magnitude : v.magnitude = a.magnitude / b.magnitude
  exponent : ∀ p, v.dim.exponent p = a.dim.exponent p - b.dim.exponent p
  isNumber : v.isNumber = (a.isNumber && b.isNumber)

/-- The quotient of measurements, of which one may have been lifted from a number or a unit. -/
theorem isQuotient_of_div {a b : Quantity} {m n : Measurement} (hm : m.baseValue = a.magnitude)
    (hmd : m.unit.dim = a.dim) (hn : n.baseValue = b.magnitude) (hnd : n.unit.dim = b.dim)
    (hab : (a.isNumber && b.isNumber) = false) (hb : b.magnitude ≠ 0) :
    ∃ v, measurement <$> m.div n = .ok v ∧ IsQuotient a b v := by
  rw [← hn] at hb
  obtain ⟨k, hk, hkv, hkd⟩ := m.div_eq_ok hb
  refine ⟨measurement k, by rw [hk]; rfl, ?_, fun p => ?_, hab.symm⟩
  · rw [← hm, ← hn]
    exact hkv
  · rw [← hmd, ← hnd, ← Dimension.exponent_div, ← hkd]
    rfl

/-- The quotient by a number, which leaves the unit as it is. -/
theorem isQuotient_of_divNumber {a : Quantity} {m : Measurement} {q : Rat}
    (hm : m.baseValue = a.magnitude) (hmd : m.unit.dim = a.dim) (ha : a.isNumber = false)
    (hq : q ≠ 0) :
    ∃ v, measurement <$> m.divNumber q = .ok v ∧ IsQuotient a (number q) v := by
  obtain ⟨k, hk, hkv, hku⟩ := m.divNumber_eq_ok hq
  refine ⟨measurement k, by rw [hk]; rfl, ?_, fun p => ?_, ?_⟩
  · rw [← hm]
    exact hkv
  · rw [← hmd, ← hku]
    exact (sub_zero _).symm
  · rw [ha]
    rfl

/-- A value that is not zero divides every value. -/
theorem div_eq_ok (a : Quantity) {b : Quantity} (hb : b.magnitude ≠ 0) :
    ∃ v, a.div b = .ok v ∧ IsQuotient a b v := by
  cases a with
  | number p =>
    cases b with
    | number q =>
      have hq : q ≠ 0 := hb
      refine ⟨number (p / q), ?_, rfl, fun r => rfl, rfl⟩
      rw [div, Exact.div_of_ne_zero p hq]
      rfl
    | unit v => exact isQuotient_of_div (baseValue_number p) rfl (baseValue_one v) rfl rfl hb
    | measurement n => exact isQuotient_of_div (baseValue_number p) rfl rfl rfl rfl hb
  | unit u =>
    cases b with
    | number q => exact isQuotient_of_divNumber (baseValue_one u) rfl rfl hb
    | unit v => exact ⟨unit (u.div v), rfl, rfl, fun p => u.dim.exponent_div v.dim p, rfl⟩
    | measurement n => exact isQuotient_of_div (baseValue_one u) rfl rfl rfl rfl hb
  | measurement m =>
    cases b with
    | number q => exact isQuotient_of_divNumber rfl rfl rfl hb
    | unit v => exact isQuotient_of_div rfl rfl (baseValue_one v) rfl rfl hb
    | measurement n => exact isQuotient_of_div rfl rfl rfl rfl rfl hb

/-- A value that is zero divides none.  It is no unit, since no scale is zero. -/
theorem div_eq_error (a : Quantity) {b : Quantity} (hb : b.magnitude = 0) :
    ∃ e, a.div b = .error e ∧ e.kind = .zeroDivision := by
  cases b with
  | number q =>
    obtain rfl : q = 0 := hb
    cases a <;> exact ⟨.divisionByZero, rfl, rfl⟩
  | unit v => exact absurd hb v.scale_ne_zero
  | measurement n =>
    refine ⟨.zeroMeasurement, ?_, rfl⟩
    cases a with
    | number p => rw [div, Measurement.div_eq_error _ hb]; rfl
    | unit u => rw [div, Measurement.div_eq_error _ hb]; rfl
    | measurement m => rw [div, Measurement.div_eq_error _ hb]; rfl

/-! ### Powers -/

/-- What an integer power of a value has to be. -/
structure IsPower (a : Quantity) (n : Int) (v : Quantity) : Prop where
  magnitude : v.magnitude = a.magnitude ^ n
  exponent : ∀ p, v.dim.exponent p = a.dim.exponent p * n
  isNumber : v.isNumber = a.isNumber

/-- A number whose denominator is one is the exponent of a power. -/
theorem pow_number_intCast (a : Quantity) (n : Int) : a.pow (number n) = a.powInt n := by
  rw [pow, if_pos (Rat.den_intCast n), Rat.num_intCast]

/-- Every value has all powers that are not negative powers of zero. -/
theorem pow_eq_ok (a : Quantity) {n : Int} (h : ¬ (n < 0 ∧ a.magnitude = 0)) :
    ∃ v, a.pow (number n) = .ok v ∧ IsPower a n v := by
  rw [pow_number_intCast]
  cases a with
  | number q =>
    have hq : ¬ (n < 0 ∧ q = 0) := h
    refine ⟨number (q ^ n), ?_, rfl, fun p => (zero_mul n).symm, rfl⟩
    rw [powInt, Exact.pow_of_not_zero_neg hq]
    rfl
  | unit u =>
    exact ⟨unit (u.pow n), rfl, u.scale_pow n, fun p => u.dim.exponent_pow n p, rfl⟩
  | measurement m =>
    obtain ⟨k, hk, hkv, hkd⟩ := m.pow_eq_ok h
    refine ⟨measurement k, by rw [powInt, hk]; rfl, hkv, fun p => ?_, rfl⟩
    rw [← Dimension.exponent_pow]
    exact congrArg (Dimension.exponent · p) hkd

theorem pow_eq_error {a : Quantity} {n : Int} (hn : n < 0) (ha : a.magnitude = 0) :
    ∃ e, a.pow (number n) = .error e ∧ e.kind = .zeroDivision := by
  rw [pow_number_intCast]
  refine ⟨.zeroToNegativePower, ?_, rfl⟩
  cases a with
  | number q =>
    rw [powInt, Exact.pow, if_pos ⟨hn, ha⟩]
    rfl
  | unit u => exact absurd ha u.scale_ne_zero
  | measurement m =>
    rw [powInt, Measurement.pow_eq_error hn ha]
    rfl

/-- What is no bare integer is no exponent, whatever the base. -/
theorem pow_eq_error_of_not_integer (a : Quantity) {x : Quantity}
    (hx : ¬ (x.isNumber = true ∧ ∃ n : Int, x.magnitude = n)) :
    ∃ e, a.pow x = .error e ∧ e.kind = .malformedText := by
  refine ⟨.exponentNotInteger x.text, ?_, rfl⟩
  cases x with
  | number q =>
    have hden : q.den ≠ 1 := fun h => hx ⟨rfl, q.num, ((Rat.den_eq_one_iff q).mp h).symm⟩
    rw [pow, if_neg hden]
  | unit u => rfl
  | measurement m => rfl

end Quantity

end Metrology
