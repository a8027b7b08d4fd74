import Metrology.Proofs.Measurement.Conversion

/-!
# Arithmetic with measurements is arithmetic with quantities

Value and scale are kept apart, and every operation has formulas of its own for them; what a
measurement stands for is its base value and the exponents of its dimension (`Measurement.Stands`).
The main result, `arithmetic_exact`, says what the results of all operations stand for and just when
there is none.

A sum converts its second operand.  It is known by its unit and base value (`add_eq_ok_iff`), and
so is a difference, which is the sum with the opposite (`sub_eq_add`).
-/

namespace Metrology.Measurement

/-! ### Sums and differences -/

/-- Values of one unit are added as base values are. -/
theorem baseValue_value_add {a k : Measurement} (hu : k.unit = a.unit) :
    (⟨a.value + k.value, a.unit⟩ : Measurement).baseValue = a.baseValue + k.baseValue := by
  rw [baseValue, baseValue, baseValue, hu, add_mul]

/-- The sum is the measurement in the first unit that has the sum of the base values. -/
theorem add_eq_ok_iff {a b m : Measurement} :
    a.add b = .ok m ↔
      a.unit.dim = b.unit.dim ∧ m.unit = a.unit ∧ m.baseValue = a.baseValue + b.baseValue := by
  rw [add, Outcome.bind_eq_ok_iff]
  constructor
  · rintro ⟨k, hk, hm⟩
    cases hm
    obtain ⟨hdim, hunit, hvalue⟩ := convertTo_eq_ok_iff.mp hk
    exact ⟨hdim.symm, rfl, by rw [baseValue_value_add hunit, hvalue]⟩
  · rintro ⟨hdim, hunit, hvalue⟩
    obtain ⟨k, hk⟩ : ∃ k, b.convertTo a.unit = .ok k := ⟨_, convertTo_of_dim_eq hdim.symm⟩
    obtain ⟨-, hku, hkv⟩ := convertTo_eq_ok_iff.mp hk
    have hm : ⟨a.value + k.value, a.unit⟩ = m :=
      eq_of_baseValue hunit.symm (by rw [baseValue_value_add hku, hkv, hvalue])
    exact ⟨k, hk, congrArg Except.ok hm⟩

theorem add_of_dim_ne {a b : Measurement} (h : a.unit.dim ≠ b.unit.dim) :
    a.add b = .error (.incompatibleUnits b.unit.text a.unit.text) := by
  rw [add, convertTo_of_dim_ne h.symm]
  rfl

theorem sub_eq_add (a b : Measurement) : a.sub b = a.add b.neg := by
  by_cases h : b.unit.dim = a.unit.dim
  · have hneg : b.neg.unit.dim = a.unit.dim := h
    have hvalue : a.value - b.baseValue / a.unit.scale =
        a.value + b.neg.baseValue / a.unit.scale := by
      rw [baseValue_neg, neg_div, sub_eq_add_neg]
    rw [sub, add, convertTo_of_dim_eq h, convertTo_of_dim_eq hneg]
    exact congrArg (fun x => (.ok ⟨x, a.unit⟩ : Outcome Measurement)) hvalue
  · have hneg : b.neg.unit.dim ≠ a.unit.dim := h
    rw [sub, add, convertTo_of_dim_ne h, convertTo_of_dim_ne hneg]
    rfl

/-- The difference is the measurement in the first unit that has the difference of the base
values. -/
theorem sub_eq_ok_iff {a b m : Measurement} :
    a.sub b = .ok m ↔
      a.unit.dim = b.unit.dim ∧ m.unit = a.unit ∧ m.baseValue = a.baseValue - b.baseValue := by
  rw [sub_eq_add, add_eq_ok_iff, baseValue_neg, ← sub_eq_add_neg]
  rfl

theorem sub_of_dim_ne {a b : Measurement} (h : a.unit.dim ≠ b.unit.dim) :
    a.sub b = .error (.incompatibleUnits b.unit.text a.unit.text) :=
  (sub_eq_add a b).trans (add_of_dim_ne h)

/-- Measurements of equal dimension have a sum. -/
theorem exists_add_eq_ok {a b : Measurement} (h : a.unit.dim = b.unit.dim) :
    ∃ m, a.add b = .ok m :=
  ⟨⟨(a.baseValue + b.baseValue) / a.unit.scale, a.unit⟩,
    add_eq_ok_iff.mpr ⟨h, rfl, baseValue_div_scale _ a.unit⟩⟩

/-- What has been added can be subtracted again. -/
theorem sub_of_add {a b m : Measurement} (h : a.add b = .ok m) : m.sub b = .ok a := by
  obtain ⟨hdim, hunit, hvalue⟩ := add_eq_ok_iff.mp h
  exact sub_eq_ok_iff.mpr ⟨by rw [hunit, hdim], hunit.symm, by rw [hvalue, add_sub_cancel_right]⟩

/-! ### All operations -/

/-- What a measurement stands for: a base value, and exponents of its dimension. -/
structure Stands (m : Measurement) (x : Rat) (exponents : Primitive → Int) : Prop where
  baseValue : m.baseValue = x
  exponent : ∀ p, m.unit.dim.exponent p = exponents p

theorem stands_mul (a b : Measurement) :
    (a.mul b).Stands (a.baseValue * b.baseValue)
      fun p => a.unit.dim.exponent p + b.unit.dim.exponent p :=
  ⟨baseValue_mul a b, Dimension.exponent_mul a.unit.dim b.unit.dim⟩

/-- A quotient by a measurement of a value other than zero. -/
theorem stands_div (a : Measurement) {b : Measurement} (hb : b.value ≠ 0) :
    ∃ m, a.div b = .ok m ∧ m.Stands (a.baseValue / b.baseValue)
      fun p => a.unit.dim.exponent p - b.unit.dim.exponent p := by
  obtain ⟨m, hm, hvalue, hdim⟩ := a.div_eq_ok (mt b.baseValue_eq_zero_iff.mp hb)
  exact ⟨m, hm, hvalue, fun p => by rw [hdim, Dimension.exponent_div]⟩

/-- An integer power that is no negative power of zero. -/
theorem stands_pow {a : Measurement} {n : Int} (h : ¬ (a.value = 0 ∧ n < 0)) :
    ∃ m, a.pow n = .ok m ∧ m.Stands (a.baseValue ^ n) fun p => n * a.unit.dim.exponent p := by
  have hpow : ¬ (n < 0 ∧ a.baseValue = 0) := by
    rintro ⟨hn, ha⟩
    exact h ⟨a.baseValue_eq_zero_iff.mp ha, hn⟩
  obtain ⟨m, hm, hvalue, hdim⟩ := a.pow_eq_ok hpow
  exact ⟨m, hm, hvalue, fun p => by rw [hdim, Dimension.exponent_pow, mul_comm]⟩

/-- **Arithmetic with measurements is arithmetic with quantities.**  Products, quotients, powers,
opposites and multiples stand for those of the base values, with the exponents that belong to them;
sums and differences of equal dimensions are in the first unit, and others are refused.  What is
added can be subtracted again, and the order of a sum does not count but for its unit.  Nothing else
fails but a quotient by zero and a negative power of zero. -/
theorem arithmetic_exact (a b : Measurement) (f : Rat) (n : Int) :
    ((a.mul b).Stands (a.baseValue * b.baseValue)
      fun p => a.unit.dim.exponent p + b.unit.dim.exponent p) ∧
    (b.value ≠ 0 → ∃ m, a.div b = .ok m ∧ m.Stands (a.baseValue / b.baseValue)
      fun p => a.unit.dim.exponent p - b.unit.dim.exponent p) ∧
    (b.value = 0 → ∃ e, a.div b = .error e ∧ e.kind = .zeroDivision) ∧
    (¬ (a.value = 0 ∧ n < 0) → ∃ m, a.pow n = .ok m ∧ m.Stands (a.baseValue ^ n)
      fun p => n * a.unit.dim.exponent p) ∧
    (a.value = 0 ∧ n < 0 → ∃ e, a.pow n = .error e ∧ e.kind = .zeroDivision) ∧
    a.neg.Stands (-a.baseValue) a.unit.dim.exponent ∧
    (a.scale f).Stands (f * a.baseValue) a.unit.dim.exponent ∧
    (a.unit.dim = b.unit.dim →
      (∃ m, a.add b = .ok m ∧ m.unit = a.unit ∧ m.baseValue = a.baseValue + b.baseValue ∧
        m.sub b = .ok a ∧ ∃ k, b.add a = .ok k ∧ k.baseValue = m.baseValue) ∧
      ∃ m, a.sub b = .ok m ∧ m.unit = a.unit ∧ m.baseValue = a.baseValue - b.baseValue) ∧
    (a.unit.dim ≠ b.unit.dim →
      a.add b = .error (.incompatibleUnits b.unit.text a.unit.text) ∧
      a.sub b = .error (.incompatibleUnits b.unit.text a.unit.text)) := by
  refine ⟨stands_mul a b, stands_div a, fun hb => ?_, stands_pow, fun h => ?_,
    ⟨baseValue_neg a, fun p => rfl⟩, ⟨baseValue_scale a f, fun p => rfl⟩, fun h => ⟨?_, ?_⟩,
    fun h => ⟨add_of_dim_ne h, sub_of_dim_ne h⟩⟩
  · exact ⟨_, div_eq_error a (b.baseValue_eq_zero_iff.mpr hb), rfl⟩
  · exact ⟨_, pow_eq_error h.2 (a.baseValue_eq_zero_iff.mpr h.1), rfl⟩
  · obtain ⟨m, hm⟩ := exists_add_eq_ok h
    obtain ⟨k, hk⟩ := exists_add_eq_ok h.symm
    obtain ⟨-, hunit, hvalue⟩ := add_eq_ok_iff.mp hm
    obtain ⟨-, -, hkvalue⟩ := add_eq_ok_iff.mp hk
    exact ⟨m, hm, hunit, hvalue, sub_of_add hm, k, hk, by rw [hkvalue, hvalue, add_comm]⟩
  · obtain ⟨m, hm⟩ : ∃ m, a.sub b = .ok m := by
      rw [sub_eq_add]
      exact exists_add_eq_ok h
    obtain ⟨-, hunit, hvalue⟩ := sub_eq_ok_iff.mp hm
    exact ⟨m, hm, hunit, hvalue⟩

/-- Minus three of a unit of minus two metres, and none of a seventh of a metre. -/
theorem arithmetic_exact_negative_scale :
    let m := UnitOfMeasure.ofPrimitive ⟨0, "length"⟩ "m"
    let a : Measurement := ⟨-3, ⟨m.dim, -2, "step", by decide⟩⟩
    let b : Measurement := ⟨0, ⟨m.dim, 1 / 7, "", by decide +kernel⟩⟩
    (∃ k, a.add b = .ok k ∧ k.baseValue = 6 ∧ k.sub b = .ok a) ∧
      (∃ e, a.div b = .error e ∧ e.kind = .zeroDivision) ∧
      (∃ k, b.div a = .ok k ∧ k.baseValue = 0) ∧
      (∃ e, b.pow (-3) = .error e ∧ e.kind = .zeroDivision) ∧
      ∃ k, a.pow (-3) = .ok k ∧ k.baseValue = 1 / 216 := by
  intro m a b
  obtain ⟨-, -, hzero, hpow, -, -, -, hsum, -⟩ := arithmetic_exact a b 1 (-3)
  obtain ⟨-, hdiv, -, -, hzeropow, -⟩ := arithmetic_exact b a 1 (-3)
  obtain ⟨⟨k, hk, -, hvalue, hback, -⟩, -⟩ := hsum rfl
  obtain ⟨q, hq, hquotient⟩ := hdiv (by decide +kernel)
  obtain ⟨r, hr, hpower⟩ := hpow (by decide +kernel)
  refine ⟨⟨k, hk, hvalue.trans (by decide +kernel), hback⟩, hzero rfl,
    ⟨q, hq, hquotient.baseValue.trans (by decide +kernel)⟩, hzeropow ⟨rfl, by decide⟩,
    ⟨r, hr, hpower.baseValue.trans (by decide +kernel)⟩⟩

end Metrology.Measurement
