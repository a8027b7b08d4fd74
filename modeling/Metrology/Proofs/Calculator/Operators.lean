import Metrology.Calculator.Operator
import Metrology.Proofs.Number.Comparison
import Metrology.Proofs.Quantity.Amount

/-!
# Operators agree with exact algebra

Whatever kinds of values meet in `a * b` and `a / b`, at least one of them a unit or a measurement,
the result stands for the product or quotient of what the two stand for.  The kinds decide which
operation is called, and so whether a result is a unit or a measurement and in which unit.  They
also decide what fails: no unit has the scale zero, so that the number zero scales none
(`Quantity.ZeroTimesUnit`), whereas a measurement may well be zero, and then divides nothing
(`Quantity.IsZero`).

`Operand.mul_gives` and `Operand.div_gives` go through the kinds, and `mul_eq_error`,
`div_eq_error_of_isZero` and `div_eq_error_of_zeroTimesUnit` through the failures.  The main result,
`Value.operators_exact`, is about all values that stand for exact quantities (`Value.StandsFor`).
-/

namespace Metrology

namespace Quantity

/-- Whether the number zero stands before a unit. -/
def ZeroTimesUnit (a b : Quantity) : Prop := a = number 0 ∧ ∃ u, b = unit u

/-- Whether a value is a number or a measurement of value zero. -/
def IsZero : Quantity → Prop
  | number q => q = 0
  | unit _ => False
  | measurement m => m.value = 0

end Quantity

namespace Calculator

open Quantity (IsProduct IsQuotient ZeroTimesUnit isProduct_mul)

namespace Operand

/-- What an operand stands for: a number for its exact value, if it is finite and no double, a unit
and a measurement for themselves. -/
inductive StandsFor : Operand → Quantity → Prop
  | number {n : Number} {q : Rat} (h : n.exactRat? = some q) : StandsFor (number n) (.number q)
  | unit (u : UnitOfMeasure) : StandsFor (unit u) (.unit u)
  | measurement (m : Measurement) : StandsFor (measurement m) (.measurement m)

/-- An operation has a result, which stands for the given quantity. -/
def Gives (o : Outcome Operand) (v : Quantity) : Prop := ∃ z, o = .ok z ∧ z.StandsFor v

variable {x y : Operand} {a b : Quantity} {n : Number} {q : Rat}

/-! ### Products -/

/-- A unit is scaled by every number but zero. -/
theorem exists_scaled (u : UnitOfMeasure) (hq : q ≠ 0) :
    ∃ v, u.scaled q = .ok v ∧ IsProduct (.number q) (.unit u) (.unit v) := by
  obtain ⟨v, hv, hscale, hdim⟩ := u.scaled_eq_ok hq
  refine ⟨v, hv, hscale, fun p => ?_, rfl⟩
  exact (congrArg (Dimension.exponent · p) hdim).trans (zero_add _).symm

/-- Every product that does not scale a unit by zero has a result. -/
theorem mul_gives (hx : x.StandsFor a) (hy : y.StandsFor b)
    (hab : (a.isNumber && b.isNumber) = false) (h : ¬ (ZeroTimesUnit a b ∨ ZeroTimesUnit b a)) :
    ∃ v, Gives (x.mul y) v ∧ IsProduct a b v := by
  rw [not_or] at h
  cases hx with
  | @number n p hn =>
    cases hy with
    | number _ => cases hab
    | unit v =>
      obtain ⟨w, hw, hproduct⟩ := exists_scaled v fun hp => h.1 ⟨congrArg _ hp, v, rfl⟩
      have hok : mul (number n) (unit v) = .ok (unit w) :=
        Outcome.bind_eq_ok_iff.mpr ⟨p, Number.toRat_of_exactRat? hn,
          Outcome.bind_eq_ok_iff.mpr ⟨w, hw, rfl⟩⟩
      exact ⟨_, ⟨_, hok, .unit w⟩, hproduct⟩
    | measurement k =>
      have hok : mul (number n) (measurement k) = .ok (measurement (k.scale p)) :=
        Outcome.bind_eq_ok_iff.mpr ⟨p, Number.toRat_of_exactRat? hn, rfl⟩
      exact ⟨_, ⟨_, hok, .measurement _⟩, isProduct_mul (.number p) (.measurement k)⟩
  | unit u =>
    cases hy with
    | @number n q hn =>
      -- The unit is scaled from this side as from the other.
      obtain ⟨w, hw, hproduct⟩ := exists_scaled u fun hq => h.2 ⟨congrArg _ hq, u, rfl⟩
      have hok : mul (unit u) (number n) = .ok (unit w) :=
        Outcome.bind_eq_ok_iff.mpr ⟨q, Number.toRat_of_exactRat? hn,
          Outcome.bind_eq_ok_iff.mpr ⟨w, hw, rfl⟩⟩
      exact ⟨_, ⟨_, hok, .unit w⟩, hproduct.comm⟩
    | unit v => exact ⟨_, ⟨_, rfl, .unit _⟩, isProduct_mul (.unit u) (.unit v)⟩
    | measurement k =>
      exact ⟨_, ⟨_, rfl, .measurement _⟩, mul_left_comm _ _ _, u.dim.exponent_mul k.unit.dim, rfl⟩
  | measurement m =>
    cases hy with
    | @number n q hn =>
      have hok : mul (measurement m) (number n) = .ok (measurement (m.scale q)) :=
        Outcome.bind_eq_ok_iff.mpr ⟨q, Number.toRat_of_exactRat? hn, rfl⟩
      exact ⟨_, ⟨_, hok, .measurement _⟩, isProduct_mul (.measurement m) (.number q)⟩
    | unit v =>
      exact ⟨_, ⟨_, rfl, .measurement _⟩, (mul_assoc _ _ _).symm,
        m.unit.dim.exponent_mul v.dim, rfl⟩
    | measurement k =>
      exact ⟨_, ⟨_, rfl, .measurement _⟩, isProduct_mul (.measurement m) (.measurement k)⟩

/-- The number zero scales no unit, on whichever side it stands. -/
theorem mul_eq_error (hx : x.StandsFor a) (hy : y.StandsFor b)
    (h : ZeroTimesUnit a b ∨ ZeroTimesUnit b a) : x.mul y = .error .zeroScale := by
  rcases h with ⟨rfl, u, rfl⟩ | ⟨rfl, u, rfl⟩
  · cases hx with | number hn =>
    cases hy with | unit =>
    rw [mul, Number.toRat_of_exactRat? hn]
    show u.scaled 0 >>= _ = _
    rw [u.scaled_zero]
    rfl
  · cases hx with | unit =>
    cases hy with | number hn =>
    rw [mul, Number.toRat_of_exactRat? hn]
    show u.scaled 0 >>= _ = _
    rw [u.scaled_zero]
    rfl

/-! ### Quotients -/

/-- One divided by a unit is its reciprocal, and any other number is a multiple of that. -/
theorem div_unit_eq (hn : n.exactRat? = some q) (v : UnitOfMeasure) :
    (q = 1 ∧ div (number n) (unit v) = .ok (unit v.reciprocal)) ∨
      div (number n) (unit v) = unit <$> v.reciprocal.scaled q := by
  obtain ⟨isOne, hone, hsound⟩ := Number.exists_equality_integer hn 1
  rw [div, hone, Number.toRat_of_exactRat? hn]
  cases isOne with
  | true => exact .inl ⟨hsound rfl, rfl⟩
  | false => exact .inr rfl

/-- A number divided: by a unit it is a multiple of the reciprocal, and by a measurement it is a
measurement in the reciprocal unit. -/
theorem number_div_gives (hn : n.exactRat? = some q) (hy : y.StandsFor b) (hb : b.isNumber = false)
    (hzero : ¬ b.IsZero) (h : ¬ ZeroTimesUnit (.number q) b) :
    ∃ v, Gives (div (number n) y) v ∧ IsQuotient (.number q) b v := by
  cases hy with
  | number _ => cases hb
  | unit v =>
    have hexponent := Dimension.dimensionless.exponent_div v.dim
    rcases div_unit_eq hn v with ⟨rfl, hok⟩ | hdiv
    · exact ⟨_, ⟨_, hok, .unit _⟩, v.scale_reciprocal.trans (one_div _).symm, hexponent, rfl⟩
    · have hq : q ≠ 0 := fun hq => h ⟨congrArg _ hq, v, rfl⟩
      obtain ⟨w, hw, hscale, hdim⟩ := v.reciprocal.scaled_eq_ok hq
      have hok : div (number n) (unit v) = .ok (unit w) := by
        rw [hdiv, hw]
        rfl
      have hmagnitude : w.scale = q / v.scale := by
        rw [hscale, v.scale_reciprocal, div_eq_mul_inv]
      refine ⟨_, ⟨_, hok, .unit w⟩, hmagnitude, fun p => ?_, rfl⟩
      exact (congrArg (Dimension.exponent · p) hdim).trans (hexponent p)
  | measurement k =>
    have hk : k.value ≠ 0 := hzero
    have hok : div (number n) (measurement k) =
        .ok (measurement ⟨q / k.value, k.unit.reciprocal⟩) := by
      rw [div, if_neg hk, Number.toRat_of_exactRat? hn]
      rfl
    have hmagnitude : q / k.value * k.unit.reciprocal.scale = q / k.baseValue := by
      rw [k.unit.scale_reciprocal, ← div_eq_mul_inv, div_div]
      rfl
    exact ⟨_, ⟨_, hok, .measurement _⟩, hmagnitude,
      Dimension.dimensionless.exponent_div k.unit.dim, rfl⟩

/-- A unit divided: it stays a unit unless the divisor is a measurement. -/
theorem unit_div_gives (u : UnitOfMeasure) (hy : y.StandsFor b) (hzero : ¬ b.IsZero) :
    ∃ v, Gives (div (unit u) y) v ∧ IsQuotient (.unit u) b v := by
  cases hy with
  | @number n q hn =>
    have hq : q ≠ 0 := hzero
    obtain ⟨w, hw, hscale, hdim⟩ := u.scaled_eq_ok (one_div_ne_zero hq)
    have hok : div (unit u) (number n) = .ok (unit w) :=
      Outcome.bind_eq_ok_iff.mpr ⟨q, Number.toRat_of_exactRat? hn,
        Outcome.bind_eq_ok_iff.mpr ⟨1 / q, Exact.div_of_ne_zero 1 hq,
          Outcome.bind_eq_ok_iff.mpr ⟨w, hw, rfl⟩⟩⟩
    have hmagnitude : w.scale = u.scale / q := by rw [hscale, one_div_mul_eq_div]
    refine ⟨_, ⟨_, hok, .unit w⟩, hmagnitude, fun p => ?_, rfl⟩
    exact (congrArg (Dimension.exponent · p) hdim).trans (sub_zero _).symm
  | unit v => exact ⟨_, ⟨_, rfl, .unit _⟩, rfl, u.dim.exponent_div v.dim, rfl⟩
  | measurement k =>
    have hok : div (unit u) (measurement k) =
        .ok (measurement ⟨Exact.power k.value (-1), u.div k.unit⟩) := if_neg hzero
    have hmagnitude :
        Exact.power k.value (-1) * (u.scale / k.unit.scale) = u.scale / k.baseValue := by
      rw [Exact.power_eq, zpow_neg_one, inv_mul_eq_div, div_div, mul_comm]
      rfl
    exact ⟨_, ⟨_, hok, .measurement _⟩, hmagnitude, u.dim.exponent_div k.unit.dim, rfl⟩

/-- A measurement divided: the value by numbers, the unit by units, both by measurements. -/
theorem measurement_div_gives (m : Measurement) (hy : y.StandsFor b) (hzero : ¬ b.IsZero) :
    ∃ v, Gives (div (measurement m) y) v ∧ IsQuotient (.measurement m) b v := by
  cases hy with
  | @number n q hn =>
    have hq : q ≠ 0 := hzero
    obtain ⟨k, hk, hvalue, hunit⟩ := m.divNumber_eq_ok hq
    have hok : div (measurement m) (number n) = .ok (measurement k) :=
      Outcome.bind_eq_ok_iff.mpr ⟨q, Number.toRat_of_exactRat? hn,
        Outcome.bind_eq_ok_iff.mpr ⟨k, hk, rfl⟩⟩
    refine ⟨_, ⟨_, hok, .measurement k⟩, hvalue, fun p => ?_, rfl⟩
    exact (congrArg (fun u => u.dim.exponent p) hunit).trans (sub_zero _).symm
  | unit v =>
    exact ⟨_, ⟨_, rfl, .measurement _⟩, (mul_div_assoc _ _ _).symm,
      m.unit.dim.exponent_div v.dim, rfl⟩
  | measurement k =>
    obtain ⟨r, hr, hvalue, hdim⟩ := m.div_eq_ok (mt k.baseValue_eq_zero_iff.mp hzero)
    have hok : div (measurement m) (measurement k) = .ok (measurement r) := by
      rw [div, hr]
      rfl
    refine ⟨_, ⟨_, hok, .measurement r⟩, hvalue, fun p => ?_, rfl⟩
    exact (congrArg (Dimension.exponent · p) hdim).trans (m.unit.dim.exponent_div k.unit.dim p)

/-- Every quotient by a divisor that is not zero has a result, if it scales no unit by zero. -/
theorem div_gives (hx : x.StandsFor a) (hy : y.StandsFor b)
    (hab : (a.isNumber && b.isNumber) = false) (hzero : ¬ b.IsZero) (h : ¬ ZeroTimesUnit a b) :
    ∃ v, Gives (x.div y) v ∧ IsQuotient a b v := by
  cases hx with
  | number hn => exact number_div_gives hn hy hab hzero h
  | unit u => exact unit_div_gives u hy hzero
  | measurement m => exact measurement_div_gives m hy hzero

/-- The number zero and a measurement of value zero divide nothing. -/
theorem div_eq_error_of_isZero (hx : x.StandsFor a) (hy : y.StandsFor b)
    (hab : (a.isNumber && b.isNumber) = false) (hb : b.IsZero) :
    ∃ e, x.div y = .error e ∧ e.kind = .zeroDivision := by
  cases hy with
  | @number n q hn =>
    obtain rfl : q = 0 := hb
    refine ⟨.divisionByZero, ?_, rfl⟩
    cases hx with
    | number _ => cases hab
    | unit u =>
      rw [div, Number.toRat_of_exactRat? hn]
      rfl
    | measurement m =>
      rw [div, Number.toRat_of_exactRat? hn]
      rfl
  | unit v => exact hb.elim
  | measurement k =>
    refine ⟨.zeroMeasurement, ?_, rfl⟩
    cases hx with
    | number _ => exact if_pos hb
    | unit u => exact if_pos hb
    | measurement m =>
      rw [div, m.div_eq_error (k.baseValue_eq_zero_iff.mpr hb)]
      rfl

/-- The number zero scales no reciprocal of a unit either. -/
theorem div_eq_error_of_zeroTimesUnit (hx : x.StandsFor a) (hy : y.StandsFor b)
    (h : ZeroTimesUnit a b) : x.div y = .error .zeroScale := by
  obtain ⟨rfl, u, rfl⟩ := h
  cases hx with | number hn =>
  cases hy with | unit =>
  rcases div_unit_eq hn u with ⟨hone, -⟩ | hdiv
  · exact absurd hone zero_ne_one
  · rw [hdiv, u.reciprocal.scaled_zero]
    rfl

end Operand

namespace Value

/-- What a value stands for as an operand. -/
def StandsFor (v : Value) (a : Quantity) : Prop := ∃ x, Operand.ofValue? v = some x ∧ x.StandsFor a

/-- An operator has a result, which stands for the given quantity. -/
def Gives (o : Outcome Value) (v : Quantity) : Prop := ∃ z : Value, o = .ok z ∧ z.StandsFor v

/-- An operator fails in the given way. -/
def Fails (o : Outcome Value) (kind : ErrorKind) : Prop := ∃ e, o = .error e ∧ e.kind = kind

variable {x y : Value} {a b v : Quantity} {r s : Operand} {o : Outcome Operand}

/-! ### Operators on operands -/

theorem ofValue?_toValue (x : Operand) : Operand.ofValue? x.toValue = some x := by
  cases x <;> rfl

theorem gives_of_operand (h : Operand.Gives o v) : Gives (Operand.toValue <$> o) v := by
  obtain ⟨z, rfl, hz⟩ := h
  exact ⟨z.toValue, rfl, z, ofValue?_toValue z, hz⟩

theorem fails_of_operand {e : Error} (h : o = .error e) : Fails (Operand.toValue <$> o) e.kind := by
  rw [h]
  exact ⟨e, rfl, rfl⟩

theorem isRepeatable_of_ofValue? (h : Operand.ofValue? x = some r) : x.isRepeatable = false := by
  cases x <;> first | rfl | cases h

theorem isLabelled_of_ofValue? (h : Operand.ofValue? x = some r) : x.isLabelled = false := by
  cases x <;> first | rfl | cases h

/-- No label takes part in operations on operands. -/
theorem withLabels_liftOperands (f : Operand → Operand → Outcome Operand)
    (name : Value → Value → Outcome Value) (hx : Operand.ofValue? x = some r)
    (hy : Operand.ofValue? y = some s) :
    withLabels (liftOperands f) name x y = Operand.toValue <$> f r s := by
  have hlabelled : (x.isLabelled || y.isLabelled) = false := by
    rw [isLabelled_of_ofValue? hx, isLabelled_of_ofValue? hy]
    rfl
  rw [withLabels, if_neg (Bool.eq_false_iff.mp hlabelled), liftOperands, hx, hy]

theorem mul_of_ofValue? (hx : Operand.ofValue? x = some r) (hy : Operand.ofValue? y = some s) :
    x.mul y = Operand.toValue <$> r.mul s := by
  have hlift := withLabels_liftOperands Operand.mul productLabelOf hx hy
  unfold mul
  -- Dimensions have a product of their own, and an integer repeats texts and lists; neither is an
  -- operand.
  split
  · cases hx
  · rw [if_neg (Bool.eq_false_iff.mp (isRepeatable_of_ofValue? hy)), hlift]
  · rw [if_neg (Bool.eq_false_iff.mp (isRepeatable_of_ofValue? hx)), hlift]
  · exact hlift

theorem div_of_ofValue? (hx : Operand.ofValue? x = some r) (hy : Operand.ofValue? y = some s) :
    x.div y = Operand.toValue <$> r.div s := by
  unfold div
  split
  · cases hx
  · exact withLabels_liftOperands Operand.div quotientLabelOf hx hy

/-! ### Exact algebra -/

/-- **Operators agree with exact algebra.**  Of two values that stand for quantities, not both
numbers, the product stands for the product and the quotient for the quotient, and the order of a
product does not count.  Nothing fails but what would scale a unit by zero, and a quotient by a
number or a measurement of value zero. -/
theorem operators_exact (hx : x.StandsFor a) (hy : y.StandsFor b)
    (hab : (a.isNumber && b.isNumber) = false) :
    (¬ (ZeroTimesUnit a b ∨ ZeroTimesUnit b a) →
      ∃ v w, Gives (x.mul y) v ∧ IsProduct a b v ∧ Gives (y.mul x) w ∧ w.amount = v.amount) ∧
    (ZeroTimesUnit a b ∨ ZeroTimesUnit b a →
      Fails (x.mul y) .invalidValue ∧ Fails (y.mul x) .invalidValue) ∧
    (¬ b.IsZero → ¬ ZeroTimesUnit a b → ∃ v, Gives (x.div y) v ∧ IsQuotient a b v) ∧
    (b.IsZero → Fails (x.div y) .zeroDivision) ∧
    (ZeroTimesUnit a b → Fails (x.div y) .invalidValue) := by
  obtain ⟨r, hr, hra⟩ := hx
  obtain ⟨s, hs, hsb⟩ := hy
  have hba : (b.isNumber && a.isNumber) = false := by rwa [Bool.and_comm]
  rw [mul_of_ofValue? hr hs, mul_of_ofValue? hs hr, div_of_ofValue? hr hs]
  refine ⟨fun h => ?_, fun h => ?_, fun hzero h => ?_, fun hzero => ?_, fun h => ?_⟩
  · obtain ⟨v, hv, hproduct⟩ := Operand.mul_gives hra hsb hab h
    obtain ⟨w, hw, hreverse⟩ := Operand.mul_gives hsb hra hba (mt Or.symm h)
    exact ⟨v, w, gives_of_operand hv, hproduct, gives_of_operand hw,
      hreverse.comm.amount_eq hproduct⟩
  · exact ⟨fails_of_operand (Operand.mul_eq_error hra hsb h),
      fails_of_operand (Operand.mul_eq_error hsb hra h.symm)⟩
  · obtain ⟨v, hv, hquotient⟩ := Operand.div_gives hra hsb hab hzero h
    exact ⟨v, gives_of_operand hv, hquotient⟩
  · obtain ⟨e, he, hkind⟩ := Operand.div_eq_error_of_isZero hra hsb hab hzero
    exact hkind ▸ fails_of_operand he
  · exact fails_of_operand (Operand.div_eq_error_of_zeroTimesUnit hra hsb h)

/-- A decimal one before and above a unit of minus three metres, the truth value that counts as
zero, and a measurement of zero as a divisor. -/
theorem operators_exact_negative_scale :
    let m := UnitOfMeasure.ofPrimitive ⟨0, "length"⟩ "m"
    let u : UnitOfMeasure := ⟨m.dim, -3, "back", by decide⟩
    let one : Value := number (.decimal (.finite false 10 (-1)))
    let zero : Value := measurement ⟨0, u⟩
    (∃ v, Gives (one.mul (unit u)) v ∧ v.magnitude = -3) ∧
      (∃ v, Gives (one.div (unit u)) v ∧ v.magnitude = -1 / 3) ∧
      Fails ((truth false).div (unit u)) .invalidValue ∧
      Fails ((unit u).mul (truth false)) .invalidValue ∧
      Fails (one.div zero) .zeroDivision := by
  intro m u one zero
  have hone : one.StandsFor (.number 1) := ⟨_, rfl, .number (by decide +kernel)⟩
  have hfalse : (truth false).StandsFor (.number 0) := ⟨_, rfl, .number rfl⟩
  have hunit : (unit u).StandsFor (.unit u) := ⟨_, rfl, .unit u⟩
  have hdivisor : zero.StandsFor (.measurement ⟨0, u⟩) := ⟨_, rfl, .measurement _⟩
  have hzero : ZeroTimesUnit (.number 0) (.unit u) := ⟨rfl, u, rfl⟩
  have hnot : ¬ ZeroTimesUnit (.number 1) (.unit u) := fun h => by cases h.1
  have hnot' : ¬ ZeroTimesUnit (.unit u) (.number 1) := fun h => by cases h.1
  obtain ⟨hmul, -, hdiv, -⟩ := operators_exact hone hunit rfl
  obtain ⟨-, hscaled, -, -, hdivided⟩ := operators_exact hfalse hunit rfl
  obtain ⟨-, -, -, hundivided, -⟩ := operators_exact hone hdivisor rfl
  obtain ⟨v, w, hv, hproduct, -⟩ := hmul (not_or.mpr ⟨hnot, hnot'⟩)
  obtain ⟨q, hq, hquotient⟩ := hdiv id hnot
  exact ⟨⟨v, hv, hproduct.magnitude.trans (by decide +kernel)⟩,
    ⟨q, hq, hquotient.magnitude.trans (by decide +kernel)⟩, hdivided hzero,
    (hscaled (.inl hzero)).2, hundivided rfl⟩

end Value

end Calculator

end Metrology
