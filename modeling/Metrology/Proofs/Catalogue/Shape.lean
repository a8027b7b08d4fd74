import Metrology.Proofs.Catalogue.Run
import Metrology.Proofs.Expression.Shape

/-!
# Units by the shape of an expression

What the catalogue makes of an expression as a unit depends on the kind of its value only: a number
is refused (`unit_of_number`), a unit is given as it is (`unit_of_unit`), and a measurement is
turned into a unit that is called by the text (`exists_unit_of_nonzero`), unless it is zero, which
no unit is (`unit_of_zero`).  The kind of the value is decided by the shape of the expression, so
that the shape decides which of these happens.

The main result is `unit_iff_shape`; `not_forall_unit_renamed` shows what does not hold.
-/

namespace Metrology

open Text

namespace Catalogue

variable {j : Journal} {text : String}

/-- What names mean in the expressions of a catalogue in use. -/
def meaning (j : Journal) (name : String) : Outcome Quantity := (lookupQuantity name j).1

/-- A text with a value writes an expression of that value, whatever was looked up before. -/
theorem exists_expression_of_evaluate (hj : j.catalogue.Sound) {v : Quantity}
    (h : (evaluate text j).1 = .ok v) :
    ∃ e, Expression.ofText text = .ok e ∧ e.eval (meaning j) = .ok v := by
  have hmeaning : meaning j = j.catalogue.resolve :=
    funext fun name => (reads_lookupQuantity name).outcome j hj
  rw [(reads_evaluate text).outcome j hj] at h
  obtain ⟨e, he, hv⟩ := Outcome.bind_eq_ok_iff.mp h
  exact ⟨e, he, by rw [hmeaning, hv]⟩

/-! ### What becomes of a value -/

theorem unit_of_number {q : Rat} (h : (evaluate text j).1 = .ok (.number q)) :
    (unit text j).1 = .error (.bareNumber (Decimal.exactText q)) := by
  rw [unit, bind_of_ok h]
  rfl

theorem unit_of_unit {u : UnitOfMeasure} (h : (evaluate text j).1 = .ok (.unit u)) :
    (unit text j).1 = .ok u := by
  rw [unit, bind_of_ok h]
  rfl

theorem unit_of_measurement {m : Measurement} (h : (evaluate text j).1 = .ok (.measurement m)) :
    (unit text j).1 = (m.unit.scaled m.value).map (·.renamed (trim text)) := by
  have hunit : (Quantity.measurement m).toUnit false = m.unit.scaled m.value := rfl
  rw [unit, bind_of_ok h, hunit]
  cases m.unit.scaled m.value <;> rfl

theorem unit_of_zero {m : Measurement} (h : (evaluate text j).1 = .ok (.measurement m))
    (hm : m.value = 0) : (unit text j).1 = .error .zeroScale := by
  rw [unit_of_measurement h, hm, UnitOfMeasure.scaled_zero]
  rfl

/-- A measurement that is not zero gives a unit that is as large, under the text as its name. -/
theorem exists_unit_of_nonzero {m : Measurement} (h : (evaluate text j).1 = .ok (.measurement m))
    (hm : m.value ≠ 0) : ∃ u, (unit text j).1 = .ok u ∧ u.name = trim text ∧
      u.scale = m.baseValue ∧ u.dim = m.unit.dim := by
  obtain ⟨u, hu, hscale, hdim⟩ := m.unit.scaled_eq_ok hm
  refine ⟨u.renamed (trim text), ?_, rfl, hscale, hdim⟩
  rw [unit_of_measurement h, hu]
  rfl

/-- **The shape of an expression decides the kind of its value**, and what unit is made of it.  Of
the parts outside exponents only the leaves and the negations count: if all leaves are numbers or
names of numbers, the value is a number, which is refused as a unit; if all leaves are names of
units and nothing is negated, the value is a unit, which is given as it is; in all other cases it
is a measurement.  That is given as a unit of the same amount that is called by the text without the
blanks at its ends, just if it is not zero; if it is, there is no such unit. -/
theorem unit_iff_shape :
    (∀ (resolve : String → Outcome Quantity) (e : Expression) (v : Quantity),
      e.eval resolve = .ok v →
        ((∃ q, v = .number q) ↔ e.IsNumeric resolve) ∧
        ((∃ u, v = .unit u) ↔ e.IsUnital resolve) ∧
        ((∃ m, v = .measurement m) ↔ ¬ e.IsNumeric resolve ∧ ¬ e.IsUnital resolve)) ∧
    ∀ (units : List (String × UnitOfMeasure)) (factors : List (String × Rat)) (plurals : Bool)
      (operations : List Operation) (text : String) (v : Quantity),
      let j := Operation.run operations (ofDefinitions units factors plurals).start
      (evaluate text j).1 = .ok v → ∃ e, Expression.ofText text = .ok e ∧
        ((∃ err, (unit text j).1 = .error err ∧ err.kind = .malformedText) ↔
          e.IsNumeric (meaning j)) ∧
        ((∃ u, (unit text j).1 = .ok u ∧ v = .unit u) ↔ e.IsUnital (meaning j)) ∧
        ((∃ u, (unit text j).1 = .ok u ∧ v ≠ .unit u ∧ u.name = trim text ∧
            u.scale = v.magnitude ∧ u.dim = v.dim) ↔
          (¬ e.IsNumeric (meaning j) ∧ ¬ e.IsUnital (meaning j)) ∧ v.magnitude ≠ 0) ∧
        ((unit text j).1 = .error .zeroScale ↔
          (¬ e.IsNumeric (meaning j) ∧ ¬ e.IsUnital (meaning j)) ∧ v.magnitude = 0) := by
  refine ⟨fun resolve e v => Expression.eval_kind_iff,
    fun units factors plurals operations text v => ?_⟩
  intro j h
  have hj : j.catalogue.Sound := Operation.sound_run operations (sound_of_composed_empty rfl)
  obtain ⟨e, he, hv⟩ := exists_expression_of_evaluate hj h
  obtain ⟨hnumeric, hunital, hmixed⟩ := Expression.eval_kind_iff hv
  refine ⟨e, he, ?_⟩
  rw [← hmixed, ← hnumeric, ← hunital]
  cases v with
  | number q =>
    rw [unit_of_number h]
    simp [Error.kind]
  | unit u =>
    rw [unit_of_unit h]
    simp
  | measurement m =>
    have hzero : (Quantity.measurement m).magnitude = 0 ↔ m.value = 0 := m.baseValue_eq_zero_iff
    by_cases hm : m.value = 0
    · rw [unit_of_zero h hm]
      simp [Error.kind, hzero, hm]
    · obtain ⟨u, hu, hname, hscale, hdim⟩ := exists_unit_of_nonzero h hm
      have hmagnitude : u.scale = (Quantity.measurement m).magnitude := hscale
      have hdimension : u.dim = (Quantity.measurement m).dim := hdim
      rw [hu]
      simp [hzero, hm, hname, hmagnitude, hdimension]

/-- The square of a prefix is a number and no unit, an inverse area is a unit though its exponent is
negative, and a negative length is called by the text. -/
theorem unit_iff_shape_metre :
    let m := UnitOfMeasure.ofPrimitive ⟨0, "length"⟩ "m"
    let j := (ofDefinitions [("m", m)] [("kilo", 1000)] true).start
    (∃ err, (unit "2 kilo^2" j).1 = .error err ∧ err.kind = .malformedText) ∧
    (unit "m^-2" j).1 = .ok (m.pow (-2)) ∧
    ∃ u, (unit " -m " j).1 = .ok u ∧ u.name = "-m" ∧ u.scale = -1 := by
  intro m j
  have hm : meaning j "m" = .ok (.unit m) := by decide +kernel
  have hkilo : meaning j "kilo" = .ok (.number 1000) := by decide +kernel
  have hshape := unit_iff_shape.2 [("m", m)] [("kilo", 1000)] true []
  refine ⟨?_, ?_, ?_⟩
  · obtain ⟨e, he, hnumeric, -⟩ := hshape "2 kilo^2" (.number 2000000) (by decide +kernel)
    have htree : Expression.ofText "2 kilo^2" =
        .ok (.mul (.number 2) (.pow (.name "kilo") (.number 2))) := by decide +kernel
    obtain rfl := Except.ok.inj (he.symm.trans htree)
    refine hnumeric.mpr ?_
    simpa [Expression.IsNumeric, Expression.parts, Expression.isLeaf] using ⟨_, hkilo⟩
  · obtain ⟨e, he, -, hunital, -⟩ := hshape "m^-2" (.unit (m.pow (-2))) (by decide +kernel)
    have htree : Expression.ofText "m^-2" = .ok (.pow (.name "m") (.neg (.number 2))) := by
      decide +kernel
    obtain rfl := Except.ok.inj (he.symm.trans htree)
    obtain ⟨u, hu, hvalue⟩ := hunital.mpr
      (Expression.isUnital_pow_iff.mpr (Expression.isUnital_name_iff.mpr ⟨m, hm⟩))
    exact hu.trans (congrArg Except.ok (Quantity.unit.inj hvalue).symm)
  · obtain ⟨e, he, -, -, hmixed, -⟩ := hshape " -m " (.measurement ⟨-1, m⟩) (by decide +kernel)
    have htree : Expression.ofText " -m " = .ok (.neg (.name "m")) := by decide +kernel
    obtain rfl := Except.ok.inj (he.symm.trans htree)
    have hnumeric : ¬ (Expression.neg (.name "m")).IsNumeric (meaning j) := by
      simp [Expression.IsNumeric, Expression.parts, Expression.isLeaf, hm]
    obtain ⟨u, hu, -, hname, hscale, -⟩ :=
      hmixed.mpr ⟨⟨hnumeric, Expression.not_isUnital_neg _⟩, by decide +kernel⟩
    have htrim : trim " -m " = "-m" := by decide +kernel
    exact ⟨u, hu, hname.trans htrim, hscale.trans (by decide +kernel)⟩

/-- No metre at all is a measurement and yet no unit, under whatever name. -/
theorem not_forall_unit_renamed :
    ¬ ∀ (units : List (String × UnitOfMeasure)) (factors : List (String × Rat)) (plurals : Bool)
      (operations : List Operation) (text : String) (v : Quantity) (e : Expression),
      let j := Operation.run operations (ofDefinitions units factors plurals).start
      (evaluate text j).1 = .ok v → Expression.ofText text = .ok e →
      ¬ e.IsNumeric (meaning j) ∧ ¬ e.IsUnital (meaning j) →
      ∃ u, (unit text j).1 = .ok u ∧ u.name = trim text := by
  intro h
  let m := UnitOfMeasure.ofPrimitive ⟨0, "length"⟩ "m"
  let j := (ofDefinitions [("m", m)] [] true).start
  have hm : meaning j "m" = .ok (.unit m) := by decide +kernel
  have hvalue : (evaluate "0 m" j).1 = .ok (.measurement ⟨0, m⟩) := by decide +kernel
  have hnumeric : ¬ (Expression.mul (.number 0) (.name "m")).IsNumeric (meaning j) := by
    simp [Expression.IsNumeric, Expression.parts, Expression.isLeaf, hm]
  have hunital : ¬ (Expression.mul (.number 0) (.name "m")).IsUnital (meaning j) := fun h =>
    Expression.not_isUnital_number 0 (Expression.isUnital_mul_iff.mp h).1
  obtain ⟨u, hu, -⟩ := h [("m", m)] [] true [] "0 m" (.measurement ⟨0, m⟩)
    (.mul (.number 0) (.name "m")) hvalue (by decide +kernel) ⟨hnumeric, hunital⟩
  cases hu.symm.trans (unit_of_zero hvalue rfl)

end Catalogue

end Metrology
