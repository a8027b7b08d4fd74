import Metrology.Proofs.Unit.Chain

/-!
# Conversion is exact

A measurement is known by its unit and its base value (`eq_of_baseValue`), and conversion to a unit
of equal dimension gives the measurement in that unit of the same base value
(`convertTo_eq_ok_iff`).  So it does not count by which units a measurement is converted to another
one, and it comes back as it was.

The main result is `convertTo_exact`.  It also tells conversions apart by numbers: between units
that were built along chains, they depend on the exponents and the scales of these chains alone.
-/

namespace Metrology.Measurement

open UnitOfMeasure (Chain)

theorem convertTo_of_dim_eq {m : Measurement} {u : UnitOfMeasure} (h : m.unit.dim = u.dim) :
    m.convertTo u = .ok ⟨m.baseValue / u.scale, u⟩ := if_pos (decide_eq_true h)

theorem convertTo_of_dim_ne {m : Measurement} {u : UnitOfMeasure} (h : m.unit.dim ≠ u.dim) :
    m.convertTo u = .error (.incompatibleUnits m.unit.text u.text) :=
  if_neg (ne_true_of_eq_false (decide_eq_false h))

/-- Conversion gives the measurement in the unit that has the same base value. -/
theorem convertTo_eq_ok_iff {m k : Measurement} {u : UnitOfMeasure} :
    m.convertTo u = .ok k ↔ m.unit.dim = u.dim ∧ k.unit = u ∧ k.baseValue = m.baseValue := by
  by_cases h : m.unit.dim = u.dim
  · rw [convertTo_of_dim_eq h, Except.ok.injEq]
    constructor
    · rintro rfl
      exact ⟨h, rfl, baseValue_div_scale m.baseValue u⟩
    · rintro ⟨-, rfl, hk⟩
      exact eq_of_baseValue rfl ((baseValue_div_scale m.baseValue k.unit).trans hk.symm)
  · rw [convertTo_of_dim_ne h]
    constructor
    · intro hk
      cases hk
    · rintro ⟨hdim, -⟩
      exact absurd hdim h

/-- A conversion on the way to another one can be left out. -/
theorem convertTo_of_convertTo {m k r : Measurement} {u v : UnitOfMeasure}
    (h : m.convertTo u = .ok k) : k.convertTo v = .ok r ↔ m.convertTo v = .ok r := by
  obtain ⟨hdim, rfl, hk⟩ := convertTo_eq_ok_iff.mp h
  rw [convertTo_eq_ok_iff, convertTo_eq_ok_iff, hdim, hk]

/-- A measurement that is converted comes back as it was. -/
theorem convertTo_back {m k : Measurement} {u : UnitOfMeasure} (h : m.convertTo u = .ok k) :
    k.convertTo m.unit = .ok m :=
  (convertTo_of_convertTo h).mpr (convertTo_eq_ok_iff.mpr ⟨rfl, rfl, rfl⟩)

/-- Units that were built along chains have the same dimension where the chains have the same
exponents. -/
theorem dim_eq_iff_exponent {s t : Chain} {u v : UnitOfMeasure} (hu : s.build = .ok u)
    (hv : t.build = .ok v) : u.dim = v.dim ↔ ∀ p, s.exponent p = t.exponent p := by
  obtain ⟨-, hup⟩ := Chain.build_eq_ok hu
  obtain ⟨-, hvp⟩ := Chain.build_eq_ok hv
  constructor
  · intro h p
    rw [← hup, ← hvp, h]
  · intro h
    exact Dimension.ext_exponent fun p => by rw [hup, hvp, h]

/-- **Conversion is exact.**  It is refused just between different dimensions, whatever the value,
and else it gives the same base value in the unit asked for.  It may be taken back or go by another
unit on its way.  Between units that were built along chains, it is refused just where the exponents
of the chains differ, and else it multiplies by the quotient of their scales. -/
theorem convertTo_exact (m : Measurement) (u v : UnitOfMeasure) :
    (m.unit.dim ≠ u.dim → m.convertTo u = .error (.incompatibleUnits m.unit.text u.text)) ∧
    (m.unit.dim = u.dim → ∃ k, m.convertTo u = .ok k ∧ k.unit = u ∧
      k.baseValue = m.baseValue ∧ k.convertTo m.unit = .ok m ∧
      ∀ r, k.convertTo v = .ok r ↔ m.convertTo v = .ok r) ∧
    ∀ s t : Chain, s.build = .ok m.unit → t.build = .ok u →
      (m.unit.dim = u.dim ↔ ∀ p, s.exponent p = t.exponent p) ∧
      ∀ k, m.convertTo u = .ok k → k.value = m.value * s.scale / t.scale := by
  refine ⟨convertTo_of_dim_ne, fun h => ?_, fun s t hs ht => ?_⟩
  · have hk := convertTo_of_dim_eq h
    obtain ⟨-, hunit, hvalue⟩ := convertTo_eq_ok_iff.mp hk
    exact ⟨_, hk, hunit, hvalue, convertTo_back hk, fun r => convertTo_of_convertTo hk⟩
  · refine ⟨dim_eq_iff_exponent hs ht, fun k hk => ?_⟩
    obtain ⟨hdim, -⟩ := convertTo_eq_ok_iff.mp hk
    rw [convertTo_of_dim_eq hdim] at hk
    cases hk
    rw [← (Chain.build_eq_ok hs).1, ← (Chain.build_eq_ok ht).1]
    rfl

/-- Seven of a unit of minus three metres are minus forty-two halves of a metre, though one unit
comes of a square and the other of a reciprocal. -/
theorem convertTo_exact_negative_scale :
    let m := UnitOfMeasure.ofPrimitive ⟨0, "length"⟩ "m"
    let s := Chain.scaled (-3) (.div (.mul (.given m) (.given m)) (.given m))
    let t := Chain.scaled (1 / 2) (.reciprocal (.pow (.given m) (-1)))
    ∃ u v k, s.build = .ok u ∧ t.build = .ok v ∧ u.dim = v.dim ∧
      (⟨7, u⟩ : Measurement).convertTo v = .ok k ∧ k.unit = v ∧ k.value = -42 ∧
      k.convertTo u = .ok ⟨7, u⟩ := by
  intro m s t
  obtain ⟨u, hu, -⟩ := ((m.mul m).div m).scaled_eq_ok (f := -3) (by decide)
  obtain ⟨v, hv, -⟩ := (m.pow (-1)).reciprocal.scaled_eq_ok (f := 1 / 2) (by decide +kernel)
  obtain ⟨-, hconverts, hchains⟩ := convertTo_exact ⟨7, u⟩ v v
  obtain ⟨hexponents, hvalue⟩ := hchains s t hu hv
  have hdim : u.dim = v.dim := by
    refine hexponents.mpr fun p => ?_
    simp only [s, t, Chain.exponent]
    omega
  obtain ⟨k, hk, hunit, -, hback, -⟩ := hconverts hdim
  have hfactor : 7 * s.scale / t.scale = -42 := by decide +kernel
  exact ⟨u, v, k, hu, hv, hdim, hk, hunit, (hvalue k hk).trans hfactor, hback⟩

end Metrology.Measurement
