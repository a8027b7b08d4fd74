import Metrology.Calculator.Comparison
import Metrology.Proofs.Measurement.Conversion
import Mathlib.Algebra.Order.Field.Basic
import Mathlib.Tactic.Linarith

/-!
# The order of measurements

Measurements are compared in the unit of the first.  Where the scale of that unit is positive, this
is the order of the quantities measured, and where it is negative, the opposite order
(`related_measurement`).  Hence the comparison agrees with base values just where the first scale is
positive or the base values are equal, it can be turned round just where the two scales have the
same sign or the base values are equal, and it is transitive along units just where the first two
have scales of the same sign.  `related_measurement_agrees_iff` states all of this.
-/

namespace Metrology.Calculator.Value

/-! ### Relations between numbers -/

/-- What a relation says of two numbers. -/
def Relation.Between : Relation → Rat → Rat → Prop
  | less, x, y => x < y
  | atMost, x, y => x ≤ y
  | greater, x, y => y < x
  | atLeast, x, y => y ≤ x

instance (r : Relation) (x y : Rat) : Decidable (r.Between x y) := by
  cases r <;> unfold Relation.Between <;> infer_instance

/-- The sign of a difference shows how two numbers are related. -/
theorem holds_sign_sub (r : Relation) (x y : Rat) :
    r.holds (Ord.compare (Exact.sign (x - y)) 0) = decide (r.Between x y) := by
  rcases lt_trichotomy x y with h | h | h
  · have hs : Exact.sign (x - y) = -1 := by
      rw [Exact.sign, if_neg (by linarith), if_pos (by linarith)]
    have hc : Ord.compare (-1 : Int) 0 = .lt := rfl
    rw [hs, hc]
    cases r <;> simp [Relation.holds, Relation.Between, h, h.le, h.not_ge, not_lt_of_gt h]
  · have hs : Exact.sign (x - y) = 0 := by
      rw [Exact.sign, h, sub_self, if_neg (lt_irrefl 0), if_neg (lt_irrefl 0)]
    have hc : Ord.compare (0 : Int) 0 = .eq := rfl
    rw [hs, hc]
    cases r <;> simp [Relation.holds, Relation.Between, h]
  · have hs : Exact.sign (x - y) = 1 := by
      rw [Exact.sign, if_pos (by linarith)]
    have hc : Ord.compare (1 : Int) 0 = .gt := rfl
    rw [hs, hc]
    cases r <;> simp [Relation.holds, Relation.Between, h, h.le, h.not_ge, not_lt_of_gt h]

/-- Division by a positive number keeps a relation, and by a negative one it turns it round. -/
theorem between_div_iff (r : Relation) (x y : Rat) {s : Rat} (hs : s ≠ 0) :
    r.Between (x / s) (y / s) ↔ if 0 < s then r.Between x y else r.Between y x := by
  split_ifs with h
  · cases r <;>
      simp [Relation.Between, div_lt_div_iff_of_pos_right h, div_le_div_iff_of_pos_right h]
  · have hneg : s < 0 := lt_of_le_of_ne (not_lt.mp h) hs
    cases r <;>
      simp [Relation.Between, div_lt_div_right_of_neg hneg, div_le_div_right_of_neg hneg]

/-- A relation that holds in both directions or in none does so between equal numbers only. -/
theorem between_comm_iff (r : Relation) (x y : Rat) :
    (r.Between x y ↔ r.Between y x) ↔ x = y := by
  constructor
  · intro h
    rcases lt_trichotomy x y with hlt | heq | hlt
    · cases r <;> simp [Relation.Between, hlt, hlt.le, hlt.not_ge, not_lt_of_gt hlt] at h
    · exact heq
    · cases r <;> simp [Relation.Between, hlt, hlt.le, hlt.not_ge, not_lt_of_gt hlt] at h
  · rintro rfl
    rfl

/-! ### Comparison of measurements -/

/-- Measurements of equal dimension compare like their base values divided by the first scale. -/
theorem compare_eq_ok {a b : Measurement} (h : a.unit.dim = b.unit.dim) :
    a.compare b =
      .ok (Exact.sign (a.baseValue / a.unit.scale - b.baseValue / a.unit.scale)) := by
  have hv : a.baseValue / a.unit.scale = a.value := mul_div_cancel_right₀ _ a.unit.scale_ne_zero
  rw [Measurement.compare, Measurement.convertTo_of_dim_eq h.symm, hv]
  rfl

/-- The comparison is that of base values if the first scale is positive, and else the opposite. -/
theorem related_measurement (r : Relation) {a b : Measurement} (h : a.unit.dim = b.unit.dim) :
    related r (measurement a) (measurement b) =
      .ok (decide (if 0 < a.unit.scale then r.Between a.baseValue b.baseValue
        else r.Between b.baseValue a.baseValue)) := by
  have hr : related r (measurement a) (measurement b) =
      (do return r.holds (Ord.compare (← a.compare b) 0)) := if_pos h
  rw [hr, compare_eq_ok h]
  show Except.ok _ = _
  rw [holds_sign_sub]
  simp only [between_div_iff r _ _ a.unit.scale_ne_zero]

/-- Measurements of different dimension are refused. -/
theorem related_measurement_of_ne (r : Relation) {a b : Measurement}
    (h : a.unit.dim ≠ b.unit.dim) :
    related r (measurement a) (measurement b) =
      .error (.incompatibleUnits b.unit.text a.unit.text) := if_neg h

/-- Less is told by base values, forwards or backwards. -/
theorem related_less_eq_true_iff {a b : Measurement} (h : a.unit.dim = b.unit.dim) :
    related .less (measurement a) (measurement b) = .ok true ↔
      if 0 < a.unit.scale then a.baseValue < b.baseValue else b.baseValue < a.baseValue := by
  rw [related_measurement .less h, Except.ok.injEq, decide_eq_true_iff]
  rfl

/-- The comparison goes by base values where the first scale is positive. -/
theorem related_eq_between_iff (r : Relation) {a b : Measurement} (h : a.unit.dim = b.unit.dim) :
    related r (measurement a) (measurement b) = .ok (decide (r.Between a.baseValue b.baseValue)) ↔
      0 < a.unit.scale ∨ a.baseValue = b.baseValue := by
  rw [related_measurement r h, Except.ok.injEq, decide_eq_decide]
  split_ifs with hs
  · exact iff_of_true Iff.rfl (.inl hs)
  · rw [between_comm_iff, or_iff_right hs, eq_comm]

/-- Less in one direction is greater in the other where the scales have the same sign. -/
theorem related_less_eq_greater_iff {a b : Measurement} (h : a.unit.dim = b.unit.dim) :
    related .less (measurement a) (measurement b) =
        related .greater (measurement b) (measurement a) ↔
      (0 < a.unit.scale ↔ 0 < b.unit.scale) ∨ a.baseValue = b.baseValue := by
  rw [related_measurement .less h, related_measurement .greater h.symm, Except.ok.injEq,
    decide_eq_decide]
  by_cases ha : 0 < a.unit.scale
  · by_cases hb : 0 < b.unit.scale
    · rw [if_pos ha, if_pos hb]
      exact iff_of_true Iff.rfl (.inl (iff_of_true ha hb))
    · rw [if_pos ha, if_neg hb, or_iff_right fun hab => hb (hab.mp ha)]
      exact between_comm_iff .less a.baseValue b.baseValue
  · by_cases hb : 0 < b.unit.scale
    · rw [if_neg ha, if_pos hb, or_iff_right fun hab => ha (hab.mpr hb), eq_comm]
      exact between_comm_iff .less b.baseValue a.baseValue
    · rw [if_neg ha, if_neg hb]
      exact iff_of_true Iff.rfl (.inl (iff_of_false ha hb))

/-- Less is transitive along three units where the first two have scales of the same sign. -/
theorem related_less_trans_iff {u v w : UnitOfMeasure} (huv : u.dim = v.dim)
    (hvw : v.dim = w.dim) :
    (∀ x y z, related .less (measurement ⟨x, u⟩) (measurement ⟨y, v⟩) = .ok true →
        related .less (measurement ⟨y, v⟩) (measurement ⟨z, w⟩) = .ok true →
        related .less (measurement ⟨x, u⟩) (measurement ⟨z, w⟩) = .ok true) ↔
      (0 < u.scale ↔ 0 < v.scale) := by
  constructor
  · intro htrans
    by_contra hsign
    -- Zero in `u`, a value that goes the same way in both units, and zero again.
    have h := htrans (0 / u.scale) (u.scale / v.scale) (0 / w.scale)
    rw [related_less_eq_true_iff (by exact huv), related_less_eq_true_iff (by exact hvw),
      related_less_eq_true_iff (by exact huv.trans hvw), Measurement.baseValue_div_scale,
      Measurement.baseValue_div_scale, Measurement.baseValue_div_scale, ite_self] at h
    refine lt_irrefl (0 : Rat) (h ?_ ?_)
    · split_ifs with hu
      · exact hu
      · exact lt_of_le_of_ne (not_lt.mp hu) u.scale_ne_zero
    · split_ifs with hv
      · exact lt_of_le_of_ne (not_lt.mp fun hu => hsign (iff_of_true hu hv)) u.scale_ne_zero
      · by_contra hu
        exact hsign (iff_of_false hu hv)
  · intro hsign x y z hxy hyz
    rw [related_less_eq_true_iff (by exact huv)] at hxy
    rw [related_less_eq_true_iff (by exact hvw)] at hyz
    rw [related_less_eq_true_iff (by exact huv.trans hvw)]
    by_cases hu : 0 < u.scale
    · rw [if_pos hu] at hxy ⊢
      rw [if_pos (hsign.mp hu)] at hyz
      exact hxy.trans hyz
    · rw [if_neg hu] at hxy ⊢
      rw [if_neg fun hv => hu (hsign.mpr hv)] at hyz
      exact hyz.trans hxy

/-- **When the order of measurements is that of quantities.**  Measurements of different dimension
are refused.  For others, the comparison is that of base values just where the scale of the first
unit is positive or the base values are equal, and the opposite where that scale is negative; `<`
one way is `>` the other way just where the scales have the same sign or the base values are equal;
and `<` is transitive along three units just where the first two have scales of the same sign. -/
theorem related_measurement_agrees_iff (r : Relation) (a b : Measurement) (w : UnitOfMeasure) :
    (a.unit.dim ≠ b.unit.dim →
      related r (measurement a) (measurement b) =
        .error (.incompatibleUnits b.unit.text a.unit.text)) ∧
    (a.unit.dim = b.unit.dim →
      (related r (measurement a) (measurement b) =
          .ok (decide (r.Between a.baseValue b.baseValue)) ↔
        0 < a.unit.scale ∨ a.baseValue = b.baseValue) ∧
      (a.unit.scale < 0 → related r (measurement a) (measurement b) =
        .ok (decide (r.Between b.baseValue a.baseValue))) ∧
      (related .less (measurement a) (measurement b) =
          related .greater (measurement b) (measurement a) ↔
        (0 < a.unit.scale ↔ 0 < b.unit.scale) ∨ a.baseValue = b.baseValue) ∧
      (b.unit.dim = w.dim →
        ((∀ x y z,
            related .less (measurement ⟨x, a.unit⟩) (measurement ⟨y, b.unit⟩) = .ok true →
            related .less (measurement ⟨y, b.unit⟩) (measurement ⟨z, w⟩) = .ok true →
            related .less (measurement ⟨x, a.unit⟩) (measurement ⟨z, w⟩) = .ok true) ↔
          (0 < a.unit.scale ↔ 0 < b.unit.scale)))) := by
  refine ⟨related_measurement_of_ne r, fun h => ⟨related_eq_between_iff r h, fun hs => ?_,
    related_less_eq_greater_iff h, related_less_trans_iff h⟩⟩
  rw [related_measurement r h]
  simp only [if_neg (not_lt_of_gt hs)]

/-- One of a unit of scale minus one, and two of the unit of numbers. -/
theorem related_measurement_agrees_iff_minus_one :
    related .less (measurement ⟨1, ⟨.dimensionless, -1, "", by decide⟩⟩)
      (measurement ⟨2, .one⟩) = .ok (decide ((2 : Rat) * 1 < 1 * (-1))) :=
  ((related_measurement_agrees_iff .less ⟨1, ⟨.dimensionless, -1, "", by decide⟩⟩ ⟨2, .one⟩
    .one).2 rfl).2.1 (by decide)

/-- The order of measurements is not always that of quantities: minus one is less than two, and
yet one of a unit of scale minus one is not less than two. -/
theorem related_less_ne_between_of_negative_scale :
    ¬ ∀ (r : Relation) (a b : Measurement), a.unit.dim = b.unit.dim →
      related r (measurement a) (measurement b) =
        .ok (decide (r.Between a.baseValue b.baseValue)) := by
  intro h
  have := h .less ⟨1, ⟨.dimensionless, -1, "", by decide⟩⟩ ⟨2, .one⟩ rfl
  rw [related_eq_between_iff .less (by rfl)] at this
  revert this
  decide +kernel

end Metrology.Calculator.Value
