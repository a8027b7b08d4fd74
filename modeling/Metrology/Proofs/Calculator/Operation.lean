import Mathlib.Tactic.SplitIfs
import Metrology.Calculator.Member

/-!
# Operations by name

* `Value.call_of_isOperator`: most operations that a value offers by name are operators as well, and
  give the same with the same failures, whether units are called by texts or by other labels.
  `Value.IsOperator` lists which operator each of them is, for which kinds of operands.
* `Value.reciprocalOf_eq_div`, `Value.powerOfUnit_eq_power`: so are reciprocals and powers of units.
* `Value.toUnit_ofQuantity`, `Value.toPureNumber_ofQuantity`: the value of an expression is taken as
  a unit or as a number as the quantity is.

With labels an operation and an operator go through `withLabels` alike: they agree as soon as they
do without labels and compose the same name (`withLabels_congr`).  Where one of them composes the
name on its own, what comes first is taken apart by `withLabels_of_ok`, `withLabels_of_zeroScale`
and `withLabels_of_error`.
-/

namespace Metrology

namespace Calculator

namespace Value

variable {v w : Value} {n : Number} {u u' : UnitOfMeasure} {k k' : Measurement}

/-! ### Kinds of operands -/

theorem unlabelled_of_isLabelled_eq_false (h : v.isLabelled = false) : v.unlabelled = v := by
  cases v with
  | labelledUnit u label => cases h
  | labelledMeasurement m label => cases h
  | _ => rfl

/-- Without labels an operation is applied as it is. -/
theorem withLabels_of_unlabelled (f name : Value → Value → Outcome Value)
    (hv : v.isLabelled = false) (hw : w.isLabelled = false) : withLabels f name v w = f v w := by
  rw [withLabels, hv, hw]
  rfl

/-- Operations agree with labels if they agree without them and compose the same name. -/
theorem withLabels_congr {f f' name name' : Value → Value → Outcome Value}
    (hf : f v.unlabelled w.unlabelled = f' v.unlabelled w.unlabelled)
    (hname : name v w = name' v w) : withLabels f name v w = withLabels f' name' v w := by
  unfold withLabels
  split_ifs with h
  · rw [hf, hname]
  · rw [Bool.not_eq_true, Bool.or_eq_false_iff] at h
    rwa [unlabelled_of_isLabelled_eq_false h.1, unlabelled_of_isLabelled_eq_false h.2] at hf

section Labelled

variable {f name : Value → Value → Outcome Value} {result : Value} {e : Error}

theorem withLabels_of_ok (h : (v.isLabelled || w.isLabelled) = true)
    (hf : f v.unlabelled w.unlabelled = .ok result) :
    withLabels f name v w = (do return result.relabelled (← name v w)) := by
  rw [withLabels, if_pos h, hf]

/-- Before a scale of zero is refused, the name is composed. -/
theorem withLabels_of_zeroScale (h : (v.isLabelled || w.isLabelled) = true)
    (hf : f v.unlabelled w.unlabelled = .error .zeroScale) :
    withLabels f name v w = name v w >>= fun _ => .error .zeroScale := by
  rw [withLabels, if_pos h, hf]
  rfl

/-- A failure stays the same where composing the name fails in no other way. -/
theorem withLabels_of_error (h : (v.isLabelled || w.isLabelled) = true)
    (hf : f v.unlabelled w.unlabelled = .error e) (hname : ∀ e', name v w = .error e' → e' = e) :
    withLabels f name v w = .error e := by
  rw [withLabels, if_pos h, hf]
  cases hcomposed : name v w with
  | error e' =>
    rw [hname e' hcomposed]
    exact ite_self _
  | ok label => exact ite_self _

end Labelled

theorem toRat_of_number? (h : v.number? = some n) : v.toRat = n.toRat := by
  cases v with
  | truth b =>
    obtain rfl := Option.some.inj h
    rfl
  | number m =>
    obtain rfl := Option.some.inj h
    rfl
  | _ => cases h

theorem unlabelled_of_number? (h : v.number? = some n) : v.unlabelled = v := by
  cases v with
  | truth _ | number _ => rfl
  | _ => cases h

theorem isLabelled_of_number? (h : v.number? = some n) : v.isLabelled = false := by
  cases v with
  | labelledUnit _ _ | labelledMeasurement _ _ => cases h
  | _ => rfl

theorem ofValue?_of_number? (h : v.number? = some n) :
    Operand.ofValue? v = some (.number n) := by
  cases v with
  | truth b =>
    obtain rfl := Option.some.inj h
    rfl
  | number m =>
    obtain rfl := Option.some.inj h
    rfl
  | _ => cases h

/-- A unit without its label is the unit under a text. -/
theorem exists_unlabelled_of_unit? (h : v.unit? = some u) :
    ∃ name, v.unlabelled = unit (u.renamed name) := by
  cases v with
  | unit u' =>
    obtain rfl := Option.some.inj h
    exact ⟨u'.name, rfl⟩
  | labelledUnit u' label =>
    obtain rfl := Option.some.inj h
    exact ⟨"", rfl⟩
  | _ => cases h

/-- A measurement without its label is the measurement in the unit under a text. -/
theorem exists_unlabelled_of_measurement? (h : v.measurement? = some k) :
    ∃ name, v.unlabelled = measurement ⟨k.value, k.unit.renamed name⟩ := by
  cases v with
  | measurement k' =>
    obtain rfl := Option.some.inj h
    exact ⟨k'.unit.name, rfl⟩
  | labelledMeasurement k' label =>
    obtain rfl := Option.some.inj h
    exact ⟨"", rfl⟩
  | _ => cases h

theorem number?_of_unit? (h : v.unit? = some u) : v.number? = none := by
  cases v with
  | unit _ | labelledUnit _ _ => rfl
  | _ => cases h

/-- Whether a value is a number, a unit or a measurement. -/
def isOperand (v : Value) : Bool :=
  v.number?.isSome || v.unit?.isSome || v.measurement?.isSome

theorem isOperand_of_number? (h : v.number? = some n) : v.isOperand = true := by
  simp [isOperand, h]

theorem isOperand_of_unit? (h : v.unit? = some u) : v.isOperand = true := by
  simp [isOperand, h]

theorem isOperand_of_measurement? (h : v.measurement? = some k) : v.isOperand = true := by
  simp [isOperand, h]

theorem isRepeatable_eq_false (h : v.isOperand = true) : v.isRepeatable = false := by
  cases v with
  | text _ | list _ | tuple _ => cases h
  | _ => rfl

/-- Numbers, units and measurements are multiplied as operands. -/
theorem mul_eq_withLabels (hv : v.isOperand = true) (hw : w.isOperand = true) :
    v.mul w = withLabels (liftOperands Operand.mul) productLabelOf v w := by
  unfold mul
  split
  · cases hv
  · rw [isRepeatable_eq_false hw, if_neg Bool.false_ne_true]
  · rw [isRepeatable_eq_false hv, if_neg Bool.false_ne_true]
  · rfl

theorem div_eq_withLabels (hv : v.isOperand = true) (w : Value) :
    v.div w = withLabels (liftOperands Operand.div) quotientLabelOf v w := by
  unfold div
  split
  · cases hv
  · rfl

theorem add_eq_liftSummands (hv : v.isOperand = true) (w : Value) :
    v.add w = liftSummands Operand.add v w := by
  unfold add
  split
  · cases hv
  · cases hv
  · cases hv
  · rfl

/-! ### Names of products and quotients -/

theorem productLabelOf_of_number?_eq_none (hv : v.number? = none) (hw : w.number? = none) :
    productLabelOf v w = v.label.productName w.label := by
  rw [productLabelOf, productLabel, hv, hw]

theorem quotientLabelOf_of_number?_eq_none (hv : v.number? = none) (hw : w.number? = none) :
    quotientLabelOf v w = v.label.quotientName w.label := by
  rw [quotientLabelOf, hv, hw]

/-! ### Units -/

theorem multiplyUnits_eq_mul (hv : v.unit? = some u) (hw : w.unit? = some u') :
    multiplyUnits v w = v.mul w := by
  obtain ⟨name, hname⟩ := exists_unlabelled_of_unit? hv
  obtain ⟨name', hname'⟩ := exists_unlabelled_of_unit? hw
  rw [mul_eq_withLabels (isOperand_of_unit? hv) (isOperand_of_unit? hw)]
  refine withLabels_congr ?_
    (productLabelOf_of_number?_eq_none (number?_of_unit? hv) (number?_of_unit? hw)).symm
  rw [hname, hname']
  rfl

theorem divideUnits_eq_div (hv : v.unit? = some u) (hw : w.unit? = some u') :
    divideUnits v w = v.div w := by
  obtain ⟨name, hname⟩ := exists_unlabelled_of_unit? hv
  obtain ⟨name', hname'⟩ := exists_unlabelled_of_unit? hw
  rw [div_eq_withLabels (isOperand_of_unit? hv)]
  refine withLabels_congr ?_
    (quotientLabelOf_of_number?_eq_none (number?_of_unit? hv) (number?_of_unit? hw)).symm
  rw [hname, hname']
  rfl

/-- The multiple of a unit under another name is that of the unit under some name. -/
theorem scaled_renamed (u : UnitOfMeasure) (name : String) (p : Rat) :
    ∃ name', (u.renamed name).scaled p = (·.renamed name') <$> u.scaled p := by
  rw [UnitOfMeasure.scaled, UnitOfMeasure.scaled, UnitOfMeasure.ofScale, UnitOfMeasure.ofScale]
  by_cases h : p * u.scale = 0
  · exact ⟨name, (dif_pos h).trans (by rw [dif_pos h]; rfl)⟩
  · exact ⟨_, (dif_neg h).trans (by rw [dif_neg h]; rfl)⟩

theorem eq_zeroScale_of_scaled {p : Rat} {e : Error} (h : u.scaled p = .error e) :
    e = .zeroScale := by
  rw [UnitOfMeasure.scaled, UnitOfMeasure.ofScale] at h
  split_ifs at h
  exact (Except.error.inj h).symm

/-- What a unit is called does not count when it is called otherwise. -/
theorem relabelled_unit (u : UnitOfMeasure) (name : String) (label : Value) :
    (unit (u.renamed name)).relabelled label = (unit u).relabelled label := by
  cases label <;> rfl

/-- A multiple of a unit with a label. -/
theorem withLabels_scaled (u : UnitOfMeasure) (label : Value) (hw : w.number? = some n) :
    withLabels (liftOperands Operand.mul) productLabelOf (labelledUnit u label) w =
      (do
        let p ← n.toRat
        let name ← label.multipleName p
        return (unit (← u.scaled p)).relabelled name) := by
  have hlabelled : ((labelledUnit u label).isLabelled || w.isLabelled) = true := rfl
  have hname : productLabelOf (labelledUnit u label) w = n.toRat >>= label.multipleName := by
    rw [productLabelOf, productLabel, hw]
    rfl
  have hlift : liftOperands Operand.mul (labelledUnit u label).unlabelled w.unlabelled =
      Operand.toValue <$> (n.toRat >>= fun p => .unit <$> (u.renamed "").scaled p) := by
    rw [unlabelled_of_number? hw, unlabelled, liftOperands, ofValue?_of_number? hw]
    rfl
  cases hn : n.toRat with
  | error e =>
    rw [hn] at hname hlift
    refine withLabels_of_error hlabelled hlift fun e' he' => ?_
    exact Except.error.inj (he'.symm.trans hname)
  | ok p =>
    rw [hn] at hname hlift
    -- Without its label the unit is called by no text, and the multiple is then named anew.
    obtain ⟨name', hscaled⟩ := scaled_renamed u "" p
    show _ = label.multipleName p >>= fun name => u.scaled p >>= fun v =>
      .ok ((unit v).relabelled name)
    have hlift' : liftOperands Operand.mul (labelledUnit u label).unlabelled w.unlabelled =
        (fun v => unit (v.renamed name')) <$> u.scaled p := by
      rw [hlift]
      show Operand.toValue <$> Operand.unit <$> (u.renamed "").scaled p = _
      rw [hscaled, ← comp_map, ← comp_map]
      rfl
    -- A scale of zero is refused by both only after the name has been composed.
    cases hu : u.scaled p with
    | error e =>
      obtain rfl := eq_zeroScale_of_scaled hu
      rw [hu] at hlift'
      rw [withLabels_of_zeroScale hlabelled hlift', hname]
      rfl
    | ok v =>
      rw [hu] at hlift'
      rw [withLabels_of_ok hlabelled hlift', hname]
      simp only [relabelled_unit]
      rfl

theorem scaleUnit_eq_mul (hv : v.unit? = some u) (hw : w.number? = some n) :
    scaleUnit v u w = v.mul w := by
  rw [mul_eq_withLabels (isOperand_of_unit? hv) (isOperand_of_number? hw), scaleUnit,
    toRat_of_number? hw]
  cases v with
  | unit u' =>
    obtain rfl := Option.some.inj hv
    rw [withLabels_of_unlabelled _ _ rfl (isLabelled_of_number? hw), liftOperands,
      ofValue?_of_number? hw]
    show _ = Operand.toValue <$> (n.toRat >>= fun p => .unit <$> u'.scaled p)
    cases n.toRat with
    | error e => rfl
    | ok p =>
      show unit <$> u'.scaled p = Operand.toValue <$> Operand.unit <$> u'.scaled p
      rw [← comp_map]
      rfl
  | labelledUnit u' label =>
    obtain rfl := Option.some.inj hv
    rw [withLabels_scaled u' label hw]
    rfl
  | _ => cases hv

/-! ### Measurements -/

section Measurements

variable {f : Measurement → Measurement → Outcome Measurement}
  (op : Operand → Operand → Outcome Operand)

/-- Operations on measurements are those on operands that are measurements. -/
theorem withMeasurements_eq
    (hop : ∀ a b, op (.measurement a) (.measurement b) = .measurement <$> f a b)
    (name : Value → Value → Outcome Value) (hv : v.measurement? = some k)
    (hw : w.measurement? = some k') :
    withMeasurements f name v w = withLabels (liftOperands op) name v w := by
  obtain ⟨s, hs⟩ := exists_unlabelled_of_measurement? hv
  obtain ⟨t, ht⟩ := exists_unlabelled_of_measurement? hw
  refine withLabels_congr ?_ rfl
  rw [hs, ht]
  show measurement <$> f _ _ = Operand.toValue <$> op (.measurement _) (.measurement _)
  rw [hop, ← comp_map]
  rfl

theorem withSummands_eq
    (hop : ∀ a b, op (.measurement a) (.measurement b) = .measurement <$> f a b)
    (hv : v.measurement? = some k) (hw : w.measurement? = some k') :
    withSummands f v w = liftSummands op v w := by
  rw [withSummands, liftSummands, withMeasurements_eq op hop firstLabelOf hv hw, asMeasurement,
    asMeasurement, hv, hw]
  rfl

end Measurements

theorem scaleMeasurement_eq_mul (hv : v.measurement? = some k) (hw : w.number? = some n) :
    scaleMeasurement v k w = v.mul w := by
  rw [mul_eq_withLabels (isOperand_of_measurement? hv) (isOperand_of_number? hw),
    scaleMeasurement, toRat_of_number? hw]
  cases v with
  | measurement k' =>
    obtain rfl := Option.some.inj hv
    rw [withLabels_of_unlabelled _ _ rfl (isLabelled_of_number? hw), liftOperands,
      ofValue?_of_number? hw]
    show _ = Operand.toValue <$> (n.toRat >>= fun p => .ok (.measurement (k'.scale p)))
    cases n.toRat <;> rfl
  | labelledMeasurement k' label =>
    obtain rfl := Option.some.inj hv
    have hlabelled : ((labelledMeasurement k' label).isLabelled || w.isLabelled) = true := rfl
    have hname : productLabelOf (labelledMeasurement k' label) w = .ok label := by
      rw [productLabelOf, productLabel, hw]
      rfl
    have hlift : liftOperands Operand.mul (labelledMeasurement k' label).unlabelled w.unlabelled =
        n.toRat >>= fun p => .ok (measurement ⟨p * k'.value, k'.unit.renamed ""⟩) := by
      rw [unlabelled_of_number? hw, unlabelled, liftOperands, ofValue?_of_number? hw]
      show Operand.toValue <$> (n.toRat >>= fun p => _) = _
      cases n.toRat <;> rfl
    cases hn : n.toRat with
    | error e =>
      rw [hn] at hlift
      exact (withLabels_of_error hlabelled hlift fun e' he' => nomatch hname.symm.trans he').symm
    | ok p =>
      rw [hn] at hlift
      rw [withLabels_of_ok hlabelled hlift, hname]
      cases label <;> rfl
  | _ => cases hv

/-! ### Numbers -/

/-- Numbers of the library and what stands for them are combined exactly. -/
theorem withLabels_rational {f : Rat → Rat → Outcome Rat} {g : Number → Number → Outcome Number}
    (op : Operand → Operand → Outcome Operand)
    (hop : ∀ a b, op (.number a) (.number b) = Operand.combine f g a b)
    (name : Value → Value → Outcome Value) (q : Rat) (hw : w.number? = some n) :
    withLabels (liftOperands op) name (rational q) w = withRat f q w := by
  rw [withLabels_of_unlabelled _ _ rfl (isLabelled_of_number? hw), liftOperands,
    ofValue?_of_number? hw, withRat, toRat_of_number? hw]
  show Operand.toValue <$> op (.number (.rational q)) (.number n) = _
  rw [hop]
  show Operand.toValue <$> (n.toRat >>= fun p => f q p >>= fun r => .ok (.number (.rational r))) =
    n.toRat >>= fun p => f q p >>= fun r => .ok (rational r)
  cases n.toRat with
  | error e => rfl
  | ok p =>
    show Operand.toValue <$> (f q p >>= fun r => .ok (.number (.rational r))) =
      f q p >>= fun r => .ok (rational r)
    cases f q p <;> rfl

theorem liftSummands_rational (op : Operand → Operand → Outcome Operand) (q : Rat) (w : Value) :
    liftSummands op (rational q) w = withLabels (liftOperands op) firstLabelOf (rational q) w :=
  rfl

/-! ### Reciprocals and powers -/

/-- The reciprocal of a unit is one divided by it. -/
theorem reciprocalOf_eq_div (hv : v.unit? = some u) : reciprocalOf v u = (integer 1).div v := by
  rw [div_eq_withLabels rfl]
  cases v with
  | unit u' =>
    obtain rfl := Option.some.inj hv
    rfl
  | labelledUnit u' label =>
    obtain rfl := Option.some.inj hv
    have hlabelled : ((integer 1).isLabelled || (labelledUnit u' label).isLabelled) = true := rfl
    have hlift :
        liftOperands Operand.div (integer 1).unlabelled (labelledUnit u' label).unlabelled =
          .ok (unit (u'.renamed "").reciprocal) := rfl
    have hname : quotientLabelOf (integer 1) (labelledUnit u' label) = label.reciprocalName := by
      show (label.reciprocalName >>= fun name => .ok name) = label.reciprocalName
      cases label.reciprocalName <;> rfl
    have hrelabelled (name : Value) : (unit (u'.renamed "").reciprocal).relabelled name =
        (unit u'.reciprocal).relabelled name :=
      relabelled_unit u'.reciprocal _ name
    rw [withLabels_of_ok hlabelled hlift, hname]
    simp only [hrelabelled]
    rfl
  | _ => cases hv

/-- An integer power of a unit. -/
theorem powerOfUnit_eq_power (hv : v.unit? = some u) (n : Int) :
    powerOfUnit v (integer n) = v.power (integer n) := by
  cases v with
  | unit _ | labelledUnit _ _ => rfl
  | _ => cases hv

/-! ### Values of expressions -/

theorem toUnit_ofQuantity (q : Quantity) (allowNumbers : Value) :
    (ofQuantity q).toUnit allowNumbers = unit <$> q.toUnit allowNumbers.isTrue := by
  cases q with
  | unit u => rfl
  | measurement m => rfl
  | number q =>
    cases hallow : allowNumbers.isTrue with
    | true =>
      show (if allowNumbers.isTrue then _ else _) = _
      rw [hallow]
      rfl
    | false =>
      show (if allowNumbers.isTrue then _ else _) = _
      rw [hallow]
      rfl

theorem toPureNumber_ofQuantity (q : Quantity) :
    (ofQuantity q).toPureNumber = rational <$> q.toNumber := by
  cases q with
  | number q => rfl
  | unit u =>
    show (if u.isDimensionless then _ else _) = rational <$> if u.isDimensionless then _ else _
    split_ifs
    · show Except.ok (rational u.scale) = .ok (rational (1 * u.scale))
      rw [Rat.one_mul]
    · rfl
  | measurement m =>
    show (if m.unit.isDimensionless then _ else _) =
      rational <$> if m.unit.isDimensionless then _ else _
    split_ifs <;> rfl

/-! ### Operations that are operators -/

/-- Which operator an operation is that a value offers by name, given both operands. -/
inductive IsOperator : Member → (Value → Value → Outcome Value) → Value → Value → Prop
  | addNumbers (q : Rat) {w : Value} (hw : w.number?.isSome) : IsOperator .add add (rational q) w
  | subNumbers (q : Rat) {w : Value} (hw : w.number?.isSome) : IsOperator .sub sub (rational q) w
  | mulNumbers (q : Rat) {w : Value} (hw : w.number?.isSome) : IsOperator .mul mul (rational q) w
  | divNumbers (q : Rat) {w : Value} (hw : w.number?.isSome) : IsOperator .div div (rational q) w
  | scaleUnit {v w : Value} (hv : v.unit?.isSome) (hw : w.number?.isSome) :
    IsOperator .scaled mul v w
  | multiplyUnits {v w : Value} (hv : v.unit?.isSome) (hw : w.unit?.isSome) :
    IsOperator .multiply mul v w
  | divideUnits {v w : Value} (hv : v.unit?.isSome) (hw : w.unit?.isSome) :
    IsOperator .divide div v w
  | scaleMeasurement {v w : Value} (hv : v.measurement?.isSome) (hw : w.number?.isSome) :
    IsOperator .scale mul v w
  | multiplyMeasurements {v w : Value} (hv : v.measurement?.isSome) (hw : w.measurement?.isSome) :
    IsOperator .multiply mul v w
  | divideMeasurements {v w : Value} (hv : v.measurement?.isSome) (hw : w.measurement?.isSome) :
    IsOperator .divide div v w
  | addMeasurements {v w : Value} (hv : v.measurement?.isSome) (hw : w.measurement?.isSome) :
    IsOperator .add add v w
  | subtractMeasurements {v w : Value} (hv : v.measurement?.isSome) (hw : w.measurement?.isSome) :
    IsOperator .subtract sub v w

theorem call_of_unit? (h : v.unit? = some u) {m : Member} {f : Value → Outcome Value}
    (hoffer : offerOfUnit v u m = some (Offer.unary f)) :
    v.call m [w] = MonadExcept.ofExcept (f w) := by
  have hv : v.offer m = offerOfUnit v u m := by
    cases v with
    | unit _ | labelledUnit _ _ =>
      obtain rfl := Option.some.inj h
      rfl
    | _ => cases h
  rw [call, hv, hoffer]
  rfl

theorem call_of_measurement? (h : v.measurement? = some k) {m : Member} {f : Value → Outcome Value}
    (hoffer : offerOfMeasurement v k m = some (Offer.unary f)) :
    v.call m [w] = MonadExcept.ofExcept (f w) := by
  have hv : v.offer m = offerOfMeasurement v k m := by
    cases v with
    | measurement _ | labelledMeasurement _ _ =>
      obtain rfl := Option.some.inj h
      rfl
    | _ => cases h
  rw [call, hv, hoffer]
  rfl

/-- **Operations are operators**: an operation that is called by name gives what the operator gives,
with units that are called by texts and with units that are not. -/
theorem call_of_isOperator {m : Member} {op : Value → Value → Outcome Value}
    (h : IsOperator m op v w) : v.call m [w] = MonadExcept.ofExcept (op v w) := by
  cases h with
  | addNumbers q hw =>
    obtain ⟨n, hw⟩ := Option.isSome_iff_exists.mp hw
    rw [add_eq_liftSummands rfl, liftSummands_rational,
      withLabels_rational Operand.add (fun _ _ => rfl) firstLabelOf q hw]
    rfl
  | subNumbers q hw =>
    obtain ⟨n, hw⟩ := Option.isSome_iff_exists.mp hw
    rw [sub, liftSummands_rational,
      withLabels_rational Operand.sub (fun _ _ => rfl) firstLabelOf q hw]
    rfl
  | mulNumbers q hw =>
    obtain ⟨n, hw⟩ := Option.isSome_iff_exists.mp hw
    rw [mul_eq_withLabels rfl (isOperand_of_number? hw),
      withLabels_rational Operand.mul (fun _ _ => rfl) productLabelOf q hw]
    rfl
  | divNumbers q hw =>
    obtain ⟨n, hw⟩ := Option.isSome_iff_exists.mp hw
    rw [div_eq_withLabels rfl,
      withLabels_rational Operand.div (fun _ _ => rfl) quotientLabelOf q hw]
    rfl
  | scaleUnit hv hw =>
    obtain ⟨u, hv⟩ := Option.isSome_iff_exists.mp hv
    obtain ⟨n, hw⟩ := Option.isSome_iff_exists.mp hw
    rw [call_of_unit? hv rfl, scaleUnit_eq_mul hv hw]
  | multiplyUnits hv hw =>
    obtain ⟨u, hv⟩ := Option.isSome_iff_exists.mp hv
    obtain ⟨u', hw⟩ := Option.isSome_iff_exists.mp hw
    rw [call_of_unit? hv rfl, multiplyUnits_eq_mul hv hw]
  | divideUnits hv hw =>
    obtain ⟨u, hv⟩ := Option.isSome_iff_exists.mp hv
    obtain ⟨u', hw⟩ := Option.isSome_iff_exists.mp hw
    rw [call_of_unit? hv rfl, divideUnits_eq_div hv hw]
  | scaleMeasurement hv hw =>
    obtain ⟨k, hv⟩ := Option.isSome_iff_exists.mp hv
    obtain ⟨n, hw⟩ := Option.isSome_iff_exists.mp hw
    rw [call_of_measurement? hv rfl, scaleMeasurement_eq_mul hv hw]
  | multiplyMeasurements hv hw =>
    obtain ⟨k, hv⟩ := Option.isSome_iff_exists.mp hv
    obtain ⟨k', hw⟩ := Option.isSome_iff_exists.mp hw
    rw [call_of_measurement? hv rfl, mul_eq_withLabels (isOperand_of_measurement? hv)
      (isOperand_of_measurement? hw), withMeasurements_eq Operand.mul (fun _ _ => rfl) _ hv hw]
  | divideMeasurements hv hw =>
    obtain ⟨k, hv⟩ := Option.isSome_iff_exists.mp hv
    obtain ⟨k', hw⟩ := Option.isSome_iff_exists.mp hw
    rw [call_of_measurement? hv rfl, div_eq_withLabels (isOperand_of_measurement? hv),
      withMeasurements_eq Operand.div (fun _ _ => rfl) _ hv hw]
  | addMeasurements hv hw =>
    obtain ⟨k, hv⟩ := Option.isSome_iff_exists.mp hv
    obtain ⟨k', hw⟩ := Option.isSome_iff_exists.mp hw
    rw [call_of_measurement? hv rfl, add_eq_liftSummands (isOperand_of_measurement? hv),
      withSummands_eq Operand.add (fun _ _ => rfl) hv hw]
  | subtractMeasurements hv hw =>
    obtain ⟨k, hv⟩ := Option.isSome_iff_exists.mp hv
    obtain ⟨k', hw⟩ := Option.isSome_iff_exists.mp hw
    rw [call_of_measurement? hv rfl, sub, withSummands_eq Operand.sub (fun _ _ => rfl) hv hw]

end Value

end Calculator

end Metrology
