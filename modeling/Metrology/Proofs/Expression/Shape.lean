import Metrology.Proofs.Expression.Evaluation

/-!
# The kind of a value

Whether the value of an expression is a number, a unit or a measurement is decided by its shape,
that is by its parts outside exponents (`Expression.parts`): by its leaves, which are numbers and
names, and by whether anything is negated.  Products, quotients and powers of units are units and
those of numbers are numbers, so that a product or a quotient is of one of these kinds just if both
operands are (`Quantity.isNumber_mul`, `Quantity.isUnit_mul`, `Quantity.isUnit_of_div`).  Only the
opposite of a unit is no unit any more (`Quantity.isUnit_neg`).

* `isNumber_iff_isNumeric`: a value is a number where all leaves are.
* `isUnit_iff_isUnital`: a value is a unit where all leaves are units and nothing is negated.
* `eval_kind_iff`: hence a value is a measurement in all other cases.
-/

namespace Metrology

namespace Quantity

variable {a b v x : Quantity}

/-- Whether a value is a unit. -/
def isUnit : Quantity → Bool
  | unit _ => true
  | number _ | measurement _ => false

theorem isNumber_eq_true_iff : v.isNumber = true ↔ ∃ q, v = .number q := by
  cases v <;> simp [isNumber]

theorem isUnit_eq_true_iff : v.isUnit = true ↔ ∃ u, v = .unit u := by
  cases v <;> simp [isUnit]

/-- A value that is neither a number nor a unit is a measurement. -/
theorem exists_measurement_iff :
    (∃ m, v = .measurement m) ↔ ¬ v.isNumber = true ∧ ¬ v.isUnit = true := by
  cases v <;> simp [isNumber, isUnit]

/-! ### What becomes of units -/

/-- What is made a measurement or a number is no unit. -/
theorem isUnit_of_map {α : Type} {f : α → Quantity} {y : Outcome α}
    (hf : ∀ z, (f z).isUnit = false) (h : f <$> y = .ok v) : v.isUnit = false := by
  cases y with
  | ok z =>
    obtain rfl := Except.ok.inj h
    exact hf z
  | error e => cases h

theorem isUnit_neg (v : Quantity) : v.neg.isUnit = false := by
  cases v <;> rfl

theorem isUnit_mul (a b : Quantity) : (a.mul b).isUnit = (a.isUnit && b.isUnit) := by
  cases a <;> cases b <;> rfl

theorem isUnit_of_div (h : a.div b = .ok v) : v.isUnit = (a.isUnit && b.isUnit) := by
  have hnumber (q : Rat) : (number q).isUnit = false := rfl
  have hmeasurement (m : Measurement) : (measurement m).isUnit = false := rfl
  cases a with
  | number p =>
    cases b with
    | number q => exact isUnit_of_map hnumber h
    | unit w => exact isUnit_of_map hmeasurement h
    | measurement n => exact isUnit_of_map hmeasurement h
  | unit u =>
    cases b with
    | number q => exact isUnit_of_map hmeasurement h
    | unit w =>
      obtain rfl := Except.ok.inj h
      rfl
    | measurement n => exact isUnit_of_map hmeasurement h
  | measurement m =>
    cases b <;> exact isUnit_of_map hmeasurement h

theorem isUnit_of_powInt {n : Int} (h : a.powInt n = .ok v) : v.isUnit = a.isUnit := by
  cases a with
  | number q => exact isUnit_of_map (fun _ => rfl) h
  | unit u =>
    obtain rfl := Except.ok.inj h
    rfl
  | measurement m => exact isUnit_of_map (fun _ => rfl) h

/-- A power is a unit if its base is, whatever its exponent. -/
theorem isUnit_of_pow (h : a.pow x = .ok v) : v.isUnit = a.isUnit := by
  cases x with
  | number q =>
    rw [pow] at h
    split_ifs at h
    exact isUnit_of_powInt h
  | unit u => cases h
  | measurement m => cases h

end Quantity

namespace Expression

variable {resolve : String → Outcome Quantity} {e base exponent left right : Expression}

/-! ### Parts outside exponents -/

/-- The parts of an expression that belong to no exponent, itself among them. -/
def parts : Expression → List Expression
  | number q => [number q]
  | name text => [name text]
  | neg e => neg e :: e.parts
  | pow base exponent => pow base exponent :: base.parts
  | mul left right => mul left right :: (left.parts ++ right.parts)
  | div left right => div left right :: (left.parts ++ right.parts)

/-- Whether an expression is a number or a name. -/
def isLeaf : Expression → Bool
  | number _ | name _ => true
  | neg _ | pow _ _ | mul _ _ | div _ _ => false

/-- Whether an expression is the opposite of another one. -/
def isNegation : Expression → Bool
  | neg _ => true
  | number _ | name _ | pow _ _ | mul _ _ | div _ _ => false

/-- Whether all leaves outside exponents are numbers or names of numbers. -/
def IsNumeric (resolve : String → Outcome Quantity) (e : Expression) : Prop :=
  ∀ p ∈ e.parts, p.isLeaf = true →
    (∃ q, p = number q) ∨ ∃ text q, p = name text ∧ resolve text = .ok (.number q)

/-- Whether all leaves outside exponents are names of units, and nothing is negated there. -/
def IsUnital (resolve : String → Outcome Quantity) (e : Expression) : Prop :=
  (∀ p ∈ e.parts, p.isLeaf = true → ∃ text u, p = name text ∧ resolve text = .ok (.unit u)) ∧
    ∀ p ∈ e.parts, p.isNegation = false

/-! ### Numbers -/

/-- An expression is bare where all of its leaves are. -/
theorem isBare_iff_isNumeric (e : Expression) : e.IsBare resolve ↔ e.IsNumeric resolve := by
  induction e with
  | number q => simp [IsBare, IsNumeric, parts]
  | name text => simp [IsBare, IsNumeric, parts, isLeaf]
  | neg e ih => simpa [IsBare, IsNumeric, parts, isLeaf] using ih
  | pow base exponent ihb _ => simpa [IsBare, IsNumeric, parts, isLeaf] using ihb
  | mul left right ihl ihr =>
    rw [IsBare, ihl, ihr]
    simp [IsNumeric, parts, isLeaf, or_imp, forall_and]
  | div left right ihl ihr =>
    rw [IsBare, ihl, ihr]
    simp [IsNumeric, parts, isLeaf, or_imp, forall_and]

theorem isNumber_iff_isNumeric {v : Quantity} (h : e.eval resolve = .ok v) :
    v.isNumber = true ↔ e.IsNumeric resolve :=
  (isNumber_iff_isBare h).trans (isBare_iff_isNumeric e)

/-! ### Units -/

theorem not_isUnital_number (q : Rat) : ¬ (number q).IsUnital resolve := by
  simp [IsUnital, parts, isLeaf]

theorem isUnital_name_iff {text : String} :
    (name text).IsUnital resolve ↔ ∃ u, resolve text = .ok (.unit u) := by
  simp [IsUnital, parts, isLeaf, isNegation]

theorem not_isUnital_neg (e : Expression) : ¬ (neg e).IsUnital resolve := by
  simp [IsUnital, parts, isNegation]

theorem isUnital_pow_iff : (pow base exponent).IsUnital resolve ↔ base.IsUnital resolve := by
  simp [IsUnital, parts, isLeaf, isNegation]

theorem isUnital_mul_iff :
    (mul left right).IsUnital resolve ↔ left.IsUnital resolve ∧ right.IsUnital resolve := by
  simp [IsUnital, parts, isLeaf, isNegation, or_imp, forall_and, and_and_and_comm]

theorem isUnital_div_iff :
    (div left right).IsUnital resolve ↔ left.IsUnital resolve ∧ right.IsUnital resolve := by
  simp [IsUnital, parts, isLeaf, isNegation, or_imp, forall_and, and_and_and_comm]

theorem isUnit_iff_isUnital {v : Quantity} (h : e.eval resolve = .ok v) :
    v.isUnit = true ↔ e.IsUnital resolve := by
  induction e generalizing v with
  | number q =>
    obtain rfl := Except.ok.inj h
    exact iff_of_false Bool.false_ne_true (not_isUnital_number q)
  | name text =>
    have hname : resolve text = .ok v := h
    rw [isUnital_name_iff, hname, Quantity.isUnit_eq_true_iff]
    simp
  | neg e _ =>
    rw [eval_neg] at h
    obtain ⟨a, -, hv⟩ := Outcome.bind_eq_ok_iff.mp h
    obtain rfl := Except.ok.inj hv
    rw [a.isUnit_neg]
    exact iff_of_false Bool.false_ne_true (not_isUnital_neg e)
  | pow base exponent ihb _ =>
    rw [eval_pow] at h
    obtain ⟨a, ha, h⟩ := Outcome.bind_eq_ok_iff.mp h
    obtain ⟨x, -, hv⟩ := Outcome.bind_eq_ok_iff.mp h
    rw [Quantity.isUnit_of_pow hv, isUnital_pow_iff]
    exact ihb ha
  | mul left right ihl ihr =>
    rw [eval_mul] at h
    obtain ⟨a, ha, h⟩ := Outcome.bind_eq_ok_iff.mp h
    obtain ⟨b, hb, hv⟩ := Outcome.bind_eq_ok_iff.mp h
    obtain rfl := Except.ok.inj hv
    rw [a.isUnit_mul, Bool.and_eq_true, isUnital_mul_iff]
    exact and_congr (ihl ha) (ihr hb)
  | div left right ihl ihr =>
    rw [eval_div] at h
    obtain ⟨a, ha, h⟩ := Outcome.bind_eq_ok_iff.mp h
    obtain ⟨b, hb, hv⟩ := Outcome.bind_eq_ok_iff.mp h
    rw [Quantity.isUnit_of_div hv, Bool.and_eq_true, isUnital_div_iff]
    exact and_congr (ihl ha) (ihr hb)

/-- The kind of a value is decided by the shape of its expression. -/
theorem eval_kind_iff {v : Quantity} (h : e.eval resolve = .ok v) :
    ((∃ q, v = .number q) ↔ e.IsNumeric resolve) ∧
    ((∃ u, v = .unit u) ↔ e.IsUnital resolve) ∧
    ((∃ m, v = .measurement m) ↔ ¬ e.IsNumeric resolve ∧ ¬ e.IsUnital resolve) := by
  rw [← Quantity.isNumber_eq_true_iff, ← Quantity.isUnit_eq_true_iff,
    Quantity.exists_measurement_iff, isNumber_iff_isNumeric h, isUnit_iff_isUnital h]
  exact ⟨Iff.rfl, Iff.rfl, Iff.rfl⟩

end Expression

end Metrology
