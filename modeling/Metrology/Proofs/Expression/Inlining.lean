import Metrology.Proofs.Expression.Evaluation

/-!
# Names and what they stand for

To give an expression a name and to use the name is the same as to write the expression there.
The two evaluations meet values of different kinds, a unit on the one side and perhaps a number or
a measurement on the other, but of the same amount, and amounts are all that an operation goes by
(`SameAmount.bind` with `mul_congr`, `div_congr`, `pow_congr`).  Exponents are the exception: what
stands there has to be a bare number, which no unit is.

* `eval_substitute`: writing an expression for a name is looking its value up under the name.
* `eval_sameAmount`: names whose values have the same amounts give values of the same amount, where
  exponents have the same names.
* `Replaces.sameAmount`: an expression of the amount of a name may stand in any of its places that
  are in no exponent.
* `eval_named_sameAmount`: the main result.
-/

namespace Metrology

/-- Whether two outcomes are values of the same amount or failures of the same kind. -/
inductive SameAmount : Outcome Quantity → Outcome Quantity → Prop
  | ok {a b : Quantity} (h : a.amount = b.amount) : SameAmount (.ok a) (.ok b)
  | error {e f : Error} (h : e.kind = f.kind) : SameAmount (.error e) (.error f)

namespace SameAmount

theorem refl (x : Outcome Quantity) : SameAmount x x := by
  cases x with
  | ok a => exact .ok rfl
  | error e => exact .error rfl

theorem bind {x y : Outcome Quantity} {f g : Quantity → Outcome Quantity} (h : SameAmount x y)
    (hfg : ∀ a b, a.amount = b.amount → SameAmount (f a) (g b)) :
    SameAmount (x >>= f) (y >>= g) := by
  cases h with
  | ok h => exact hfg _ _ h
  | error h => exact .error h

end SameAmount

namespace Quantity

variable {a a' b b' : Quantity}

/-! ### Operations go by amounts -/

theorem neg_congr (h : a.amount = a'.amount) : a.neg.amount = a'.neg.amount := by
  obtain ⟨hmagnitude, hdim⟩ := amount_eq_iff.mp h
  rw [amount_eq_iff, magnitude_neg, magnitude_neg, dim_neg, dim_neg, hmagnitude]
  exact ⟨rfl, hdim⟩

theorem mul_congr (ha : a.amount = a'.amount) (hb : b.amount = b'.amount) :
    (a.mul b).amount = (a'.mul b').amount := by
  obtain ⟨hleft, hdimLeft⟩ := amount_eq_iff.mp ha
  obtain ⟨hright, hdimRight⟩ := amount_eq_iff.mp hb
  rw [amount_eq_iff, magnitude_mul, magnitude_mul, hleft, hright]
  refine ⟨rfl, Dimension.ext_exponent fun p => ?_⟩
  rw [exponent_mul, exponent_mul, hdimLeft, hdimRight]

theorem div_congr (ha : a.amount = a'.amount) (hb : b.amount = b'.amount) :
    SameAmount (a.div b) (a'.div b') := by
  obtain ⟨hleft, hdimLeft⟩ := amount_eq_iff.mp ha
  obtain ⟨hright, hdimRight⟩ := amount_eq_iff.mp hb
  by_cases hzero : b.magnitude = 0
  · obtain ⟨e, he, hkind⟩ := a.div_eq_error hzero
    obtain ⟨e', he', hkind'⟩ := a'.div_eq_error (hright ▸ hzero)
    rw [he, he']
    exact .error (hkind.trans hkind'.symm)
  · obtain ⟨v, hv, hquotient⟩ := a.div_eq_ok hzero
    obtain ⟨v', hv', hquotient'⟩ := a'.div_eq_ok (hright ▸ hzero)
    rw [hv, hv']
    refine .ok (amount_eq_iff.mpr ⟨?_, Dimension.ext_exponent fun p => ?_⟩)
    · rw [hquotient.magnitude, hquotient'.magnitude, hleft, hright]
    · rw [hquotient.exponent, hquotient'.exponent, hdimLeft, hdimRight]

/-- A power goes by the amount of its base, but by more than the amount of its exponent. -/
theorem pow_congr (ha : a.amount = a'.amount) (x : Quantity) :
    SameAmount (a.pow x) (a'.pow x) := by
  obtain ⟨hbase, hdim⟩ := amount_eq_iff.mp ha
  by_cases hx : x.isNumber = true ∧ ∃ n : Int, x.magnitude = n
  · obtain ⟨hnumber, n, hn⟩ := hx
    rw [Expression.eq_number_of_isNumber hnumber hn]
    by_cases hzero : n < 0 ∧ a.magnitude = 0
    · obtain ⟨e, he, hkind⟩ := pow_eq_error hzero.1 hzero.2
      obtain ⟨e', he', hkind'⟩ := pow_eq_error hzero.1 (hbase ▸ hzero.2)
      rw [he, he']
      exact .error (hkind.trans hkind'.symm)
    · obtain ⟨v, hv, hpower⟩ := a.pow_eq_ok hzero
      obtain ⟨v', hv', hpower'⟩ := a'.pow_eq_ok (hbase ▸ hzero)
      rw [hv, hv']
      refine .ok (amount_eq_iff.mpr ⟨?_, Dimension.ext_exponent fun p => ?_⟩)
      · rw [hpower.magnitude, hpower'.magnitude, hbase]
      · rw [hpower.exponent, hpower'.exponent, hdim]
  · obtain ⟨e, he, hkind⟩ := a.pow_eq_error_of_not_integer hx
    obtain ⟨e', he', hkind'⟩ := a'.pow_eq_error_of_not_integer hx
    rw [he, he']
    exact .error (hkind.trans hkind'.symm)

end Quantity

namespace Expression

variable {r s : String → Outcome Quantity} {n : String}

/-! ### Names in expressions -/

/-- Whether a name stands in an expression. -/
def Mentions (x : String) : Expression → Prop
  | number _ => False
  | name text => text = x
  | neg e => e.Mentions x
  | pow base exponent => base.Mentions x ∨ exponent.Mentions x
  | mul left right => left.Mentions x ∨ right.Mentions x
  | div left right => left.Mentions x ∨ right.Mentions x

/-- Whether a name stands in an exponent of an expression. -/
def MentionsInExponent (x : String) : Expression → Prop
  | number _ | name _ => False
  | neg e => e.MentionsInExponent x
  | pow base exponent => base.MentionsInExponent x ∨ exponent.Mentions x
  | mul left right => left.MentionsInExponent x ∨ right.MentionsInExponent x
  | div left right => left.MentionsInExponent x ∨ right.MentionsInExponent x

/-- An expression with another one in the place of a name. -/
def substitute (q : Expression) (n : String) (e : Expression) : Expression :=
  match q with
  | number q => number q
  | name text => if text = n then e else name text
  | neg f => neg (f.substitute n e)
  | pow base exponent => pow (base.substitute n e) (exponent.substitute n e)
  | mul left right => mul (left.substitute n e) (right.substitute n e)
  | div left right => div (left.substitute n e) (right.substitute n e)

/-- Only the names that stand in an expression count. -/
theorem eval_congr {q : Expression} (h : ∀ x, q.Mentions x → r x = s x) :
    q.eval r = q.eval s := by
  induction q with
  | number q => rfl
  | name text => exact h text rfl
  | neg e ih => rw [eval_neg, eval_neg, ih h]
  | pow base exponent ihb ihe =>
    rw [eval_pow, eval_pow, ihb fun x hx => h x (.inl hx), ihe fun x hx => h x (.inr hx)]
  | mul left right ihl ihr =>
    rw [eval_mul, eval_mul, ihl fun x hx => h x (.inl hx), ihr fun x hx => h x (.inr hx)]
  | div left right ihl ihr =>
    rw [eval_div, eval_div, ihl fun x hx => h x (.inl hx), ihr fun x hx => h x (.inr hx)]

/-- To write an expression for a name is to look its value up under the name. -/
theorem eval_substitute (r : String → Outcome Quantity) (n : String) (e q : Expression) :
    (q.substitute n e).eval r = q.eval (Function.update r n (e.eval r)) := by
  induction q with
  | number q => rfl
  | name text =>
    show (if text = n then e else name text).eval r = Function.update r n (e.eval r) text
    by_cases htext : text = n
    · rw [if_pos htext, htext, Function.update_self]
    · rw [if_neg htext, Function.update_of_ne htext]
      rfl
  | neg f ih => rw [substitute, eval_neg, eval_neg, ih]
  | pow base exponent ihb ihe => rw [substitute, eval_pow, eval_pow, ihb, ihe]
  | mul left right ihl ihr => rw [substitute, eval_mul, eval_mul, ihl, ihr]
  | div left right ihl ihr => rw [substitute, eval_div, eval_div, ihl, ihr]

/-! ### One operation on both sides -/

section

variable {e e' left left' right right' : Expression}

theorem sameAmount_neg (h : SameAmount (e.eval r) (e'.eval s)) :
    SameAmount ((neg e).eval r) ((neg e').eval s) := by
  rw [eval_neg, eval_neg]
  exact h.bind fun a b hab => .ok (Quantity.neg_congr hab)

/-- An exponent has to have the very same value on both sides. -/
theorem sameAmount_pow (hbase : SameAmount (left.eval r) (left'.eval s))
    (hexponent : right.eval r = right'.eval s) :
    SameAmount ((pow left right).eval r) ((pow left' right').eval s) := by
  rw [eval_pow, eval_pow, hexponent]
  refine hbase.bind fun a b hab => ?_
  cases right'.eval s with
  | ok x => exact Quantity.pow_congr hab x
  | error e => exact .error rfl

theorem sameAmount_mul (hleft : SameAmount (left.eval r) (left'.eval s))
    (hright : SameAmount (right.eval r) (right'.eval s)) :
    SameAmount ((mul left right).eval r) ((mul left' right').eval s) := by
  rw [eval_mul, eval_mul]
  refine hleft.bind fun a b hab => hright.bind fun c d hcd => ?_
  exact .ok (Quantity.mul_congr hab hcd)

theorem sameAmount_div (hleft : SameAmount (left.eval r) (left'.eval s))
    (hright : SameAmount (right.eval r) (right'.eval s)) :
    SameAmount ((div left right).eval r) ((div left' right').eval s) := by
  rw [eval_div, eval_div]
  exact hleft.bind fun a b hab => hright.bind fun c d hcd => Quantity.div_congr hab hcd

end

/-- Names whose values have the same amounts give values of the same amount. -/
theorem eval_sameAmount (hnames : ∀ x, SameAmount (r x) (s x)) {q : Expression}
    (hexponents : ∀ x, q.MentionsInExponent x → r x = s x) : SameAmount (q.eval r) (q.eval s) := by
  induction q with
  | number q => exact .refl _
  | name text => exact hnames text
  | neg e ih => exact sameAmount_neg (ih hexponents)
  | pow base exponent ihb ihe =>
    -- An exponent has the same names on both sides, and so the very same value.
    have hexponent : exponent.eval r = exponent.eval s :=
      eval_congr fun x hx => hexponents x (.inr hx)
    exact sameAmount_pow (ihb fun x hx => hexponents x (.inl hx)) hexponent
  | mul left right ihl ihr =>
    have hleft := ihl fun x hx => hexponents x (.inl hx)
    have hright := ihr fun x hx => hexponents x (.inr hx)
    exact sameAmount_mul hleft hright
  | div left right ihl ihr =>
    have hleft := ihl fun x hx => hexponents x (.inl hx)
    have hright := ihr fun x hx => hexponents x (.inr hx)
    exact sameAmount_div hleft hright

/-! ### Some of the places of a name -/

/-- Whether one expression is another with `e` in the place of some occurrences of a name, none of
them in an exponent. -/
inductive Replaces (x : String) (e : Expression) : Expression → Expression → Prop
  | refl (q : Expression) : Replaces x e q q
  | leaf : Replaces x e (name x) e
  | neg {q q' : Expression} (h : Replaces x e q q') : Replaces x e (neg q) (neg q')
  | pow {q q' : Expression} (h : Replaces x e q q') (exponent : Expression) :
    Replaces x e (pow q exponent) (pow q' exponent)
  | mul {q q' p p' : Expression} (hq : Replaces x e q q') (hp : Replaces x e p p') :
    Replaces x e (mul q p) (mul q' p')
  | div {q q' p p' : Expression} (hq : Replaces x e q q') (hp : Replaces x e p p') :
    Replaces x e (div q p) (div q' p')

/-- What has the amount of a name may stand for it wherever that is no exponent. -/
theorem Replaces.sameAmount {x : String} {e q q' : Expression} (h : Replaces x e q q')
    (hx : SameAmount (r x) (e.eval r)) : SameAmount (q.eval r) (q'.eval r) := by
  induction h with
  | refl q => exact .refl _
  | leaf => exact hx
  | neg _ ih => exact sameAmount_neg ih
  | pow _ exponent ih => exact sameAmount_pow ih rfl
  | mul _ _ ihq ihp => exact sameAmount_mul ihq ihp
  | div _ _ ihq ihp => exact sameAmount_div ihq ihp

/-! ### Names for expressions -/

/-- **A name does what its expression does**: a name may stand for the unit that an expression is
taken for, or the expression may stand there itself; where the name stands in no exponent, both give
a value of the same magnitude and dimension, or both fail, in the same way. -/
theorem eval_named_sameAmount {e q : Expression} {v : Quantity} {allowNumbers : Bool}
    {u : UnitOfMeasure} (hv : e.eval r = .ok v) (hu : v.toUnit allowNumbers = .ok u)
    (hn : ¬ q.MentionsInExponent n) :
    (∃ a b, q.eval (Function.update r n (.ok (.unit (u.renamed n)))) = .ok a ∧
      (q.substitute n e).eval r = .ok b ∧ a.magnitude = b.magnitude ∧ a.dim = b.dim) ∨
    ∃ x y, q.eval (Function.update r n (.ok (.unit (u.renamed n)))) = .error x ∧
      (q.substitute n e).eval r = .error y ∧ x.kind = y.kind := by
  obtain ⟨hscale, hdim⟩ := Quantity.amount_of_toUnit hu
  have hamount : (Quantity.unit (u.renamed n)).amount = v.amount :=
    Quantity.amount_eq_iff.mpr ⟨hscale, hdim⟩
  have hnames (x : String) : SameAmount (Function.update r n (.ok (.unit (u.renamed n))) x)
      (Function.update r n (e.eval r) x) := by
    by_cases hx : x = n
    · rw [hx, Function.update_self, Function.update_self, hv]
      exact .ok hamount
    · rw [Function.update_of_ne hx, Function.update_of_ne hx]
      exact .refl _
  have hexponents (x : String) (hx : q.MentionsInExponent x) :
      Function.update r n (.ok (.unit (u.renamed n))) x = Function.update r n (e.eval r) x := by
    have hne : x ≠ n := by
      rintro rfl
      exact hn hx
    rw [Function.update_of_ne hne, Function.update_of_ne hne]
  have hsame := eval_sameAmount hnames hexponents
  rw [← eval_substitute] at hsame
  generalize q.eval (Function.update r n (.ok (.unit (u.renamed n)))) = first at hsame ⊢
  generalize (q.substitute n e).eval r = second at hsame ⊢
  cases hsame with
  | ok h => exact .inl ⟨_, _, rfl, rfl, Quantity.amount_eq_iff.mp h⟩
  | error h => exact .inr ⟨_, _, rfl, rfl, h⟩

/-- A pace of three metres is squared under its name as it is where its metres are written out. -/
theorem eval_named_sameAmount_pace :
    let m := UnitOfMeasure.ofPrimitive ⟨0, "length"⟩ "m"
    let r : String → Outcome Quantity :=
      Function.update (fun x => .error (.unknownUnit x)) "m" (.ok (.unit m))
    let pace := mul (number 3) (name "m")
    let area := pow (name "pace") (number 2)
    ∃ v u, pace.eval r = .ok v ∧ v.toUnit true = .ok u ∧
      ∃ a b, area.eval (Function.update r "pace" (.ok (.unit (u.renamed "pace")))) = .ok a ∧
        (area.substitute "pace" pace).eval r = .ok b ∧ a.magnitude = b.magnitude ∧
        a.dim = b.dim := by
  intro m r pace area
  have hv : pace.eval r = .ok (.measurement ⟨3, m⟩) := by decide +kernel
  have hunit : (Quantity.measurement ⟨3, m⟩).toUnit true = .ok ⟨m.dim, 3, "3·m", by decide⟩ := by
    decide +kernel
  have hexponent : ¬ area.MentionsInExponent "pace" := by
    rintro (h | h)
    · exact h
    · exact h
  refine ⟨_, _, hv, hunit, ?_⟩
  rcases eval_named_sameAmount hv hunit hexponent with hvalues | ⟨x, y, -, hy, -⟩
  · exact hvalues
  · have hok : ((area.substitute "pace" pace).eval r).isOk = true := by decide +kernel
    rw [hy] at hok
    cases hok

end Expression

end Metrology
