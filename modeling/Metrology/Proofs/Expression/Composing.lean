import Metrology.Proofs.Dimension.Group
import Metrology.Proofs.Expression.Evaluation
import Metrology.Proofs.Expression.Scanning

/-!
# Composing what is written

Derivations are composed as amounts are: a product is written with a star between two of them, a
quotient with a slash and one term behind it, a power with a caret and an integer behind an atom.
`Spells` says of a derivation, of any rule, what it writes and what it stands for, and the lemmas
below say how both come from the parts.

The factors of a product are folded to the left, so that in `a * b / c` no part stands for the
product or quotient of `b` and `c`.  Nevertheless the factors behind a first one multiply it by an
amount of their own, which does not depend on it (`Factors.fold_denotes`); hence the product of two
derivations is written without parentheses, whatever they are (`Product.Spells.times`).
-/

namespace Metrology

open Text

/-! ### Amounts -/

namespace Amount

/-- The amount of the number one. -/
def one : Amount := ⟨1, .dimensionless⟩

/-- The amount of a number. -/
def ofRat (q : Rat) : Amount := ⟨q, .dimensionless⟩

def mul (x y : Amount) : Amount := ⟨x.magnitude * y.magnitude, x.dim.mul y.dim⟩

def div (x y : Amount) : Amount := ⟨x.magnitude / y.magnitude, x.dim.div y.dim⟩

def pow (x : Amount) (n : Int) : Amount := ⟨x.magnitude ^ n, x.dim.pow n⟩

-- Every law of amounts holds of magnitudes and of dimensions, by one law of fields and groups.

protected theorem mul_one (x : Amount) : x.mul one = x :=
  Amount.ext (mul_one x.magnitude) (mul_one x.dim)

protected theorem one_mul (x : Amount) : one.mul x = x :=
  Amount.ext (one_mul x.magnitude) (one_mul x.dim)

protected theorem mul_assoc (x y z : Amount) : (x.mul y).mul z = x.mul (y.mul z) :=
  Amount.ext (mul_assoc x.magnitude y.magnitude z.magnitude) (mul_assoc x.dim y.dim z.dim)

theorem div_mul (x y z : Amount) : (x.div y).mul z = x.mul (z.div y) :=
  Amount.ext ((div_mul_eq_mul_div _ _ _).trans (mul_div_assoc x.magnitude z.magnitude y.magnitude))
    ((div_mul_eq_mul_div _ _ _).trans (mul_div_assoc x.dim z.dim y.dim))

theorem mul_self (x : Amount) : x.mul x = x.pow 2 :=
  Amount.ext (zpow_two x.magnitude).symm (zpow_two x.dim).symm

protected theorem pow_zero (x : Amount) : x.pow 0 = one :=
  Amount.ext (zpow_zero x.magnitude) (zpow_zero x.dim)

protected theorem pow_one (x : Amount) : x.pow 1 = x :=
  Amount.ext (zpow_one x.magnitude) (zpow_one x.dim)

protected theorem pow_mul (x : Amount) (m n : Int) : x.pow (m * n) = (x.pow m).pow n :=
  Amount.ext (zpow_mul x.magnitude m n) (zpow_mul x.dim m n)

end Amount

/-! ### What composed expressions stand for -/

namespace Expression

variable {resolve : String → Outcome Quantity} {e left right : Expression} {x y : Amount}

theorem Denotes.unique (hx : e.Denotes resolve x) (hy : e.Denotes resolve y) : x = y := by
  obtain ⟨v, hv, rfl⟩ := hx.eval_eq_ok
  obtain ⟨w, hw, rfl⟩ := hy.eval_eq_ok
  obtain rfl : v = w := Except.ok.inj (hv.symm.trans hw)
  rfl

theorem Denotes.mul_amount (hl : left.Denotes resolve x) (hr : right.Denotes resolve y) :
    (Expression.mul left right).Denotes resolve (x.mul y) :=
  hl.mul hr (x.dim.exponent_mul y.dim)

theorem Denotes.div_amount (hl : left.Denotes resolve x) (hr : right.Denotes resolve y)
    (hy : y.magnitude ≠ 0) : (Expression.div left right).Denotes resolve (x.div y) :=
  hl.div hr hy (x.dim.exponent_div y.dim)

theorem Denotes.pow_amount {n : Int} (hl : left.Denotes resolve x)
    (hr : right.Denotes resolve (.ofRat n)) (hbare : right.IsBare resolve)
    (hx : ¬ (n < 0 ∧ x.magnitude = 0)) : (Expression.pow left right).Denotes resolve (x.pow n) :=
  hl.pow hr hbare rfl hx (x.dim.exponent_pow n)

theorem Denotes.exists_of_mul {z : Amount}
    (h : (Expression.mul left right).Denotes resolve z) :
    ∃ x y, left.Denotes resolve x ∧ right.Denotes resolve y ∧ z = x.mul y := by
  cases h with
  | @mul _ _ x y d hl hr hd =>
    have hdim : d = x.dim.mul y.dim :=
      Dimension.ext_exponent fun p => (hd p).trans (x.dim.exponent_mul y.dim p).symm
    exact ⟨x, y, hl, hr, by rw [hdim]; rfl⟩

theorem Denotes.exists_of_div {z : Amount}
    (h : (Expression.div left right).Denotes resolve z) :
    ∃ x y, left.Denotes resolve x ∧ right.Denotes resolve y ∧ y.magnitude ≠ 0 ∧
      z = x.div y := by
  cases h with
  | @div _ _ x y d hl hr hy hd =>
    have hdim : d = x.dim.div y.dim :=
      Dimension.ext_exponent fun p => (hd p).trans (x.dim.exponent_div y.dim p).symm
    exact ⟨x, y, hl, hr, hy, by rw [hdim]; rfl⟩

theorem Denotes.exists_of_pow {z : Amount}
    (h : (Expression.pow left right).Denotes resolve z) :
    ∃ (x y : Amount) (n : Int), left.Denotes resolve x ∧ right.Denotes resolve y ∧
      y.magnitude = n ∧ ¬ (n < 0 ∧ x.magnitude = 0) ∧ z = x.pow n := by
  cases h with
  | @pow _ _ x y n d hl hr hbare hn hx hd =>
    have hdim : d = x.dim.pow n :=
      Dimension.ext_exponent fun p => (hd p).trans (x.dim.exponent_pow n p).symm
    exact ⟨x, y, n, hl, hr, hn, hx, by rw [hdim]; rfl⟩

end Expression

namespace Grammar

variable {resolve : String → Outcome Quantity}

/-- The factors behind a first one multiply it by an amount of their own. -/
theorem Factors.fold_denotes (fs : Factors) {e : Expression} {x : Amount}
    (h : (fs.fold e).Denotes resolve x) :
    ∃ y z, e.Denotes resolve y ∧ x = y.mul z ∧
      ∀ e' y', e'.Denotes resolve y' → (fs.fold e').Denotes resolve (y'.mul z) := by
  -- One more product is the product of the amounts, whatever is to the left of it.
  have hmul {factor : Expression} {rest : Factors} {e : Expression} {y z : Amount}
      (hy : (Expression.mul e factor).Denotes resolve y) (hx : x = y.mul z)
      (hrest : ∀ e' y', e'.Denotes resolve y' → (rest.fold e').Denotes resolve (y'.mul z)) :
      ∃ y z, e.Denotes resolve y ∧ x = y.mul z ∧ ∀ e' y', e'.Denotes resolve y' →
        (rest.fold (.mul e' factor)).Denotes resolve (y'.mul z) := by
    obtain ⟨a, b, ha, hb, rfl⟩ := hy.exists_of_mul
    refine ⟨a, b.mul z, ha, by rw [hx, Amount.mul_assoc], fun e' y' he' => ?_⟩
    rw [← Amount.mul_assoc]
    exact hrest _ _ (he'.mul_amount hb)
  match fs with
  | .done =>
    rw [Factors.fold] at h
    refine ⟨x, .one, h, x.mul_one.symm, fun e' y' he' => ?_⟩
    rwa [Factors.fold, y'.mul_one]
  | .joined .star factor rest =>
    rw [Factors.fold] at h
    obtain ⟨y, z, hy, hx, hrest⟩ := rest.fold_denotes h
    simp only [Factors.fold]
    exact hmul hy hx hrest
  | .joined .slash factor rest =>
    rw [Factors.fold] at h
    obtain ⟨y, z, hy, hx, hrest⟩ := rest.fold_denotes h
    obtain ⟨a, b, ha, hb, hne, rfl⟩ := hy.exists_of_div
    -- What is divided first and multiplied then is multiplied by a quotient.
    refine ⟨a, z.div b, ha, by rw [hx, Amount.div_mul], fun e' y' he' => ?_⟩
    rw [Factors.fold, ← Amount.div_mul]
    exact hrest _ _ (he'.div_amount hb hne)
  | .beside factor rest =>
    rw [Factors.fold] at h
    obtain ⟨y, z, hy, hx, hrest⟩ := rest.fold_denotes h
    simp only [Factors.fold]
    exact hmul hy hx hrest

/-! ### Further factors -/

/-- Factors with others behind them. -/
def Factors.append : Factors → Factors → Factors
  | .done, gs => gs
  | .joined sign factor rest, gs => .joined sign factor (rest.append gs)
  | .beside factor rest, gs => .beside factor (rest.append gs)

theorem Factors.lexemes_append (fs gs : Factors) :
    (fs.append gs).lexemes = fs.lexemes ++ gs.lexemes := by
  match fs with
  | .done => rw [append, Factors.lexemes, List.nil_append]
  | .joined sign factor rest =>
    rw [append, Factors.lexemes, Factors.lexemes, rest.lexemes_append gs, List.cons_append,
      List.append_assoc]
  | .beside factor rest =>
    rw [append, Factors.lexemes, Factors.lexemes, rest.lexemes_append gs, List.append_assoc]

theorem Factors.fold_append (fs gs : Factors) (e : Expression) :
    (fs.append gs).fold e = gs.fold (fs.fold e) := by
  match fs with
  | .done => rw [append, Factors.fold]
  | .joined sign factor rest => rw [append, Factors.fold, Factors.fold, rest.fold_append gs]
  | .beside factor rest => rw [append, Factors.fold, Factors.fold, rest.fold_append gs]

theorem Factors.isSpelled_append (fs gs : Factors) :
    (fs.append gs).IsSpelled ↔ fs.IsSpelled ∧ gs.IsSpelled := by
  match fs with
  | .done => rw [append, Factors.IsSpelled, true_and]
  | .joined sign factor rest =>
    rw [append, Factors.IsSpelled, Factors.IsSpelled, rest.isSpelled_append gs, and_assoc]
  | .beside factor rest => rw [append, Factors.IsSpelled, Factors.IsSpelled, false_and]

/-- The product of two products, written without parentheses. -/
def Product.times : Product → Product → Product
  | .mk first rest, .mk first' rest' => .mk first (rest.append (.joined .star first' rest'))

/-- The quotient of a product by a term, written without parentheses. -/
def Product.over : Product → Term → Product
  | .mk first rest, t => .mk first (rest.append (.joined .slash t .done))

/-! ### What a derivation writes and what it stands for -/

/-- Whether what is derived writes a text, without blanks and without factors side by side, and
stands for an amount. -/
structure Spells (resolve : String → Outcome Quantity) (isSpelled : Prop) (ls : List Lexeme)
    (e : Expression) (text : List Char) (x : Amount) : Prop where
  isSpelled : isSpelled
  text : ls.flatMap Lexeme.text = text
  denotes : e.Denotes resolve x

abbrev Atom.Spells (resolve : String → Outcome Quantity) (a : Atom) : List Char → Amount → Prop :=
  Grammar.Spells resolve a.IsSpelled a.lexemes a.tree

abbrev Term.Spells (resolve : String → Outcome Quantity) (t : Term) : List Char → Amount → Prop :=
  Grammar.Spells resolve t.IsSpelled t.lexemes t.tree

abbrev Product.Spells (resolve : String → Outcome Quantity) (p : Product) :
    List Char → Amount → Prop :=
  Grammar.Spells resolve p.IsSpelled p.lexemes p.tree

variable {text text' : List Char} {x y : Amount}

theorem Atom.spells_number {n : Numeral} (hn : n.IsPlain) :
    (Atom.number n).Spells resolve n.text (.ofRat n.value) := by
  refine ⟨by rwa [Atom.IsSpelled], ?_, ?_⟩
  · rw [Atom.lexemes, List.flatMap_singleton]
    rfl
  · rw [Atom.tree]
    exact .number n.value

theorem Atom.spells_name (hid : isIdentifier text = true) {v : Quantity}
    (hv : resolve (String.ofList text) = .ok v) :
    (Atom.name text).Spells resolve text v.amount := by
  refine ⟨by rwa [Atom.IsSpelled], ?_, ?_⟩
  · rw [Atom.lexemes, List.flatMap_singleton]
    rfl
  · rw [Atom.tree]
    exact .name hv

theorem Atom.spells_group {p : Product} (h : p.Spells resolve text x) :
    (Atom.group p).Spells resolve ('(' :: (text ++ [')'])) x := by
  refine ⟨by rw [Atom.IsSpelled]; exact h.isSpelled, ?_, by rw [Atom.tree]; exact h.denotes⟩
  rw [Atom.lexemes, List.flatMap_cons, List.flatMap_append, h.text, List.flatMap_singleton]
  rfl

theorem Atom.Spells.term {a : Atom} (h : a.Spells resolve text x) :
    (Term.power (.atom a)).Spells resolve text x := by
  refine ⟨?_, ?_, ?_⟩
  · rw [Term.IsSpelled, Power.IsSpelled]
    exact h.isSpelled
  · rw [Term.lexemes, Power.lexemes]
    exact h.text
  · rw [Term.tree, Power.tree]
    exact h.denotes

theorem Term.Spells.product {t : Term} (h : t.Spells resolve text x) :
    (Product.mk t .done).Spells resolve text x := by
  refine ⟨?_, ?_, ?_⟩
  · rw [Product.IsSpelled, Factors.IsSpelled]
    exact ⟨h.isSpelled, trivial⟩
  · rw [Product.lexemes, Factors.lexemes, List.append_nil]
    exact h.text
  · rw [Product.tree, Factors.fold]
    exact h.denotes

theorem Product.Spells.times {p q : Product} (hp : p.Spells resolve text x)
    (hq : q.Spells resolve text' y) :
    (p.times q).Spells resolve (text ++ '*' :: text') (x.mul y) := by
  obtain ⟨t, fs⟩ := p
  obtain ⟨u, gs⟩ := q
  obtain ⟨hps, hpt, hpd⟩ := hp
  obtain ⟨hqs, hqt, hqd⟩ := hq
  rw [Product.IsSpelled] at hps hqs
  rw [Product.tree] at hpd hqd
  refine ⟨?_, ?_, ?_⟩
  · rw [Product.times, Product.IsSpelled]
    refine ⟨hps.1, (Factors.isSpelled_append _ _).mpr ⟨hps.2, ?_⟩⟩
    rw [Factors.IsSpelled]
    exact hqs
  · rw [← hpt, ← hqt, Product.times, Product.lexemes, Product.lexemes, Product.lexemes,
      Factors.lexemes_append, Factors.lexemes]
    simp [Lexeme.text, FactorSign.operator, Operator.text]
  · -- The factors behind the second product multiply the product of the first and its first term.
    obtain ⟨y₀, z, hy₀, rfl, hfold⟩ := gs.fold_denotes hqd
    rw [Product.times, Product.tree, Factors.fold_append, Factors.fold, ← Amount.mul_assoc]
    exact hfold _ _ (hpd.mul_amount hy₀)

theorem Product.Spells.over {p : Product} {t : Term} (hp : p.Spells resolve text x)
    (ht : t.Spells resolve text' y) (hy : y.magnitude ≠ 0) :
    (p.over t).Spells resolve (text ++ '/' :: text') (x.div y) := by
  obtain ⟨u, fs⟩ := p
  obtain ⟨hps, hpt, hpd⟩ := hp
  rw [Product.IsSpelled] at hps
  rw [Product.tree] at hpd
  refine ⟨?_, ?_, ?_⟩
  · rw [Product.over, Product.IsSpelled]
    refine ⟨hps.1, (Factors.isSpelled_append _ _).mpr ⟨hps.2, ?_⟩⟩
    rw [Factors.IsSpelled, Factors.IsSpelled]
    exact ⟨ht.isSpelled, trivial⟩
  · rw [← hpt, ← ht.text, Product.over, Product.lexemes, Product.lexemes,
      Factors.lexemes_append, Factors.lexemes, Factors.lexemes]
    simp [Lexeme.text, FactorSign.operator, Operator.text]
  · rw [Product.over, Product.tree, Factors.fold_append, Factors.fold, Factors.fold]
    exact hpd.div_amount ht.denotes hy

/-- A text is read as the derivation that writes it. -/
theorem Product.Spells.ofText_eq {p : Product} (h : p.Spells resolve text x) :
    Expression.ofText (String.ofList text) = .ok p.tree := by
  rw [← h.text]
  exact Expression.ofText_spelled h.isSpelled

/-- A text stands for one amount only. -/
theorem Product.Spells.unique {p q : Product} (hp : p.Spells resolve text x)
    (hq : q.Spells resolve text y) : x = y := by
  have htree : p.tree = q.tree := Except.ok.inj (hp.ofText_eq.symm.trans hq.ofText_eq)
  have hq' := hq.denotes
  rw [← htree] at hq'
  exact hp.denotes.unique hq'

/-! ### Numbers and powers -/

/-- A term that is a number with or without a minus sign. -/
def Term.signed (negative : Bool) (n : Numeral) : Term :=
  if negative then .neg (.power (.atom (.number n))) else .power (.atom (.number n))

theorem Term.spells_signed {n : Numeral} (hn : n.IsPlain) (negative : Bool) :
    (Term.signed negative n).Spells resolve (Literal.signText negative ++ n.text)
      (.ofRat (Literal.withSign negative n.value)) := by
  have h : (Term.power (.atom (.number n))).Spells resolve n.text (.ofRat n.value) :=
    (Atom.spells_number hn).term
  cases negative with
  | false => exact h
  | true =>
    refine ⟨?_, ?_, ?_⟩
    · rw [Term.signed, if_pos rfl, Term.IsSpelled]
      exact h.isSpelled
    · rw [Term.signed, if_pos rfl, Term.lexemes, List.flatMap_cons, h.text]
      rfl
    · rw [Term.signed, if_pos rfl, Term.tree]
      exact h.denotes.neg

theorem Term.isBare_signed (negative : Bool) (n : Numeral) :
    (Term.signed negative n).tree.IsBare resolve := by
  cases negative <;> simp [Term.signed, Term.tree, Power.tree, Atom.tree, Expression.IsBare]

/-- The term that an integer is written as. -/
def Term.integer (n : Int) : Term := .signed (decide (n < 0)) (Decimal.numeral n.natAbs)

theorem Term.spells_integer (n : Int) :
    (Term.integer n).Spells resolve (toString n).toList (.ofRat n) := by
  have h : (Term.integer n).Spells resolve _ _ :=
    Term.spells_signed (Decimal.isPlain_numeral n.natAbs) (decide (n < 0))
  rwa [Decimal.text_numeral, Decimal.value_numeral, Literal.withSign_natAbs,
    ← Literal.toString_int_toList] at h

/-- An integer power of an atom. -/
def Term.raised (a : Atom) (n : Int) : Term := .power (.raised a .caret (.integer n))

theorem Term.spells_raised {a : Atom} (h : a.Spells resolve text x) (hx : x.magnitude ≠ 0)
    (n : Int) :
    (Term.raised a n).Spells resolve (text ++ '^' :: (toString n).toList) (x.pow n) := by
  have hn : (Term.integer n).Spells resolve (toString n).toList (.ofRat n) :=
    Term.spells_integer n
  refine ⟨?_, ?_, ?_⟩
  · rw [Term.raised, Term.IsSpelled, Power.IsSpelled]
    exact ⟨h.isSpelled, hn.isSpelled⟩
  · rw [Term.raised, Term.lexemes, Power.lexemes, List.flatMap_append, List.flatMap_cons, h.text,
      hn.text]
    rfl
  · rw [Term.raised, Term.tree, Power.tree]
    exact h.denotes.pow_amount hn.denotes (isBare_signed _ _) fun hzero => hx hzero.2

end Grammar

end Metrology
