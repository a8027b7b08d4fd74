import Metrology.Proofs.Expression.Composing

/-!
# What is written at the ends of an expression

A caret behind a text raises the last factor of the text alone, and a slash before it divides by its
first term alone, unless the text is put in parentheses.  For a text without parentheses this is
said of its tree: `Expression.withLast` and `Expression.withFirst` put another expression in the
place of the last factor or of the first term, and the other parts have an amount of their own,
which does not depend on it (`Denotes.exists_endsIn`, `Factors.fold_denotes`).

* `Product.exists_raised`: what a caret behind a text is read as.
* `Product.exists_base`: a text that ends in an exponent has an expression before it.
* `Product.exists_inverse`: what a slash before a text is read as.

In front of the caret the text has operands, stars and signs alone (`IsFlat`), so that this caret is
the first power sign.
-/

namespace Metrology

/-! ### Parts of a product of amounts -/

namespace Amount

variable {c x y : Amount} {n : Int}

/-- Raising one factor of two is raising both if the other is not changed by it. -/
theorem mul_pow_eq_iff (hc : c.magnitude ≠ 0) (hy : y.magnitude ≠ 0) :
    c.mul (y.pow n) = (c.mul y).pow n ↔ c.pow (n - 1) = one := by
  rw [Amount.ext_iff, Amount.ext_iff]
  refine and_congr ?_ ?_
  · show c.magnitude * y.magnitude ^ n = (c.magnitude * y.magnitude) ^ n ↔
      c.magnitude ^ (n - 1) = 1
    rw [mul_zpow, mul_left_inj' (zpow_ne_zero n hy), zpow_sub_one₀ hc, mul_inv_eq_one₀ hc, eq_comm]
  · show c.dim * y.dim ^ n = (c.dim * y.dim) ^ n ↔ c.dim ^ (n - 1) = 1
    rw [mul_zpow, mul_left_inj, zpow_sub_one, mul_inv_eq_one, eq_comm]

/-- Dividing by one factor of two is dividing by both if the other is its own reciprocal. -/
theorem div_mul_eq_iff (hx : x.magnitude ≠ 0) (hy : y.magnitude ≠ 0) :
    (one.div x).mul y = one.div (x.mul y) ↔ y.pow 2 = one := by
  rw [Amount.ext_iff, Amount.ext_iff]
  refine and_congr ?_ ?_
  · show 1 / x.magnitude * y.magnitude = 1 / (x.magnitude * y.magnitude) ↔
      y.magnitude ^ (2 : Int) = 1
    rw [one_div, one_div, mul_inv, mul_right_inj' (inv_ne_zero hx), ← mul_eq_one_iff_eq_inv₀ hy,
      zpow_two]
  · show 1 / x.dim * y.dim = 1 / (x.dim * y.dim) ↔ y.dim ^ (2 : Int) = 1
    rw [one_div, one_div, mul_inv, mul_right_inj, eq_inv_iff_mul_eq_one, zpow_two]

end Amount

/-! ### The ends of a tree -/

namespace Expression

/-- An expression with another one in the place of its last factor, behind the signs of that. -/
def withLast (e f : Expression) : Expression :=
  match e with
  | mul left right => mul left (right.withLast f)
  | neg e => neg (e.withLast f)
  | number _ | name _ | pow _ _ | div _ _ => f

/-- The last factor of an expression, without its signs. -/
def last : Expression → Expression
  | mul _ right => right.last
  | neg e => e.last
  | number q => number q
  | name text => name text
  | pow base exponent => pow base exponent
  | div left right => div left right

/-- An expression with another one in the place of its first term. -/
def withFirst (e f : Expression) : Expression :=
  match e with
  | mul left right => mul (left.withFirst f) right
  | div left right => div (left.withFirst f) right
  | number _ | name _ | neg _ | pow _ _ => f

variable {resolve : String → Outcome Quantity} {e f g : Expression} {x : Amount}

theorem withLast_withLast (e f g : Expression) :
    (e.withLast f).withLast g = e.withLast (f.withLast g) := by
  induction e with
  | number _ | name _ | pow _ _ | div _ _ => rfl
  | mul left right _ ih => exact congrArg (mul left) ih
  | neg e ih => exact congrArg neg ih

theorem last_withLast (e f : Expression) : (e.withLast f).last = f.last := by
  induction e with
  | number _ | name _ | pow _ _ | div _ _ => rfl
  | mul left right _ ih => exact ih
  | neg e ih => exact ih

/-- Whether the last factor of an expression stands for `y`, and what stands before it multiplies
every factor in its place by `c`. -/
structure EndsIn (resolve : String → Outcome Quantity) (e : Expression) (c y : Amount) :
    Prop where
  last : e.last.Denotes resolve y
  withLast : ∀ f z, f.Denotes resolve z → (e.withLast f).Denotes resolve (c.mul z)

/-- What stands before the last factor has an amount of its own. -/
theorem Denotes.exists_endsIn (h : e.Denotes resolve x) :
    ∃ c y : Amount, e.EndsIn resolve c y ∧ x = c.mul y := by
  have hself {e : Expression} {x : Amount} (hlast : e.last = e) (hwith : ∀ f, e.withLast f = f)
      (h : e.Denotes resolve x) : ∃ c y : Amount, e.EndsIn resolve c y ∧ x = c.mul y := by
    refine ⟨.one, x, ⟨by rwa [hlast], fun f z hz => ?_⟩, x.one_mul.symm⟩
    rwa [hwith, z.one_mul]
  induction e generalizing x with
  | number _ | name _ | pow _ _ | div _ _ => exact hself rfl (fun _ => rfl) h
  | mul left right _ ih =>
    obtain ⟨a, b, ha, hb, rfl⟩ := h.exists_of_mul
    obtain ⟨c, y, hends, rfl⟩ := ih hb
    refine ⟨a.mul c, y, ⟨hends.last, fun f z hz => ?_⟩, (a.mul_assoc c y).symm⟩
    rw [Amount.mul_assoc]
    exact ha.mul_amount (hends.withLast f z hz)
  | neg e ih =>
    cases h with
    | neg h =>
      obtain ⟨c, y, hends, rfl⟩ := ih h
      have hneg (z : Amount) : (⟨-(c.mul z).magnitude, (c.mul z).dim⟩ : Amount) =
          (⟨-c.magnitude, c.dim⟩ : Amount).mul z := Amount.ext (neg_mul _ _).symm rfl
      refine ⟨⟨-c.magnitude, c.dim⟩, y, ⟨hends.last, fun f z hz => ?_⟩, hneg y⟩
      rw [← hneg]
      exact (hends.withLast f z hz).neg

/-- Whether an expression may stand in an exponent, and writes an integer. -/
structure IsExponent (resolve : String → Outcome Quantity) (e : Expression) (n : Int) : Prop where
  isBare : e.IsBare resolve
  denotes : e.Denotes resolve (.ofRat n)

/-- An exponent behind the last factor raises this factor alone. -/
theorem EndsIn.raised {c y : Amount} {n : Int} (h : e.EndsIn resolve c y)
    (hf : f.IsExponent resolve n) (hy : y.magnitude ≠ 0) :
    (e.withLast (.pow e.last f)).Denotes resolve (c.mul (y.pow n)) :=
  h.withLast _ _ (h.last.pow_amount hf.denotes hf.isBare fun hzero => hy hzero.2)

/-- An exponent that is multiplied raises the last factor with its exponent. -/
theorem EndsIn.raised_mul {c y : Amount} {k n : Int}
    (h : (e.withLast (.pow e.last f)).EndsIn resolve c y) (hf : f.IsExponent resolve k)
    (hg : g.IsExponent resolve (k * n)) (hn : 0 ≤ n) :
    (e.withLast (.pow e.last g)).Denotes resolve (c.mul (y.pow n)) := by
  have hlast := h.last
  rw [last_withLast] at hlast
  obtain ⟨z, w, l, hz, hw, hl, hzero, rfl⟩ := hlast.exists_of_pow
  obtain rfl : k = l := by
    rw [hw.unique hf.denotes] at hl
    exact Int.cast_inj.mp hl
  -- A zero is not raised to a negative power, for it was not before.
  have hpow : (Expression.pow e.last g).Denotes resolve (z.pow (k * n)) := by
    refine hz.pow_amount hg.denotes hg.isBare fun hneg => hzero ⟨?_, hneg.2⟩
    by_contra hk
    exact Int.not_lt.mpr (Int.mul_nonneg (Int.not_lt.mp hk) hn) hneg.1
  have hwith := h.withLast _ _ hpow
  rw [withLast_withLast] at hwith
  rw [← z.pow_mul]
  exact hwith

end Expression

namespace Grammar

open Expression

/-! ### Texts without parentheses, slashes and power signs -/

/-- Whether an operator may stand in a row of factors. -/
def isFlat : Operator → Bool
  | .star | .minus | .plus => true
  | .slash | .caret | .doubleStar | .opening | .closing => false

/-- Whether a row of lexemes has no parentheses, slashes and power signs. -/
def IsFlat (ls : List Lexeme) : Prop := ∀ o, .operator o ∈ ls → isFlat o = true

variable {ls ls' rest : List Lexeme}

theorem isFlat_append : IsFlat (ls ++ ls') ↔ IsFlat ls ∧ IsFlat ls' := by
  constructor
  · intro h
    exact ⟨fun o ho => h o (List.mem_append_left _ ho),
      fun o ho => h o (List.mem_append_right _ ho)⟩
  · rintro ⟨h, h'⟩ o ho
    exact (List.mem_append.mp ho).elim (h o) (h' o)

theorem IsFlat.of_cons {l : Lexeme} (h : IsFlat (l :: ls)) : IsFlat ls :=
  fun o ho => h o (List.mem_cons_of_mem l ho)

/-- A power without parentheses and power signs is a number or a name. -/
theorem Power.eq_atom_of_isFlat {q : Power} (h : IsFlat q.lexemes) :
    ∃ a : Atom, q = .atom a ∧ ((∃ n, a = .number n) ∨ ∃ text, a = .name text) := by
  cases q with
  | atom a =>
    refine ⟨a, rfl, ?_⟩
    cases a with
    | number n => exact .inl ⟨n, rfl⟩
    | name text => exact .inr ⟨text, rfl⟩
    | group inner =>
      rw [Power.lexemes, Atom.lexemes] at h
      cases h .opening List.mem_cons_self
  | raised a sign x =>
    rw [Power.lexemes] at h
    have hsign := h sign.operator (List.mem_append_right _ List.mem_cons_self)
    cases sign <;> cases hsign

/-! ### An exponent behind a text -/

theorem Power.exists_raised {q : Power} (h : IsFlat q.lexemes) (x : Term) :
    ∃ q' : Power, q'.lexemes = q.lexemes ++ .operator .caret :: x.lexemes ∧
      q'.tree = q.tree.withLast (.pow q.tree.last x.tree) := by
  obtain ⟨a, rfl, ha⟩ := Power.eq_atom_of_isFlat h
  refine ⟨.raised a .caret x, by rw [Power.lexemes, Power.lexemes]; rfl, ?_⟩
  rw [Power.tree, Power.tree]
  obtain ⟨n, rfl⟩ | ⟨text, rfl⟩ := ha
  · rw [Atom.tree]
    rfl
  · rw [Atom.tree]
    rfl

theorem Term.exists_raised {t : Term} (h : IsFlat t.lexemes) (x : Term) :
    ∃ t' : Term, t'.lexemes = t.lexemes ++ .operator .caret :: x.lexemes ∧
      t'.tree = t.tree.withLast (.pow t.tree.last x.tree) := by
  match t with
  | .power q =>
    rw [Term.lexemes] at h
    obtain ⟨q', hlexemes, htree⟩ := Power.exists_raised h x
    refine ⟨.power q', ?_, ?_⟩
    · rw [Term.lexemes, Term.lexemes, hlexemes]
    · rw [Term.tree, Term.tree, htree]
  | .neg t =>
    rw [Term.lexemes] at h
    obtain ⟨t', hlexemes, htree⟩ := Term.exists_raised h.of_cons x
    refine ⟨.neg t', ?_, ?_⟩
    · rw [Term.lexemes, Term.lexemes, hlexemes, List.cons_append]
    · rw [Term.tree, Term.tree, htree]
      rfl

/-- The last of some factors is raised, whatever stands before them. -/
theorem Factors.exists_raised {fs : Factors} (h : IsFlat fs.lexemes) (x : Term) :
    fs = .done ∨ ∃ gs : Factors, gs.lexemes = fs.lexemes ++ .operator .caret :: x.lexemes ∧
      ∀ e, gs.fold e = (fs.fold e).withLast (.pow (fs.fold e).last x.tree) := by
  match fs with
  | .done => exact .inl rfl
  | .joined .slash t rest =>
    rw [Factors.lexemes] at h
    cases h .slash List.mem_cons_self
  | .joined .star t rest =>
    rw [Factors.lexemes] at h
    obtain ⟨ht, hrest⟩ := isFlat_append.mp h.of_cons
    right
    obtain rfl | ⟨gs, hlexemes, hfold⟩ := Factors.exists_raised hrest x
    · obtain ⟨t', hlexemes, htree⟩ := Term.exists_raised ht x
      refine ⟨.joined .star t' .done, ?_, fun e => ?_⟩
      · rw [Factors.lexemes, Factors.lexemes, Factors.lexemes, Factors.lexemes, hlexemes,
          List.append_nil, List.append_nil, List.cons_append]
      · rw [Factors.fold, Factors.fold, Factors.fold, Factors.fold, htree]
        rfl
    · refine ⟨.joined .star t gs, ?_, fun e => ?_⟩
      · rw [Factors.lexemes, Factors.lexemes, hlexemes, List.cons_append, List.append_assoc]
      · rw [Factors.fold, Factors.fold, hfold]
  | .beside q rest =>
    rw [Factors.lexemes] at h
    obtain ⟨hq, hrest⟩ := isFlat_append.mp h
    right
    obtain rfl | ⟨gs, hlexemes, hfold⟩ := Factors.exists_raised hrest x
    · obtain ⟨q', hlexemes, htree⟩ := Power.exists_raised hq x
      refine ⟨.beside q' .done, ?_, fun e => ?_⟩
      · rw [Factors.lexemes, Factors.lexemes, Factors.lexemes, Factors.lexemes, hlexemes,
          List.append_nil, List.append_nil]
      · rw [Factors.fold, Factors.fold, Factors.fold, Factors.fold, htree]
        rfl
    · refine ⟨.beside q gs, ?_, fun e => ?_⟩
      · rw [Factors.lexemes, Factors.lexemes, hlexemes, List.append_assoc]
      · rw [Factors.fold, Factors.fold, hfold]

/-- A caret behind a text without parentheses, slashes and power signs raises its last factor. -/
theorem Product.exists_raised {p : Product} (h : IsFlat p.lexemes) (x : Term) :
    ∃ q : Product, q.lexemes = p.lexemes ++ .operator .caret :: x.lexemes ∧
      q.tree = p.tree.withLast (.pow p.tree.last x.tree) := by
  obtain ⟨t, fs⟩ := p
  rw [Product.lexemes] at h
  obtain ⟨ht, hfs⟩ := isFlat_append.mp h
  obtain rfl | ⟨gs, hlexemes, hfold⟩ := Factors.exists_raised hfs x
  · obtain ⟨t', hlexemes, htree⟩ := Term.exists_raised ht x
    refine ⟨.mk t' .done, ?_, ?_⟩
    · rw [Product.lexemes, Product.lexemes, Factors.lexemes, hlexemes, List.append_nil,
        List.append_nil]
    · rw [Product.tree, Product.tree, Factors.fold, Factors.fold, htree]
  · refine ⟨.mk t gs, ?_, ?_⟩
    · rw [Product.lexemes, Product.lexemes, hlexemes, List.append_assoc]
    · rw [Product.tree, Product.tree, hfold]

/-! ### The text before an exponent -/

-- What is derived either ends before the first caret, or a part of it that ends there is derived.

theorem Atom.eq_append_of_caret {a : Atom} {r : List Lexeme} (hflat : IsFlat ls)
    (h : a.lexemes ++ r = ls ++ .operator .caret :: rest) :
    ∃ ls', ls = a.lexemes ++ ls' ∧ r = ls' ++ .operator .caret :: rest := by
  obtain ⟨l, more, hl, hbegins⟩ := a.exists_lexemes_eq_cons
  cases ls with
  | nil =>
    rw [hl] at h
    rw [(List.cons.inj h).1] at hbegins
    cases hbegins
  | cons l ls =>
    cases a with
    | number n | name text =>
      rw [Atom.lexemes] at h ⊢
      obtain ⟨rfl, hr⟩ := List.cons.inj h
      exact ⟨ls, rfl, hr⟩
    | group inner =>
      rw [Atom.lexemes] at h
      obtain ⟨rfl, -⟩ := List.cons.inj h
      cases hflat .opening List.mem_cons_self

theorem Power.exists_base {q : Power} {r : List Lexeme} (hflat : IsFlat ls)
    (h : q.lexemes ++ r = ls ++ .operator .caret :: rest) :
    (∃ ls', ls = q.lexemes ++ ls' ∧ r = ls' ++ .operator .caret :: rest) ∨
      ∃ q' : Power, q'.lexemes = ls := by
  cases q with
  | atom a =>
    rw [Power.lexemes] at h ⊢
    exact .inl (a.eq_append_of_caret hflat h)
  | raised a sign x =>
    rw [Power.lexemes, List.append_assoc] at h
    obtain ⟨ls', rfl, hls'⟩ := a.eq_append_of_caret hflat h
    cases ls' with
    | nil => exact .inr ⟨.atom a, by rw [Power.lexemes, List.append_nil]⟩
    | cons l ls' =>
      -- A sign before the caret would be a power sign too.
      obtain ⟨rfl, -⟩ := List.cons.inj hls'
      have hsign := hflat sign.operator (List.mem_append_right _ List.mem_cons_self)
      cases sign <;> cases hsign

theorem Term.exists_base {t : Term} {ls r : List Lexeme} (hflat : IsFlat ls)
    (h : t.lexemes ++ r = ls ++ .operator .caret :: rest) :
    (∃ ls', ls = t.lexemes ++ ls' ∧ r = ls' ++ .operator .caret :: rest) ∨
      ∃ t' : Term, t'.lexemes = ls := by
  match t with
  | .power q =>
    rw [Term.lexemes] at h ⊢
    obtain hends | ⟨q', hq'⟩ := Power.exists_base hflat h
    · exact .inl hends
    · exact .inr ⟨.power q', by rw [Term.lexemes, hq']⟩
  | .neg t =>
    rw [Term.lexemes, List.cons_append] at h
    cases ls with
    | nil => cases (List.cons.inj h).1
    | cons l ls =>
      rw [List.cons_append] at h
      obtain ⟨rfl, hinner⟩ := List.cons.inj h
      obtain ⟨ls', rfl, hr⟩ | ⟨t', ht'⟩ := Term.exists_base hflat.of_cons hinner
      · exact .inl ⟨ls', by rw [Term.lexemes, List.cons_append], hr⟩
      · exact .inr ⟨.neg t', by rw [Term.lexemes, ht']⟩

theorem Factors.exists_base {fs : Factors} {ls r : List Lexeme} (hflat : IsFlat ls)
    (h : fs.lexemes ++ r = ls ++ .operator .caret :: rest) :
    (∃ ls', ls = fs.lexemes ++ ls' ∧ r = ls' ++ .operator .caret :: rest) ∨
      ∃ gs : Factors, gs.lexemes = ls := by
  match fs with
  | .done =>
    rw [Factors.lexemes] at h ⊢
    exact .inl ⟨ls, rfl, h⟩
  | .joined sign t fs =>
    rw [Factors.lexemes, List.cons_append, List.append_assoc] at h
    cases ls with
    | nil => cases sign <;> cases (List.cons.inj h).1
    | cons l ls =>
      rw [List.cons_append] at h
      obtain ⟨rfl, hfactor⟩ := List.cons.inj h
      obtain ⟨ls, rfl, hrest⟩ | ⟨t', ht'⟩ := Term.exists_base hflat.of_cons hfactor
      · obtain ⟨ls', rfl, hr⟩ | ⟨gs, hgs⟩ :=
          Factors.exists_base (isFlat_append.mp hflat.of_cons).2 hrest
        · exact .inl ⟨ls', by rw [Factors.lexemes, List.cons_append, List.append_assoc], hr⟩
        · exact .inr ⟨.joined sign t gs, by rw [Factors.lexemes, hgs]⟩
      · exact .inr ⟨.joined sign t' .done, by
          rw [Factors.lexemes, Factors.lexemes, ht', List.append_nil]⟩
  | .beside q fs =>
    rw [Factors.lexemes, List.append_assoc] at h
    obtain ⟨ls, rfl, hrest⟩ | ⟨q', hq'⟩ := Power.exists_base hflat h
    · obtain ⟨ls', rfl, hr⟩ | ⟨gs, hgs⟩ := Factors.exists_base (isFlat_append.mp hflat).2 hrest
      · exact .inl ⟨ls', by rw [Factors.lexemes, List.append_assoc], hr⟩
      · exact .inr ⟨.beside q gs, by rw [Factors.lexemes, hgs]⟩
    · exact .inr ⟨.beside q' .done, by
        rw [Factors.lexemes, Factors.lexemes, hq', List.append_nil]⟩

/-- What stands before the first caret is an expression, if there are no parentheses, slashes and
power signs in it. -/
theorem Product.exists_base {p : Product} (hflat : IsFlat ls)
    (h : p.lexemes = ls ++ .operator .caret :: rest) : ∃ q : Product, q.lexemes = ls := by
  obtain ⟨t, fs⟩ := p
  rw [Product.lexemes] at h
  obtain ⟨ls, rfl, hrest⟩ | ⟨t', ht'⟩ := Term.exists_base hflat h
  · rw [← List.append_nil fs.lexemes] at hrest
    obtain ⟨ls', -, hnil⟩ | ⟨gs, hgs⟩ := Factors.exists_base (isFlat_append.mp hflat).2 hrest
    · cases ls' <;> cases hnil
    · exact ⟨.mk t gs, by rw [Product.lexemes, hgs]⟩
  · exact ⟨.mk t' .done, by rw [Product.lexemes, Factors.lexemes, ht', List.append_nil]⟩

/-! ### A slash before a text -/

variable {resolve : String → Outcome Quantity}

theorem Factors.withFirst_fold (fs : Factors) (e f : Expression) :
    (fs.fold e).withFirst f = fs.fold (e.withFirst f) := by
  match fs with
  | .done => rw [Factors.fold, Factors.fold]
  | .joined .star t rest | .joined .slash t rest =>
    rw [Factors.fold, Factors.fold, rest.withFirst_fold]
    rfl
  | .beside q rest =>
    rw [Factors.fold, Factors.fold, rest.withFirst_fold]
    rfl

/-- A term without parentheses is the first term of itself. -/
theorem Term.withFirst_tree {t : Term} (h : .operator .opening ∉ t.lexemes) (f : Expression) :
    t.tree.withFirst f = f := by
  match t with
  | .neg inner =>
    rw [Term.tree]
    rfl
  | .power (.raised a sign x) =>
    rw [Term.tree, Power.tree]
    rfl
  | .power (.atom (.number n)) | .power (.atom (.name text)) =>
    rw [Term.tree, Power.tree, Atom.tree]
    rfl
  | .power (.atom (.group inner)) =>
    rw [Term.lexemes, Power.lexemes, Atom.lexemes] at h
    exact absurd List.mem_cons_self h

/-- One divided by a text without parentheses is divided by the first term of the text alone. -/
theorem Product.exists_inverse {p : Product} {n : Numeral} (hn : n.value = 1)
    (h : .operator .opening ∉ p.lexemes) {x : Amount} (hx : p.tree.Denotes resolve x)
    (hne : x.magnitude ≠ 0) :
    ∃ (q : Product) (y z : Amount),
      q.lexemes = .number n :: .operator .slash :: p.lexemes ∧ x = y.mul z ∧
      q.tree.Denotes resolve ((Amount.one.div y).mul z) ∧
      (p.tree.withFirst (.number 1)).Denotes resolve z := by
  obtain ⟨t, fs⟩ := p
  rw [Product.lexemes, List.mem_append, not_or] at h
  rw [Product.tree] at hx ⊢
  obtain ⟨y, z, hy, rfl, hfold⟩ := fs.fold_denotes hx
  have hy0 : y.magnitude ≠ 0 := left_ne_zero_of_mul hne
  have hone : (Expression.number 1).Denotes resolve Amount.one := .number 1
  refine ⟨.mk (.power (.atom (.number n))) (.joined .slash t fs), y, z, ?_, rfl, ?_, ?_⟩
  · rw [Product.lexemes, Product.lexemes, Factors.lexemes, Term.lexemes, Power.lexemes,
      Atom.lexemes]
    rfl
  · rw [Product.tree, Factors.fold, Term.tree, Power.tree, Atom.tree, hn]
    exact hfold _ _ (hone.div_amount hy hy0)
  · have hz := hfold _ _ hone
    rw [z.one_mul] at hz
    rwa [Factors.withFirst_fold, Term.withFirst_tree h.1]

end Grammar

end Metrology
