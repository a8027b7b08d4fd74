import Metrology.Expression.Parser

/-!
# The grammar of expressions

A derivation by the grammar

    expression := term (('*' | '/' | nothing) term)*
    term       := '-' term | power
    power      := atom [('^' | '**') term]
    atom       := number | name | '(' expression ')'

is a tree of the types `Product`, `Factors`, `Term`, `Power` and `Atom`, one for each rule.  What a
derivation writes are its `lexemes`; the expression that it stands for is its `tree`, in which the
factors of a product are folded to the left.

A factor that stands beside another without an operator is a term whose first token begins an
atom.  By `Term.beginsAtom_iff` these are the powers, so `Factors.beside` takes one.

The main result is `Product.unambiguous`: no two derivations write the same lexemes.  Its proof
needs more, since a part of a derivation is followed by others: what a power writes is determined
as long as no exponent follows it (`EndsPower`), and what a product writes as long as no factor does
(`EndsProduct`).
-/

namespace Metrology

namespace Grammar

/-- The signs behind which an exponent stands. -/
inductive PowerSign
  | caret
  | doubleStar

/-- The signs behind which a factor stands. -/
inductive FactorSign
  | star
  | slash

mutual

/-- A number, a name, or an expression in parentheses. -/
inductive Atom
  | number (numeral : Numeral)
  | name (text : List Char)
  | group (inner : Product)

/-- An atom, perhaps with an exponent. -/
inductive Power
  | atom (base : Atom)
  | raised (base : Atom) (sign : PowerSign) (exponent : Term)

/-- A power, perhaps with minus signs before it. -/
inductive Term
  | neg (inner : Term)
  | power (inner : Power)

/-- The factors that follow the first term of an expression. -/
inductive Factors
  | done
  | joined (sign : FactorSign) (factor : Term) (rest : Factors)
  | beside (factor : Power) (rest : Factors)

/-- An expression: a term and the factors that follow it. -/
inductive Product
  | mk (first : Term) (rest : Factors)

end

/-! ### What a derivation writes and what it stands for -/

def PowerSign.operator : PowerSign → Operator
  | caret => .caret
  | doubleStar => .doubleStar

def FactorSign.operator : FactorSign → Operator
  | star => .star
  | slash => .slash

mutual

def Atom.lexemes : Atom → List Lexeme
  | .number numeral => [.number numeral]
  | .name text => [.name text]
  | .group inner => .operator .opening :: (inner.lexemes ++ [.operator .closing])

def Power.lexemes : Power → List Lexeme
  | .atom base => base.lexemes
  | .raised base sign exponent => base.lexemes ++ .operator sign.operator :: exponent.lexemes

def Term.lexemes : Term → List Lexeme
  | .neg inner => .operator .minus :: inner.lexemes
  | .power inner => inner.lexemes

def Factors.lexemes : Factors → List Lexeme
  | .done => []
  | .joined sign factor rest => .operator sign.operator :: (factor.lexemes ++ rest.lexemes)
  | .beside factor rest => factor.lexemes ++ rest.lexemes

def Product.lexemes : Product → List Lexeme
  | .mk first rest => first.lexemes ++ rest.lexemes

end

/-- The product or the quotient of two expressions. -/
def FactorSign.combine : FactorSign → Expression → Expression → Expression
  | star => .mul
  | slash => .div

mutual

def Atom.tree : Atom → Expression
  | .number numeral => .number numeral.value
  | .name text => .name (String.ofList text)
  | .group inner => inner.tree

def Power.tree : Power → Expression
  | .atom base => base.tree
  | .raised base _ exponent => .pow base.tree exponent.tree

def Term.tree : Term → Expression
  | .neg inner => .neg inner.tree
  | .power inner => inner.tree

/-- The expression to the left of some factors, multiplied and divided by them one by one. -/
def Factors.fold : Factors → Expression → Expression
  | .done, left => left
  | .joined sign factor rest, left => rest.fold (sign.combine left factor.tree)
  | .beside factor rest, left => rest.fold (.mul left factor.tree)

def Product.tree : Product → Expression
  | .mk first rest => rest.fold first.tree

end

/-! ### First lexemes -/

/-- Whether a lexeme begins an atom. -/
def beginsAtom : Lexeme → Bool
  | .number _ | .name _ | .operator .opening => true
  | .operator _ => false

theorem Atom.exists_lexemes_eq_cons (a : Atom) :
    ∃ l ls, a.lexemes = l :: ls ∧ beginsAtom l = true := by
  cases a with
  | number numeral => exact ⟨_, _, by rw [Atom.lexemes], rfl⟩
  | name text => exact ⟨_, _, by rw [Atom.lexemes], rfl⟩
  | group inner => exact ⟨_, _, by rw [Atom.lexemes], rfl⟩

theorem Power.exists_lexemes_eq_cons (p : Power) :
    ∃ l ls, p.lexemes = l :: ls ∧ beginsAtom l = true := by
  cases p with
  | atom base =>
    rw [Power.lexemes]
    exact base.exists_lexemes_eq_cons
  | raised base sign exponent =>
    obtain ⟨l, ls, hl, hb⟩ := base.exists_lexemes_eq_cons
    exact ⟨l, _, by rw [Power.lexemes, hl, List.cons_append], hb⟩

theorem Atom.lexemes_ne_nil (a : Atom) : a.lexemes ≠ [] := by
  obtain ⟨l, ls, hl, -⟩ := a.exists_lexemes_eq_cons
  rw [hl]
  exact List.cons_ne_nil l ls

theorem Power.lexemes_ne_nil (p : Power) : p.lexemes ≠ [] := by
  obtain ⟨l, ls, hl, -⟩ := p.exists_lexemes_eq_cons
  rw [hl]
  exact List.cons_ne_nil l ls

theorem Term.lexemes_ne_nil (t : Term) : t.lexemes ≠ [] := by
  cases t with
  | neg inner => simp [Term.lexemes]
  | power inner =>
    rw [Term.lexemes]
    exact inner.lexemes_ne_nil

/-- The terms whose first lexeme begins an atom are those without a minus sign. -/
theorem Term.beginsAtom_iff (t : Term) :
    (∃ l ∈ t.lexemes.head?, beginsAtom l = true) ↔ ∃ p, t = .power p := by
  cases t with
  | neg inner => simp [Term.lexemes, beginsAtom]
  | power inner =>
    obtain ⟨l, ls, hl, hb⟩ := inner.exists_lexemes_eq_cons
    simp [Term.lexemes, hl, hb]

/-! ### Where a power and a product end -/

/-- Whether no exponent begins here. -/
def EndsPower (ls : List Lexeme) : Prop :=
  ∀ l ∈ ls.head?, l ≠ .operator .caret ∧ l ≠ .operator .doubleStar

/-- Whether no factor begins here, and no exponent. -/
def EndsProduct (ls : List Lexeme) : Prop :=
  ∀ l ∈ ls.head?, l = .operator .minus ∨ l = .operator .plus ∨ l = .operator .closing

theorem endsProduct_nil : EndsProduct [] := fun _ h => nomatch h

theorem endsProduct_closing (ls : List Lexeme) : EndsProduct (.operator .closing :: ls) := by
  intro l hl
  obtain rfl := Option.some.inj hl
  exact .inr (.inr rfl)

theorem EndsProduct.endsPower {ls : List Lexeme} (h : EndsProduct ls) : EndsPower ls := by
  intro l hl
  rcases h l hl with rfl | rfl | rfl <;> exact ⟨by simp, by simp⟩

theorem endsPower_of_beginsAtom {l : Lexeme} (h : beginsAtom l = true) (ls : List Lexeme) :
    EndsPower (l :: ls) := by
  intro l' hl
  obtain rfl := Option.some.inj hl
  constructor
  · rintro rfl
    cases h
  · rintro rfl
    cases h

theorem not_endsPower_sign (sign : PowerSign) (ls : List Lexeme) :
    ¬ EndsPower (.operator sign.operator :: ls) := by
  intro h
  cases sign with
  | caret => exact (h _ rfl).1 rfl
  | doubleStar => exact (h _ rfl).2 rfl

theorem not_endsProduct_sign (sign : FactorSign) (ls : List Lexeme) :
    ¬ EndsProduct (.operator sign.operator :: ls) := by
  intro h
  rcases h _ rfl with h | h | h <;> cases sign <;> cases h

theorem not_endsProduct_of_beginsAtom {l : Lexeme} (h : beginsAtom l = true) (ls : List Lexeme) :
    ¬ EndsProduct (l :: ls) := by
  intro hends
  rcases hends l rfl with rfl | rfl | rfl <;> cases h

/-- The term before some factors ends where they begin. -/
theorem Factors.endsPower (fs : Factors) {r : List Lexeme} (h : EndsProduct r) :
    EndsPower (fs.lexemes ++ r) := by
  cases fs with
  | done =>
    rw [Factors.lexemes]
    exact h.endsPower
  | joined sign factor rest =>
    rw [Factors.lexemes]
    rintro l ⟨⟩
    cases sign <;> exact ⟨by simp [FactorSign.operator], by simp [FactorSign.operator]⟩
  | beside factor rest =>
    obtain ⟨l, ls, hl, hb⟩ := factor.exists_lexemes_eq_cons
    rw [Factors.lexemes, hl]
    exact endsPower_of_beginsAtom hb _

/-! ### Derivations are determined by what they write -/

theorem PowerSign.operator_injective {s t : PowerSign} (h : s.operator = t.operator) : s = t := by
  cases s <;> cases t <;> first | rfl | cases h

theorem FactorSign.operator_injective {s t : FactorSign} (h : s.operator = t.operator) :
    s = t := by
  cases s <;> cases t <;> first | rfl | cases h

-- The induction is on the first derivation; the two rests may differ as long as both end it.
mutual

theorem Atom.eq_of_append_eq (a b : Atom) {r s : List Lexeme}
    (h : a.lexemes ++ r = b.lexemes ++ s) : a = b ∧ r = s := by
  match a, b with
  | .number m, .number n =>
    rw [Atom.lexemes, Atom.lexemes] at h
    cases h
    exact ⟨rfl, rfl⟩
  | .name x, .name y =>
    rw [Atom.lexemes, Atom.lexemes] at h
    cases h
    exact ⟨rfl, rfl⟩
  | .group p, .group q =>
    rw [Atom.lexemes, Atom.lexemes, List.cons_append, List.cons_append, List.append_assoc,
      List.append_assoc] at h
    have hpq := Product.eq_of_append_eq p q (endsProduct_closing r) (endsProduct_closing s)
      (List.cons.inj h).2
    exact ⟨congrArg Atom.group hpq.1, (List.cons.inj hpq.2).2⟩
  | .number _, .name _ | .number _, .group _ | .name _, .number _ | .name _, .group _
  | .group _, .number _ | .group _, .name _ =>
    simp [Atom.lexemes] at h

theorem Power.eq_of_append_eq (p q : Power) {r s : List Lexeme} (hr : EndsPower r)
    (hs : EndsPower s) (h : p.lexemes ++ r = q.lexemes ++ s) : p = q ∧ r = s := by
  match p, q with
  | .atom a, .atom b =>
    rw [Power.lexemes, Power.lexemes] at h
    have hab := Atom.eq_of_append_eq a b h
    exact ⟨congrArg Power.atom hab.1, hab.2⟩
  | .atom a, .raised b sign e =>
    rw [Power.lexemes, Power.lexemes, List.append_assoc] at h
    have hab := Atom.eq_of_append_eq a b h
    exact absurd (hab.2 ▸ hr) (not_endsPower_sign sign _)
  | .raised a sign e, .atom b =>
    rw [Power.lexemes, Power.lexemes, List.append_assoc] at h
    have hab := Atom.eq_of_append_eq a b h
    exact absurd (hab.2 ▸ hs) (not_endsPower_sign sign _)
  | .raised a sign e, .raised b sign' f =>
    rw [Power.lexemes, Power.lexemes, List.append_assoc, List.append_assoc] at h
    have hab := Atom.eq_of_append_eq a b h
    obtain ⟨hsign, hef⟩ := List.cons.inj hab.2
    have hsign' : sign = sign' := PowerSign.operator_injective (Lexeme.operator.inj hsign)
    have hterm := Term.eq_of_append_eq e f hr hs hef
    rw [hab.1, hsign', hterm.1]
    exact ⟨rfl, hterm.2⟩

theorem Term.eq_of_append_eq (t u : Term) {r s : List Lexeme} (hr : EndsPower r)
    (hs : EndsPower s) (h : t.lexemes ++ r = u.lexemes ++ s) : t = u ∧ r = s := by
  match t, u with
  | .neg t, .neg u =>
    rw [Term.lexemes, Term.lexemes] at h
    have htu := Term.eq_of_append_eq t u hr hs (List.cons.inj h).2
    exact ⟨congrArg Term.neg htu.1, htu.2⟩
  | .power p, .power q =>
    rw [Term.lexemes, Term.lexemes] at h
    have hpq := Power.eq_of_append_eq p q hr hs h
    exact ⟨congrArg Term.power hpq.1, hpq.2⟩
  | .neg t, .power q =>
    obtain ⟨l, ls, hl, hb⟩ := q.exists_lexemes_eq_cons
    rw [Term.lexemes, Term.lexemes, hl] at h
    rw [← (List.cons.inj h).1] at hb
    cases hb
  | .power p, .neg u =>
    obtain ⟨l, ls, hl, hb⟩ := p.exists_lexemes_eq_cons
    rw [Term.lexemes, Term.lexemes, hl] at h
    rw [(List.cons.inj h).1] at hb
    cases hb

theorem Factors.eq_of_append_eq (fs gs : Factors) {r s : List Lexeme} (hr : EndsProduct r)
    (hs : EndsProduct s) (h : fs.lexemes ++ r = gs.lexemes ++ s) : fs = gs ∧ r = s := by
  match fs, gs with
  | .done, .done =>
    rw [Factors.lexemes] at h
    exact ⟨rfl, h⟩
  | .joined sign t fs, .joined sign' u gs =>
    rw [Factors.lexemes, Factors.lexemes, List.cons_append, List.cons_append, List.append_assoc,
      List.append_assoc] at h
    obtain ⟨hsign, htail⟩ := List.cons.inj h
    have hsign' : sign = sign' := FactorSign.operator_injective (Lexeme.operator.inj hsign)
    have hterm := Term.eq_of_append_eq t u (fs.endsPower hr) (gs.endsPower hs) htail
    have hrest := Factors.eq_of_append_eq fs gs hr hs hterm.2
    rw [hsign', hterm.1, hrest.1]
    exact ⟨rfl, hrest.2⟩
  | .beside p fs, .beside q gs =>
    rw [Factors.lexemes, Factors.lexemes, List.append_assoc, List.append_assoc] at h
    have hpower := Power.eq_of_append_eq p q (fs.endsPower hr) (gs.endsPower hs) h
    have hrest := Factors.eq_of_append_eq fs gs hr hs hpower.2
    rw [hpower.1, hrest.1]
    exact ⟨rfl, hrest.2⟩
  | .done, .joined sign u gs =>
    rw [Factors.lexemes, Factors.lexemes, List.nil_append] at h
    exact absurd (h ▸ hr) (not_endsProduct_sign sign _)
  | .joined sign t fs, .done =>
    rw [Factors.lexemes, Factors.lexemes, List.nil_append] at h
    exact absurd (h ▸ hs) (not_endsProduct_sign sign _)
  | .done, .beside q gs =>
    obtain ⟨l, ls, hl, hb⟩ := q.exists_lexemes_eq_cons
    rw [Factors.lexemes, Factors.lexemes, List.nil_append, hl] at h
    exact absurd (h ▸ hr) (not_endsProduct_of_beginsAtom hb _)
  | .beside p fs, .done =>
    obtain ⟨l, ls, hl, hb⟩ := p.exists_lexemes_eq_cons
    rw [Factors.lexemes, Factors.lexemes, List.nil_append, hl] at h
    exact absurd (h ▸ hs) (not_endsProduct_of_beginsAtom hb _)
  | .joined sign t fs, .beside q gs =>
    obtain ⟨l, ls, hl, hb⟩ := q.exists_lexemes_eq_cons
    rw [Factors.lexemes, Factors.lexemes, hl] at h
    rw [← (List.cons.inj h).1] at hb
    cases sign <;> cases hb
  | .beside p fs, .joined sign u gs =>
    obtain ⟨l, ls, hl, hb⟩ := p.exists_lexemes_eq_cons
    rw [Factors.lexemes, Factors.lexemes, hl] at h
    rw [(List.cons.inj h).1] at hb
    cases sign <;> cases hb

theorem Product.eq_of_append_eq (p q : Product) {r s : List Lexeme} (hr : EndsProduct r)
    (hs : EndsProduct s) (h : p.lexemes ++ r = q.lexemes ++ s) : p = q ∧ r = s := by
  match p, q with
  | .mk t fs, .mk u gs =>
    rw [Product.lexemes, Product.lexemes, List.append_assoc, List.append_assoc] at h
    have hterm := Term.eq_of_append_eq t u (fs.endsPower hr) (gs.endsPower hs) h
    have hrest := Factors.eq_of_append_eq fs gs hr hs hterm.2
    rw [hterm.1, hrest.1]
    exact ⟨rfl, hrest.2⟩

end

/-- **The grammar is unambiguous**: no two derivations write the same lexemes. -/
theorem Product.unambiguous {p q : Product} (h : p.lexemes = q.lexemes) : p = q := by
  have happend : p.lexemes ++ [] = q.lexemes ++ [] := by rw [h]
  exact (p.eq_of_append_eq q endsProduct_nil endsProduct_nil happend).1

end Grammar

end Metrology
