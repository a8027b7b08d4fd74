import Metrology.Proofs.Expression.Scanning
import Metrology.Proofs.Number.Rendering

/-!
# Printed expressions are read back

An expression can be written with every operand in parentheses: `Expression.Writes` has the texts
that do so.  Such a text is scanned in front of a closing parenthesis as it is scanned at the end
(`Grammar.Product.Prints`), and a parenthesis may follow anything and be followed by anything
(`Prints.scans_group`), so that what is put together of operands in parentheses is scanned part by
part.  Hence the text has the lexemes of a derivation whose tree is the expression
(`Writes.exists_product`).

The main result is `ofText_writes`: every expression of identifiers and of numbers that are not
negative and have finitely many digits can be written like this, and is read back from every text
that does so.
-/

namespace Metrology

open Text

/-- A text in parentheses. -/
def Text.enclosed (cs : List Char) : List Char := '(' :: (cs ++ [')'])

namespace Expression

/-- Whether an expression can be printed: its names are identifiers, and its numbers are not
negative and have finitely many digits. -/
def IsPrintable : Expression → Prop
  | number q => 0 ≤ q ∧ ∃ (places : Nat) (n : Int), q * 10 ^ places = n
  | name text => isIdentifier text.toList = true
  | neg e => e.IsPrintable
  | pow base exponent => base.IsPrintable ∧ exponent.IsPrintable
  | mul left right => left.IsPrintable ∧ right.IsPrintable
  | div left right => left.IsPrintable ∧ right.IsPrintable

/-- The texts that write an expression with every operand in parentheses.  Numbers are written with
as many places as they need or more, and products and powers in either of two ways. -/
inductive Writes : Expression → List Char → Prop
  | number {q : Rat} {places : Nat} {n : Int} (hq : 0 ≤ q) (hn : q * 10 ^ places = n) :
    Writes (.number q) (Decimal.render places q).toList
  | name {text : String} (h : isIdentifier text.toList = true) : Writes (.name text) text.toList
  | neg {e : Expression} {cs : List Char} (h : Writes e cs) :
    Writes (.neg e) ('-' :: enclosed cs)
  | pow {base exponent : Expression} {cs ds sign : List Char} (hb : Writes base cs)
      (he : Writes exponent ds) (hsign : sign = ['^'] ∨ sign = ['*', '*']) :
    Writes (.pow base exponent) (enclosed cs ++ sign ++ enclosed ds)
  | mul {left right : Expression} {cs ds sign : List Char} (hl : Writes left cs)
      (hr : Writes right ds) (hsign : sign = ['*'] ∨ sign = [' ']) :
    Writes (.mul left right) (enclosed cs ++ sign ++ enclosed ds)
  | div {left right : Expression} {cs ds : List Char} (hl : Writes left cs) (hr : Writes right ds) :
    Writes (.div left right) (enclosed cs ++ ['/'] ++ enclosed ds)

theorem IsPrintable.exists_writes {e : Expression} (h : e.IsPrintable) : ∃ cs, e.Writes cs := by
  induction e with
  | number q =>
    obtain ⟨hq, places, n, hn⟩ := h
    exact ⟨_, .number hq hn⟩
  | name text => exact ⟨_, .name h⟩
  | neg e ih =>
    obtain ⟨cs, hcs⟩ := ih h
    exact ⟨_, .neg hcs⟩
  | pow base exponent ihb ihe =>
    obtain ⟨cs, hcs⟩ := ihb h.1
    obtain ⟨ds, hds⟩ := ihe h.2
    exact ⟨_, .pow hcs hds (.inl rfl)⟩
  | mul left right ihl ihr =>
    obtain ⟨cs, hcs⟩ := ihl h.1
    obtain ⟨ds, hds⟩ := ihr h.2
    exact ⟨_, .mul hcs hds (.inl rfl)⟩
  | div left right ihl ihr =>
    obtain ⟨cs, hcs⟩ := ihl h.1
    obtain ⟨ds, hds⟩ := ihr h.2
    exact ⟨_, .div hcs hds⟩

end Expression

namespace Grammar

open Token

variable {p q : Product} {cs ds rest : List Char} {ls : List Lexeme}

/-! ### Parts of a printed text -/

/-- Whether nothing follows, or a closing parenthesis. -/
def EndsPrinted (rest : List Char) : Prop := ∀ c ∈ rest.head?, c = ')'

theorem EndsPrinted.endsRun {f : Char → Bool} (h : EndsPrinted rest) (hf : f ')' = false) :
    EndsRun f rest := by
  intro c hc
  rw [h c hc]
  exact hf

/-- Whether a text writes the lexemes of a derivation in front of every text that ends it. -/
def Product.Prints (p : Product) (cs : List Char) : Prop :=
  ∀ (rest : List Char) (ls : List Lexeme), EndsPrinted rest → Scans rest ls →
    Scans (cs ++ rest) (p.lexemes ++ ls)

/-- A leaf is printed as it is. -/
theorem prints_leaf {a : Atom} {l : Lexeme} (ha : a.lexemes = [l]) (hl : l.IsPlain)
    (hends : ∀ rest, EndsPrinted rest → l.EndsBefore rest) :
    (Product.mk (.power (.atom a)) .done).Prints l.text := by
  intro rest ls hrest hscans
  rw [Product.lexemes, Term.lexemes, Power.lexemes, Factors.lexemes, ha]
  exact hscans.lexeme hl (hends rest hrest)

/-- An operator that is no star may stand before anything. -/
theorem scans_operator {o : Operator} (ho : o ≠ .star) (h : Scans rest ls) :
    Scans (o.text ++ rest) (.operator o :: ls) := by
  have hends : (Lexeme.operator o).EndsBefore rest := by
    cases o with
    | star => exact absurd rfl ho
    | slash | caret | doubleStar | minus | plus | opening | closing => trivial
  have hplain : (Lexeme.operator o).IsPlain := trivial
  exact h.lexeme hplain hends

/-- A derivation in parentheses may stand before anything. -/
theorem Product.Prints.scans_group (hp : p.Prints cs) (h : Scans rest ls) :
    Scans (enclosed cs ++ rest) ((Atom.group p).lexemes ++ ls) := by
  have hclosing : Scans (')' :: rest) (.operator .closing :: ls) :=
    scans_operator (by decide : Operator.closing ≠ .star) h
  have hends : EndsPrinted (')' :: rest) := by
    rintro c ⟨⟩
    rfl
  have hinner := hp _ _ hends hclosing
  have hopening : Scans ('(' :: (cs ++ ')' :: rest))
      (.operator .opening :: (p.lexemes ++ .operator .closing :: ls)) :=
    scans_operator (by decide : Operator.opening ≠ .star) hinner
  rw [enclosed, Atom.lexemes]
  simpa using hopening

/-! ### Printed operations -/

theorem Product.Prints.neg (hp : p.Prints cs) :
    (Product.mk (.neg (.power (.atom (.group p)))) .done).Prints ('-' :: enclosed cs) := by
  intro rest ls _ hscans
  have hminus := scans_operator (by decide : Operator.minus ≠ .star) (hp.scans_group hscans)
  rw [Product.lexemes, Term.lexemes, Term.lexemes, Power.lexemes, Factors.lexemes,
    List.append_nil]
  exact hminus

theorem Product.Prints.pow (hp : p.Prints cs) (hq : q.Prints ds) (sign : PowerSign) :
    (Product.mk (.power (.raised (.group p) sign (.power (.atom (.group q))))) .done).Prints
      (enclosed cs ++ sign.operator.text ++ enclosed ds) := by
  intro rest ls _ hscans
  have hsign : sign.operator ≠ .star := by cases sign <;> decide
  have hexponent := scans_operator hsign (hq.scans_group hscans)
  have hbase := hp.scans_group hexponent
  rw [Product.lexemes, Term.lexemes, Power.lexemes, Term.lexemes, Power.lexemes, Factors.lexemes]
  simpa using hbase

theorem Product.Prints.joined (hp : p.Prints cs) (hq : q.Prints ds) (sign : FactorSign) :
    (Product.mk (.power (.atom (.group p)))
      (.joined sign (.power (.atom (.group q))) .done)).Prints
      (enclosed cs ++ sign.operator.text ++ enclosed ds) := by
  intro rest ls _ hscans
  have hfactor := hq.scans_group hscans
  -- No star is continued by a parenthesis.
  have hends : (Lexeme.operator sign.operator).EndsBefore (enclosed ds ++ rest) := by
    cases sign with
    | star => exact endsRun_cons (by decide) _
    | slash => trivial
  have hplain : (Lexeme.operator sign.operator).IsPlain := trivial
  have hleft := hp.scans_group (hfactor.lexeme hplain hends)
  rw [Product.lexemes, Term.lexemes, Power.lexemes, Factors.lexemes, Term.lexemes, Power.lexemes,
    Factors.lexemes]
  simpa [Lexeme.text] using hleft

theorem Product.Prints.beside (hp : p.Prints cs) (hq : q.Prints ds) :
    (Product.mk (.power (.atom (.group p))) (.beside (.atom (.group q)) .done)).Prints
      (enclosed cs ++ [' '] ++ enclosed ds) := by
  intro rest ls _ hscans
  have hblank : isBlank ' ' = true := by decide +kernel
  have hleft := hp.scans_group ((hq.scans_group hscans).blank hblank)
  rw [Product.lexemes, Term.lexemes, Power.lexemes, Factors.lexemes, Power.lexemes,
    Factors.lexemes]
  simpa using hleft

end Grammar

namespace Expression

open Grammar

/-! ### Printed expressions -/

/-- A printed number is read as a plain numeral of the same value. -/
theorem exists_numeral_of_render {q : Rat} {places : Nat} {n : Int} (hq : 0 ≤ q)
    (hn : q * 10 ^ places = n) :
    ∃ numeral : Numeral, numeral.IsPlain ∧ numeral.value = q ∧
      numeral.text = (Decimal.render places q).toList := by
  have hpower : (10 : Rat) ^ places ≠ 0 := pow_ne_zero places (by decide)
  have hnonneg : 0 ≤ n := by
    have hproduct : (0 : Rat) ≤ q * 10 ^ places := mul_nonneg hq (pow_nonneg (by decide) places)
    rw [hn] at hproduct
    exact_mod_cast hproduct
  obtain ⟨k, rfl⟩ := Int.eq_ofNat_of_zero_le hnonneg
  have hk : q * 10 ^ places = (k : Rat) := hn
  refine ⟨Decimal.unsigned places k, Decimal.isPlain_unsigned places k, ?_, ?_⟩
  · rw [Decimal.value_unsigned, ← hk, mul_div_cancel_right₀ q hpower]
  · rw [Decimal.text_unsigned, Decimal.toList_render hk]

/-- A text that writes an expression has the lexemes of a derivation of it. -/
theorem Writes.exists_product {e : Expression} {cs : List Char} (h : e.Writes cs) :
    ∃ p : Product, p.tree = e ∧ p.Prints cs := by
  -- Operands are put in parentheses, which stand anywhere, so that only leaves need what follows.
  induction h with
  | number hq hn =>
    obtain ⟨numeral, hplain, hvalue, htext⟩ := exists_numeral_of_render hq hn
    refine ⟨.mk (.power (.atom (.number numeral))) .done, ?_, ?_⟩
    · rw [Product.tree, Term.tree, Power.tree, Atom.tree, Factors.fold, hvalue]
    · have hleaf : (Lexeme.number numeral).IsPlain := hplain
      have hends (rest : List Char) (hrest : EndsPrinted rest) :
          (Lexeme.number numeral).EndsBefore rest := hrest.endsRun (by decide +kernel)
      rw [← htext]
      exact prints_leaf (by rw [Atom.lexemes]) hleaf hends
  | @name text hname =>
    refine ⟨.mk (.power (.atom (.name text.toList))) .done, ?_, ?_⟩
    · rw [Product.tree, Term.tree, Power.tree, Atom.tree, Factors.fold, String.ofList_toList]
    · have hleaf : (Lexeme.name text.toList).IsPlain := hname
      have hends (rest : List Char) (hrest : EndsPrinted rest) :
          (Lexeme.name text.toList).EndsBefore rest := hrest.endsRun (by decide +kernel)
      exact prints_leaf (by rw [Atom.lexemes]) hleaf hends
  | neg _ ih =>
    obtain ⟨p, rfl, hp⟩ := ih
    refine ⟨_, ?_, hp.neg⟩
    rw [Product.tree, Term.tree, Term.tree, Power.tree, Atom.tree, Factors.fold]
  | pow _ _ hsign ihb ihe =>
    obtain ⟨p, rfl, hp⟩ := ihb
    obtain ⟨q, rfl, hq⟩ := ihe
    have htree (sign : PowerSign) :
        (Product.mk (.power (.raised (.group p) sign (.power (.atom (.group q))))) .done).tree =
          .pow p.tree q.tree := by
      rw [Product.tree, Term.tree, Power.tree, Term.tree, Power.tree, Atom.tree, Atom.tree,
        Factors.fold]
    rcases hsign with rfl | rfl
    · exact ⟨_, htree .caret, hp.pow hq .caret⟩
    · exact ⟨_, htree .doubleStar, hp.pow hq .doubleStar⟩
  | mul _ _ hsign ihl ihr =>
    obtain ⟨p, rfl, hp⟩ := ihl
    obtain ⟨q, rfl, hq⟩ := ihr
    rcases hsign with rfl | rfl
    · refine ⟨_, ?_, hp.joined hq .star⟩
      rw [Product.tree, Factors.fold, Factors.fold, Term.tree, Term.tree, Power.tree, Power.tree,
        Atom.tree, Atom.tree, FactorSign.combine]
    · refine ⟨_, ?_, hp.beside hq⟩
      rw [Product.tree, Factors.fold, Factors.fold, Term.tree, Power.tree, Power.tree, Atom.tree,
        Atom.tree]
  | div _ _ ihl ihr =>
    obtain ⟨p, rfl, hp⟩ := ihl
    obtain ⟨q, rfl, hq⟩ := ihr
    refine ⟨_, ?_, hp.joined hq .slash⟩
    rw [Product.tree, Factors.fold, Factors.fold, Term.tree, Term.tree, Power.tree, Power.tree,
      Atom.tree, Atom.tree, FactorSign.combine]

/-- **Printed expressions are read back**: an expression of identifiers and of numbers that are not
negative and have finitely many digits can be written with every operand in parentheses, and every
text that writes it like this is read as just that expression. -/
theorem ofText_writes {e : Expression} (h : e.IsPrintable) :
    (∃ cs, e.Writes cs) ∧ ∀ cs, e.Writes cs → ofText (String.ofList cs) = .ok e := by
  refine ⟨h.exists_writes, fun cs hcs => ?_⟩
  obtain ⟨p, rfl, hp⟩ := hcs.exists_product
  have hends : EndsPrinted [] := fun _ hc => nomatch hc
  have hscans := hp [] [] hends Token.scans_nil
  rw [List.append_nil, List.append_nil] at hscans
  exact ofText_of_scans hscans

/-- The text `((2.5) (m))**(-(2))` writes a power of a product. -/
theorem ofText_writes_inverse_square :
    let e := pow (mul (number (5 / 2)) (name "m")) (neg (number 2))
    e.IsPrintable ∧ e.Writes "((2.5) (m))**(-(2))".toList ∧
      ofText "((2.5) (m))**(-(2))" = .ok e := by
  intro e
  have hhalves : (0 : Rat) ≤ 5 / 2 := by decide +kernel
  have htwo : (0 : Rat) ≤ 2 := by decide +kernel
  have htenths : (5 / 2 : Rat) * 10 ^ 1 = (25 : Int) := by decide +kernel
  have hones : (2 : Rat) * 10 ^ 0 = (2 : Int) := by decide +kernel
  have hm : isIdentifier "m".toList = true := by decide +kernel
  have hprintable : e.IsPrintable := ⟨⟨⟨hhalves, 1, 25, htenths⟩, hm⟩, htwo, 0, 2, hones⟩
  have hwrites : e.Writes "((2.5) (m))**(-(2))".toList := by
    have hproduct := Writes.mul (.number hhalves htenths) (.name hm) (.inr rfl)
    have hpower := Writes.pow hproduct (.neg (.number htwo hones)) (.inr rfl)
    have htext : enclosed (enclosed (Decimal.render 1 (5 / 2)).toList ++ [' '] ++
        enclosed "m".toList) ++ ['*', '*'] ++
        enclosed ('-' :: enclosed (Decimal.render 0 2).toList) =
        "((2.5) (m))**(-(2))".toList := by
      decide +kernel
    rwa [htext] at hpower
  refine ⟨hprintable, hwrites, ?_⟩
  rw [← (ofText_writes hprintable).2 _ hwrites, String.ofList_toList]

end Expression

end Metrology
