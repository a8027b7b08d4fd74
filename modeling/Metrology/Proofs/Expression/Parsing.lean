import Metrology.Proofs.Expression.Forms
import Metrology.Proofs.Expression.Grammar

/-!
# Reading accepts the grammar

What is read off the front of a row of tokens is what some derivation writes, and what is refused
is refused as malformed text (`accountsAt`, by induction on how deeply the rules may nest).
Conversely, what a derivation writes is read as its tree, provided that what follows does not
continue it and that the nesting allowed suffices; four levels for each token do
(`readProduct_eq`, by induction on the derivation).

The main result is `ofText_eq_ok_iff_derivation`: a text that has tokens is read as an expression
just when a derivation with that tree writes the tokens, that derivation is the only one, and every
other text is refused as malformed.
-/

namespace Metrology

open Grammar

namespace Token

/-! ### First tokens -/

theorem startsWith_iff {op : Operator} {tokens : List Token} :
    startsWith op tokens = true ↔
      tokens.map lexeme = .operator op :: tokens.tail.map lexeme := by
  match tokens with
  | [] => simp [startsWith]
  | ⟨.number numeral, position⟩ :: rest => simp [startsWith]
  | ⟨.name text, position⟩ :: rest => simp [startsWith]
  | ⟨.operator o, position⟩ :: rest => simp [startsWith]

theorem startsWith_eq_false {op : Operator} {tokens : List Token}
    (h : ∀ l ∈ (tokens.map lexeme).head?, l ≠ .operator op) : startsWith op tokens = false := by
  rw [← Bool.not_eq_true, startsWith_iff]
  intro heq
  rw [heq] at h
  exact h _ rfl rfl

theorem startsAtom_iff {tokens : List Token} :
    startsAtom tokens = true ↔
      ∃ l ∈ (tokens.map lexeme).head?, beginsAtom l = true := by
  match tokens with
  | [] => simp [startsAtom]
  | ⟨.number numeral, position⟩ :: rest => simp [startsAtom, beginsAtom]
  | ⟨.name text, position⟩ :: rest => simp [startsAtom, beginsAtom]
  | ⟨.operator o, position⟩ :: rest => cases o <;> simp [startsAtom, beginsAtom]

end Token

namespace Expression

variable {source : String} {depth : Nat} {tokens rest : List Token}

/-! ### What is read is derived -/

/-- Whether an outcome of reading is accounted for by the grammar: a tree is that of a derivation
that writes the tokens taken off, and a failure is that the text is malformed. -/
def Accounts {δ : Type} (lexemes : δ → List Lexeme) (tree : δ → Expression)
    (tokens : List Token) : Outcome (Expression × List Token) → Prop
  | .ok (e, rest) => ∃ d, tokens.map Token.lexeme = lexemes d ++ rest.map Token.lexeme ∧ tree d = e
  | .error err => err.kind = .malformedText

/-- Whether all reading up to a depth is accounted for, of tokens that have their forms. -/
structure AccountsAt (source : String) (depth : Nat) : Prop where
  product : ∀ tokens, Token.AllWellFormed tokens →
    Accounts Product.lexemes Product.tree tokens (readProduct source depth tokens)
  factors : ∀ left tokens, Token.AllWellFormed tokens →
    Accounts Factors.lexemes (Factors.fold · left) tokens (readFactors source depth left tokens)
  term : ∀ tokens, Token.AllWellFormed tokens →
    Accounts Term.lexemes Term.tree tokens (readTerm source depth tokens)
  power : ∀ tokens, Token.AllWellFormed tokens →
    Accounts Power.lexemes Power.tree tokens (readPower source depth tokens)
  atom : ∀ tokens, Token.AllWellFormed tokens →
    Accounts Atom.lexemes Atom.tree tokens (readAtom source depth tokens)

/-- What is read further on is accounted for when that is so behind every derivation with which
reading can begin. -/
theorem Accounts.bind {δ ε : Type} {first : δ → List Lexeme} {firstTree : δ → Expression}
    {lexemes : ε → List Lexeme} {tree : ε → Expression} {before : List Token}
    {x : Outcome (Expression × List Token)}
    {f : Expression × List Token → Outcome (Expression × List Token)}
    (hx : Accounts first firstTree tokens x)
    (hf : ∀ (d : δ) (rest : List Token),
      tokens.map Token.lexeme = first d ++ rest.map Token.lexeme →
        Accounts lexemes tree before (f (firstTree d, rest))) :
    Accounts lexemes tree before (x >>= f) := by
  cases x with
  | error err => exact hx
  | ok y =>
    obtain ⟨e, rest⟩ := y
    obtain ⟨d, hd, rfl⟩ := hx
    exact hf d rest hd

/-- What is accounted for is so by other derivations, when these write more tokens before. -/
theorem Accounts.imp {δ ε : Type} {first : δ → List Lexeme} {firstTree : δ → Expression}
    {lexemes : ε → List Lexeme} {tree : ε → Expression} {before : List Token}
    {x : Outcome (Expression × List Token)} (hx : Accounts first firstTree tokens x)
    (h : ∀ (d : δ) (rest : List Token),
      tokens.map Token.lexeme = first d ++ rest.map Token.lexeme →
        ∃ d', before.map Token.lexeme = lexemes d' ++ rest.map Token.lexeme ∧
          tree d' = firstTree d) :
    Accounts lexemes tree before x := by
  cases x with
  | error err => exact hx
  | ok y =>
    obtain ⟨e, rest⟩ := y
    obtain ⟨d, hd, rfl⟩ := hx
    exact h d rest hd

namespace AccountsAt

theorem zero (source : String) : AccountsAt source 0 :=
  ⟨fun _ _ => rfl, fun _ _ _ => rfl, fun _ _ => rfl, fun _ _ => rfl, fun _ _ => rfl⟩

theorem product_succ (h : AccountsAt source depth) (hw : Token.AllWellFormed tokens) :
    Accounts Product.lexemes Product.tree tokens (readProduct source (depth + 1) tokens) := by
  rw [readProduct]
  refine (h.term tokens hw).bind fun t rest ht => ?_
  refine (h.factors t.tree rest (hw.of_append ht)).imp fun fs after hfs => ?_
  exact ⟨.mk t fs, by rw [Product.lexemes, ht, hfs, List.append_assoc], rfl⟩

/-- A factor behind a sign, and the factors that follow it. -/
theorem joined (h : AccountsAt source depth) (sign : FactorSign) (left : Expression)
    (hw : Token.AllWellFormed tokens) (hsign : Token.startsWith sign.operator tokens = true) :
    Accounts Factors.lexemes (Factors.fold · left) tokens (do
      let (right, rest) ← readTerm source depth tokens.tail
      readFactors source depth (sign.combine left right) rest) := by
  refine (h.term tokens.tail hw.tail).bind fun t rest ht => ?_
  refine (h.factors (sign.combine left t.tree) rest (hw.tail.of_append ht)).imp
    fun fs after hfs => ?_
  refine ⟨.joined sign t fs, ?_, rfl⟩
  rw [Token.startsWith_iff.mp hsign, Factors.lexemes, ht, hfs, List.cons_append,
    List.append_assoc]

theorem factors_succ (h : AccountsAt source depth) (left : Expression)
    (hw : Token.AllWellFormed tokens) :
    Accounts Factors.lexemes (Factors.fold · left) tokens
      (readFactors source (depth + 1) left tokens) := by
  rw [readFactors]
  split
  · next hstar => exact h.joined .star left hw hstar
  split
  · next hslash => exact h.joined .slash left hw hslash
  split
  · next hatom =>
    refine (h.term tokens hw).bind fun t rest ht => ?_
    -- The tokens begin an atom, so the term that was read has no minus sign.
    have hhead : (tokens.map Token.lexeme).head? = t.lexemes.head? := by
      obtain ⟨l, ls, hl⟩ := List.exists_cons_of_ne_nil t.lexemes_ne_nil
      rw [ht, hl]
      rfl
    obtain ⟨p, rfl⟩ := t.beginsAtom_iff.mp (hhead ▸ Token.startsAtom_iff.mp hatom)
    refine (h.factors (.mul left p.tree) rest (hw.of_append ht)).imp fun fs after hfs => ?_
    refine ⟨.beside p fs, ?_, rfl⟩
    rw [ht, Factors.lexemes, hfs, Term.lexemes, List.append_assoc]
  · exact ⟨.done, rfl, rfl⟩

theorem term_succ (h : AccountsAt source depth) (hw : Token.AllWellFormed tokens) :
    Accounts Term.lexemes Term.tree tokens (readTerm source (depth + 1) tokens) := by
  rw [readTerm]
  split
  · next hminus =>
    refine (h.term tokens.tail hw.tail).bind fun t rest ht => ⟨.neg t, ?_, rfl⟩
    rw [Token.startsWith_iff.mp hminus, Term.lexemes, ht, List.cons_append]
  · refine (h.power tokens hw).imp fun p rest hp => ⟨.power p, ?_, rfl⟩
    rw [Term.lexemes, hp]

/-- The sign at which an exponent begins. -/
theorem exists_sign {tokens : List Token}
    (h : (Token.startsWith .caret tokens || Token.startsWith .doubleStar tokens) = true) :
    ∃ sign : PowerSign, Token.startsWith sign.operator tokens = true := by
  rcases Bool.or_eq_true_iff.mp h with h | h
  · exact ⟨.caret, h⟩
  · exact ⟨.doubleStar, h⟩

theorem power_succ (h : AccountsAt source depth) (hw : Token.AllWellFormed tokens) :
    Accounts Power.lexemes Power.tree tokens (readPower source (depth + 1) tokens) := by
  rw [readPower]
  refine (h.atom tokens hw).bind fun a rest ha => ?_
  dsimp only
  split
  · next hsign =>
    obtain ⟨sign, hsign⟩ := exists_sign hsign
    refine (h.term rest.tail (hw.of_append ha).tail).bind
      fun t after ht => ⟨.raised a sign t, ?_, rfl⟩
    rw [ha, Token.startsWith_iff.mp hsign, Power.lexemes, ht, List.append_assoc, List.cons_append]
  · exact ⟨.atom a, ha, rfl⟩

theorem atom_succ (h : AccountsAt source depth) (hw : Token.AllWellFormed tokens) :
    Accounts Atom.lexemes Atom.tree tokens (readAtom source (depth + 1) tokens) := by
  match tokens with
  | [] => exact rfl
  | ⟨.number numeral, position⟩ :: rest =>
    rw [readAtom_number (List.forall_mem_cons.mp hw).1]
    exact ⟨.number numeral, rfl, rfl⟩
  | ⟨.name text, position⟩ :: rest => exact ⟨.name text, rfl, rfl⟩
  | ⟨.operator .opening, position⟩ :: rest =>
    rw [readAtom]
    refine (h.product rest (List.forall_mem_cons.mp hw).2).bind fun p after hp => ?_
    dsimp only
    split
    · next hclosing =>
      refine ⟨.group p, ?_, rfl⟩
      rw [List.map_cons, hp, Token.startsWith_iff.mp hclosing, Atom.lexemes]
      simp
    · exact rfl
  | ⟨.operator .star, _⟩ :: _ | ⟨.operator .slash, _⟩ :: _ | ⟨.operator .caret, _⟩ :: _
  | ⟨.operator .doubleStar, _⟩ :: _ | ⟨.operator .minus, _⟩ :: _ | ⟨.operator .plus, _⟩ :: _
  | ⟨.operator .closing, _⟩ :: _ => exact rfl

end AccountsAt

theorem accountsAt (source : String) (depth : Nat) : AccountsAt source depth := by
  induction depth with
  | zero => exact .zero source
  | succ depth ih =>
    exact ⟨fun _ => ih.product_succ, fun left _ => ih.factors_succ left, fun _ => ih.term_succ,
      fun _ => ih.power_succ, fun _ => ih.atom_succ⟩

/-! ### What is derived is read -/

theorem startsWith_sign_eq_false {rest : List Token} (h : EndsPower (rest.map Token.lexeme)) :
    (Token.startsWith .caret rest || Token.startsWith .doubleStar rest) = false := by
  rw [Token.startsWith_eq_false fun l hl => (h l hl).1,
    Token.startsWith_eq_false fun l hl => (h l hl).2, Bool.or_self]

theorem length_pos_of_map_eq {tokens : List Token} {ls : List Lexeme}
    (h : tokens.map Token.lexeme = ls) (hne : ls ≠ []) : 0 < tokens.length := by
  rw [← List.length_map Token.lexeme, h]
  exact List.length_pos_iff.mpr hne

/-- What begins an atom begins with no other operator. -/
theorem startsWith_eq_false_of_beginsAtom {tokens : List Token} {l : Lexeme} {ls : List Lexeme}
    (h : tokens.map Token.lexeme = l :: ls) (hl : beginsAtom l = true) (op : Operator)
    (hop : beginsAtom (.operator op) = false) (rest : List Token) :
    Token.startsWith op (tokens ++ rest) = false := by
  apply Token.startsWith_eq_false
  rw [List.map_append, h]
  rintro l' ⟨⟩ rfl
  cases hl.symm.trans hop

/-- What begins an atom begins with no minus sign. -/
theorem readTerm_of_beginsAtom (source : String) (depth : Nat) {tokens : List Token} {l : Lexeme}
    {ls : List Lexeme} (h : tokens.map Token.lexeme = l :: ls) (hl : beginsAtom l = true)
    (rest : List Token) :
    readTerm source (depth + 1) (tokens ++ rest) = readPower source depth (tokens ++ rest) := by
  rw [readTerm, startsWith_eq_false_of_beginsAtom h hl .minus rfl rest,
    if_neg Bool.false_ne_true]

/-- The factors behind a first one end its power. -/
theorem endsPower_factors {fs : Factors} {others rest : List Token}
    (hfs : others.map Token.lexeme = fs.lexemes) (hends : EndsProduct (rest.map Token.lexeme)) :
    EndsPower ((others ++ rest).map Token.lexeme) := by
  rw [List.map_append, hfs]
  exact fs.endsPower hends

/-- Behind the last factor no further one is read. -/
theorem readFactors_of_endsProduct (source : String) (depth : Nat) (left : Expression)
    {rest : List Token} (h : EndsProduct (rest.map Token.lexeme)) :
    readFactors source (depth + 1) left rest = .ok (left, rest) := by
  have hne {l : Lexeme} (hl : l ∈ (rest.map Token.lexeme).head?) :
      l ≠ .operator .star ∧ l ≠ .operator .slash ∧ beginsAtom l = false := by
    rcases h l hl with rfl | rfl | rfl <;> simp [beginsAtom]
  have hatom : ¬ Token.startsAtom rest = true := by
    rw [Token.startsAtom_iff]
    rintro ⟨l, hl, hb⟩
    cases hb.symm.trans (hne hl).2.2
  rw [readFactors, Token.startsWith_eq_false fun l hl => (hne hl).1,
    Token.startsWith_eq_false fun l hl => (hne hl).2.1, if_neg Bool.false_ne_true,
    if_neg Bool.false_ne_true, if_neg hatom]

-- The induction is on the derivation.  Each rule needs one level more than the rules below it, and
-- only an atom in parentheses, which writes two tokens of its own, begins anew.
mutual

theorem readAtom_eq (source : String) (a : Atom) (depth : Nat) {tokens : List Token}
    (hw : Token.AllWellFormed tokens) (h : tokens.map Token.lexeme = a.lexemes)
    (hdepth : 4 * tokens.length ≤ depth + 3) (rest : List Token) :
    readAtom source depth (tokens ++ rest) = .ok (a.tree, rest) := by
  have hpos : 0 < tokens.length := length_pos_of_map_eq h a.lexemes_ne_nil
  obtain ⟨depth, rfl⟩ : ∃ d, depth = d + 1 := ⟨depth - 1, by omega⟩
  match a with
  | .number numeral =>
    rw [Atom.lexemes, List.map_eq_singleton_iff] at h
    obtain ⟨⟨l, position⟩, rfl, rfl⟩ := h
    exact readAtom_number (hw _ List.mem_cons_self) source depth position rest
  | .name text =>
    rw [Atom.lexemes, List.map_eq_singleton_iff] at h
    obtain ⟨⟨l, position⟩, rfl, rfl⟩ := h
    rfl
  | .group p =>
    rw [Atom.lexemes, List.map_eq_cons_iff] at h
    obtain ⟨⟨l, position⟩, inner, rfl, rfl, hinner⟩ := h
    rw [List.map_eq_append_iff] at hinner
    obtain ⟨inner, last, rfl, hp, hlast⟩ := hinner
    rw [List.map_eq_singleton_iff] at hlast
    obtain ⟨⟨l, closing⟩, rfl, rfl⟩ := hlast
    have hends : EndsProduct ((⟨.operator .closing, closing⟩ :: rest).map Token.lexeme) :=
      endsProduct_closing _
    have hinside : Token.AllWellFormed inner :=
      (List.forall_mem_append.mp (List.forall_mem_cons.mp hw).2).1
    have hread := readProduct_eq source p depth hinside hp
      (by simp only [List.length_cons, List.length_append, List.length_nil] at hdepth; omega) hends
    rw [List.cons_append, List.append_assoc, readAtom]
    show (readProduct source depth (inner ++ ⟨.operator .closing, closing⟩ :: rest) >>= _) = _
    rw [hread]
    rfl

theorem readPower_eq (source : String) (p : Power) (depth : Nat) {tokens : List Token}
    (hw : Token.AllWellFormed tokens) (h : tokens.map Token.lexeme = p.lexemes)
    (hdepth : 4 * tokens.length ≤ depth + 2) {rest : List Token}
    (hends : EndsPower (rest.map Token.lexeme)) :
    readPower source depth (tokens ++ rest) = .ok (p.tree, rest) := by
  have hpos : 0 < tokens.length := length_pos_of_map_eq h p.lexemes_ne_nil
  obtain ⟨depth, rfl⟩ : ∃ d, depth = d + 1 := ⟨depth - 1, by omega⟩
  match p with
  | .atom a =>
    rw [Power.lexemes] at h
    rw [readPower, readAtom_eq source a depth hw h (by omega) rest]
    show (if _ then _ else _) = _
    rw [startsWith_sign_eq_false hends]
    rfl
  | .raised a sign t =>
    rw [Power.lexemes, List.map_eq_append_iff] at h
    obtain ⟨base, behind, rfl, ha, hbehind⟩ := h
    rw [List.map_eq_cons_iff] at hbehind
    obtain ⟨⟨l, position⟩, exponent, rfl, rfl, ht⟩ := hbehind
    obtain ⟨hwbase, hwbehind⟩ := List.forall_mem_append.mp hw
    obtain ⟨-, hwexponent⟩ := List.forall_mem_cons.mp hwbehind
    simp only [List.length_append, List.length_cons] at hdepth
    have hbase := readAtom_eq source a depth hwbase ha (by omega)
      (⟨.operator sign.operator, position⟩ :: exponent ++ rest)
    have hexponent := readTerm_eq source t depth hwexponent ht (by omega) hends
    rw [List.append_assoc, readPower, hbase]
    show (if _ then (readTerm source depth (exponent ++ rest) >>= _) else _) = _
    rw [hexponent]
    cases sign <;> rfl

theorem readTerm_eq (source : String) (t : Term) (depth : Nat) {tokens : List Token}
    (hw : Token.AllWellFormed tokens) (h : tokens.map Token.lexeme = t.lexemes)
    (hdepth : 4 * tokens.length ≤ depth + 1) {rest : List Token}
    (hends : EndsPower (rest.map Token.lexeme)) :
    readTerm source depth (tokens ++ rest) = .ok (t.tree, rest) := by
  have hpos : 0 < tokens.length := length_pos_of_map_eq h t.lexemes_ne_nil
  obtain ⟨depth, rfl⟩ : ∃ d, depth = d + 1 := ⟨depth - 1, by omega⟩
  match t with
  | .neg t =>
    rw [Term.lexemes, List.map_eq_cons_iff] at h
    obtain ⟨⟨l, position⟩, inner, rfl, rfl, ht⟩ := h
    rw [List.length_cons] at hdepth
    rw [readTerm]
    show (readTerm source depth (inner ++ rest) >>= _) = _
    rw [readTerm_eq source t depth (List.forall_mem_cons.mp hw).2 ht (by omega) hends]
    rfl
  | .power p =>
    rw [Term.lexemes] at h
    obtain ⟨l, ls, hl, hb⟩ := p.exists_lexemes_eq_cons
    rw [readTerm_of_beginsAtom source depth (h.trans hl) hb]
    exact readPower_eq source p depth hw h (by omega) hends

theorem readFactors_eq (source : String) (fs : Factors) (left : Expression) (depth : Nat)
    {tokens : List Token} (hw : Token.AllWellFormed tokens)
    (h : tokens.map Token.lexeme = fs.lexemes) (hdepth : 4 * tokens.length + 1 ≤ depth)
    {rest : List Token} (hends : EndsProduct (rest.map Token.lexeme)) :
    readFactors source depth left (tokens ++ rest) = .ok (fs.fold left, rest) := by
  obtain ⟨depth, rfl⟩ : ∃ d, depth = d + 1 := ⟨depth - 1, by omega⟩
  match fs with
  | .done =>
    rw [Factors.lexemes, List.map_eq_nil_iff] at h
    rw [h, List.nil_append]
    exact readFactors_of_endsProduct source depth left hends
  | .joined sign t fs =>
    rw [Factors.lexemes, List.map_eq_cons_iff] at h
    obtain ⟨⟨l, position⟩, behind, rfl, rfl, hbehind⟩ := h
    rw [List.map_eq_append_iff] at hbehind
    obtain ⟨factor, others, rfl, ht, hfs⟩ := hbehind
    obtain ⟨-, hwbehind⟩ := List.forall_mem_cons.mp hw
    obtain ⟨hwfactor, hwothers⟩ := List.forall_mem_append.mp hwbehind
    simp only [List.length_append, List.length_cons] at hdepth
    have hafter : EndsPower ((others ++ rest).map Token.lexeme) := endsPower_factors hfs hends
    have hfactor := readTerm_eq source t depth hwfactor ht (by omega) hafter
    have hothers := readFactors_eq source fs (sign.combine left t.tree) depth hwothers hfs
      (by omega) hends
    rw [List.cons_append, List.append_assoc, readFactors]
    cases sign with
    | star =>
      show (readTerm source depth (factor ++ (others ++ rest)) >>= _) = _
      rw [hfactor]
      exact hothers
    | slash =>
      show (readTerm source depth (factor ++ (others ++ rest)) >>= _) = _
      rw [hfactor]
      exact hothers
  | .beside p fs =>
    rw [Factors.lexemes, List.map_eq_append_iff] at h
    obtain ⟨factor, others, rfl, hp, hfs⟩ := h
    obtain ⟨l, ls, hl, hb⟩ := p.exists_lexemes_eq_cons
    have hpos : 0 < factor.length := length_pos_of_map_eq hp p.lexemes_ne_nil
    obtain ⟨hwfactor, hwothers⟩ := List.forall_mem_append.mp hw
    rw [List.length_append] at hdepth
    obtain ⟨depth, rfl⟩ : ∃ d, depth = d + 1 := ⟨depth - 1, by omega⟩
    have hafter : EndsPower ((others ++ rest).map Token.lexeme) := endsPower_factors hfs hends
    have hfactor := readPower_eq source p depth hwfactor hp (by omega) hafter
    have hothers := readFactors_eq source fs (.mul left p.tree) (depth + 1) hwothers hfs
      (by omega) hends
    have hstar := startsWith_eq_false_of_beginsAtom (hp.trans hl) hb .star rfl
      (others ++ rest)
    have hslash := startsWith_eq_false_of_beginsAtom (hp.trans hl) hb .slash rfl
      (others ++ rest)
    have hatom : Token.startsAtom (factor ++ (others ++ rest)) = true := by
      rw [Token.startsAtom_iff, List.map_append, hp, hl]
      exact ⟨l, rfl, hb⟩
    rw [List.append_assoc, readFactors, hstar, hslash, if_neg Bool.false_ne_true,
      if_neg Bool.false_ne_true, if_pos hatom,
      readTerm_of_beginsAtom source depth (hp.trans hl) hb, hfactor]
    exact hothers

theorem readProduct_eq (source : String) (p : Product) (depth : Nat) {tokens : List Token}
    (hw : Token.AllWellFormed tokens) (h : tokens.map Token.lexeme = p.lexemes)
    (hdepth : 4 * tokens.length ≤ depth) {rest : List Token}
    (hends : EndsProduct (rest.map Token.lexeme)) :
    readProduct source depth (tokens ++ rest) = .ok (p.tree, rest) := by
  match p with
  | .mk t fs =>
    rw [Product.lexemes, List.map_eq_append_iff] at h
    obtain ⟨first, others, rfl, ht, hfs⟩ := h
    have hpos : 0 < first.length := length_pos_of_map_eq ht t.lexemes_ne_nil
    obtain ⟨hwfirst, hwothers⟩ := List.forall_mem_append.mp hw
    rw [List.length_append] at hdepth
    obtain ⟨depth, rfl⟩ : ∃ d, depth = d + 1 := ⟨depth - 1, by omega⟩
    have hafter : EndsPower ((others ++ rest).map Token.lexeme) := endsPower_factors hfs hends
    rw [List.append_assoc, readProduct, readTerm_eq source t depth hwfirst ht (by omega) hafter]
    exact readFactors_eq source fs t.tree depth hwothers hfs (by omega) hends

end

/-! ### Texts -/

/-- The tokens that a derivation writes are read as its tree. -/
theorem ofTokens_eq_ok (source : String) {p : Product} (hw : Token.AllWellFormed tokens)
    (h : tokens.map Token.lexeme = p.lexemes) : ofTokens source tokens = .ok p.tree := by
  have hne : tokens.isEmpty = false := by
    obtain ⟨t, fs⟩ := p
    rw [List.isEmpty_eq_false_iff]
    rintro rfl
    rw [Product.lexemes, List.map_nil, eq_comm, List.append_eq_nil_iff] at h
    exact t.lexemes_ne_nil h.1
  have hends : EndsProduct (([] : List Token).map Token.lexeme) := endsProduct_nil
  have hread := readProduct_eq source p (4 * (tokens.length + 1)) hw h (by omega) hends
  rw [List.append_nil] at hread
  rw [ofTokens, hne, if_neg Bool.false_ne_true, hread]
  rfl

/-- Tokens are read as the tree of a derivation that writes them, or else are malformed. -/
theorem ofTokens_cases (source : String) (hw : Token.AllWellFormed tokens) :
    (∃ p : Product, p.lexemes = tokens.map Token.lexeme ∧ ofTokens source tokens = .ok p.tree) ∨
    ∃ err, ofTokens source tokens = .error err ∧ err.kind = .malformedText := by
  rw [ofTokens]
  split
  · exact .inr ⟨_, rfl, rfl⟩
  have haccounts := (accountsAt source (4 * (tokens.length + 1))).product tokens hw
  cases hread : readProduct source (4 * (tokens.length + 1)) tokens with
  | error err =>
    rw [hread] at haccounts
    exact .inr ⟨err, rfl, haccounts⟩
  | ok x =>
    obtain ⟨e, rest⟩ := x
    rw [hread] at haccounts
    obtain ⟨p, hp, rfl⟩ := haccounts
    cases rest with
    | nil =>
      rw [List.map_nil, List.append_nil] at hp
      exact .inl ⟨p, hp.symm, rfl⟩
    | cons token rest => exact .inr ⟨_, rfl, rfl⟩

/-- What tokens are read as depends on their lexemes alone: neither on the text nor on where in it
they are. -/
theorem ofTokens_eq_of_lexemes (source source' : String) {tokens tokens' : List Token}
    (hw : Token.AllWellFormed tokens) (h : tokens'.map Token.lexeme = tokens.map Token.lexeme) :
    (∃ e, ofTokens source tokens = .ok e ∧ ofTokens source' tokens' = .ok e) ∨
    ∃ err err', ofTokens source tokens = .error err ∧ ofTokens source' tokens' = .error err' ∧
      err.kind = .malformedText ∧ err'.kind = .malformedText := by
  have hw' : Token.AllWellFormed tokens' := hw.of_map fun l hl => h ▸ hl
  obtain ⟨p, hp, hok⟩ | ⟨err, herr, hkind⟩ := ofTokens_cases source hw
  · exact .inl ⟨p.tree, hok, ofTokens_eq_ok source' hw' (h.trans hp.symm)⟩
  · obtain ⟨p, hp, -⟩ | ⟨err', herr', hkind'⟩ := ofTokens_cases source' hw'
    · cases herr.symm.trans (ofTokens_eq_ok source hw (h.symm.trans hp.symm))
    · exact .inr ⟨err, err', herr, herr', hkind, hkind'⟩

theorem ofText_of_tokens {text : String} {tokens : List Token}
    (h : Token.ofText text = .ok tokens) : ofText text = ofTokens text tokens := by
  rw [ofText, h]
  rfl

/-- **Reading accepts the grammar**: of a text that has tokens, the expressions that it is read as
are the trees of the derivations that write these tokens, of which there is at most one, and where
there is none the text is refused as malformed. -/
theorem ofText_eq_ok_iff_derivation {text : String} {tokens : List Token}
    (h : Token.ofText text = .ok tokens) :
    (∀ e, ofText text = .ok e ↔
      ∃ p : Product, p.lexemes = tokens.map Token.lexeme ∧ p.tree = e) ∧
    (∀ p q : Product, p.lexemes = tokens.map Token.lexeme →
      q.lexemes = tokens.map Token.lexeme → p = q) ∧
    ((¬ ∃ p : Product, p.lexemes = tokens.map Token.lexeme) ↔
      ∃ err, ofText text = .error err ∧ err.kind = .malformedText) := by
  have hw := Token.allWellFormed_of_ofText h
  rw [ofText_of_tokens h]
  refine ⟨fun e => ⟨fun he => ?_, ?_⟩, fun p q hp hq => ?_, fun hnone => ?_, ?_⟩
  · obtain ⟨p, hp, hok⟩ | ⟨err, herr, -⟩ := ofTokens_cases text hw
    · exact ⟨p, hp, Except.ok.inj (hok.symm.trans he)⟩
    · cases herr.symm.trans he
  · rintro ⟨p, hp, rfl⟩
    exact ofTokens_eq_ok text hw hp.symm
  · exact Product.unambiguous (hp.trans hq.symm)
  · obtain ⟨p, hp, -⟩ | herr := ofTokens_cases text hw
    · exact absurd ⟨p, hp⟩ hnone
    · exact herr
  · rintro ⟨err, herr, -⟩ ⟨p, hp⟩
    cases herr.symm.trans (ofTokens_eq_ok text hw hp.symm)

/-- Side by side binds like a slash, and an exponent takes a minus sign of its own. -/
theorem ofText_eq_ok_iff_derivation_quotient :
    ofText "2 m/s^-1" = .ok
      (.div (.mul (.number 2) (.name "m")) (.pow (.name "s") (.neg (.number 1)))) := by
  have htokens : Token.ofText "2 m/s^-1" = .ok
      [⟨.number ⟨['2'], false, [], none⟩, 0⟩, ⟨.name ['m'], 2⟩, ⟨.operator .slash, 3⟩,
        ⟨.name ['s'], 4⟩, ⟨.operator .caret, 5⟩, ⟨.operator .minus, 6⟩,
        ⟨.number ⟨['1'], false, [], none⟩, 7⟩] := by
    cbv
  have hiff := (ofText_eq_ok_iff_derivation htokens).1
  rw [hiff]
  refine ⟨.mk (.power (.atom (.number ⟨['2'], false, [], none⟩)))
    (.beside (.atom (.name ['m'])) (.joined .slash (.power (.raised (.name ['s']) .caret
      (.neg (.power (.atom (.number ⟨['1'], false, [], none⟩)))))) .done)), rfl, ?_⟩
  decide +kernel

end Expression

end Metrology
