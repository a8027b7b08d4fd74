import Mathlib.Data.List.Chain
import Metrology.Proofs.Expression.Parsing
import Metrology.Proofs.Number.Decimal

/-!
# Written lexemes are read back

A lexeme that is written in front of a text is the one that is scanned, provided that the text does
not continue it (`Lexeme.scan_text_append`): no digit, point or exponent behind a numeral, no word
character behind a name, no second star behind a star.  Hence a row of lexemes of which each two
neighbours keep apart is read back from the characters that write it (`Token.scans_spelled`), and
a derivation without factors side by side, whose lexemes always keep apart, is read back as its
tree (`Expression.ofText_spelled`).
-/

namespace Metrology

open Text

/-! ### Lexemes -/

namespace Lexeme

/-- Whether a lexeme is a plain numeral, an identifier or an operator. -/
def IsPlain : Lexeme → Prop
  | number numeral => numeral.IsPlain
  | name text => isIdentifier text = true
  | operator _ => True

/-- Whether a text does not continue the lexeme before it. -/
def EndsBefore : Lexeme → List Char → Prop
  | number _, rest => EndsRun continuesNumeral rest
  | name _, rest => EndsRun isWord rest
  | operator .star, rest => EndsRun (· == '*') rest
  | operator _, _ => True

theorem numeral_scan_eq_none {c : Char} (hdigit : isDigit c = false) (hpoint : c ≠ '.')
    (cs : List Char) : Numeral.scan (c :: cs) = none := by
  unfold Numeral.scan Numeral.scanDigits
  rw [digitRow, hdigit, if_neg Bool.false_ne_true]
  dsimp only
  split
  · rename_i after heq
    cases heq
    exact absurd rfl hpoint
  · rfl

theorem numeral_scan_of_isNameStart {c : Char} (h : isNameStart c = true) (cs : List Char) :
    Numeral.scan (c :: cs) = none := by
  have hdigit : isDigit c = false := by
    rw [isNameStart, Bool.and_eq_true, Bool.not_eq_true'] at h
    exact h.2
  have hpoint : c ≠ '.' := ne_of_class h (by decide +kernel)
  exact numeral_scan_eq_none hdigit hpoint cs

/-- The characters of operators are in no class of which numerals and names are made. -/
theorem not_word_of_mem_operator (o : Operator) :
    ∀ c ∈ o.text, isWord c = false ∧ isDigit c = false ∧ isBlank c = false ∧ c ≠ '.' := by
  have hall : (o.text.all fun c => !isWord c && !isDigit c && !isBlank c && c != '.') = true := by
    cases o <;> decide +kernel
  intro c hc
  have hc' := List.all_eq_true.mp hall c hc
  simpa [and_assoc] using hc'

theorem operator_scan_text_append (o : Operator) {rest : List Char}
    (h : (operator o).EndsBefore rest) : Operator.scan (o.text ++ rest) = some (o, rest) := by
  cases o with
  | star =>
    cases rest with
    | nil => rfl
    | cons c cs =>
      have hc : c ≠ '*' := by
        rintro rfl
        cases h '*' rfl
      show Operator.scan ('*' :: c :: cs) = _
      unfold Operator.scan
      split <;> simp_all
  | slash | caret | doubleStar | minus | plus | opening | closing => rfl

/-- A lexeme is read back in front of a text that does not continue it. -/
theorem scan_text_append {l : Lexeme} (hl : l.IsPlain) {rest : List Char}
    (h : l.EndsBefore rest) : scan (l.text ++ rest) = some (l, rest) := by
  cases l with
  | number numeral =>
    unfold scan
    rw [text, Numeral.scan_text_append hl.wellFormed h]
  | name cs =>
    obtain ⟨c, cs, rfl⟩ := List.exists_cons_of_ne_nil (isWord_of_isIdentifier hl).1
    have hstart : isNameStart c = true := by
      rw [IsPlain, isIdentifier, Bool.and_eq_true] at hl
      exact hl.1
    have hword (x : Char) (hx : x ∈ cs) : isWord x = true :=
      (isWord_of_isIdentifier hl).2 x (List.mem_cons_of_mem c hx)
    unfold scan
    rw [text, List.cons_append, numeral_scan_of_isNameStart hstart]
    dsimp only
    rw [if_pos hstart, takeWhile_append_of_ends hword h, dropWhile_append_of_ends hword h]
  | operator o =>
    obtain ⟨c, cs, hc⟩ := List.exists_cons_of_ne_nil o.text_ne_nil
    have hmem : c ∈ o.text := by
      rw [hc]
      exact List.mem_cons_self
    obtain ⟨hword, hdigit, -, hpoint⟩ := not_word_of_mem_operator o c hmem
    have hstart : isNameStart c = false := by
      rw [isNameStart, hword, Bool.false_and]
    have hscan : Operator.scan (c :: (cs ++ rest)) = some (o, rest) := by
      have := operator_scan_text_append o h
      rwa [hc, List.cons_append] at this
    unfold scan
    rw [text, hc, List.cons_append, numeral_scan_eq_none hdigit hpoint]
    dsimp only
    rw [hstart, if_neg Bool.false_ne_true, hscan, Option.map_some]

/-! ### Rows of lexemes -/

/-- Whether a lexeme is a number or a name. -/
def isOperand : Lexeme → Bool
  | number _ | name _ => true
  | operator _ => false

/-- Whether one lexeme can be written directly before another: two operands run together, and two
stars are another operator. -/
structure Apart (l l' : Lexeme) : Prop where
  operand : l.isOperand = true → l'.isOperand = false
  star : l = operator .star → l' ≠ operator .star ∧ l' ≠ operator .doubleStar

theorem endsRun_operator {p : Char → Bool} {o : Operator} (h : ∀ c ∈ o.text, p c = false)
    (rest : List Char) : EndsRun p (o.text ++ rest) := by
  obtain ⟨c, cs, hc⟩ := List.exists_cons_of_ne_nil o.text_ne_nil
  rw [hc] at h ⊢
  exact endsRun_cons (h c List.mem_cons_self) _

theorem continuesNumeral_of_mem_operator (o : Operator) :
    ∀ c ∈ o.text, continuesNumeral c = false := by
  have hall : (o.text.all fun c => !continuesNumeral c) = true := by
    cases o <;> decide +kernel
  intro c hc
  have hc' := List.all_eq_true.mp hall c hc
  exact (Bool.not_eq_true' _).mp hc'

theorem exists_text_eq_cons {l : Lexeme} (hl : l.IsPlain) :
    ∃ c cs, l.text = c :: cs ∧ isBlank c = false ∧ (l.isOperand = true → c ≠ '*') := by
  have hstar {c : Char} (hc : isWord c = true) : c ≠ '*' := ne_of_class hc (by decide +kernel)
  cases l with
  | number numeral =>
    obtain ⟨c, cs, hc, hdigit⟩ := Numeral.IsPlain.exists_text_eq_cons hl
    have hword := isWord_of_isDigit hdigit
    exact ⟨c, cs, hc, isBlank_eq_false_of_isWord hword, fun _ => hstar hword⟩
  | name cs =>
    obtain ⟨hne, hword⟩ := isWord_of_isIdentifier hl
    obtain ⟨c, cs, rfl⟩ := List.exists_cons_of_ne_nil hne
    have hc := hword c List.mem_cons_self
    exact ⟨c, cs, rfl, isBlank_eq_false_of_isWord hc, fun _ => hstar hc⟩
  | operator o =>
    obtain ⟨c, cs, hc⟩ := List.exists_cons_of_ne_nil o.text_ne_nil
    have hmem : c ∈ o.text := by
      rw [hc]
      exact List.mem_cons_self
    exact ⟨c, cs, hc, (not_word_of_mem_operator o c hmem).2.2.1, fun h => by cases h⟩

theorem Apart.endsBefore {l l' : Lexeme} (h : l.Apart l') (hl' : l'.IsPlain) (rest : List Char) :
    l.EndsBefore (l'.text ++ rest) := by
  cases l with
  | number numeral =>
    cases l' with
    | operator o => exact endsRun_operator (continuesNumeral_of_mem_operator o) rest
    | number _ | name _ => cases h.operand rfl
  | name cs =>
    cases l' with
    | operator o => exact endsRun_operator (fun c hc => (not_word_of_mem_operator o c hc).1) rest
    | number _ | name _ => cases h.operand rfl
  | operator o =>
    cases o with
    | star =>
      have hfirst : ∃ c cs, l'.text = c :: cs ∧ c ≠ '*' := by
        cases l' with
        | number _ | name _ =>
          obtain ⟨c, cs, hc, -, hne⟩ := exists_text_eq_cons hl'
          exact ⟨c, cs, hc, hne rfl⟩
        | operator o =>
          obtain ⟨hstar, hdouble⟩ := h.star rfl
          cases o with
          | star => exact absurd rfl hstar
          | doubleStar => exact absurd rfl hdouble
          | slash | caret | minus | plus | opening | closing => exact ⟨_, _, rfl, by decide⟩
      obtain ⟨c, cs, hc, hne⟩ := hfirst
      rw [hc, List.cons_append]
      exact @endsRun_cons (· == '*') c (beq_eq_false_iff_ne.mpr hne) _
    | slash | caret | doubleStar | minus | plus | opening | closing => trivial

theorem endsBefore_nil (l : Lexeme) : l.EndsBefore [] := by
  cases l with
  | number _ | name _ => exact endsRun_nil _
  | operator o =>
    cases o with
    | star => exact endsRun_nil _
    | slash | caret | doubleStar | minus | plus | opening | closing => trivial

end Lexeme

namespace Token

variable {l : Lexeme} {ls : List Lexeme} {cs : List Char}

/-- Whether a text is scanned as a row of lexemes, wherever it begins. -/
def Scans (cs : List Char) (ls : List Lexeme) : Prop :=
  ∀ position, ∃ tokens, scanFrom position cs = .ok tokens ∧ tokens.map lexeme = ls

theorem scans_nil : Scans [] [] := fun _ => ⟨[], by rw [scanFrom]; rfl, rfl⟩

/-- A plain lexeme in front of a text that does not continue it is the first token. -/
theorem scanFrom_text_append (hl : l.IsPlain) (hends : l.EndsBefore cs) (position : Nat) :
    scanFrom position (l.text ++ cs) = do
      let tokens ← scanFrom (position + l.text.length) cs
      return ⟨l, position⟩ :: tokens := by
  have hscan := Lexeme.scan_text_append hl hends
  -- A lexeme does not begin with a blank, so that it is scanned where the text begins.
  obtain ⟨c, rest, hc, hblank, -⟩ := Lexeme.exists_text_eq_cons hl
  have hstart : EndsRun isBlank (l.text ++ cs) := by
    rw [hc]
    exact endsRun_cons hblank _
  have hne : l.text ++ cs ≠ [] := by
    rw [hc]
    exact List.cons_ne_nil _ _
  rw [scanFrom, dropBlank, dropWhile_of_ends hstart, takeWhile_of_ends hstart, if_neg hne]
  dsimp only [List.length_nil, Nat.add_zero]
  split
  · rename_i h
    cases h.symm.trans hscan
  · rename_i l' rest h
    cases h.symm.trans hscan
    rfl

/-- A plain lexeme is scanned in front of a text that does not continue it. -/
theorem Scans.lexeme (h : Scans cs ls) (hl : l.IsPlain) (hends : l.EndsBefore cs) :
    Scans (l.text ++ cs) (l :: ls) := by
  intro position
  obtain ⟨tokens, htokens, hmap⟩ := h (position + l.text.length)
  refine ⟨⟨l, position⟩ :: tokens, ?_, by rw [List.map_cons, hmap]⟩
  rw [scanFrom_text_append hl hends, htokens]
  rfl

/-- An identifier is a single token, which begins where the text does. -/
theorem ofText_identifier {name : String} (h : isIdentifier name.toList = true) :
    ofText name = .ok [⟨.name name.toList, 0⟩] := by
  have hplain : (Lexeme.name name.toList).IsPlain := h
  have hends : (Lexeme.name name.toList).EndsBefore [] := Lexeme.endsBefore_nil _
  have hscan := scanFrom_text_append hplain hends 0
  rw [Lexeme.text, List.append_nil] at hscan
  rw [ofText, hscan, scanFrom]
  rfl

theorem scanFrom_cons_blank {c : Char} (hc : isBlank c = true) (position : Nat) (cs : List Char) :
    scanFrom position (c :: cs) = scanFrom (position + 1) cs := by
  have hdrop : dropBlank (c :: cs) = dropBlank cs := by
    rw [dropBlank, List.dropWhile_cons, if_pos hc]
    rfl
  have hlength : position + ((c :: cs).takeWhile isBlank).length =
      position + 1 + (cs.takeWhile isBlank).length := by
    rw [List.takeWhile_cons, if_pos hc, List.length_cons]
    omega
  rw [scanFrom, scanFrom, hlength, hdrop]

/-- A blank in front of a text does not count. -/
theorem Scans.blank (h : Scans cs ls) {c : Char} (hc : isBlank c = true) : Scans (c :: cs) ls := by
  intro position
  rw [scanFrom_cons_blank hc]
  exact h (position + 1)

theorem Scans.ofText (h : Scans cs ls) :
    ∃ tokens, ofText (String.ofList cs) = .ok tokens ∧ tokens.map Token.lexeme = ls := by
  rw [Token.ofText, String.toList_ofList]
  exact h 0

/-- A row of plain lexemes that keep apart is read back from what they write. -/
theorem scans_spelled (hplain : ∀ l ∈ ls, l.IsPlain) (hchain : ls.IsChain Lexeme.Apart) :
    Scans (ls.flatMap Lexeme.text) ls := by
  induction ls with
  | nil => exact scans_nil
  | cons l ls ih =>
    have hl : l.IsPlain := hplain l List.mem_cons_self
    have hls : ∀ l ∈ ls, l.IsPlain := fun l' h => hplain l' (List.mem_cons_of_mem l h)
    rw [List.isChain_cons] at hchain
    have hends : l.EndsBefore (ls.flatMap Lexeme.text) := by
      cases ls with
      | nil => exact l.endsBefore_nil
      | cons l' ls => exact (hchain.1 l' rfl).endsBefore (hls l' List.mem_cons_self) _
    exact (ih hls hchain.2).lexeme hl hends

end Token

/-! ### Derivations without factors side by side -/

namespace Grammar

mutual

/-- Whether all leaves are plain and no factor stands beside another without an operator. -/
def Atom.IsSpelled : Atom → Prop
  | .number numeral => numeral.IsPlain
  | .name text => isIdentifier text = true
  | .group inner => inner.IsSpelled

def Power.IsSpelled : Power → Prop
  | .atom base => base.IsSpelled
  | .raised base _ exponent => base.IsSpelled ∧ exponent.IsSpelled

def Term.IsSpelled : Term → Prop
  | .neg inner => inner.IsSpelled
  | .power inner => inner.IsSpelled

def Factors.IsSpelled : Factors → Prop
  | .done => True
  | .joined _ factor rest => factor.IsSpelled ∧ rest.IsSpelled
  | .beside _ _ => False

def Product.IsSpelled : Product → Prop
  | .mk first rest => first.IsSpelled ∧ rest.IsSpelled

end

/-- Whether a row of lexemes is read back from what it writes. -/
structure Written (ls : List Lexeme) : Prop where
  plain : ∀ l ∈ ls, l.IsPlain
  chain : ls.IsChain Lexeme.Apart

/-- Whether an operand may stand before a row of lexemes. -/
def EndsOperand (ls : List Lexeme) : Prop := ∀ l ∈ ls.head?, l.isOperand = false

theorem endsOperand_nil : EndsOperand [] := fun _ h => nomatch h

theorem endsOperand_operator (o : Operator) (ls : List Lexeme) :
    EndsOperand (.operator o :: ls) := by
  rintro l ⟨⟩
  rfl

theorem written_nil : Written [] := ⟨fun _ h => absurd h List.not_mem_nil, .nil⟩

theorem Written.cons {l : Lexeme} {ls : List Lexeme} (hl : l.IsPlain)
    (hapart : ∀ l' ∈ ls.head?, l.Apart l') (h : Written ls) : Written (l :: ls) := by
  refine ⟨fun l' hl' => ?_, List.isChain_cons.mpr ⟨hapart, h.chain⟩⟩
  rcases List.mem_cons.mp hl' with rfl | hl'
  · exact hl
  · exact h.plain l' hl'

theorem Written.cons_operand {l : Lexeme} {ls : List Lexeme} (hl : l.IsPlain)
    (hoperand : l.isOperand = true) (hends : EndsOperand ls) (h : Written ls) :
    Written (l :: ls) := by
  refine h.cons hl fun l' hl' => ⟨fun _ => hends l' hl', ?_⟩
  rintro rfl
  cases hoperand

/-- Anything may stand behind an operator that is no star. -/
theorem Written.cons_operator {o : Operator} (ho : o ≠ .star) {ls : List Lexeme}
    (h : Written ls) : Written (.operator o :: ls) := by
  refine h.cons trivial fun l' _ => ⟨nofun, fun heq => ?_⟩
  exact absurd (Lexeme.operator.inj heq) ho

theorem Term.exists_lexemes_eq_cons (t : Term) :
    ∃ l ls, t.lexemes = l :: ls ∧ (beginsAtom l = true ∨ l = .operator .minus) := by
  cases t with
  | neg inner => exact ⟨_, _, by rw [Term.lexemes], .inr rfl⟩
  | power inner =>
    obtain ⟨l, ls, hl, hb⟩ := inner.exists_lexemes_eq_cons
    exact ⟨l, ls, by rw [Term.lexemes, hl], .inl hb⟩

/-- No term begins with a star. -/
theorem Written.cons_sign (sign : FactorSign) {t : Term} {ls : List Lexeme}
    (h : Written (t.lexemes ++ ls)) : Written (.operator sign.operator :: (t.lexemes ++ ls)) := by
  obtain ⟨l, rest, hl, hbegins⟩ := t.exists_lexemes_eq_cons
  refine h.cons trivial fun l' hl' => ⟨nofun, fun _ => ?_⟩
  rw [hl] at hl'
  obtain rfl := Option.some.inj hl'
  constructor
  · rintro rfl
    rcases hbegins with hbegins | hbegins <;> cases hbegins
  · rintro rfl
    rcases hbegins with hbegins | hbegins <;> cases hbegins

/-- Behind a factor stands an operator, unless factors stand side by side. -/
theorem Factors.IsSpelled.endsOperand {fs : Factors} (hfs : fs.IsSpelled) {r : List Lexeme}
    (hr : EndsOperand r) : EndsOperand (fs.lexemes ++ r) := by
  cases fs with
  | done => rwa [Factors.lexemes]
  | joined sign factor rest =>
    rw [Factors.lexemes]
    exact endsOperand_operator _ _
  | beside factor rest => exact absurd hfs (by rw [Factors.IsSpelled]; exact id)

-- The induction is on the derivation, for every row that may follow it.
mutual

theorem Atom.IsSpelled.written {a : Atom} (h : a.IsSpelled) {r : List Lexeme}
    (hends : EndsOperand r) (hr : Written r) : Written (a.lexemes ++ r) := by
  match a with
  | .number numeral =>
    rw [Atom.IsSpelled] at h
    rw [Atom.lexemes]
    exact hr.cons_operand h rfl hends
  | .name text =>
    rw [Atom.IsSpelled] at h
    rw [Atom.lexemes]
    exact hr.cons_operand h rfl hends
  | .group inner =>
    rw [Atom.IsSpelled] at h
    have hclosing : Written (.operator .closing :: r) := hr.cons_operator (by decide)
    have hinner := h.written (endsOperand_operator .closing r) hclosing
    rw [Atom.lexemes, List.cons_append, List.append_assoc]
    exact hinner.cons_operator (by decide)

theorem Power.IsSpelled.written {p : Power} (h : p.IsSpelled) {r : List Lexeme}
    (hends : EndsOperand r) (hr : Written r) : Written (p.lexemes ++ r) := by
  match p with
  | .atom base =>
    rw [Power.IsSpelled] at h
    rw [Power.lexemes]
    exact h.written hends hr
  | .raised base sign exponent =>
    rw [Power.IsSpelled] at h
    have hexponent := h.2.written hends hr
    have hsign : Written (.operator sign.operator :: (exponent.lexemes ++ r)) := by
      apply hexponent.cons_operator
      cases sign <;> decide
    rw [Power.lexemes, List.append_assoc, List.cons_append]
    exact h.1.written (endsOperand_operator _ _) hsign

theorem Term.IsSpelled.written {t : Term} (h : t.IsSpelled) {r : List Lexeme}
    (hends : EndsOperand r) (hr : Written r) : Written (t.lexemes ++ r) := by
  match t with
  | .neg inner =>
    rw [Term.IsSpelled] at h
    have hinner := h.written hends hr
    rw [Term.lexemes, List.cons_append]
    exact hinner.cons_operator (by decide)
  | .power inner =>
    rw [Term.IsSpelled] at h
    rw [Term.lexemes]
    exact h.written hends hr

theorem Factors.IsSpelled.written {fs : Factors} (h : fs.IsSpelled) {r : List Lexeme}
    (hends : EndsOperand r) (hr : Written r) : Written (fs.lexemes ++ r) := by
  match fs with
  | .done => rwa [Factors.lexemes]
  | .joined sign factor rest =>
    rw [Factors.IsSpelled] at h
    have hrest := h.2.written hends hr
    have hfactor := h.1.written (h.2.endsOperand hends) hrest
    rw [Factors.lexemes, List.cons_append, List.append_assoc]
    exact hfactor.cons_sign sign
  | .beside factor rest => exact absurd h (by rw [Factors.IsSpelled]; exact id)

theorem Product.IsSpelled.written {p : Product} (h : p.IsSpelled) {r : List Lexeme}
    (hends : EndsOperand r) (hr : Written r) : Written (p.lexemes ++ r) := by
  match p with
  | .mk first rest =>
    rw [Product.IsSpelled] at h
    have hrest := h.2.written hends hr
    rw [Product.lexemes, List.append_assoc]
    exact h.1.written (h.2.endsOperand hends) hrest

end

end Grammar

open Grammar in
/-- A text that is scanned as what a derivation writes is read as its tree. -/
theorem Expression.ofText_of_scans {cs : List Char} {p : Product}
    (h : Token.Scans cs p.lexemes) : Expression.ofText (String.ofList cs) = .ok p.tree := by
  obtain ⟨tokens, htokens, hmap⟩ := h.ofText
  rw [ofText_of_tokens htokens, ofTokens_eq_ok _ (Token.allWellFormed_of_ofText htokens) hmap]

open Grammar in
/-- What a derivation without factors side by side writes, without blanks, is read as its tree. -/
theorem Expression.ofText_spelled {p : Product} (h : p.IsSpelled) :
    Expression.ofText (String.ofList (p.lexemes.flatMap Lexeme.text)) = .ok p.tree := by
  have hwritten := h.written endsOperand_nil written_nil
  rw [List.append_nil] at hwritten
  exact ofText_of_scans (Token.scans_spelled hwritten.plain hwritten.chain)

end Metrology
