import Metrology.Proofs.Expression.Scanning

/-!
# The longest lexeme

Scanning takes the longest lexeme off the front of a text (`Lexeme.scan_eq_some_iff`): what is taken
has the form of its kind, and every lexeme in front of a text is taken, perhaps with more of the
text (`Lexeme.WellFormed.exists_scan`).  Nothing is taken exactly where no lexeme begins, which can
be seen from the first character, or from the first two where a point is in front
(`Lexeme.scan_cons_eq_none_iff`).
-/

namespace Metrology

open Text

/-- The characters of which operators are made. -/
def Operator.characters : List Char := ['*', '/', '^', '(', ')', '+', '-']

namespace Lexeme

variable {l : Lexeme} {cs rest : List Char}

/-! ### The longest lexeme -/

/-- A name in front of a text is read with the word characters that continue it. -/
theorem scan_name_append {c : Char} {text : List Char} (hc : isNameStart c = true)
    (htext : ∀ x ∈ text, isWord x = true) (rest : List Char) :
    scan (c :: (text ++ rest)) =
      some (name (c :: (text ++ rest.takeWhile isWord)), rest.dropWhile isWord) := by
  unfold scan
  rw [numeral_scan_of_isNameStart hc]
  dsimp only
  rw [if_pos hc, List.takeWhile_append_of_pos htext, List.dropWhile_append_of_pos htext]

/-- An operator is read in front of a text, perhaps with a second star. -/
theorem exists_scan_operator (o : Operator) (rest : List Char) :
    ∃ o' more after, rest = more ++ after ∧
      scan (o.text ++ rest) = some (operator o', after) ∧ (more = [] → o' = o) := by
  by_cases hends : (operator o).EndsBefore rest
  · exact ⟨o, [], rest, rfl, scan_text_append (l := operator o) trivial hends, fun _ => rfl⟩
  · -- Only a star is continued, and only by another one.
    cases o with
    | star =>
      have hstar : ∃ after, rest = '*' :: after := by
        by_contra hnone
        refine hends fun c hc => ?_
        rw [beq_eq_false_iff_ne]
        rintro rfl
        exact hnone ⟨_, List.eq_cons_of_mem_head? hc⟩
      obtain ⟨after, rfl⟩ := hstar
      have hdouble : scan ((operator .doubleStar).text ++ after) =
          some (operator .doubleStar, after) :=
        scan_text_append (l := operator .doubleStar) trivial trivial
      exact ⟨.doubleStar, ['*'], after, rfl, hdouble, fun h => absurd h (List.cons_ne_nil _ _)⟩
    | slash | caret | doubleStar | minus | plus | opening | closing => exact absurd trivial hends

/-- A lexeme in front of a text is read, perhaps with more of the text. -/
theorem WellFormed.exists_scan (h : l.WellFormed) (rest : List Char) :
    ∃ l' more after, rest = more ++ after ∧ scan (l.text ++ rest) = some (l', after) ∧
      (more = [] → l' = l) := by
  cases l with
  | number numeral =>
    obtain ⟨m, more, after, hrest, hscan, hsame, -⟩ := Numeral.WellFormed.exists_scan h rest
    refine ⟨number m, more, after, hrest, ?_, fun hnil => by rw [hsame hnil]⟩
    unfold scan
    rw [text, hscan]
  | name cs =>
    obtain ⟨c, cs, rfl⟩ := List.exists_cons_of_ne_nil (isWord_of_isIdentifier h).1
    have hname : isNameStart c = true ∧ ∀ x ∈ cs, isWord x = true := by
      rw [WellFormed, isIdentifier, Bool.and_eq_true, List.all_eq_true] at h
      exact h
    refine ⟨_, rest.takeWhile isWord, rest.dropWhile isWord,
      List.takeWhile_append_dropWhile.symm, scan_name_append hname.1 hname.2 rest, ?_⟩
    intro hnil
    rw [hnil, List.append_nil]
  | operator o =>
    obtain ⟨o', more, after, hrest, hscan, hsame⟩ := exists_scan_operator o rest
    exact ⟨operator o', more, after, hrest, hscan, fun hnil => by rw [hsame hnil]⟩

/-- Whether a lexeme is the longest one at the front of a text, given what follows it. -/
structure IsLongest (l : Lexeme) (cs rest : List Char) : Prop where
  wellFormed : l.WellFormed
  eq_append : cs = l.text ++ rest
  longest : ∀ (l' : Lexeme) (rest' : List Char), l'.WellFormed → cs = l'.text ++ rest' →
    l'.text.length ≤ l.text.length

theorem isLongest_of_scan (h : scan cs = some (l, rest)) : l.IsLongest cs rest := by
  refine ⟨wellFormed_of_scan h, eq_append_of_scan h, fun l' rest' hl' hcs => ?_⟩
  obtain ⟨found, more, after, hrest, hscan, -⟩ := hl'.exists_scan rest'
  rw [← hcs, h] at hscan
  obtain ⟨rfl, rfl⟩ := Prod.mk.inj (Option.some.inj hscan)
  -- What follows the scanned lexeme also follows the other one, perhaps later.
  have hlength := congrArg List.length (hcs.symm.trans (eq_append_of_scan h))
  rw [hrest] at hlength
  simp only [List.length_append] at hlength
  omega

/-- **Scanning takes the longest lexeme** off the front of a text. -/
theorem scan_eq_some_iff : scan cs = some (l, rest) ↔ l.IsLongest cs rest := by
  refine ⟨isLongest_of_scan, fun h => ?_⟩
  obtain ⟨found, more, after, hrest, hscan, hsame⟩ := h.wellFormed.exists_scan rest
  rw [← h.eq_append] at hscan
  -- What is found is no longer than the lexeme, so that nothing of the text was added.
  have hfound : found.text.length ≤ l.text.length :=
    h.longest found after (wellFormed_of_scan hscan) (eq_append_of_scan hscan)
  have hlength := congrArg List.length (h.eq_append.symm.trans (eq_append_of_scan hscan))
  rw [hrest] at hlength
  simp only [List.length_append] at hlength
  obtain rfl : more = [] := List.eq_nil_of_length_eq_zero (by omega)
  obtain rfl := hsame rfl
  rw [hscan, hrest, List.nil_append]

/-! ### Where a lexeme begins -/

/-- Whether a lexeme begins with a character in front of a text: a digit, the first character of a
name, an operator, or a point in front of a digit. -/
def CanBegin (c : Char) (after : List Char) : Prop :=
  isDigit c = true ∨ isNameStart c = true ∨ c ∈ Operator.characters ∨
    c = '.' ∧ ∃ d ∈ after.head?, isDigit d = true

/-- Every lexeme begins with such a character. -/
theorem WellFormed.canBegin (h : l.WellFormed) {c : Char} {after : List Char}
    (hcs : c :: after = l.text ++ rest) : CanBegin c after := by
  cases l with
  | number numeral =>
    obtain ⟨x, digits, htext, hfirst⟩ := Numeral.WellFormed.exists_text_eq_cons h
    rw [text, htext, List.cons_append] at hcs
    obtain ⟨rfl, rfl⟩ := List.cons.inj hcs
    rcases hfirst with hdigit | ⟨rfl, d, hd, hdigit⟩
    · exact .inl hdigit
    · refine .inr (.inr (.inr ⟨rfl, d, ?_, hdigit⟩))
      rw [List.head?_append, hd]
      rfl
  | name text =>
    obtain ⟨x, text, rfl⟩ := List.exists_cons_of_ne_nil (isWord_of_isIdentifier h).1
    rw [WellFormed, isIdentifier, Bool.and_eq_true] at h
    obtain ⟨rfl, -⟩ := List.cons.inj hcs
    exact .inr (.inl h.1)
  | operator o =>
    have hc : c ∈ Operator.characters := by
      cases o <;> (obtain ⟨rfl, -⟩ := List.cons.inj hcs; decide)
    exact .inr (.inr (.inl hc))

/-- Where a lexeme can begin there is one, of one or two characters. -/
theorem CanBegin.exists_lexeme {c : Char} {after : List Char} (h : CanBegin c after) :
    ∃ (l : Lexeme) (rest : List Char), l.WellFormed ∧ c :: after = l.text ++ rest := by
  rcases h with hdigit | hname | hoperator | ⟨rfl, d, hd, hdigit⟩
  · have hnumeral : (⟨[c], false, [], none⟩ : Numeral).WellFormed :=
      ⟨.inr ⟨hdigit, List.forall_mem_nil _⟩, .inl rfl,
        .inl (List.cons_ne_nil c []), fun _ => rfl, fun e he => absurd he (Option.not_mem_none e)⟩
    exact ⟨number _, after, hnumeral, rfl⟩
  · exact ⟨name [c], after, isIdentifier_cons hname (List.forall_mem_nil _), rfl⟩
  · have hsingle : ∃ o : Operator, o.text = [c] := by
      simp only [Operator.characters, List.mem_cons, List.not_mem_nil, or_false] at hoperator
      rcases hoperator with rfl | rfl | rfl | rfl | rfl | rfl | rfl
      · exact ⟨.star, rfl⟩
      · exact ⟨.slash, rfl⟩
      · exact ⟨.caret, rfl⟩
      · exact ⟨.opening, rfl⟩
      · exact ⟨.closing, rfl⟩
      · exact ⟨.plus, rfl⟩
      · exact ⟨.minus, rfl⟩
    obtain ⟨o, ho⟩ := hsingle
    exact ⟨operator o, after, trivial, by rw [text, ho]; rfl⟩
  · obtain ⟨after', rfl⟩ : ∃ after', after = d :: after' := ⟨_, List.eq_cons_of_mem_head? hd⟩
    have hnumeral : (⟨[], true, [d], none⟩ : Numeral).WellFormed :=
      ⟨.inl rfl, .inr ⟨hdigit, List.forall_mem_nil _⟩,
        .inr (List.cons_ne_nil d []), (fun h => by cases h),
        fun e he => absurd he (Option.not_mem_none e)⟩
    exact ⟨number _, after', hnumeral, rfl⟩

/-- Nothing is taken exactly where no lexeme begins. -/
theorem scan_cons_eq_none_iff {c : Char} {after : List Char} :
    scan (c :: after) = none ↔ ¬ CanBegin c after := by
  constructor
  · intro hnone hbegin
    obtain ⟨l, rest, hl, hcs⟩ := hbegin.exists_lexeme
    obtain ⟨l', more, rest', -, hscan, -⟩ := hl.exists_scan rest
    rw [← hcs, hnone] at hscan
    cases hscan
  · intro hbegin
    rcases hscan : scan (c :: after) with _ | ⟨l, rest⟩
    · rfl
    · exact absurd ((wellFormed_of_scan hscan).canBegin (eq_append_of_scan hscan)) hbegin

/-- No lexeme begins with a blank. -/
theorem CanBegin.not_blank {c : Char} {after : List Char} (h : CanBegin c after) :
    isBlank c = false := by
  rcases h with hdigit | hname | hoperator | ⟨rfl, -⟩
  · exact isBlank_eq_false_of_isWord (isWord_of_isDigit hdigit)
  · exact isBlank_eq_false_of_isWord (isWord_of_isNameStart hname)
  · have hall : (Operator.characters.all fun c => !isBlank c) = true := by decide +kernel
    exact (Bool.not_eq_true' _).mp (List.all_eq_true.mp hall c hoperator)
  · decide +kernel

end Lexeme

end Metrology
