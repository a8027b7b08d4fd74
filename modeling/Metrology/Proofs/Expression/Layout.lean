import Metrology.Proofs.Expression.Tokens

/-!
# Blanks between tokens

A lexeme is scanned as it is written wherever blanks stand behind it, since no blank continues a
lexeme (`Lexeme.WellFormed.isLongest_append`).  So it does not matter what stood behind the lexemes
in the text that they come from: written with blanks between each two of them (`Token.Spaced`) they
are scanned again (`Token.Spaced.exists_taken`, by induction on the row).

The main result is `Expression.ofText_spaced`: the lexemes of a text, and what it is read as, do not
depend on its blanks.
-/

namespace Metrology

open Text

namespace Lexeme

variable {l : Lexeme} {gap rest : List Char}

/-- Blanks continue no lexeme. -/
theorem endsBefore_of_blank (l : Lexeme) (hgap : ∀ c ∈ gap, isBlank c = true)
    (hapart : gap = [] → rest = []) : l.EndsBefore (gap ++ rest) := by
  have hends (p : Char → Bool) (hp : ∀ c, isBlank c = true → p c = false) :
      EndsRun p (gap ++ rest) := by
    refine endsRun_blank_append hp hgap fun hnil => ?_
    rw [hapart hnil]
    exact endsRun_nil p
  cases l with
  | number _ => exact hends _ fun _ => continuesNumeral_of_isBlank
  | name _ => exact hends _ fun _ => isWord_eq_false_of_isBlank
  | operator o =>
    cases o with
    | star =>
      refine hends (· == '*') fun c hc => ?_
      exact beq_eq_false_iff_ne.mpr (ne_of_class hc (by decide +kernel))
    | slash | caret | doubleStar | minus | plus | opening | closing => trivial

/-- A lexeme is the longest one in front of a text that does not continue it. -/
theorem WellFormed.isLongest_append (h : l.WellFormed) (hends : l.EndsBefore rest) :
    l.IsLongest (l.text ++ rest) rest := by
  rw [← scan_eq_some_iff]
  cases l with
  | number numeral =>
    unfold scan
    rw [text, Numeral.scan_text_append h hends]
  | name text => exact scan_text_append (l := name text) h hends
  | operator o => exact scan_text_append (l := operator o) h hends

end Lexeme

namespace Token

variable {l : Lexeme} {ls : List Lexeme} {cs gap : List Char}

/-- Whether a text is a row of lexemes with blanks behind each of them, which may be missing behind
the last one alone. -/
inductive Spaced : List Lexeme → List Char → Prop
  | nil : Spaced [] []
  | cons {l : Lexeme} {ls : List Lexeme} {gap cs : List Char}
      (hgap : ∀ c ∈ gap, isBlank c = true) (hapart : gap = [] → ls = []) (hcs : Spaced ls cs) :
      Spaced (l :: ls) (l.text ++ (gap ++ cs))

/-- Behind the last lexeme nothing is written but blanks. -/
theorem Spaced.eq_nil (h : Spaced [] cs) : cs = [] := by
  cases h
  rfl

/-- Lexemes are scanned where they are written with blanks between them. -/
theorem Spaced.exists_taken (h : Spaced ls cs) (hls : ∀ l ∈ ls, l.WellFormed)
    {lead : List Char} (hlead : ∀ c ∈ lead, isBlank c = true) (position : Nat) :
    ∃ tokens rest, Taken position (lead ++ cs) tokens rest ∧ (∀ c ∈ rest, isBlank c = true) ∧
      tokens.map lexeme = ls := by
  induction h generalizing lead position with
  | nil =>
    rw [List.append_nil]
    exact ⟨[], lead, .nil position lead, hlead, rfl⟩
  | @cons l ls gap cs hgap hapart hcs ih =>
    obtain ⟨hl, hls⟩ := List.forall_mem_cons.mp hls
    have hends : l.EndsBefore (gap ++ cs) := by
      refine l.endsBefore_of_blank hgap fun hnil => ?_
      rw [hapart hnil] at hcs
      exact hcs.eq_nil
    obtain ⟨tokens, rest, htaken, hrest, hmap⟩ :=
      ih hls hgap (position + lead.length + l.text.length)
    refine ⟨⟨l, position + lead.length⟩ :: tokens, rest,
      .cons hlead (hl.isLongest_append hends) htaken, hrest, ?_⟩
    rw [List.map_cons, hmap]

/-- The tokens of a text, written with blanks between them, have the same lexemes. -/
theorem ofText_of_spaced {text : String} {tokens : List Token} (h : ofText text = .ok tokens)
    (hcs : Spaced (tokens.map lexeme) cs) {lead : List Char}
    (hlead : ∀ c ∈ lead, isBlank c = true) :
    ∃ tokens', ofText (String.ofList (lead ++ cs)) = .ok tokens' ∧
      tokens'.map lexeme = tokens.map lexeme := by
  obtain ⟨_, htaken, -⟩ := scanFrom_eq_ok_iff.mp h
  have hls : ∀ l ∈ tokens.map lexeme, l.WellFormed := by
    intro l hl
    obtain ⟨t, ht, rfl⟩ := List.mem_map.mp hl
    exact htaken.wellFormed t ht
  obtain ⟨tokens', rest, htaken', hrest, hmap⟩ := hcs.exists_taken hls hlead 0
  refine ⟨tokens', ?_, hmap⟩
  rw [ofText, String.toList_ofList]
  exact scanFrom_eq_ok_iff.mpr ⟨rest, htaken', hrest⟩

end Token

/-- **Layout does not count**: the lexemes of a text, written with any blanks between them, before
the first and behind the last, are scanned as the same lexemes in the same order, and the text is
read as the same expression or is malformed as the first one is. -/
theorem Expression.ofText_spaced {text : String} {tokens : List Token}
    (h : Token.ofText text = .ok tokens) {lead cs : List Char}
    (hlead : ∀ c ∈ lead, isBlank c = true) (hcs : Token.Spaced (tokens.map Token.lexeme) cs) :
    (∃ tokens', Token.ofText (String.ofList (lead ++ cs)) = .ok tokens' ∧
      tokens'.map Token.lexeme = tokens.map Token.lexeme) ∧
    ((∃ e, ofText text = .ok e ∧ ofText (String.ofList (lead ++ cs)) = .ok e) ∨
      ∃ err err', ofText text = .error err ∧ ofText (String.ofList (lead ++ cs)) = .error err' ∧
        err.kind = .malformedText ∧ err'.kind = .malformedText) := by
  obtain ⟨tokens', htokens', hmap⟩ := Token.ofText_of_spaced h hcs hlead
  refine ⟨⟨tokens', htokens', hmap⟩, ?_⟩
  rw [ofText_of_tokens h, ofText_of_tokens htokens']
  exact ofTokens_eq_of_lexemes text _ (Token.allWellFormed_of_ofText h) hmap

/-- Neither an exponent nor a second star nor a second point is gained or lost by blanks. -/
theorem Expression.ofText_spaced_exponent :
    (∃ tokens, Token.ofText "\t2ee3 em\n** - 1. .5 " = .ok tokens ∧
      tokens.map Token.lexeme = [.number ⟨['2'], false, [], some ⟨['e', 'e'], [], ['3']⟩⟩,
        .name ['e', 'm'], .operator .doubleStar, .operator .minus,
        .number ⟨['1'], true, [], none⟩, .number ⟨[], true, ['5'], none⟩]) ∧
    ∃ e, ofText "2ee3em**-1..5" = .ok e ∧ ofText "\t2ee3 em\n** - 1. .5 " = .ok e := by
  have htokens : Token.ofText "2ee3em**-1..5" = .ok
      [⟨.number ⟨['2'], false, [], some ⟨['e', 'e'], [], ['3']⟩⟩, 0⟩, ⟨.name ['e', 'm'], 4⟩,
        ⟨.operator .doubleStar, 6⟩, ⟨.operator .minus, 8⟩, ⟨.number ⟨['1'], true, [], none⟩, 9⟩,
        ⟨.number ⟨[], true, ['5'], none⟩, 11⟩] := by decide +kernel
  have hblank {c : Char} (hc : isBlank c = true) : ∀ x ∈ [c], isBlank x = true := by
    simpa using hc
  have hspace := hblank (c := ' ') (by decide +kernel)
  have hfeed := hblank (c := '\n') (by decide +kernel)
  have htab := hblank (c := '\t') (by decide +kernel)
  have hcs := Token.Spaced.cons (l := .number ⟨[], true, ['5'], none⟩) hspace nofun .nil
  have hcs := Token.Spaced.cons (l := .number ⟨['1'], true, [], none⟩) hspace nofun hcs
  have hcs := Token.Spaced.cons (l := .operator .minus) hspace nofun hcs
  have hcs := Token.Spaced.cons (l := .operator .doubleStar) hspace nofun hcs
  have hcs := Token.Spaced.cons (l := .name ['e', 'm']) hfeed nofun hcs
  have hcs := Token.Spaced.cons
    (l := .number ⟨['2'], false, [], some ⟨['e', 'e'], [], ['3']⟩⟩) hspace nofun hcs
  obtain ⟨⟨tokens, htokens', hmap⟩, hread⟩ := Expression.ofText_spaced htokens htab hcs
  refine ⟨⟨tokens, htokens', hmap⟩, ?_⟩
  obtain ⟨e, he, he'⟩ | ⟨err, _, herr, -⟩ := hread
  · exact ⟨e, he, he'⟩
  · have hok : (ofText "2ee3em**-1..5").isOk = true := by decide +kernel
    rw [herr] at hok
    cases hok

end Metrology
