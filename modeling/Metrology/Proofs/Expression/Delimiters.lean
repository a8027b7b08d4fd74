import Metrology.Proofs.Expression.Tokens

/-!
# Texts in parts

A blank, a caret or a closing parenthesis stands in no lexeme, unless it is all of it
(`Lexeme.WellFormed.text_eq_of_delimiter`).  So it makes no difference to the lexemes before such a
delimiter what follows them, and a text is scanned in parts: what stands before a delimiter apart
from the rest (`Token.Scans.append`, `Token.Scans.exists_append`).  In particular the blanks at the
ends of a text do not count (`Token.Scans.trim`).
-/

namespace Metrology

open Text

/-- Whether a character ends the token before it: a blank, a caret or a closing parenthesis. -/
def Token.isDelimiter (c : Char) : Bool := isBlank c || c == '^' || c == ')'

/-- Whether a text is empty or begins with a delimiter. -/
def Token.EndsTokens (rest : List Char) : Prop := ∀ c ∈ rest.head?, Token.isDelimiter c = true

namespace Token

theorem endsTokens_nil : EndsTokens [] := fun _ h => nomatch h

theorem endsTokens_cons {c : Char} (h : isDelimiter c = true) (rest : List Char) :
    EndsTokens (c :: rest) := by
  rintro _ ⟨⟩
  exact h

theorem endsTokens_of_blank {gap : List Char} (h : ∀ c ∈ gap, isBlank c = true) :
    EndsTokens gap := by
  intro c hc
  rw [isDelimiter, h c (List.mem_of_mem_head? hc)]
  rfl

/-- No delimiter stands in a numeral or in a name. -/
theorem isCharacter_of_isDelimiter {c : Char} (h : isDelimiter c = true) :
    Numeral.isCharacter c = false := by
  rw [isDelimiter, Bool.or_eq_true, Bool.or_eq_true, beq_iff_eq, beq_iff_eq] at h
  obtain (hblank | rfl) | rfl := h
  · have hne {d : Char} (hd : isBlank d = false) : (c == d) = false :=
      beq_eq_false_iff_ne.mpr (ne_of_class hblank hd)
    rw [Numeral.isCharacter, isSignCharacter, isWord_eq_false_of_isBlank hblank,
      hne (d := '.') (by decide +kernel), hne (d := '+') (by decide +kernel),
      hne (d := '-') (by decide +kernel)]
    rfl
  · decide +kernel
  · decide +kernel

end Token

namespace Lexeme

open Token

variable {l : Lexeme} {cs rest after : List Char}

/-- A lexeme in which a delimiter stands is this delimiter. -/
theorem WellFormed.text_eq_of_delimiter (h : l.WellFormed) {c : Char} (hc : isDelimiter c = true)
    (hmem : c ∈ l.text) : l.text = [c] := by
  have hcharacter := isCharacter_of_isDelimiter hc
  cases l with
  | number n => cases (Numeral.WellFormed.isCharacter_of_mem h c hmem).symm.trans hcharacter
  | name text =>
    have hword : isWord c = true := (isWord_of_isIdentifier h).2 c hmem
    cases (Numeral.isCharacter_of_isWord hword).symm.trans hcharacter
  | operator o =>
    cases o with
    | doubleStar =>
      have hstar : c = '*' := by simpa [text, Operator.text] using hmem
      rw [hstar] at hc
      exact absurd hc (by decide +kernel)
    | star | slash | caret | minus | plus | opening | closing =>
      rw [List.mem_singleton.mp hmem]
      rfl

/-- Nothing that begins with a delimiter makes a lexeme longer. -/
theorem IsLongest.append (h : l.IsLongest cs after) (hrest : EndsTokens rest) :
    l.IsLongest (cs ++ rest) (after ++ rest) := by
  refine ⟨h.wellFormed, by rw [h.eq_append, List.append_assoc], fun l' rest' hl' heq => ?_⟩
  rcases List.append_eq_append_iff.mp heq with ⟨more, hl'text, hmore⟩ | ⟨more, hcs, -⟩
  · cases more with
    | nil =>
      rw [List.append_nil] at hl'text
      exact h.longest l' [] hl' (by rw [List.append_nil, hl'text])
    | cons c more =>
      -- The other lexeme would be the delimiter, but there is something before it.
      have hc : isDelimiter c = true := hrest c (by rw [hmore]; rfl)
      have hmem : c ∈ l'.text := by
        rw [hl'text]
        exact List.mem_append_right _ List.mem_cons_self
      have hpos := List.length_pos_iff.mpr (text_ne_nil_of_isLongest h)
      rw [hl'.text_eq_of_delimiter hc hmem, List.length_singleton]
      omega
  · exact h.longest l' more hl' hcs

/-- The longest lexeme at the front of a text does not reach over a delimiter. -/
theorem IsLongest.of_append (h : l.IsLongest (cs ++ rest) after) (hrest : EndsTokens rest) :
    cs = [] ∨ ∃ before, after = before ++ rest ∧ l.IsLongest cs before := by
  have hshorter {before : List Char} (hcs : cs = l.text ++ before) : l.IsLongest cs before :=
    ⟨h.wellFormed, hcs, fun l' rest' hl' heq =>
      h.longest l' (rest' ++ rest) hl' (by rw [heq, List.append_assoc])⟩
  rcases List.append_eq_append_iff.mp h.eq_append with ⟨more, hltext, hmore⟩ | ⟨more, hcs, hafter⟩
  · cases more with
    | nil =>
      rw [List.append_nil] at hltext
      refine .inr ⟨[], by rw [hmore]; rfl, hshorter ?_⟩
      rw [hltext, List.append_nil]
    | cons c more =>
      have hc : isDelimiter c = true := hrest c (by rw [hmore]; rfl)
      have hmem : c ∈ l.text := by
        rw [hltext]
        exact List.mem_append_right _ List.mem_cons_self
      have hsingle := hltext.symm.trans (h.wellFormed.text_eq_of_delimiter hc hmem)
      cases cs with
      | nil => exact .inl rfl
      | cons d cs => simp at hsingle
  · exact .inr ⟨more, hafter, hshorter hcs⟩

end Lexeme

namespace Token

variable {position : Nat} {l : Lexeme} {ls ls' : List Lexeme} {cs gap rest after : List Char}
  {tokens : List Token}

/-! ### Putting texts together -/

theorem Scans.unique (h : Scans cs ls) (h' : Scans cs ls') : ls = ls' := by
  obtain ⟨tokens, htokens, rfl⟩ := h 0
  obtain ⟨tokens', htokens', rfl⟩ := h' 0
  obtain rfl := Except.ok.inj (htokens.symm.trans htokens')
  rfl

theorem Scans.blanks (h : Scans cs ls) (hgap : ∀ c ∈ gap, isBlank c = true) :
    Scans (gap ++ cs) ls := by
  induction gap with
  | nil => exact h
  | cons c gap ih =>
    obtain ⟨hc, hgap⟩ := List.forall_mem_cons.mp hgap
    exact (ih hgap).blank hc

/-- Blanks have no lexemes. -/
theorem scans_blank (hgap : ∀ c ∈ gap, isBlank c = true) : Scans gap [] := by
  have h := scans_nil.blanks hgap
  rwa [List.append_nil] at h

/-- The longest lexeme in front of a text is the first one. -/
theorem Scans.longest (hl : l.IsLongest cs after) (h : Scans after ls) : Scans cs (l :: ls) := by
  intro position
  obtain ⟨tokens, htokens, hmap⟩ := h (position + l.text.length)
  have hnil : ∀ c ∈ [], isBlank c = true := List.forall_mem_nil _
  have hscan := scanFrom_of_isLongest hnil hl position
  rw [List.nil_append, List.length_nil, Nat.add_zero, htokens] at hscan
  refine ⟨_, hscan, ?_⟩
  rw [List.map_cons, hmap]

/-- The tokens of a text are scanned in front of every text that begins with a delimiter. -/
theorem Taken.scans_append (h : Taken position cs tokens gap)
    (hgap : ∀ c ∈ gap, isBlank c = true) (hrest : EndsTokens rest) (hls : Scans rest ls) :
    Scans (cs ++ rest) (tokens.map lexeme ++ ls) := by
  induction h with
  | nil position cs => exact hls.blanks hgap
  | @cons position before cs after gap l tokens hbefore hl _ ih =>
    rw [List.append_assoc, List.map_cons, List.cons_append]
    exact (Scans.longest (hl.append hrest) (ih hgap)).blanks hbefore

/-- A text is scanned as the same lexemes wherever it begins. -/
theorem scans_of_scanFrom (h : scanFrom position cs = .ok tokens) :
    Scans cs (tokens.map lexeme) := by
  obtain ⟨gap, htaken, hgap⟩ := scanFrom_eq_ok_iff.mp h
  have hscans := htaken.scans_append hgap endsTokens_nil scans_nil
  rwa [List.append_nil, List.append_nil] at hscans

theorem Scans.append (h : Scans cs ls) (hrest : EndsTokens rest) (hls' : Scans rest ls') :
    Scans (cs ++ rest) (ls ++ ls') := by
  obtain ⟨tokens, htokens, rfl⟩ := h 0
  obtain ⟨gap, htaken, hgap⟩ := scanFrom_eq_ok_iff.mp htokens
  exact htaken.scans_append hgap hrest hls'

/-! ### Taking texts apart -/

theorem Taken.exists_scans {text : List Char} (h : Taken position text tokens gap)
    (hgap : ∀ c ∈ gap, isBlank c = true) (hrest : EndsTokens rest) (htext : text = cs ++ rest) :
    ∃ ls ls', tokens.map lexeme = ls ++ ls' ∧ Scans cs ls ∧ Scans rest ls' := by
  induction h generalizing cs with
  | nil position text =>
    rw [htext, List.forall_mem_append] at hgap
    exact ⟨[], [], rfl, scans_blank hgap.1, scans_blank hgap.2⟩
  | @cons position before text after gap l tokens hbefore hl htaken ih =>
    -- Where the delimiter comes first, nothing is scanned before it.
    have hnone {more : List Char} (hcs : ∀ c ∈ cs, isBlank c = true)
        (hmore : ∀ c ∈ more, isBlank c = true) (heq : rest = more ++ text) :
        ∃ ls ls', (⟨l, position + before.length⟩ :: tokens).map lexeme = ls ++ ls' ∧
          Scans cs ls ∧ Scans rest ls' := by
      have hafter := htaken.scans_append hgap endsTokens_nil scans_nil
      rw [List.append_nil, List.append_nil] at hafter
      refine ⟨[], _, rfl, scans_blank hcs, ?_⟩
      rw [heq]
      exact (Scans.longest hl hafter).blanks hmore
    rcases List.append_eq_append_iff.mp htext with ⟨more, hcs, hmore⟩ | ⟨more, hcs, hmore⟩
    · rw [hmore] at hl
      rcases hl.of_append hrest with rfl | ⟨between, hafter, hl'⟩
      · rw [List.append_nil] at hcs
        rw [← hmore] at hl
        have hnil : ∀ c ∈ [], isBlank c = true := List.forall_mem_nil _
        exact hnone (hcs ▸ hbefore) hnil (by rw [hmore]; rfl)
      · obtain ⟨ls, ls', hls, hbetween, hrest'⟩ := ih hgap hafter
        refine ⟨l :: ls, ls', ?_, ?_, hrest'⟩
        · rw [List.map_cons, hls, List.cons_append]
        · rw [hcs]
          exact (Scans.longest hl' hbetween).blanks hbefore
    · rw [hcs, List.forall_mem_append] at hbefore
      exact hnone hbefore.1 hbefore.2 hmore

/-- A text is scanned apart from what follows it, if a delimiter follows. -/
theorem Scans.exists_append (h : Scans (cs ++ rest) ls) (hrest : EndsTokens rest) :
    ∃ ls₁ ls₂, ls = ls₁ ++ ls₂ ∧ Scans cs ls₁ ∧ Scans rest ls₂ := by
  obtain ⟨tokens, htokens, rfl⟩ := h 0
  obtain ⟨gap, htaken, hgap⟩ := scanFrom_eq_ok_iff.mp htokens
  exact htaken.exists_scans hgap hrest rfl

theorem Scans.of_gap (h : Scans (gap ++ cs) ls) (hgap : ∀ c ∈ gap, isBlank c = true) :
    Scans cs ls := by
  induction gap with
  | nil => exact h
  | cons c gap ih =>
    obtain ⟨hc, hgap⟩ := List.forall_mem_cons.mp hgap
    obtain ⟨tokens, htokens, rfl⟩ := h 0
    rw [List.cons_append, scanFrom_cons_blank hc] at htokens
    exact ih (scans_of_scanFrom htokens) hgap

/-- The blanks at the ends of a text do not count. -/
theorem Scans.trim (h : Scans cs ls) : Scans (trimBlank cs) ls := by
  obtain ⟨lead, hlead, hcs⟩ := exists_eq_append_dropBlank cs
  obtain ⟨trail, htrail, hreverse⟩ := exists_eq_append_dropBlank (dropBlank cs).reverse
  have hdrop : dropBlank cs = trimBlank cs ++ trail.reverse := by
    rw [trimBlank, ← List.reverse_append, ← hreverse, List.reverse_reverse]
  have hblank : ∀ c ∈ trail.reverse, isBlank c = true := fun c hc =>
    htrail c (List.mem_reverse.mp hc)
  rw [hcs, hdrop] at h
  obtain ⟨ls₁, ls₂, rfl, hls₁, hls₂⟩ :=
    (h.of_gap hlead).exists_append (endsTokens_of_blank hblank)
  obtain rfl : ls₂ = [] := hls₂.unique (scans_blank hblank)
  rwa [List.append_nil]

theorem Taken.text_within (h : Taken position cs tokens rest) :
    ∀ l ∈ tokens.map lexeme, l.text <:+: cs := by
  induction h with
  | nil position cs => exact List.forall_mem_nil _
  | @cons position before cs after rest l tokens hbefore hl _ ih =>
    rw [hl.eq_append, List.map_cons, List.forall_mem_cons]
    refine ⟨⟨before, after, by rw [List.append_assoc]⟩, fun l' hl' => (ih l' hl').trans ?_⟩
    exact ⟨before ++ l.text, [], by simp⟩

/-- Every lexeme of a text stands in it. -/
theorem Scans.text_within (h : Scans cs ls) : ∀ l ∈ ls, l.text <:+: cs := by
  obtain ⟨tokens, htokens, rfl⟩ := h 0
  obtain ⟨gap, htaken, -⟩ := scanFrom_eq_ok_iff.mp htokens
  exact htaken.text_within

end Token

/-! ### Texts that are read -/

open Grammar in
/-- A text is read as the tree of a derivation of which it is scanned. -/
theorem Expression.ofText_eq_ok_iff_scans {text : String} {e : Expression} :
    ofText text = .ok e ↔
      ∃ p : Product, Token.Scans text.toList p.lexemes ∧ p.tree = e := by
  constructor
  · intro h
    cases htokens : Token.ofText text with
    | error err =>
      rw [ofText, htokens] at h
      cases h
    | ok tokens =>
      rw [ofText_of_tokens htokens] at h
      obtain ⟨p, hp, hok⟩ | ⟨err, herr, -⟩ :=
        ofTokens_cases text (Token.allWellFormed_of_ofText htokens)
      · refine ⟨p, ?_, Except.ok.inj (hok.symm.trans h)⟩
        rw [hp]
        exact Token.scans_of_scanFrom htokens
      · cases herr.symm.trans h
  · rintro ⟨p, hscans, rfl⟩
    rw [← ofText_of_scans hscans, String.ofList_toList]

end Metrology
