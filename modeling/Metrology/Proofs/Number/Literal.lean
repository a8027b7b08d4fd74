import Metrology.Number.Literal
import Metrology.Proofs.Number.Numeral

/-!
# The texts that literals are read from

A literal has a reader of its own for unsigned numerals, which takes what is scanned as a numeral in
an expression (`unsigned?_eq_scan`).

A literal is read from exactly two forms of text, blanks around them left aside: a numeral behind
at most one sign (`WritesDecimal`), and a row of digits behind at most one sign, a slash and a
second row (`WritesQuotient`).  What is taken for a literal has one of these forms
(`exists_writesDecimal`, `exists_writesQuotient`) and each form is taken for one, and a text has at
most one of them, since no numeral has a slash (`WritesDecimal.quotient?_eq_none`).  Hence the
outcome of reading is known for each form (`WritesDecimal.read_eq`, `WritesQuotient.read_eq`), and
every other text is refused (`read_of_writes_nothing`).
-/

namespace Metrology.Literal

open Text

variable {cs sign numerator denominator : List Char} {n : Numeral}

/-- Whether a text is a numeral behind a sign or nothing, with blanks around them. -/
inductive WritesDecimal : List Char → List Char → Numeral → Prop
  | mk {before sign after : List Char} {n : Numeral} (hbefore : ∀ c ∈ before, isBlank c = true)
      (hsign : IsSign sign) (hn : n.WellFormed) (hafter : ∀ c ∈ after, isBlank c = true) :
      WritesDecimal (before ++ (sign ++ (n.text ++ after))) sign n

/-- Whether a text is two rows of digits with a slash between them, the first behind a sign or
nothing, with blanks around them and around the slash. -/
inductive WritesQuotient : List Char → List Char → List Char → List Char → Prop
  | mk {before sign numerator left right denominator after : List Char}
      (hbefore : ∀ c ∈ before, isBlank c = true) (hsign : IsSign sign)
      (hnumerator : IsDigitRow numerator) (hleft : ∀ c ∈ left, isBlank c = true)
      (hright : ∀ c ∈ right, isBlank c = true) (hdenominator : IsDigitRow denominator)
      (hafter : ∀ c ∈ after, isBlank c = true) :
      WritesQuotient
        (before ++ (sign ++ (numerator ++ (left ++ '/' :: (right ++ (denominator ++ after))))))
        sign numerator denominator

/-- A numeral behind a sign or nothing needs no blanks around it. -/
theorem writesDecimal_append (hsign : IsSign sign) (hn : n.WellFormed) :
    WritesDecimal (sign ++ n.text) sign n := by
  have h := WritesDecimal.mk (List.forall_mem_nil _) hsign hn (List.forall_mem_nil _)
  rwa [List.nil_append, List.append_nil] at h

/-- Two rows of digits behind a sign or nothing need no blanks around the slash. -/
theorem writesQuotient_append (hsign : IsSign sign) (hnumerator : IsDigitRow numerator)
    (hdenominator : IsDigitRow denominator) :
    WritesQuotient (sign ++ (numerator ++ '/' :: denominator)) sign numerator denominator := by
  have hnil : ∀ c ∈ ([] : List Char), isBlank c = true := List.forall_mem_nil _
  have h := WritesQuotient.mk hnil hsign hnumerator hnil hnil hdenominator hnil
  rwa [List.nil_append, List.nil_append, List.nil_append, List.append_nil] at h

theorem WritesDecimal.wellFormed (h : WritesDecimal cs sign n) : n.WellFormed := by
  obtain ⟨-, -, hn, -⟩ := h
  exact hn

theorem WritesQuotient.rows (h : WritesQuotient cs sign numerator denominator) :
    IsDigitRow numerator ∧ IsDigitRow denominator := by
  obtain ⟨-, -, hnumerator, -, -, hdenominator, -⟩ := h
  exact ⟨hnumerator, hdenominator⟩

/-! ### What is read off the front -/

/-- Whether a text begins with a digit or a point. -/
def BeginsNumber (cs : List Char) : Prop := ∃ c ∈ cs.head?, isDigit c = true ∨ c = '.'

theorem beginsNumber_row {row : List Char} (h : IsDigitRow row) (rest : List Char) :
    BeginsNumber (row ++ rest) := by
  cases row with
  | nil => exact h.elim
  | cons c row => exact ⟨c, rfl, .inl h.1⟩

theorem beginsNumber_numeral (h : n.WellFormed) (rest : List Char) :
    BeginsNumber (n.text ++ rest) := by
  obtain ⟨c, text, htext, hc⟩ := h.exists_text_eq_cons
  refine ⟨c, by rw [htext]; rfl, ?_⟩
  rcases hc with hdigit | ⟨hpoint, -⟩
  · exact .inl hdigit
  · exact .inr hpoint

/-- A number begins neither with a sign nor with a blank. -/
theorem BeginsNumber.endsRun (h : BeginsNumber cs) :
    EndsRun isSignCharacter cs ∧ EndsRun isBlank cs := by
  obtain ⟨c, hc, hfirst⟩ := h
  obtain ⟨rest, rfl⟩ : ∃ rest, cs = c :: rest := ⟨_, List.eq_cons_of_mem_head? hc⟩
  rcases hfirst with hdigit | rfl
  · exact ⟨endsRun_cons (isSignCharacter_of_isDigit hdigit) _,
      endsRun_cons (isBlank_eq_false_of_isWord (isWord_of_isDigit hdigit)) _⟩
  · exact ⟨endsRun_cons (by decide) _, endsRun_cons (by decide +kernel) _⟩

/-- The blanks and the sign in front of a number are read off it. -/
theorem signRow_dropBlank {before rest : List Char} (hbefore : ∀ c ∈ before, isBlank c = true)
    (hsign : IsSign sign) (hrest : BeginsNumber rest) :
    signRow (dropBlank (before ++ (sign ++ rest))) = (sign, rest) := by
  have hends : EndsRun isBlank (sign ++ rest) := by
    rcases hsign with rfl | rfl | rfl
    · exact hrest.endsRun.2
    · exact endsRun_cons (by decide +kernel) _
    · exact endsRun_cons (by decide +kernel) _
  rw [dropBlank, dropWhile_append_of_ends hbefore hends]
  exact signRow_append hsign hrest.endsRun.1

/-- A text is the blanks in front of it, a sign or nothing, and the rest. -/
theorem exists_signRow_dropBlank (cs : List Char) : ∃ before sign rest,
    (∀ c ∈ before, isBlank c = true) ∧ IsSign sign ∧
      signRow (dropBlank cs) = (sign, rest) ∧ cs = before ++ (sign ++ rest) := by
  obtain ⟨before, hbefore, hcs⟩ := exists_eq_append_dropBlank cs
  have hsign : IsSign (signRow (dropBlank cs)).1 := isSign_signRow (dropBlank cs)
  rcases hrow : signRow (dropBlank cs) with ⟨sign, rest⟩
  rw [hrow] at hsign
  refine ⟨before, sign, rest, hbefore, hsign, rfl, ?_⟩
  rw [← eq_append_of_signRow hrow]
  exact hcs

/-! ### One language of numerals -/

/-- Without a sign or a digit behind its mark there is no exponent. -/
theorem afterMark_cons_eq_none {mark : List Char} {c : Char} (hsign : isSignCharacter c = false)
    (hdigit : isDigit c = false) (cs : List Char) : Exponent.afterMark mark (c :: cs) = none := by
  have hrow : signRow (c :: cs) = ([], c :: cs) :=
    signRow_append (.inl rfl) (endsRun_cons hsign cs)
  rw [Exponent.afterMark, hrow]
  dsimp only
  rw [List.takeWhile_cons, hdigit]
  rfl

/-- The marks that are tried one after the other are those that are scanned for: where two letters
mark no exponent, neither does the first of them. -/
theorem findSome?_exponentMarks (cs : List Char) : (exponentMarks.findSome? fun mark =>
    (dropMarker mark cs).bind (Exponent.afterMark mark)) = Exponent.scan cs := by
  have htried : (exponentMarks.findSome? fun mark =>
      (dropMarker mark cs).bind (Exponent.afterMark mark)) =
        ((dropMarker ['e', 'e'] cs).bind (Exponent.afterMark ['e', 'e'])).or
          (((dropMarker ['e'] cs).bind (Exponent.afterMark ['e'])).or
            ((dropMarker ['E'] cs).bind (Exponent.afterMark ['E']))) := by
    simp only [exponentMarks, List.findSome?_cons, List.findSome?_nil]
    cases (dropMarker ['e', 'e'] cs).bind (Exponent.afterMark ['e', 'e']) <;>
      cases (dropMarker ['e'] cs).bind (Exponent.afterMark ['e']) <;>
      cases (dropMarker ['E'] cs).bind (Exponent.afterMark ['E']) <;> rfl
  rw [htried]
  fun_cases Exponent.scan cs with
  | case1 cs =>
    have hsingle : Exponent.afterMark ['e'] ('e' :: cs) = none :=
      afterMark_cons_eq_none (by decide) (by decide +kernel) cs
    simp [dropMarker, hsingle]
  | case2 cs hne =>
    have hdouble : dropMarker ['e', 'e'] ('e' :: cs) = none := by
      cases cs with
      | nil => rfl
      | cons c cs =>
        have hc : 'e' ≠ c := fun h => hne cs (by rw [h])
        simp [dropMarker, hc]
    rw [hdouble]
    simp [dropMarker]
  | case3 cs => simp [dropMarker]
  | case4 cs _ hlower hupper =>
    cases cs with
    | nil => rfl
    | cons c cs =>
      have hc : 'e' ≠ c := fun h => hlower cs (by rw [h])
      have hc' : 'E' ≠ c := fun h => hupper cs (by rw [h])
      simp [dropMarker, hc, hc']

theorem exponentRow_of_none (h : Exponent.scan cs = none) : exponentRow cs = (none, cs) := by
  rw [exponentRow, findSome?_exponentMarks, h]

theorem exponentRow_of_some {e : Exponent} {rest : List Char}
    (h : Exponent.scan cs = some (e, rest)) : exponentRow cs = (some e, rest) := by
  rw [exponentRow, findSome?_exponentMarks, h]

theorem fractionRow_of_ends (h : EndsRun (· == '.') cs) : fractionRow cs = ((false, []), cs) := by
  unfold fractionRow
  split
  · cases h '.' rfl
  · rfl

/-- The parts of a numeral in front of a text, its exponent apart. -/
def mantissa (cs : List Char) : Numeral × List Char :=
  (⟨(digitRow cs).1, (fractionRow (digitRow cs).2).1.1, (fractionRow (digitRow cs).2).1.2, none⟩,
    (fractionRow (digitRow cs).2).2)

theorem scanDigits_eq_mantissa_of_isDigit {c : Char} (hc : isDigit c = true) (cs : List Char) :
    Numeral.scanDigits (c :: cs) = some (mantissa (c :: cs)) := by
  have hne : (digitRow (c :: cs)).1 ≠ [] := by
    rw [digitRow, if_pos hc]
    exact List.cons_ne_nil _ _
  rw [mantissa]
  by_cases hpoint : ∃ after, (digitRow (c :: cs)).2 = '.' :: after
  · obtain ⟨after, hafter⟩ := hpoint
    rw [hafter]
    exact Numeral.scanDigits_of_point hne (Prod.ext rfl hafter)
  · have hends : EndsRun (· == '.') (digitRow (c :: cs)).2 := by
      intro x hx
      rw [beq_eq_false_iff_ne]
      rintro rfl
      exact hpoint ⟨_, List.eq_cons_of_mem_head? hx⟩
    rw [fractionRow_of_ends hends]
    exact Numeral.scanDigits_of_row hne rfl hends

theorem digitRow_cons_of_not_isDigit {c : Char} (hc : ¬ isDigit c = true) (cs : List Char) :
    digitRow (c :: cs) = ([], c :: cs) := by
  rw [digitRow, if_neg hc]

theorem scanDigits_eq_mantissa_of_point {c : Char} (hc : isDigit c = true) (cs : List Char) :
    Numeral.scanDigits ('.' :: c :: cs) = some (mantissa ('.' :: c :: cs)) := by
  have hne : (digitRow (c :: cs)).1 ≠ [] := by
    rw [digitRow, if_pos hc]
    exact List.cons_ne_nil _ _
  have hpoint : ¬ isDigit '.' = true := by decide +kernel
  rw [mantissa, digitRow_cons_of_not_isDigit hpoint]
  exact Numeral.scanDigits_of_fraction hne rfl

/-- Digits are scanned just where one is ahead, and what is scanned are the parts that are read. -/
theorem scanDigits_eq_mantissa (cs : List Char) :
    Numeral.scanDigits cs = if digitAhead cs then some (mantissa cs) else none := by
  fun_cases digitAhead cs with
  | case1 c cs =>
    split_ifs with hc
    · exact scanDigits_eq_mantissa_of_point hc cs
    · rw [Numeral.scanDigits, digitRow_cons_of_not_isDigit (by decide +kernel)]
      dsimp only
      rw [digitRow_cons_of_not_isDigit hc]
  | case2 c cs hpoint =>
    split_ifs with hc
    · exact scanDigits_eq_mantissa_of_isDigit hc cs
    · by_cases hc' : c = '.'
      · -- There is nothing behind the point.
        subst hc'
        cases cs with
        | nil => rfl
        | cons d cs => exact (hpoint d cs rfl rfl).elim
      · rw [Numeral.scanDigits, digitRow_cons_of_not_isDigit hc]
        exact fun after heq => hc' (List.cons.inj heq).1
  | case3 => rfl

/-- **Numerals are read as they are scanned**: the parts of which any may be missing, as long as a
digit is ahead, are the digits with a point behind them or not, or the point with digits behind
it. -/
theorem unsigned?_eq_scan (cs : List Char) : unsigned? cs = Numeral.scan cs := by
  rw [Numeral.scan, scanDigits_eq_mantissa, unsigned?]
  split
  · dsimp only
    rw [Option.map_some]
    cases hexponent : Exponent.scan (fractionRow (digitRow cs).2).2 with
    | none => rw [exponentRow_of_none hexponent, mantissa, hexponent]
    | some x => rw [exponentRow_of_some hexponent, mantissa, hexponent]
  · rfl

/-! ### Decimal form -/

/-- What is taken for a numeral with a sign writes it. -/
theorem exists_writesDecimal {l : Literal} (h : decimal? cs = some l) :
    ∃ sign n, WritesDecimal cs sign n ∧ l = .decimal (sign == ['-']) n := by
  obtain ⟨before, sign, unsigned, hbefore, hsign, hrow, hcs⟩ := exists_signRow_dropBlank cs
  unfold decimal? at h
  rw [hrow] at h
  dsimp only at h
  rw [unsigned?_eq_scan] at h
  split at h
  · rename_i n after hscan
    split_ifs at h with hafter
    obtain rfl := Option.some.inj h
    refine ⟨sign, n, ?_, rfl⟩
    rw [hcs, Numeral.eq_append_of_scan hscan]
    exact .mk hbefore hsign (Numeral.wellFormed_of_scan hscan) (List.all_eq_true.mp hafter)
  · cases h

theorem WritesDecimal.decimal?_eq (h : WritesDecimal cs sign n) :
    decimal? cs = some (.decimal (sign == ['-']) n) := by
  cases h with | @mk before sign after n hbefore hsign hn hafter
  have hends : EndsRun continuesNumeral after :=
    endsRun_of_blank (fun _ => continuesNumeral_of_isBlank) hafter
  unfold decimal?
  rw [signRow_dropBlank hbefore hsign (beginsNumber_numeral hn after)]
  dsimp only
  rw [unsigned?_eq_scan, Numeral.scan_text_append hn hends]
  dsimp only
  rw [if_pos (List.all_eq_true.mpr hafter)]

/-! ### Quotient form -/

/-- What is taken for a quotient writes its rows. -/
theorem exists_writesQuotient {l : Literal} (h : quotient? cs = some l) :
    ∃ sign numerator denominator, WritesQuotient cs sign numerator denominator ∧
      l = .quotient (sign == ['-']) numerator denominator := by
  obtain ⟨before, sign, unsigned, hbefore, hsign, hrow, hcs⟩ := exists_signRow_dropBlank cs
  unfold quotient? at h
  rw [hrow] at h
  dsimp only at h
  split at h
  · cases h
  rename_i numerator afterNumerator hne hnumerator
  split at h
  swap
  · cases h
  rename_i afterSlash hslash
  split at h
  · cases h
  rename_i denominator after hne' hdenominator
  split_ifs at h with hafter
  obtain rfl := Option.some.inj h
  refine ⟨sign, numerator, denominator, ?_, rfl⟩
  obtain ⟨left, hleft, hleftEq⟩ := exists_eq_append_dropBlank afterNumerator
  obtain ⟨right, hright, hrightEq⟩ := exists_eq_append_dropBlank afterSlash
  rw [hcs, eq_append_of_digitRow hnumerator, hleftEq, hslash, hrightEq,
    eq_append_of_digitRow hdenominator]
  exact .mk hbefore hsign (isDigitRow_of_digitRow hnumerator hne) hleft hright
    (isDigitRow_of_digitRow hdenominator hne') (List.all_eq_true.mp hafter)

theorem WritesQuotient.quotient?_eq (h : WritesQuotient cs sign numerator denominator) :
    quotient? cs = some (.quotient (sign == ['-']) numerator denominator) := by
  cases h with
    | @mk before sign numerator left right denominator after hbefore hsign hnumerator hleft hright
      hdenominator hafter
  have hslash : EndsRun isBlank ('/' :: (right ++ (denominator ++ after))) :=
    endsRun_cons (by decide +kernel) _
  have hfirst : digitRow (numerator ++ (left ++ '/' :: (right ++ (denominator ++ after)))) =
      (numerator, left ++ '/' :: (right ++ (denominator ++ after))) :=
    digitRow_append (.inr hnumerator) (endsRun_blank_append
      (fun _ => isDigitOrSeparator_of_isBlank) hleft fun _ => endsRun_cons (by decide +kernel) _)
  have hsecond : digitRow (denominator ++ after) = (denominator, after) :=
    digitRow_append (.inr hdenominator)
      (endsRun_of_blank (fun _ => isDigitOrSeparator_of_isBlank) hafter)
  have hunblank : EndsRun isBlank (denominator ++ after) :=
    (beginsNumber_row hdenominator after).endsRun.2
  unfold quotient?
  rw [signRow_dropBlank hbefore hsign (beginsNumber_row hnumerator _)]
  dsimp only
  rw [hfirst]
  obtain ⟨c, numerator, rfl⟩ := List.exists_cons_of_ne_nil hnumerator.ne_nil
  dsimp only
  rw [dropBlank, dropWhile_append_of_ends hleft hslash]
  split
  · next afterSlash heq =>
    rw [← List.tail_eq_of_cons_eq heq, dropBlank, dropWhile_append_of_ends hright hunblank,
      hsecond]
    obtain ⟨d, denominator, rfl⟩ := List.exists_cons_of_ne_nil hdenominator.ne_nil
    dsimp only
    rw [if_pos (List.all_eq_true.mpr hafter)]
  · next hnot => exact absurd rfl (hnot _)

/-! ### One form for each text -/

/-- Whether a character can stand in a numeral, before it or behind it. -/
def isCharacter (c : Char) : Bool := isBlank c || Numeral.isCharacter c

theorem isCharacter_of_blank {gap : List Char} (h : ∀ c ∈ gap, isBlank c = true) :
    ∀ c ∈ gap, isCharacter c = true := by
  intro c hc
  rw [isCharacter, h c hc, Bool.true_or]

theorem isCharacter_of_numeral {text : List Char}
    (h : ∀ c ∈ text, Numeral.isCharacter c = true) : ∀ c ∈ text, isCharacter c = true := by
  intro c hc
  rw [isCharacter, h c hc, Bool.or_true]

theorem isCharacter_of_sign (h : IsSign sign) : ∀ c ∈ sign, isCharacter c = true := by
  apply List.all_eq_true.mp
  rcases h with rfl | rfl | rfl <;> decide +kernel

theorem WritesDecimal.isCharacter_of_mem (h : WritesDecimal cs sign n) :
    ∀ c ∈ cs, isCharacter c = true := by
  obtain ⟨hbefore, hsign, hn, hafter⟩ := h
  simp only [List.forall_mem_append]
  exact ⟨isCharacter_of_blank hbefore, isCharacter_of_sign hsign,
    isCharacter_of_numeral hn.isCharacter_of_mem, isCharacter_of_blank hafter⟩

/-- A quotient has the characters of numerals and a slash. -/
theorem WritesQuotient.isCharacter_of_mem (h : WritesQuotient cs sign numerator denominator) :
    ∀ c ∈ cs, isCharacter c = true ∨ c = '/' := by
  obtain ⟨hbefore, hsign, hnumerator, hleft, hright, hdenominator, hafter⟩ := h
  have hrow {row : List Char} (hrow : IsDigitRow row) : ∀ c ∈ row, isCharacter c = true :=
    isCharacter_of_numeral (Numeral.isCharacter_of_mem_row (.inr hrow))
  simp only [List.forall_mem_append, List.forall_mem_cons]
  exact ⟨fun c hc => .inl (isCharacter_of_blank hbefore c hc),
    fun c hc => .inl (isCharacter_of_sign hsign c hc),
    fun c hc => .inl (hrow hnumerator c hc),
    fun c hc => .inl (isCharacter_of_blank hleft c hc), .inr trivial,
    fun c hc => .inl (isCharacter_of_blank hright c hc),
    fun c hc => .inl (hrow hdenominator c hc),
    fun c hc => .inl (isCharacter_of_blank hafter c hc)⟩

theorem WritesDecimal.slash_not_mem (h : WritesDecimal cs sign n) : '/' ∉ cs := by
  intro hmem
  have hslash := h.isCharacter_of_mem '/' hmem
  revert hslash
  decide +kernel

theorem WritesQuotient.slash_mem (h : WritesQuotient cs sign numerator denominator) :
    '/' ∈ cs := by
  cases h
  simp

/-- A numeral is no quotient. -/
theorem WritesDecimal.quotient?_eq_none (h : WritesDecimal cs sign n) : quotient? cs = none := by
  rcases hquotient : quotient? cs with _ | l
  · rfl
  · obtain ⟨_, _, _, hwrites, -⟩ := exists_writesQuotient hquotient
    exact absurd hwrites.slash_mem h.slash_not_mem

theorem WritesDecimal.ofText?_eq (h : WritesDecimal cs sign n) :
    ofText? cs = some (.decimal (sign == ['-']) n) := by
  rw [ofText?, h.quotient?_eq_none]
  exact h.decimal?_eq

theorem WritesQuotient.ofText?_eq (h : WritesQuotient cs sign numerator denominator) :
    ofText? cs = some (.quotient (sign == ['-']) numerator denominator) := by
  rw [ofText?, h.quotient?_eq]
  rfl

/-! ### Reading -/

variable {text : String}

theorem WritesDecimal.read_eq (h : WritesDecimal text.toList sign n) :
    read text = .ok (withSign (sign == ['-']) n.value) := by
  rw [read, h.ofText?_eq]
  rfl

/-- A numeral by itself is read as what it is worth. -/
theorem read_text (hn : n.WellFormed) : read (String.ofList n.text) = .ok n.value := by
  have hwrites : WritesDecimal (String.ofList n.text).toList [] n := by
    have h := writesDecimal_append (.inl rfl) hn
    rwa [List.nil_append, ← String.toList_ofList (l := n.text)] at h
  rw [hwrites.read_eq]
  rfl

theorem WritesQuotient.read_eq (h : WritesQuotient text.toList sign numerator denominator) :
    read text = (quotient (sign == ['-']) numerator denominator).value text := by
  rw [read, h.ofText?_eq]

/-- A text of neither form is refused. -/
theorem read_of_writes_nothing (hdecimal : ∀ sign n, ¬ WritesDecimal text.toList sign n)
    (hquotient : ∀ sign numerator denominator,
      ¬ WritesQuotient text.toList sign numerator denominator) :
    read text = .error (.invalidLiteral text) := by
  have hnone : ofText? text.toList = none := by
    rw [ofText?]
    rcases hq : quotient? text.toList with _ | l
    · rcases hd : decimal? text.toList with _ | l
      · rfl
      · obtain ⟨sign, n, hwrites, -⟩ := exists_writesDecimal hd
        exact absurd hwrites (hdecimal sign n)
    · obtain ⟨sign, numerator, denominator, hwrites, -⟩ := exists_writesQuotient hq
      exact absurd hwrites (hquotient sign numerator denominator)
  rw [read, hnone]

/-- Every text has one of the two forms or neither. -/
theorem writes_cases (text : String) :
    (∃ sign n, WritesDecimal text.toList sign n) ∨
    (∃ sign numerator denominator, WritesQuotient text.toList sign numerator denominator) ∨
    read text = .error (.invalidLiteral text) := by
  by_cases hdecimal : ∃ sign n, WritesDecimal text.toList sign n
  · exact .inl hdecimal
  by_cases hquotient : ∃ sign numerator denominator,
      WritesQuotient text.toList sign numerator denominator
  · exact .inr (.inl hquotient)
  simp only [not_exists] at hdecimal hquotient
  exact .inr (.inr (read_of_writes_nothing hdecimal hquotient))

/-- Nothing but the characters of numerals and slashes stands in what is read as a number. -/
theorem isCharacter_of_read {q : Rat} (h : read text = .ok q) :
    ∀ c ∈ text.toList, isCharacter c = true ∨ c = '/' := by
  obtain ⟨sign, n, hwrites⟩ | ⟨sign, numerator, denominator, hwrites⟩ | hneither :=
    writes_cases text
  · exact fun c hc => .inl (hwrites.isCharacter_of_mem c hc)
  · exact hwrites.isCharacter_of_mem
  · cases h.symm.trans hneither

end Metrology.Literal
