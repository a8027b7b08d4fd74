import Mathlib.Data.List.Basic
import Mathlib.Data.List.TakeWhile
import Metrology.Number.Numeral
import Metrology.Proofs.Text.Runs

/-!
# Numerals are read as far as they go

What is read at the front of a text is a well-formed numeral (`Numeral.wellFormed_of_scan`), and
every well-formed numeral in front of a text is read, perhaps with more of what follows it
(`Numeral.WellFormed.exists_scan`): exactly the numeral where no digit, separator, point or mark of
an exponent follows (`Numeral.scan_text_append`).  The same is said before of rows of digits, of
exponents and of numerals without an exponent.  A letter that marks an exponent ends every row of
digits, so that what is read before it is exactly what is written before it.
-/

namespace Metrology

open Text

/-! ### Rows of digits -/

/-- Whether a text is a digit with digits and separators behind it. -/
def IsDigitRow : List Char → Prop
  | [] => False
  | c :: cs => isDigit c = true ∧ ∀ x ∈ cs, isDigitOrSeparator x = true

instance : DecidablePred IsDigitRow
  | [] => .isFalse id
  | c :: cs => decidable_of_iff (isDigit c = true ∧ cs.all isDigitOrSeparator = true)
      (by rw [List.all_eq_true, IsDigitRow])

theorem IsDigitRow.ne_nil {row : List Char} (h : IsDigitRow row) : row ≠ [] := by
  rintro rfl
  exact h

theorem isDigitOrSeparator_of_isDigit {c : Char} (h : isDigit c = true) :
    isDigitOrSeparator c = true := by
  rw [isDigitOrSeparator, h, Bool.true_or]

/-- A row consists of digits and separators. -/
theorem isDigitOrSeparator_of_mem_row {row : List Char} (h : row = [] ∨ IsDigitRow row) :
    ∀ c ∈ row, isDigitOrSeparator c = true := by
  rcases h with rfl | h
  · exact List.forall_mem_nil _
  · cases row with
    | nil => exact h.elim
    | cons c row => exact List.forall_mem_cons.mpr ⟨isDigitOrSeparator_of_isDigit h.1, h.2⟩

theorem isDigitRow_digitRow (cs : List Char) :
    (digitRow cs).1 = [] ∨ IsDigitRow (digitRow cs).1 := by
  cases cs with
  | nil => exact .inl rfl
  | cons c cs =>
    rw [digitRow]
    split_ifs with hc
    · exact .inr ⟨hc, fun x hx => List.mem_takeWhile_imp hx⟩
    · exact .inl rfl

/-- What is taken off the front of a text as a row of digits is one, if it is anything. -/
theorem isDigitRow_of_digitRow {cs row rest : List Char} (h : digitRow cs = (row, rest))
    (hne : row ≠ []) : IsDigitRow row := by
  have hrow := isDigitRow_digitRow cs
  rw [h] at hrow
  exact hrow.resolve_left hne

/-- A row of digits in front of a text is read with what continues it. -/
theorem IsDigitRow.digitRow_append {row : List Char} (h : IsDigitRow row) (rest : List Char) :
    digitRow (row ++ rest) =
      (row ++ rest.takeWhile isDigitOrSeparator, rest.dropWhile isDigitOrSeparator) := by
  cases row with
  | nil => exact h.elim
  | cons c cs =>
    rw [List.cons_append, digitRow, if_pos h.1, List.takeWhile_append_of_pos h.2,
      List.dropWhile_append_of_pos h.2, List.cons_append]

/-- A row of digits, or nothing, is read in front of a text that does not continue it. -/
theorem digitRow_append {row rest : List Char} (hrow : row = [] ∨ IsDigitRow row)
    (hrest : EndsRun isDigitOrSeparator rest) : digitRow (row ++ rest) = (row, rest) := by
  rcases hrow with rfl | hrow
  · cases rest with
    | nil => rfl
    | cons c cs =>
      have hc : isDigit c = false := (Bool.or_eq_false_iff.mp (hrest c rfl)).1
      rw [List.nil_append, digitRow, hc, if_neg Bool.false_ne_true]
  · rw [hrow.digitRow_append, takeWhile_of_ends hrest, dropWhile_of_ends hrest, List.append_nil]

/-- A row of digits, or nothing, is read with what of the text continues it. -/
theorem exists_digitRow_append {row : List Char} (hrow : row = [] ∨ IsDigitRow row)
    (rest : List Char) : ∃ more after, rest = more ++ after ∧
      digitRow (row ++ rest) = (row ++ more, after) ∧
      (EndsRun isDigitOrSeparator rest → more = []) := by
  rcases hrow with rfl | hrow
  · refine ⟨(digitRow rest).1, (digitRow rest).2, eq_append_of_digitRow rfl, rfl, fun hends => ?_⟩
    exact congrArg Prod.fst (digitRow_append (.inl rfl) hends)
  · exact ⟨_, _, List.takeWhile_append_dropWhile.symm, hrow.digitRow_append rest,
      takeWhile_of_ends⟩

/-- Blanks are in no row of digits. -/
theorem isDigitOrSeparator_of_isBlank {c : Char} (h : isBlank c = true) :
    isDigitOrSeparator c = false := by
  have hword := isWord_eq_false_of_isBlank h
  rw [isWord, Bool.or_eq_false_iff, Bool.or_eq_false_iff] at hword
  rw [isDigitOrSeparator, hword.1.1, hword.1.2, Bool.false_or]

/-! ### Signs -/

/-- Whether a text is a sign or nothing. -/
def IsSign (sign : List Char) : Prop := sign = [] ∨ sign = ['+'] ∨ sign = ['-']

/-- Whether a character is a sign. -/
def isSignCharacter (c : Char) : Bool := c == '+' || c == '-'

theorem isSign_signRow (cs : List Char) : IsSign (signRow cs).1 := by
  unfold signRow
  split <;> simp [IsSign]

/-- A digit is no sign. -/
theorem isSignCharacter_of_isDigit {c : Char} (h : isDigit c = true) :
    isSignCharacter c = false := by
  have hplus : c ≠ '+' := ne_of_class h (by decide +kernel)
  have hminus : c ≠ '-' := ne_of_class h (by decide +kernel)
  rw [isSignCharacter, beq_eq_false_iff_ne.mpr hplus, beq_eq_false_iff_ne.mpr hminus,
    Bool.false_or]

/-- A sign is read in front of a text, and nothing else is taken for one. -/
theorem signRow_append {sign rest : List Char} (hsign : IsSign sign)
    (hrest : EndsRun isSignCharacter rest) : signRow (sign ++ rest) = (sign, rest) := by
  rcases hsign with rfl | rfl | rfl
  · cases rest with
    | nil => rfl
    | cons c cs =>
      have hc := hrest c rfl
      simp only [isSignCharacter, Bool.or_eq_false_iff, beq_eq_false_iff_ne] at hc
      rw [List.nil_append]
      unfold signRow
      split <;> simp_all
  · rfl
  · rfl

/-! ### Characters of numerals -/

/-- Whether a character can continue a numeral. -/
def continuesNumeral (c : Char) : Bool :=
  isDigitOrSeparator c || c == '.' || c == 'e' || c == 'E'

theorem continuesNumeral_of_isBlank {c : Char} (h : isBlank c = true) :
    continuesNumeral c = false := by
  have hpoint : c ≠ '.' := ne_of_class h (by decide +kernel)
  have hlower : c ≠ 'e' := ne_of_class h (by decide +kernel)
  have hupper : c ≠ 'E' := ne_of_class h (by decide +kernel)
  rw [continuesNumeral, isDigitOrSeparator_of_isBlank h, beq_eq_false_iff_ne.mpr hpoint,
    beq_eq_false_iff_ne.mpr hlower, beq_eq_false_iff_ne.mpr hupper]
  rfl

/-! ### Exponents -/

namespace Exponent

variable {e : Exponent} {cs rest : List Char}

/-- Whether an exponent has a mark, at most one sign and digits. -/
structure WellFormed (e : Exponent) : Prop where
  mark : e.mark = ['e', 'e'] ∨ e.mark = ['e'] ∨ e.mark = ['E']
  sign : e.sign = [] ∨ e.sign = ['+'] ∨ e.sign = ['-']
  digits_ne_nil : e.digits ≠ []
  digits : ∀ c ∈ e.digits, isDigit c = true

theorem wellFormed_of_afterMark {mark : List Char}
    (hmark : mark = ['e', 'e'] ∨ mark = ['e'] ∨ mark = ['E'])
    (h : afterMark mark cs = some (e, rest)) : e.WellFormed := by
  unfold afterMark at h
  split at h
  · cases h
  · rename_i hne
    cases h
    exact ⟨hmark, isSign_signRow cs, hne, fun c hc => List.mem_takeWhile_imp hc⟩

theorem wellFormed_of_scan (h : scan cs = some (e, rest)) : e.WellFormed := by
  unfold scan at h
  split at h
  · exact wellFormed_of_afterMark (.inl rfl) h
  · exact wellFormed_of_afterMark (.inr (.inl rfl)) h
  · exact wellFormed_of_afterMark (.inr (.inr rfl)) h
  · cases h

theorem WellFormed.exists_digits (h : e.WellFormed) :
    ∃ c cs, e.digits = c :: cs ∧ isDigit c = true := by
  obtain ⟨c, cs, hc⟩ := List.exists_cons_of_ne_nil h.digits_ne_nil
  exact ⟨c, cs, hc, h.digits c (by rw [hc]; exact List.mem_cons_self)⟩

theorem WellFormed.text_ne_nil (h : e.WellFormed) : e.text ≠ [] := by
  rw [text]
  exact List.append_ne_nil_of_right_ne_nil _ h.digits_ne_nil

/-- A sign that is written in front of digits is read, and nothing else is taken for one. -/
theorem WellFormed.signRow_append (h : e.WellFormed) (rest : List Char) :
    signRow (e.sign ++ (e.digits ++ rest)) = (e.sign, e.digits ++ rest) := by
  obtain ⟨c, cs, hc, hdigit⟩ := h.exists_digits
  rw [hc]
  exact Metrology.signRow_append h.sign (endsRun_cons (isSignCharacter_of_isDigit hdigit) _)

theorem WellFormed.afterMark_append (h : e.WellFormed) (rest : List Char) :
    afterMark e.mark (e.sign ++ (e.digits ++ rest)) =
      some ({ e with digits := e.digits ++ rest.takeWhile isDigit }, rest.dropWhile isDigit) := by
  have htake : (e.digits ++ rest).takeWhile isDigit = e.digits ++ rest.takeWhile isDigit :=
    List.takeWhile_append_of_pos h.digits
  have hdrop : (e.digits ++ rest).dropWhile isDigit = rest.dropWhile isDigit :=
    List.dropWhile_append_of_pos h.digits
  unfold afterMark
  rw [h.signRow_append, htake, hdrop]
  split
  · rename_i hnil
    exact absurd (List.append_eq_nil_iff.mp hnil).1 h.digits_ne_nil
  · rfl

/-- A single `e` marks an exponent only where no second one follows it. -/
theorem scan_cons_e {c : Char} (hc : c ≠ 'e') (cs : List Char) :
    scan ('e' :: c :: cs) = afterMark ['e'] (c :: cs) := by
  unfold scan
  split <;> simp_all

/-- An exponent in front of a text is read with the digits that continue it. -/
theorem WellFormed.scan_append (h : e.WellFormed) (rest : List Char) :
    scan (e.text ++ rest) =
      some ({ e with digits := e.digits ++ rest.takeWhile isDigit }, rest.dropWhile isDigit) := by
  have hafter := h.afterMark_append rest
  rw [text, List.append_assoc, List.append_assoc]
  rcases h.mark with hmark | hmark | hmark
  · rw [hmark] at hafter ⊢
    exact hafter
  · -- Neither a sign nor a digit is a second `e`.
    have hfirst : ∃ c cs, e.sign ++ (e.digits ++ rest) = c :: cs ∧ c ≠ 'e' := by
      obtain ⟨c, cs, hc, hdigit⟩ := h.exists_digits
      rcases h.sign with hsign | hsign | hsign
      · rw [hsign, hc]
        exact ⟨c, cs ++ rest, rfl, ne_of_class hdigit (by decide +kernel)⟩
      · rw [hsign]
        exact ⟨_, _, rfl, by decide⟩
      · rw [hsign]
        exact ⟨_, _, rfl, by decide⟩
    obtain ⟨c, cs, hcs, hne⟩ := hfirst
    rw [hmark, hcs] at hafter ⊢
    exact (scan_cons_e hne cs).trans hafter
  · rw [hmark] at hafter ⊢
    exact hafter

theorem scan_of_ends (h : EndsRun continuesNumeral rest) : scan rest = none := by
  match rest with
  | [] => rfl
  | c :: cs =>
    have hc := h c rfl
    simp only [continuesNumeral, Bool.or_eq_false_iff, beq_eq_false_iff_ne] at hc
    unfold scan
    split <;> simp_all

end Exponent

/-! ### Numerals -/

namespace Numeral

variable {n : Numeral} {cs rest : List Char}

/-- Whether a numeral has digits on one side of its point at least, and no fraction without a
point. -/
structure WellFormed (n : Numeral) : Prop where
  whole : n.whole = [] ∨ IsDigitRow n.whole
  fraction : n.fraction = [] ∨ IsDigitRow n.fraction
  digits : n.whole ≠ [] ∨ n.fraction ≠ []
  point : n.point = false → n.fraction = []
  exponent : ∀ e ∈ n.exponent, e.WellFormed

theorem wellFormed_of_scanDigits (h : scanDigits cs = some (n, rest)) : n.WellFormed := by
  unfold scanDigits at h
  split at h
  · split at h
    · rename_i after _
      split at h
      · cases h
      · rename_i fraction r hne hrow
        cases h
        have hfraction := isDigitRow_digitRow after
        rw [hrow] at hfraction
        exact ⟨.inl rfl, hfraction, .inr (by simpa using hne), nofun, nofun⟩
    · cases h
  · rename_i whole after hne hrow
    cases h
    have hwhole := isDigitRow_digitRow cs
    rw [hrow] at hwhole
    exact ⟨hwhole, isDigitRow_digitRow after, .inl (by simpa using hne), nofun, nofun⟩
  · rename_i whole r hne _ hrow
    cases h
    have hwhole := isDigitRow_digitRow cs
    rw [hrow] at hwhole
    exact ⟨hwhole, .inl rfl, .inl (by simpa using hne), fun _ => rfl, nofun⟩

/-- What is read is a numeral. -/
theorem wellFormed_of_scan (h : scan cs = some (n, rest)) : n.WellFormed := by
  obtain ⟨⟨m, r⟩, hdigits, h⟩ := Option.map_eq_some_iff.mp h
  have hm := wellFormed_of_scanDigits hdigits
  dsimp only at h
  split at h
  · cases h
    exact hm
  · rename_i e after he
    cases h
    exact ⟨hm.whole, hm.fraction, hm.digits, hm.point, by
      rintro e' ⟨⟩
      exact Exponent.wellFormed_of_scan he⟩

/-- A numeral begins with a digit, or with a point in front of one. -/
theorem WellFormed.exists_text_eq_cons (h : n.WellFormed) :
    ∃ c cs, n.text = c :: cs ∧
      (isDigit c = true ∨ c = '.' ∧ ∃ d ∈ cs.head?, isDigit d = true) := by
  obtain ⟨whole, point, fraction, exponent⟩ := n
  obtain ⟨hwhole, hfraction, hdigits, hpoint, -⟩ := h
  cases whole with
  | cons c whole =>
    have hc : isDigit c = true := (hwhole.resolve_left (List.cons_ne_nil c whole)).1
    exact ⟨c, _, rfl, .inl hc⟩
  | nil =>
    -- Without digits before the point there are some behind it.
    have hne : fraction ≠ [] := hdigits.resolve_left fun hne => hne rfl
    obtain ⟨d, fraction, rfl⟩ := List.exists_cons_of_ne_nil hne
    have hdigit : isDigit d = true := (hfraction.resolve_left hne).1
    cases point with
    | false => exact absurd (hpoint rfl) hne
    | true => exact ⟨'.', _, rfl, .inr ⟨rfl, d, rfl, hdigit⟩⟩

/-! #### What is read -/

theorem scanDigits_of_point {whole after : List Char} (hne : whole ≠ [])
    (hrow : digitRow cs = (whole, '.' :: after)) :
    scanDigits cs = some (⟨whole, true, (digitRow after).1, none⟩, (digitRow after).2) := by
  unfold scanDigits
  rw [hrow]
  cases whole with
  | nil => exact absurd rfl hne
  | cons c whole => rfl

theorem scanDigits_of_row {whole : List Char} (hne : whole ≠ [])
    (hrow : digitRow cs = (whole, rest)) (hrest : EndsRun (· == '.') rest) :
    scanDigits cs = some (⟨whole, false, [], none⟩, rest) := by
  unfold scanDigits
  rw [hrow]
  cases whole with
  | nil => exact absurd rfl hne
  | cons c whole =>
    cases rest with
    | nil => rfl
    | cons x rest =>
      have hx : x ≠ '.' := by simpa using hrest x rfl
      dsimp only
      split <;> simp_all

theorem scanDigits_of_fraction {fraction after : List Char} (hne : fraction ≠ [])
    (hrow : digitRow after = (fraction, rest)) :
    scanDigits ('.' :: after) = some (⟨[], true, fraction, none⟩, rest) := by
  have hpoint : digitRow ('.' :: after) = ([], '.' :: after) := by
    rw [digitRow, if_neg (by decide +kernel)]
  obtain ⟨c, fraction, rfl⟩ := List.exists_cons_of_ne_nil hne
  simp only [scanDigits, hpoint, hrow]

/-- Whether a character can continue the digits of a numeral. -/
def continuesDigits (c : Char) : Bool := isDigitOrSeparator c || c == '.'

theorem endsRun_of_continuesDigits (h : EndsRun continuesDigits rest) :
    EndsRun isDigitOrSeparator rest ∧ EndsRun (· == '.') rest := by
  constructor <;> intro c hc
  · exact (Bool.or_eq_false_iff.mp (h c hc)).1
  · exact (Bool.or_eq_false_iff.mp (h c hc)).2

theorem endsRun_continuesDigits (h : EndsRun continuesNumeral rest) :
    EndsRun continuesDigits rest := by
  intro c hc
  have hc' := h c hc
  simp only [continuesNumeral, Bool.or_eq_false_iff] at hc'
  exact Bool.or_eq_false_iff.mpr hc'.1.1

/-- A row of digits in front of a text is read with the digits, the point and the fraction that
follow it. -/
theorem exists_scanDigits_row {whole : List Char} (hrow : IsDigitRow whole) (rest : List Char) :
    ∃ m more after, rest = more ++ after ∧ scanDigits (whole ++ rest) = some (m, after) ∧
      (more = [] → m = ⟨whole, false, [], none⟩) ∧ (EndsRun continuesDigits rest → more = []) := by
  have hread := hrow.digitRow_append rest
  have hne : whole ++ rest.takeWhile isDigitOrSeparator ≠ [] :=
    List.append_ne_nil_of_left_ne_nil hrow.ne_nil _
  have hsplit : rest = rest.takeWhile isDigitOrSeparator ++ rest.dropWhile isDigitOrSeparator :=
    List.takeWhile_append_dropWhile.symm
  by_cases hafter : ∃ after, rest.dropWhile isDigitOrSeparator = '.' :: after
  · obtain ⟨after, hafter⟩ := hafter
    rw [hafter] at hread hsplit
    refine ⟨_, rest.takeWhile isDigitOrSeparator ++ '.' :: (digitRow after).1,
      (digitRow after).2, ?_, scanDigits_of_point hne hread, fun hnil => ?_, fun hends => ?_⟩
    · rw [List.append_assoc, List.cons_append, ← eq_append_of_digitRow (Prod.eta _).symm]
      exact hsplit
    · cases (List.append_eq_nil_iff.mp hnil).2
    · -- The text does not begin with a point, nor with a digit before one.
      obtain ⟨hrun, hpoint⟩ := endsRun_of_continuesDigits hends
      rw [dropWhile_of_ends hrun] at hafter
      rw [hafter] at hpoint
      cases hpoint '.' rfl
  · have hstop : EndsRun (· == '.') (rest.dropWhile isDigitOrSeparator) := by
      intro c hc
      rw [beq_eq_false_iff_ne]
      rintro rfl
      exact hafter ⟨_, List.eq_cons_of_mem_head? hc⟩
    refine ⟨_, _, _, hsplit, scanDigits_of_row hne hread hstop, fun hnil => ?_, fun hends => ?_⟩
    · rw [hnil, List.append_nil]
    · exact takeWhile_of_ends (endsRun_of_continuesDigits hends).1

/-- A point with digits on one side of it at least is read with the digits that follow. -/
theorem exists_scanDigits_point {whole fraction : List Char}
    (hwhole : whole = [] ∨ IsDigitRow whole) (hfraction : fraction = [] ∨ IsDigitRow fraction)
    (hdigits : whole ≠ [] ∨ fraction ≠ []) (rest : List Char) :
    ∃ m more after, rest = more ++ after ∧
      scanDigits (whole ++ '.' :: (fraction ++ rest)) = some (m, after) ∧
      (more = [] → m = ⟨whole, true, fraction, none⟩) ∧
      (EndsRun continuesDigits rest → more = []) := by
  obtain ⟨more, after, hrest, hread, hends⟩ := exists_digitRow_append hfraction rest
  refine ⟨⟨whole, true, fraction ++ more, none⟩, more, after, hrest, ?_, fun hnil => ?_,
    fun hstop => hends (endsRun_of_continuesDigits hstop).1⟩
  · rcases hwhole with rfl | hwhole
    · have hne : fraction ≠ [] := hdigits.resolve_left fun hne => hne rfl
      exact scanDigits_of_fraction (List.append_ne_nil_of_left_ne_nil hne more) hread
    · have hstop : EndsRun isDigitOrSeparator ('.' :: (fraction ++ rest)) :=
        endsRun_cons (by decide +kernel) _
      rw [scanDigits_of_point hwhole.ne_nil (digitRow_append (.inr hwhole) hstop), hread]
  · rw [hnil, List.append_nil]

/-- A numeral without exponent in front of a text is read with what continues its digits. -/
theorem WellFormed.exists_scanDigits (h : n.WellFormed) (hnone : n.exponent = none)
    (rest : List Char) : ∃ m more after, rest = more ++ after ∧
      scanDigits (n.text ++ rest) = some (m, after) ∧ (more = [] → m = n) ∧
      (EndsRun continuesDigits rest → more = []) := by
  obtain ⟨whole, point, fraction, exponent⟩ := n
  obtain ⟨hwhole, hfraction, hdigits, hpoint, -⟩ := h
  obtain rfl : exponent = none := hnone
  cases point with
  | false =>
    obtain rfl : fraction = [] := hpoint rfl
    have hrow : IsDigitRow whole :=
      hwhole.resolve_left (hdigits.resolve_right fun hne => hne rfl)
    have htext : (⟨whole, false, [], none⟩ : Numeral).text ++ rest = whole ++ rest := by
      simp [text]
    rw [htext]
    exact exists_scanDigits_row hrow rest
  | true =>
    have htext : (⟨whole, true, fraction, none⟩ : Numeral).text ++ rest =
        whole ++ '.' :: (fraction ++ rest) := by simp [text]
    rw [htext]
    exact exists_scanDigits_point hwhole hfraction hdigits rest

theorem scan_of_no_exponent (h : scanDigits cs = some (n, rest))
    (hexponent : Exponent.scan rest = none) : scan cs = some (n, rest) := by
  rw [scan, h, Option.map_some]
  dsimp only
  rw [hexponent]

theorem scan_of_exponent {e : Exponent} {after : List Char} (h : scanDigits cs = some (n, rest))
    (hexponent : Exponent.scan rest = some (e, after)) :
    scan cs = some ({ n with exponent := some e }, after) := by
  rw [scan, h, Option.map_some]
  dsimp only
  rw [hexponent]

/-- The letter that marks an exponent does not continue the digits before it. -/
theorem endsRun_exponent {e : Exponent} (h : e.WellFormed) (rest : List Char) :
    EndsRun continuesDigits (e.text ++ rest) := by
  have hletter : ∀ c, c = 'e' ∨ c = 'E' → continuesDigits c = false := by
    rintro c (rfl | rfl) <;> decide +kernel
  rw [Exponent.text]
  rcases h.mark with hmark | hmark | hmark
  · rw [hmark]
    exact endsRun_cons (hletter 'e' (.inl rfl)) _
  · rw [hmark]
    exact endsRun_cons (hletter 'e' (.inl rfl)) _
  · rw [hmark]
    exact endsRun_cons (hletter 'E' (.inr rfl)) _

/-- **A numeral in front of a text is read**, perhaps with more of the text. -/
theorem WellFormed.exists_scan (h : n.WellFormed) (rest : List Char) :
    ∃ m more after, rest = more ++ after ∧ scan (n.text ++ rest) = some (m, after) ∧
      (more = [] → m = n) ∧ (EndsRun continuesNumeral rest → more = []) := by
  rcases hexponent : n.exponent with _ | e
  · obtain ⟨m, more, after, hrest, hread, hsame, hends⟩ := h.exists_scanDigits hexponent rest
    have hnothing (hstop : EndsRun continuesNumeral rest) : more = [] ∧ after = rest := by
      have hmore : more = [] := hends (endsRun_continuesDigits hstop)
      rw [hmore] at hrest
      exact ⟨hmore, hrest.symm⟩
    rcases hafter : Exponent.scan after with _ | ⟨e, after'⟩
    · exact ⟨m, more, after, hrest, scan_of_no_exponent hread hafter, hsame,
        fun hstop => (hnothing hstop).1⟩
    · -- What follows is an exponent, which then belongs to the numeral.
      have hne : more ++ e.text ≠ [] := List.append_ne_nil_of_right_ne_nil _
        (Exponent.wellFormed_of_scan hafter).text_ne_nil
      refine ⟨_, more ++ e.text, after', ?_, scan_of_exponent hread hafter,
        fun hnil => absurd hnil hne, fun hstop => ?_⟩
      · rw [List.append_assoc, ← Exponent.eq_append_of_scan hafter]
        exact hrest
      · rw [(hnothing hstop).2, Exponent.scan_of_ends hstop] at hafter
        cases hafter
  · have he : e.WellFormed := h.exponent e hexponent
    have hmantissa : ({ n with exponent := none } : Numeral).WellFormed :=
      ⟨h.whole, h.fraction, h.digits, h.point, nofun⟩
    have htext : n.text = ({ n with exponent := none } : Numeral).text ++ e.text := by
      simp [text, hexponent]
    obtain ⟨m, more, after, hrest, hread, hsame, hends⟩ :=
      hmantissa.exists_scanDigits rfl (e.text ++ rest)
    obtain rfl : more = [] := hends (endsRun_exponent he rest)
    obtain rfl := hsame rfl
    obtain rfl : e.text ++ rest = after := hrest
    rw [htext, List.append_assoc]
    refine ⟨_, rest.takeWhile isDigit, rest.dropWhile isDigit,
      List.takeWhile_append_dropWhile.symm, scan_of_exponent hread (he.scan_append rest),
      fun hnil => ?_, fun hstop => ?_⟩
    · rw [hnil, List.append_nil, ← hexponent]
    · apply takeWhile_of_ends
      intro c hc
      have hc' := hstop c hc
      simp only [continuesNumeral, isDigitOrSeparator, Bool.or_eq_false_iff] at hc'
      exact hc'.1.1.1.1

/-- A numeral is read back in front of a text that does not continue it. -/
theorem scan_text_append (hn : n.WellFormed) (hrest : EndsRun continuesNumeral rest) :
    scan (n.text ++ rest) = some (n, rest) := by
  obtain ⟨m, more, after, happend, hscan, hsame, hends⟩ := hn.exists_scan rest
  obtain rfl : more = [] := hends hrest
  rw [hscan, hsame rfl, happend, List.nil_append]

/-! ### Characters that numerals are made of -/

/-- Whether a character can stand in a numeral. -/
def isCharacter (c : Char) : Bool := isWord c || c == '.' || isSignCharacter c

theorem isCharacter_of_isWord {c : Char} (h : isWord c = true) : isCharacter c = true := by
  rw [isCharacter, h, Bool.true_or, Bool.true_or]

theorem isCharacter_of_mem_row {row : List Char} (h : row = [] ∨ IsDigitRow row) :
    ∀ c ∈ row, isCharacter c = true := by
  intro c hc
  apply isCharacter_of_isWord
  have hrow := isDigitOrSeparator_of_mem_row h c hc
  rw [isDigitOrSeparator, Bool.or_eq_true] at hrow
  rw [isWord]
  rcases hrow with hdigit | hseparator
  · rw [hdigit, Bool.or_true, Bool.true_or]
  · rw [hseparator, Bool.true_or, Bool.true_or]

theorem isCharacter_of_mem_exponent {e : Exponent} (h : e.WellFormed) :
    ∀ c ∈ e.text, isCharacter c = true := by
  have hmark : e.mark.all isCharacter = true := by
    rcases h.mark with hmark | hmark | hmark <;> (rw [hmark]; decide +kernel)
  have hsign : e.sign.all isCharacter = true := by
    rcases h.sign with hsign | hsign | hsign <;> (rw [hsign]; decide +kernel)
  intro c hc
  rw [Exponent.text, List.mem_append, List.mem_append] at hc
  rcases hc with (hc | hc) | hc
  · exact List.all_eq_true.mp hmark c hc
  · exact List.all_eq_true.mp hsign c hc
  · exact isCharacter_of_isWord (isWord_of_isDigit (h.digits c hc))

/-- A numeral is made of word characters, points and signs. -/
theorem WellFormed.isCharacter_of_mem (h : n.WellFormed) :
    ∀ c ∈ n.text, isCharacter c = true := by
  intro c hc
  rw [text, List.mem_append, List.mem_append, List.mem_append] at hc
  rcases hc with ((hc | hc) | hc) | hc
  · exact isCharacter_of_mem_row h.whole c hc
  · split_ifs at hc
    · obtain rfl := List.mem_singleton.mp hc
      decide +kernel
    · cases hc
  · exact isCharacter_of_mem_row h.fraction c hc
  · split at hc
    · cases hc
    · rename_i e he
      exact isCharacter_of_mem_exponent (h.exponent e he) c hc

end Numeral

end Metrology
