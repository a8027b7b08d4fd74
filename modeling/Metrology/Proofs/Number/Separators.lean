import Metrology.Proofs.Number.Positional

/-!
# Separators in quotients

A numeral may have separators anywhere behind the first digit of a row, but the rows of a quotient
may not: there a separator at the end of a row, or before another one (`HasLooseSeparator`), makes
reading fail with a cause of its own, which does not say that the text is malformed.  So the value
of a quotient is known in every case (`value_quotient_of_…`), and the rule for separators is not the
same in the two forms of literals.

The main result is `Literal.read_loose_separators`; `Literal.not_forall_read_malformed` shows what
does not hold.
-/

namespace Metrology

open Text

/-- Whether a separator of a row stands at its end or before another one. -/
def HasLooseSeparator (row : List Char) : Prop := ['_'] <:+ row ∨ ['_', '_'] <:+: row

/-- A separator is single where it is not loose. -/
theorem Literal.separatorsAreSingle_iff (row : List Char) :
    separatorsAreSingle row = true ↔ ¬ HasLooseSeparator row := by
  fun_induction separatorsAreSingle row with
  | case1 => simp [HasLooseSeparator]
  | case2 => simp [HasLooseSeparator]
  | case3 rest =>
    have hdouble : ['_', '_'] <:+: '_' :: '_' :: rest := ⟨[], rest, rfl⟩
    simp [HasLooseSeparator, hdouble]
  | case4 c rest hlast hdouble ih =>
    -- The first character is no loose separator, so that the others decide.
    have hsuffix : ['_'] <:+ c :: rest ↔ ['_'] <:+ rest := by
      rw [List.suffix_cons_iff]
      refine or_iff_right fun heq => ?_
      obtain ⟨rfl, rfl⟩ := List.cons.inj heq
      exact hlast rfl rfl
    have hinfix : ['_', '_'] <:+: c :: rest ↔ ['_', '_'] <:+: rest := by
      rw [List.infix_cons_iff]
      refine or_iff_right fun hprefix => ?_
      obtain ⟨after, heq⟩ := hprefix
      obtain ⟨rfl, rfl⟩ := List.cons.inj heq
      exact hdouble after rfl rfl
    rw [ih, HasLooseSeparator, HasLooseSeparator, hsuffix, hinfix]

/-- Digits alone have no separators. -/
theorem not_hasLooseSeparator_of_isDigit {row : List Char} (h : ∀ c ∈ row, isDigit c = true) :
    ¬ HasLooseSeparator row := by
  have hnone : '_' ∉ row := fun hmem => absurd (h '_' hmem) (by decide +kernel)
  rintro (hlast | hdouble)
  · exact hnone (hlast.subset List.mem_cons_self)
  · exact hnone (hdouble.subset List.mem_cons_self)

instance : DecidablePred HasLooseSeparator := fun row =>
  decidable_of_iff (¬ Literal.separatorsAreSingle row = true)
    (by rw [Literal.separatorsAreSingle_iff, not_not])

namespace Literal

variable {sign row numerator denominator : List Char} {negative : Bool} {text : String}

theorem strictRowValue_of_loose (h : HasLooseSeparator row) :
    strictRowValue row = .error .misplacedSeparator := by
  have hnot : ¬ separatorsAreSingle row = true := fun hs => (separatorsAreSingle_iff row).mp hs h
  rw [strictRowValue, if_neg hnot]

theorem strictRowValue_of_single (hrow : IsDigitRow row) (h : ¬ HasLooseSeparator row) :
    strictRowValue row = .ok (digitNumber row) := by
  rw [strictRowValue, if_pos ((separatorsAreSingle_iff row).mpr h), rowValue_eq (.inr hrow)]

/-! ### The value of a quotient -/

/-- The denominator is looked at first. -/
theorem value_quotient_of_loose_denominator (h : HasLooseSeparator denominator) :
    (quotient negative numerator denominator).value text = .error .misplacedSeparator := by
  rw [value, strictRowValue_of_loose h]
  rfl

theorem value_quotient_of_zero (hdenominator : IsDigitRow denominator)
    (hsingle : ¬ HasLooseSeparator denominator) (hzero : digitNumber denominator = 0) :
    (quotient negative numerator denominator).value text =
      .error (.zeroDenominatorLiteral text) := by
  rw [value, strictRowValue_of_single hdenominator hsingle, hzero]
  rfl

/-- Behind a denominator that is no zero the numerator decides. -/
theorem value_quotient_of_ne_zero (hdenominator : IsDigitRow denominator)
    (hsingle : ¬ HasLooseSeparator denominator) (hzero : digitNumber denominator ≠ 0) :
    (quotient negative numerator denominator).value text =
      (strictRowValue numerator).map
        fun n => withSign negative (mkRat n (digitNumber denominator)) := by
  rw [value, strictRowValue_of_single hdenominator hsingle]
  show (if digitNumber denominator = 0 then _ else _) = _
  rw [if_neg hzero]
  cases strictRowValue numerator <;> rfl

theorem value_quotient_of_loose_numerator (hdenominator : IsDigitRow denominator)
    (hsingle : ¬ HasLooseSeparator denominator) (hzero : digitNumber denominator ≠ 0)
    (h : HasLooseSeparator numerator) :
    (quotient negative numerator denominator).value text = .error .misplacedSeparator := by
  rw [value_quotient_of_ne_zero hdenominator hsingle hzero, strictRowValue_of_loose h]
  rfl

theorem value_quotient_of_single (hnumerator : IsDigitRow numerator)
    (hdenominator : IsDigitRow denominator) (hzero : digitNumber denominator ≠ 0)
    (h : ¬ HasLooseSeparator numerator) (h' : ¬ HasLooseSeparator denominator) :
    (quotient negative numerator denominator).value text =
      .ok (withSign negative (digitNumber numerator / digitNumber denominator)) := by
  rw [value_quotient_of_ne_zero hdenominator h' hzero, strictRowValue_of_single hnumerator h]
  show Except.ok (withSign negative (mkRat (digitNumber numerator) _)) = _
  rw [Rat.mkRat_eq_div, Int.cast_natCast]

/-- Whether the separators of a quotient are not read: those of the denominator, or those of the
numerator where the denominator is no zero. -/
def HasUnreadSeparator (numerator denominator : List Char) : Prop :=
  HasLooseSeparator denominator ∨
    digitNumber denominator ≠ 0 ∧ HasLooseSeparator numerator

/-- A quotient has a value, or a denominator that is zero, or separators that are not read. -/
theorem value_quotient_cases (hnumerator : IsDigitRow numerator)
    (hdenominator : IsDigitRow denominator) (negative : Bool) (text : String) :
    HasUnreadSeparator numerator denominator ∧
      (quotient negative numerator denominator).value text = .error .misplacedSeparator ∨
    ¬ HasUnreadSeparator numerator denominator ∧
      ((∃ q, (quotient negative numerator denominator).value text = .ok q) ∨
        (quotient negative numerator denominator).value text =
          .error (.zeroDenominatorLiteral text)) := by
  by_cases h' : HasLooseSeparator denominator
  · exact .inl ⟨.inl h', value_quotient_of_loose_denominator h'⟩
  by_cases hzero : digitNumber denominator = 0
  · refine .inr ⟨?_, .inr (value_quotient_of_zero hdenominator h' hzero)⟩
    rintro (hloose | ⟨hne, -⟩)
    · exact h' hloose
    · exact hne hzero
  by_cases h : HasLooseSeparator numerator
  · exact .inl ⟨.inr ⟨hzero, h⟩, value_quotient_of_loose_numerator hdenominator h' hzero h⟩
  · refine .inr ⟨?_, .inl ⟨_, value_quotient_of_single hnumerator hdenominator hzero h h'⟩⟩
    rintro (hloose | ⟨-, hloose⟩)
    · exact h' hloose
    · exact h hloose

/-! ### Reading -/

/-- A failure of reading is that the text is malformed, unless a quotient has separators that are
not read. -/
theorem read_error_cases {e : Error} (h : read text = .error e) :
    e.kind = .malformedText ∨ e = .misplacedSeparator ∧
      ∃ sign numerator denominator, WritesQuotient text.toList sign numerator denominator ∧
        HasUnreadSeparator numerator denominator := by
  rcases writes_cases text with ⟨sign, n, hwrites⟩ |
    ⟨sign, numerator, denominator, hwrites⟩ | hneither
  · rw [hwrites.read_eq] at h
    cases h
  · rw [hwrites.read_eq] at h
    obtain ⟨hunread, hvalue⟩ | ⟨-, ⟨q, hvalue⟩ | hvalue⟩ :=
      value_quotient_cases hwrites.rows.1 hwrites.rows.2 (sign == ['-']) text
    · rw [hvalue] at h
      cases h
      exact .inr ⟨rfl, sign, numerator, denominator, hwrites, hunread⟩
    · rw [hvalue] at h
      cases h
    · rw [hvalue] at h
      cases h
      exact .inl rfl
  · rw [hneither] at h
    cases h
    exact .inl rfl

theorem WritesQuotient.read_of_unread
    (h : WritesQuotient text.toList sign numerator denominator)
    (hunread : HasUnreadSeparator numerator denominator) :
    read text = .error .misplacedSeparator := by
  rw [h.read_eq]
  rcases value_quotient_cases h.rows.1 h.rows.2 (sign == ['-']) text with ⟨-, hvalue⟩ | ⟨hnot, -⟩
  · exact hvalue
  · exact absurd hunread hnot

/-- A row of digits by itself is read as its number, wherever it has separators. -/
theorem read_row {a : String} (h : IsDigitRow a.toList) : read a = .ok (digitNumber a.toList) := by
  let n : Numeral := ⟨a.toList, false, [], none⟩
  have hn : n.WellFormed := ⟨.inr h, .inl rfl, .inl h.ne_nil, fun _ => rfl, nofun⟩
  have htext : String.ofList n.text = a := by simp [n, Numeral.text]
  have hvalue : n.positionalValue = digitNumber a.toList := by
    simp [n, Numeral.positionalValue, digitNumber, digitValues]
  have hread := read_numeral hn
  rwa [htext, hvalue] at hread

theorem writesQuotient_rows {a b : String} (ha : IsDigitRow a.toList) (hb : IsDigitRow b.toList) :
    WritesQuotient (a ++ "/" ++ b).toList [] a.toList b.toList := by
  have hblank : ∀ c ∈ ([] : List Char), isBlank c = true := List.forall_mem_nil _
  have h := WritesQuotient.mk hblank (.inl rfl) ha hblank hblank hb hblank
  simpa using h

/-- A quotient of two rows is that of their numbers, unless one of them has a loose separator. -/
theorem read_quotient_of_rows {a b : String} (ha : IsDigitRow a.toList) (hb : IsDigitRow b.toList)
    (hzero : digitNumber b.toList ≠ 0) :
    (¬ HasLooseSeparator a.toList ∧ ¬ HasLooseSeparator b.toList ∧
      read (a ++ "/" ++ b) = .ok (digitNumber a.toList / digitNumber b.toList)) ∨
    ((HasLooseSeparator a.toList ∨ HasLooseSeparator b.toList) ∧
      read (a ++ "/" ++ b) = .error .misplacedSeparator) := by
  have hwrites := writesQuotient_rows ha hb
  by_cases hloose : HasLooseSeparator a.toList ∨ HasLooseSeparator b.toList
  · refine .inr ⟨hloose, hwrites.read_of_unread ?_⟩
    rcases hloose with hloose | hloose
    · exact .inr ⟨hzero, hloose⟩
    · exact .inl hloose
  · obtain ⟨hleft, hright⟩ := not_or.mp hloose
    refine .inl ⟨hleft, hright, ?_⟩
    rw [hwrites.read_eq, value_quotient_of_single ha hb hzero hleft hright]
    rfl

/-- **Reading fails only for malformed text, except for loose separators in a quotient**, which a
numeral may have: then the failure is that of a value out of range.  Without them a quotient of two
rows is the quotient of what the rows are by themselves. -/
theorem read_loose_separators (text : String) :
    (∀ e, read text = .error e →
      e.kind = .malformedText ∨ e = .misplacedSeparator ∧ e.kind = .invalidValue) ∧
    (read text = .error .misplacedSeparator ↔
      ∃ sign numerator denominator, WritesQuotient text.toList sign numerator denominator ∧
        (HasLooseSeparator denominator ∨
          digitNumber denominator ≠ 0 ∧ HasLooseSeparator numerator)) ∧
    ∀ a b : String, text = a ++ "/" ++ b → IsDigitRow a.toList → IsDigitRow b.toList →
      ∃ p q, read a = .ok p ∧ read b = .ok q ∧ (q ≠ 0 →
        (¬ HasLooseSeparator a.toList ∧ ¬ HasLooseSeparator b.toList ∧
          read text = .ok (p / q)) ∨
        ((HasLooseSeparator a.toList ∨ HasLooseSeparator b.toList) ∧
          read text = .error .misplacedSeparator)) := by
  refine ⟨fun e he => ?_, ⟨fun he => ?_, ?_⟩, ?_⟩
  · rcases read_error_cases he with hkind | ⟨rfl, -⟩
    · exact .inl hkind
    · exact .inr ⟨rfl, rfl⟩
  · rcases read_error_cases he with hkind | ⟨-, hwrites⟩
    · cases hkind
    · exact hwrites
  · rintro ⟨sign, numerator, denominator, hwrites, hunread⟩
    exact hwrites.read_of_unread hunread
  · rintro a b rfl ha hb
    refine ⟨_, _, read_row ha, read_row hb, fun hne => ?_⟩
    exact read_quotient_of_rows ha hb (Nat.cast_ne_zero.mp hne)

/-- Single separators are read in both forms, and loose ones in numerals alone. -/
theorem read_loose_separators_thirds :
    (∃ p q, read "1_0" = .ok p ∧ read "3_0" = .ok q ∧ read "1_0/3_0" = .ok (p / q)) ∧
    (∃ p, read "1_" = .ok p ∧ read "1_/3_0" = .error .misplacedSeparator) := by
  have hten : IsDigitRow "1_0".toList := by decide +kernel
  have hone : IsDigitRow "1_".toList := by decide +kernel
  have hthirty : IsDigitRow "3_0".toList := by decide +kernel
  have hnumber : digitNumber "3_0".toList = 30 := by decide +kernel
  have hne {q : Rat} (hq : read "3_0" = .ok q) : q ≠ 0 := by
    rw [read_row hthirty, hnumber] at hq
    rw [← Except.ok.inj hq]
    norm_num
  constructor
  · obtain ⟨p, q, hp, hq, hquotient⟩ :=
      (read_loose_separators "1_0/3_0").2.2 "1_0" "3_0" (by decide) hten hthirty
    rcases hquotient (hne hq) with ⟨-, -, hread⟩ | ⟨hloose, -⟩
    · exact ⟨p, q, hp, hq, hread⟩
    · exact absurd hloose (by decide)
  · obtain ⟨p, q, hp, hq, hquotient⟩ :=
      (read_loose_separators "1_/3_0").2.2 "1_" "3_0" (by decide) hone hthirty
    rcases hquotient (hne hq) with ⟨hnot, -, -⟩ | ⟨-, hread⟩
    · exact absurd hnot (by decide)
    · exact ⟨p, hp, hread⟩

/-- What does not hold: that every failure of reading is one of malformed text, and that a quotient
of two rows that are read is read as their quotient. -/
theorem not_forall_read_malformed :
    (¬ ∀ (text : String) (e : Error), read text = .error e → e.kind = .malformedText) ∧
    ¬ ∀ (a b : String) (p q : Rat), IsDigitRow a.toList → IsDigitRow b.toList →
      read a = .ok p → read b = .ok q → q ≠ 0 → read (a ++ "/" ++ b) = .ok (p / q) := by
  have hone : IsDigitRow "1_".toList := by decide +kernel
  have hthree : IsDigitRow "3".toList := by decide +kernel
  have hread : read "1_/3" = .error .misplacedSeparator := by decide +kernel
  refine ⟨fun h => ?_, fun h => ?_⟩
  · cases h _ _ hread
  · have hnumber : digitNumber "3".toList = 3 := by decide +kernel
    have hquotient := h "1_" "3" _ _ hone hthree (read_row hone) (read_row hthree)
      (by rw [hnumber]; norm_num)
    cases hread.symm.trans hquotient

end Literal

end Metrology
