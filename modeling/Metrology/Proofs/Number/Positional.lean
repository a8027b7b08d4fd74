import Mathlib.Algebra.Order.Field.Power
import Mathlib.Data.List.Induction
import Mathlib.Data.Nat.Digits.Defs
import Mathlib.Tactic.FieldSimp
import Mathlib.Tactic.Positivity
import Metrology.Proofs.Number.Decimal

/-!
# Numerals in positional notation

A row of digits writes the number that has these digits in base ten (`rowValue_eq`), whatever
their script and however they are separated.  A numeral is worth the digits before its point, the
digits behind it as so many decimal places, and the power of ten that its exponent asks for
(`Numeral.WellFormed.value_eq`): that the digits are read as one row, and the exponent is lessened
by the places, makes no difference.

The main result is `Literal.read_positional`.
-/

namespace Metrology

open Text

/-! ### Rows of digits -/

namespace Text

/-- The values of the digits of a text, in their order; other characters count for nothing. -/
def digitValues (cs : List Char) : List Nat := cs.filterMap digitValue?

/-- The number whose digits in base ten are those of a text, the first one the most significant. -/
def digitNumber (cs : List Char) : Nat := Nat.ofDigits 10 (digitValues cs).reverse

variable {cs : List Char}

theorem digitValues_append (as bs : List Char) :
    digitValues (as ++ bs) = digitValues as ++ digitValues bs := List.filterMap_append

theorem digitValues_singleton {c : Char} (h : isDigit c = true) :
    digitValues [c] = [digitValue c] := by
  obtain ⟨v, hv⟩ := Option.isSome_iff_exists.mp h
  simp [digitValues, digitValue, hv]

/-- Separators are no digits. -/
theorem digitValues_filter (cs : List Char) :
    digitValues (cs.filter (· != '_')) = digitValues cs := by
  have hnone : digitValue? '_' = none := by decide +kernel
  induction cs with
  | nil => rfl
  | cons c cs ih =>
    by_cases hc : c = '_'
    · rw [hc, List.filter_cons_of_neg (by decide), ih, digitValues, digitValues,
        List.filterMap_cons_none hnone]
    · rw [List.filter_cons_of_pos (by simpa using hc), ← List.singleton_append, digitValues_append,
        ih, ← digitValues_append, List.singleton_append]

/-- Where there is nothing but digits, the fold over them is their number. -/
theorem positional_eq_digitNumber (h : ∀ c ∈ cs, isDigit c = true) :
    positional cs = digitNumber cs := by
  induction cs using List.reverseRecOn with
  | nil => rfl
  | append_singleton cs c ih =>
    have hc : isDigit c = true := h c (by simp)
    have hcs : ∀ x ∈ cs, isDigit x = true := fun x hx => h x (by simp [hx])
    have hlast : positional [c] = digitValue c := by simp [positional]
    rw [positional_append, hlast, ih hcs, digitNumber, digitNumber, digitValues_append,
      digitValues_singleton hc, List.reverse_append, List.reverse_singleton, List.singleton_append,
      Nat.ofDigits_cons, List.length_singleton]
    ring

theorem length_digitValues (h : ∀ c ∈ cs, isDigit c = true) :
    (digitValues cs).length = cs.length := by
  induction cs with
  | nil => rfl
  | cons c cs ih =>
    rw [List.forall_mem_cons] at h
    rw [← List.singleton_append, digitValues_append, digitValues_singleton h.1,
      List.length_append, List.length_append, ih h.2]
    rfl

end Text

variable {row : List Char}

theorem isDigit_of_mem_filter (h : row = [] ∨ IsDigitRow row) :
    ∀ c ∈ row.filter (· != '_'), isDigit c = true := by
  intro c hc
  rw [List.mem_filter, bne_iff_ne] at hc
  have hrow := isDigitOrSeparator_of_mem_row h c hc.1
  rw [isDigitOrSeparator, Bool.or_eq_true, beq_iff_eq] at hrow
  exact hrow.resolve_right hc.2

/-- A row writes the number of its digits. -/
theorem rowValue_eq (h : row = [] ∨ IsDigitRow row) : rowValue row = digitNumber row := by
  rw [rowValue, positional_eq_digitNumber (isDigit_of_mem_filter h), digitNumber,
    digitValues_filter, digitNumber]

theorem rowDigits_eq (h : row = [] ∨ IsDigitRow row) :
    rowDigits row = (digitValues row).length := by
  rw [rowDigits, ← length_digitValues (isDigit_of_mem_filter h), digitValues_filter]

/-- Behind a row another one has the places of its digits. -/
theorem rowValue_append (as bs : List Char) :
    rowValue (as ++ bs) = rowValue as * 10 ^ rowDigits bs + rowValue bs := by
  rw [rowValue, List.filter_append, positional_append]
  rfl

/-! ### Numerals -/

/-- The integer that an exponent writes in positional notation. -/
def Exponent.positionalValue (e : Exponent) : Int :=
  if e.sign = ['-'] then -(digitNumber e.digits : Int) else digitNumber e.digits

/-- The number that a numeral writes in positional notation. -/
def Numeral.positionalValue (n : Numeral) : Rat :=
  (digitNumber n.whole + digitNumber n.fraction / 10 ^ (digitValues n.fraction).length) *
    10 ^ n.exponent.elim 0 Exponent.positionalValue

theorem Exponent.WellFormed.value_eq {e : Exponent} (h : e.WellFormed) :
    e.value = e.positionalValue := by
  rw [value, positionalValue, positional_eq_digitNumber h.digits]

namespace Numeral

variable {n : Numeral}

theorem WellFormed.shift_eq (h : n.WellFormed) :
    n.shift = n.exponent.elim 0 Exponent.positionalValue - (digitValues n.fraction).length := by
  rw [shift, rowDigits_eq h.fraction]
  rcases he : n.exponent with _ | e
  · rfl
  · rw [Option.elim_some, ← (h.exponent e he).value_eq]

/-- **A numeral is worth its digits in positional notation** times the power of ten that it asks
for. -/
theorem WellFormed.value_eq (h : n.WellFormed) : n.value = n.positionalValue := by
  have hten : (10 : Rat) ≠ 0 := by norm_num
  rw [value, timesPowerOfTen_eq, rowValue_append, rowValue_eq h.whole, rowValue_eq h.fraction,
    rowDigits_eq h.fraction, h.shift_eq, zpow_sub₀ hten, zpow_natCast, positionalValue]
  push_cast
  field_simp

theorem positionalValue_nonneg (n : Numeral) : 0 ≤ n.positionalValue := by
  unfold positionalValue
  positivity

end Numeral

/-! ### Literals -/

namespace Literal

variable {sign : List Char} {n : Numeral} {text : String}

/-- What is read as a numeral with a sign has the value of that numeral with the sign. -/
theorem WritesDecimal.read_positionalValue (h : WritesDecimal text.toList sign n) :
    read text = .ok ((if sign = ['-'] then -1 else 1) * n.positionalValue) := by
  rw [h.read_eq, h.wellFormed.value_eq, withSign]
  by_cases hsign : sign = ['-'] <;> simp [hsign]

/-- A numeral by itself is read as what it writes. -/
theorem read_numeral (hn : n.WellFormed) :
    read (String.ofList n.text) = .ok n.positionalValue := by
  rw [read_text hn, hn.value_eq]

/-- **Decimal literals have their positional value**, in lowest terms, and what is neither a
numeral with a sign nor a quotient of two rows of digits is refused as malformed. -/
theorem read_positional (text : String) :
    (∀ sign n, WritesDecimal text.toList sign n → ∃ q, read text = .ok q ∧
      q = (if sign = ['-'] then -1 else 1) * n.positionalValue ∧ q.num.natAbs.Coprime q.den) ∧
    ((∀ sign n, ¬ WritesDecimal text.toList sign n) →
      (∀ sign numerator denominator, ¬ WritesQuotient text.toList sign numerator denominator) →
        ∃ e, read text = .error e ∧ e = .invalidLiteral text ∧ e.kind = .malformedText) := by
  refine ⟨fun sign n h => ⟨_, h.read_positionalValue, rfl, Rat.reduced _⟩, ?_⟩
  intro hdecimal hquotient
  exact ⟨_, read_of_writes_nothing hdecimal hquotient, rfl, rfl⟩

/-- Separators, digits of another script and a double mark do not count; an exponent has no
separators. -/
theorem read_positional_separators :
    (∃ q, read " -1_2.5_0ee-٣\n" = .ok q ∧ q = -1 / 80 ∧ q.num.natAbs.Coprime q.den) ∧
    ∃ e, read "1e5_0" = .error e ∧ e = .invalidLiteral "1e5_0" ∧ e.kind = .malformedText := by
  let n : Numeral := ⟨['1', '_', '2'], true, ['5', '_', '0'], some ⟨['e', 'e'], ['-'], ['٣']⟩⟩
  have hscan : Numeral.scan "1_2.5_0ee-٣".toList = some (n, []) := by decide +kernel
  have hwrites : WritesDecimal " -1_2.5_0ee-٣\n".toList ['-'] n :=
    @WritesDecimal.mk [' '] ['-'] ['\n'] n (List.forall_mem_singleton.mpr (by decide +kernel))
      (.inr (.inr rfl)) (Numeral.wellFormed_of_scan hscan)
      (List.forall_mem_singleton.mpr (by decide +kernel))
  have hvalue : n.positionalValue = 1 / 80 := by decide +kernel
  constructor
  · obtain ⟨q, hq, hqvalue, hcoprime⟩ := (read_positional _).1 _ _ hwrites
    refine ⟨q, hq, ?_, hcoprime⟩
    rw [hqvalue, hvalue]
    norm_num
  · have hdecimal : decimal? "1e5_0".toList = none := by decide +kernel
    have hquotient : quotient? "1e5_0".toList = none := by decide +kernel
    refine (read_positional "1e5_0").2 (fun sign n h => ?_) (fun sign a b h => ?_)
    · cases hdecimal.symm.trans h.decimal?_eq
    · cases hquotient.symm.trans h.quotient?_eq

end Literal

end Metrology
