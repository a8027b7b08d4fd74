import Mathlib.Algebra.Order.Field.Rat
import Mathlib.Data.List.Basic
import Mathlib.Tactic.Ring
import Metrology.Number.Decimal
import Metrology.Proofs.Number.Literal

/-!
# Numbers as text are read back

A plain numeral is one of digits with or without a point.  The decimal digits of a number write it
(`Decimal.positional_digits`), and what decimal notation writes without its sign is always a plain
numeral (`Decimal.text_unsigned`), whatever it is rounded to, so that reading the text gives the
value of that numeral with the sign (`Literal.read_signed`).
-/

namespace Metrology

open Text

/-! ### Plain numerals -/

/-- Whether a numeral has digits before the point, no separators and no exponent. -/
structure Numeral.IsPlain (n : Numeral) : Prop where
  whole_ne_nil : n.whole ≠ []
  whole : ∀ c ∈ n.whole, isDigit c = true
  fraction : ∀ c ∈ n.fraction, isDigit c = true
  point : n.point = false → n.fraction = []
  exponent : n.exponent = none

theorem Numeral.IsPlain.exists_text_eq_cons {n : Numeral} (hn : n.IsPlain) :
    ∃ c cs, n.text = c :: cs ∧ isDigit c = true := by
  obtain ⟨c, cs, hc⟩ := List.exists_cons_of_ne_nil hn.whole_ne_nil
  have hdigit : isDigit c = true := by
    apply hn.whole
    rw [hc]
    exact List.mem_cons_self
  refine ⟨c, cs ++ (if n.point then ['.'] else []) ++ n.fraction, ?_, hdigit⟩
  rw [text, hn.exponent, hc]
  simp

theorem isDigitRow_of_isDigit {row : List Char} (h : ∀ c ∈ row, isDigit c = true) :
    row = [] ∨ IsDigitRow row := by
  cases row with
  | nil => exact .inl rfl
  | cons c cs =>
    rw [List.forall_mem_cons] at h
    exact .inr ⟨h.1, fun x hx => isDigitOrSeparator_of_isDigit (h.2 x hx)⟩

theorem Numeral.IsPlain.wellFormed {n : Numeral} (hn : n.IsPlain) : n.WellFormed where
  whole := isDigitRow_of_isDigit hn.whole
  fraction := isDigitRow_of_isDigit hn.fraction
  digits := .inl hn.whole_ne_nil
  point := hn.point
  exponent e he := by
    rw [hn.exponent] at he
    cases he

/-! ### Values -/

/-- Behind a row of digits another one has the places of its digits. -/
theorem Text.positional_append (as bs : List Char) :
    positional (as ++ bs) = positional as * 10 ^ bs.length + positional bs := by
  have hfold (n : Nat) : bs.foldl (fun n c => 10 * n + digitValue c) n =
      n * 10 ^ bs.length + positional bs := by
    rw [positional]
    induction bs generalizing n with
    | nil => simp
    | cons c cs ih =>
      rw [List.foldl_cons, List.foldl_cons, ih, ih (10 * 0 + digitValue c), List.length_cons]
      ring
  rw [positional, List.foldl_append]
  exact hfold _

theorem Numeral.timesPowerOfTen_eq (n : Nat) (e : Int) :
    timesPowerOfTen n e = n * (10 : Rat) ^ e := by
  cases e with
  | ofNat e =>
    show ((n * 10 ^ e : Nat) : Rat) = n * (10 : Rat) ^ (e : Int)
    rw [zpow_natCast]
    push_cast
    rfl
  | negSucc e =>
    show mkRat n (10 ^ (e + 1)) = _
    rw [Rat.mkRat_eq_div, zpow_negSucc, div_eq_mul_inv]
    push_cast
    rfl

theorem filter_separators {row : List Char} (h : ∀ c ∈ row, isDigit c = true) :
    row.filter (· != '_') = row := by
  rw [List.filter_eq_self]
  intro c hc
  rw [bne_iff_ne]
  exact ne_of_class (h c hc) (by decide +kernel)

/-- A plain numeral is worth what its digits write, with a place of ten for each behind the
point. -/
theorem Numeral.IsPlain.value_eq {n : Numeral} (hn : n.IsPlain) :
    n.value = positional (n.whole ++ n.fraction) / (10 : Rat) ^ n.fraction.length := by
  have hdigits (c : Char) (hc : c ∈ n.whole ++ n.fraction) : isDigit c = true := by
    rcases List.mem_append.mp hc with hc | hc
    · exact hn.whole c hc
    · exact hn.fraction c hc
  have hshift : n.shift = -(n.fraction.length : Int) := by
    rw [shift, hn.exponent, rowDigits, filter_separators hn.fraction]
    exact zero_sub _
  rw [value, rowValue, filter_separators hdigits, timesPowerOfTen_eq, hshift, zpow_neg,
    zpow_natCast, div_eq_mul_inv]

namespace Decimal

/-! ### Digits -/

theorem digitValue?_of_ascii {c : Char} (h : c.isDigit = true) :
    digitValue? c = some (c.toNat - 48) := by
  simp only [Char.isDigit, Bool.and_eq_true, decide_eq_true_eq] at h
  have hlow : 48 ≤ c.toNat := h.1
  have hhigh : c.toNat ≤ 57 := h.2
  rw [digitValue?, zeroDigits, digitOffset, if_neg (by omega), if_pos (by omega)]

theorem isDigit_of_ascii {c : Char} (h : c.isDigit = true) : Text.isDigit c = true := by
  rw [Text.isDigit, digitValue?_of_ascii h]
  rfl

theorem isDigit_of_mem_digits {n : Nat} {c : Char} (h : c ∈ digits n) :
    Text.isDigit c = true :=
  isDigit_of_ascii (Nat.isDigit_of_mem_toDigits (by decide) (by decide) h)

theorem digits_ne_nil (n : Nat) : digits n ≠ [] := Nat.toDigits_ne_nil

theorem positional_digits (n : Nat) : positional (digits n) = n := by
  have hvalue : positional (digits n) = Nat.ofDigitChars 10 (digits n) 0 := by
    apply List.foldl_ext
    intro k c hc
    have hascii : c.isDigit = true := Nat.isDigit_of_mem_toDigits (by decide) (by decide) hc
    rw [digitValue, digitValue?_of_ascii hascii]
    rfl
  rw [hvalue]
  exact Nat.ofDigitChars_ten_toDigits

theorem ascii_of_mem_lastDigits {places n : Nat} {c : Char} (h : c ∈ lastDigits places n) :
    c.isDigit = true := by
  induction places generalizing n with
  | zero => cases h
  | succ places ih =>
    rw [lastDigits, List.mem_append, List.mem_singleton] at h
    rcases h with h | rfl
    · exact ih h
    · rw [Nat.isDigit_digitChar, decide_eq_true_eq]
      omega

theorem mem_of_mem_stripZeros {cs : List Char} {c : Char} (h : c ∈ stripZeros cs) : c ∈ cs := by
  rw [stripZeros, List.mem_reverse] at h
  exact List.mem_reverse.mp ((List.dropWhile_sublist _).mem h)

/-! ### What is written -/

/-- The numeral that decimal notation writes without its sign; no point is written where no digits
are left behind it. -/
def unsigned (places n : Nat) : Numeral where
  whole := digits (n / Nat.pow 10 places)
  point := !(stripZeros (lastDigits places n)).isEmpty
  fraction := stripZeros (lastDigits places n)
  exponent := none

theorem isPlain_unsigned (places n : Nat) : (unsigned places n).IsPlain where
  whole_ne_nil := digits_ne_nil _
  whole := fun _ h => isDigit_of_mem_digits h
  fraction := fun _ h => isDigit_of_ascii (ascii_of_mem_lastDigits (mem_of_mem_stripZeros h))
  point := fun h => List.isEmpty_iff.mp ((Bool.not_eq_false' _).mp h)
  exponent := rfl

theorem text_unsigned (places n : Nat) : (unsigned places n).text = unsignedText places n := by
  rw [Numeral.text, unsigned, unsignedText]
  cases stripZeros (lastDigits places n) with
  | nil => simp
  | cons c cs => simp

/-- The numeral of a natural number. -/
def numeral (n : Nat) : Numeral := ⟨digits n, false, [], none⟩

theorem isPlain_numeral (n : Nat) : (numeral n).IsPlain :=
  ⟨digits_ne_nil n, fun _ h => isDigit_of_mem_digits h, fun _ h => (by cases h), fun _ => rfl, rfl⟩

theorem text_numeral (n : Nat) : (numeral n).text = digits n := by
  simp [numeral, Numeral.text]

theorem value_numeral (n : Nat) : (numeral n).value = n := by
  rw [(isPlain_numeral n).value_eq, numeral, List.append_nil, positional_digits, List.length_nil,
    pow_zero, div_one]

end Decimal

/-! ### Signed numerals -/

namespace Literal

/-- What stands before the digits of a number: a minus sign or nothing. -/
def signText (negative : Bool) : List Char := if negative then ['-'] else []

theorem isSign_signText (negative : Bool) : IsSign (signText negative) := by
  cases negative
  · exact .inl rfl
  · exact .inr (.inr rfl)

theorem signText_beq_minus (negative : Bool) : (signText negative == ['-']) = negative := by
  cases negative <;> rfl

/-- A plain numeral with or without a minus sign is read as its value with that sign. -/
theorem read_signed {n : Numeral} (hn : n.IsPlain) (negative : Bool) {text : String}
    (htext : text.toList = signText negative ++ n.text) :
    read text = .ok (withSign negative n.value) := by
  have hwrites : WritesDecimal text.toList (signText negative) n := by
    rw [htext]
    exact writesDecimal_append (isSign_signText negative) hn.wellFormed
  rw [hwrites.read_eq, signText_beq_minus]

/-- An integer is written as its digits, with a minus sign before them if it is negative. -/
theorem toString_int_toList (n : Int) :
    (toString n).toList = signText (decide (n < 0)) ++ Decimal.digits n.natAbs := by
  have hnat (k : Nat) : (toString k).toList = Decimal.digits k := by
    rw [Nat.toString_eq_ofList_toDigits, String.toList_ofList]
    rfl
  cases n with
  | ofNat k =>
    rw [← hnat, decide_eq_false (by simp)]
    rfl
  | negSucc k =>
    show ("-" ++ toString (k + 1)).toList = _
    rw [String.toList_append, hnat, decide_eq_true (Int.negSucc_lt_zero k)]
    rfl

theorem natAbs_num_div_den (q : Rat) : (q.num.natAbs : Rat) / q.den = |q| := by
  rw [Rat.abs_def, Rat.divInt_eq_div]
  rfl

/-- Every number is its sign and its magnitude. -/
theorem withSign_num_div_den (q : Rat) :
    withSign (decide (q.num < 0)) ((q.num.natAbs : Rat) / q.den) = q := by
  rw [natAbs_num_div_den]
  by_cases h : q.num < 0
  · rw [withSign, decide_eq_true h, if_pos rfl, abs_of_neg (Rat.num_neg.mp h), neg_neg]
  · have hq : 0 ≤ q := Rat.num_nonneg.mp (not_lt.mp h)
    rw [withSign, decide_eq_false h, if_neg Bool.false_ne_true, abs_of_nonneg hq]

theorem withSign_natAbs (n : Int) : withSign (decide (n < 0)) (n.natAbs : Rat) = n := by
  have h := withSign_num_div_den (n : Rat)
  rwa [Rat.num_intCast, Rat.den_intCast, Nat.cast_one, div_one] at h

end Literal

end Metrology
