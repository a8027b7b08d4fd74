import Metrology.Proofs.Measurement.BaseValue
import Metrology.Proofs.Number.Rounding
import Metrology.Proofs.Number.Separators
import Metrology.Unit

/-!
# Numbers before units

A number is written without loss as an integer or as a quotient of two rows of digits, and the two
are read by the two forms of literals (`Decimal.read_exactText`).  Before a unit a number stands in
decimal notation, unless it is read back as another one (`UnitOfMeasure.factorText_eq`); then it
would need more than twelve places, and it is written without loss instead.  In either case it is
read back (`UnitOfMeasure.read_factorText`).

Since what is read as a number has no middle dot (`UnitOfMeasure.ne_dot_of_read`), the number before
a unit ends at the first dot, whatever follows.  So it is known from the name of a scaled unit, and
from the text of a unit without a name (`UnitOfMeasure.leadingFactor_factorText`).

The main result is `UnitOfMeasure.factorText_read_back`.
-/

namespace Metrology

open Text

/-! ### Without loss -/

namespace Decimal

theorem isDigitRow_digits (n : Nat) : IsDigitRow (digits n) :=
  (isDigitRow_of_isDigit fun _ => isDigit_of_mem_digits).resolve_left (digits_ne_nil n)

theorem digitNumber_digits (n : Nat) : digitNumber (digits n) = n := by
  rw [← positional_eq_digitNumber fun _ => isDigit_of_mem_digits, positional_digits]

theorem not_hasLooseSeparator_digits (n : Nat) : ¬ HasLooseSeparator (digits n) :=
  not_hasLooseSeparator_of_isDigit fun _ => isDigit_of_mem_digits

variable {q : Rat}

theorem toList_exactText_of_integer (h : q.den = 1) : (exactText q).toList =
    Literal.signText (decide (q.num < 0)) ++ (numeral q.num.natAbs).text := by
  rw [exactText, if_pos h, text_numeral]
  exact Literal.toString_int_toList q.num

theorem toList_exactText_of_fraction (h : q.den ≠ 1) : (exactText q).toList =
    Literal.signText (decide (q.num < 0)) ++ (digits q.num.natAbs ++ '/' :: digits q.den) := by
  have hden : (toString q.den).toList = digits q.den := Literal.toString_int_toList q.den
  rw [exactText, if_neg h]
  show (toString q.num ++ "/" ++ toString q.den).toList = _
  rw [toList_separated "/" (c := '/') rfl, Literal.toString_int_toList, hden, List.append_assoc]

/-- What is written without loss is read back. -/
theorem read_exactText (q : Rat) : Literal.read (exactText q) = .ok q := by
  by_cases hden : q.den = 1
  · have hplain := isPlain_numeral q.num.natAbs
    rw [Literal.read_signed hplain _ (toList_exactText_of_integer hden), value_numeral,
      Literal.withSign_natAbs, (Rat.den_eq_one_iff q).mp hden]
  · have hwrites := Literal.writesQuotient_append
      (Literal.isSign_signText (decide (q.num < 0))) (isDigitRow_digits q.num.natAbs)
      (isDigitRow_digits q.den)
    rw [← toList_exactText_of_fraction hden] at hwrites
    have hne : digitNumber (digits q.den) ≠ 0 := by
      rw [digitNumber_digits]
      exact q.den_nz
    rw [hwrites.read_eq, Literal.value_quotient_of_single (isDigitRow_digits _)
      (isDigitRow_digits _) hne (not_hasLooseSeparator_digits _)
      (not_hasLooseSeparator_digits _), digitNumber_digits, digitNumber_digits,
      Literal.signText_beq_minus, Literal.withSign_num_div_den]

end Decimal

namespace UnitOfMeasure

/-! ### Before a unit -/

/-- A number stands before a unit in decimal notation where that is read as this number. -/
theorem factorText_eq (f : Rat) : factorText f =
    if Decimal.written 12 f = f then Decimal.render 12 f else Decimal.exactText f := by
  unfold factorText
  dsimp only
  rw [Decimal.read_render]

/-- The number before a unit is read back, however it is written. -/
theorem read_factorText (f : Rat) : Literal.read (factorText f) = .ok f := by
  rw [factorText_eq]
  split
  · rename_i hf
    rw [Decimal.read_render, hf]
  · exact Decimal.read_exactText f

/-- No middle dot stands in what is read as a number. -/
theorem ne_dot_of_read {text : String} {q : Rat} (h : Literal.read text = .ok q) :
    ∀ c ∈ text.toList, (c != '·') = true := by
  intro c hc
  rw [bne_iff_ne]
  rcases Literal.isCharacter_of_read h c hc with hcharacter | rfl
  · exact ne_of_class hcharacter (by decide +kernel)
  · decide

/-- The number that a text begins with, up to its first middle dot. -/
def leadingFactor (text : String) : Outcome Rat :=
  Literal.read (String.ofList (text.toList.takeWhile (· != '·')))

theorem leadingFactor_factorText (f : Rat) (rest : String) :
    leadingFactor (factorText f ++ "·" ++ rest) = .ok f := by
  have hends : EndsRun (· != '·') ('·' :: rest.toList) := endsRun_cons (by decide) _
  rw [leadingFactor, toList_separated "·" (c := '·') rfl,
    takeWhile_append_of_ends (ne_dot_of_read (read_factorText f)) hends, String.ofList_toList,
    read_factorText]

/-- A unit that is a multiple of one with a name is called by the factor and that name. -/
theorem name_of_scaled {u v : UnitOfMeasure} {f : Rat} (hname : u.name ≠ "")
    (h : u.scaled f = .ok v) : v.name = factorText f ++ "·" ++ u.name := by
  rw [scaled, if_neg hname, ofScale] at h
  split at h
  · cases h
  · cases h
    rfl

/-- **Exact texts of numbers are read back**: a number that is written without loss is read as this
number, and so is the number before a unit, which stands in decimal notation just if it is a
multiple of the twelfth place.  Hence the factor is known from the name of a unit that was scaled,
and the scale from the text of a unit without a name that is not of the scale one. -/
theorem factorText_read_back :
    (∀ q, Literal.read (Decimal.exactText q) = .ok q) ∧
    (∀ f, Literal.read (factorText f) = .ok f ∧
      ((∃ k : Int, f * 10 ^ 12 = k) → factorText f = Decimal.render 12 f) ∧
      ((¬ ∃ k : Int, f * 10 ^ 12 = k) → factorText f = Decimal.exactText f)) ∧
    (∀ (u v : UnitOfMeasure) (f : Rat), u.name ≠ "" → u.scaled f = .ok v →
      v.name = factorText f ++ "·" ++ u.name ∧ leadingFactor v.name = .ok f) ∧
    ∀ u : UnitOfMeasure, u.name = "" → u.scale ≠ 1 →
      u.text = factorText u.scale ++ "·" ++ u.dim.text ∧ leadingFactor u.text = .ok u.scale := by
  refine ⟨Decimal.read_exactText, fun f => ⟨read_factorText f, fun h => ?_, fun h => ?_⟩,
    fun u v f hname hv => ?_, fun u hname hscale => ?_⟩
  · rw [factorText_eq, if_pos ((Decimal.roundsTo_written 12 f).eq_iff.mpr h)]
  · rw [factorText_eq, if_neg (mt (Decimal.roundsTo_written 12 f).eq_iff.mp h)]
  · have hv := name_of_scaled hname hv
    refine ⟨hv, ?_⟩
    rw [hv, leadingFactor_factorText]
  · have htext : u.text = factorText u.scale ++ "·" ++ u.dim.text := by
      rw [text, if_neg (not_not.mpr hname), if_neg hscale]
    refine ⟨htext, ?_⟩
    rw [htext, leadingFactor_factorText]

/-- A third of a metre is called by a quotient, and minus two and a half metres that have no name
are shown in decimal notation. -/
theorem factorText_read_back_third :
    let m := ofPrimitive ⟨0, "length"⟩ "m"
    let u : UnitOfMeasure := ⟨m.dim, -5 / 2, "", by decide +kernel⟩
    (∃ v, m.scaled (1 / 3) = .ok v ∧ v.name = "1/3·m" ∧ leadingFactor v.name = .ok (1 / 3)) ∧
    u.text = "-2.5·length" ∧ leadingFactor u.text = .ok (-5 / 2) := by
  intro m u
  obtain ⟨-, -, hscaled, hunnamed⟩ := factorText_read_back
  obtain ⟨v, hv, -, -⟩ := m.scaled_eq_ok (f := 1 / 3) (by decide +kernel)
  obtain ⟨hname, hfactor⟩ := hscaled m v (1 / 3) (by decide) hv
  obtain ⟨htext, hscale⟩ := hunnamed u rfl (by decide +kernel)
  have hthird : factorText (1 / 3) ++ "·" ++ m.name = "1/3·m" := by decide +kernel
  have hshown : factorText u.scale ++ "·" ++ u.dim.text = "-2.5·length" := by decide +kernel
  exact ⟨⟨v, hv, hname.trans hthird, hfactor⟩, htext.trans hshown, hscale⟩

end UnitOfMeasure

end Metrology
