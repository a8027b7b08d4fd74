import Mathlib.Algebra.Order.Field.Basic
import Mathlib.Tactic.Linarith
import Metrology.Proofs.Number.Rendering

/-!
# Rounding in decimal notation

Decimal notation with a number of places writes the multiple of the last place that is nearest to a
number, and of two that are equally near the one farther from zero (`Decimal.RoundsTo`).  There is
only one such multiple, and it grows with the number (`RoundsTo.le`): where two numbers were rounded
the other way round, both would lie halfway between the multiples, hence be equal, and each of the
multiples would have to be the one farther from zero.

The absolute value is rounded to a natural number of last places, and the sign is put before it
unless this is zero (`roundsTo_written`, `read_render`).  How the digits are written says `IsTidy`.

The main result is `render_rounds`.
-/

namespace Metrology

open Text

namespace Decimal

variable {places : Nat} {q r v w : Rat}

/-! ### The nearest multiple -/

/-- Whether a number is the multiple of the last place that is nearest to another one, and farther
from zero than every other that is as near. -/
structure RoundsTo (places : Nat) (q v : Rat) : Prop where
  multiple : ∃ k : Int, v = k / 10 ^ places
  nearest : ∀ k : Int, |q - v| ≤ |q - k / 10 ^ places|
  away : ∀ k : Int, |q - k / 10 ^ places| = |q - v| → |(k : Rat) / 10 ^ places| ≤ |v|

namespace RoundsTo

theorem neg (h : RoundsTo places q v) : RoundsTo places (-q) (-v) := by
  have hopposite (x y : Rat) : |-x - y| = |x - -y| := by
    rw [← abs_neg]
    congr 1
    ring
  have hcast (k : Int) : -((k : Rat) / 10 ^ places) = ((-k : Int) : Rat) / 10 ^ places := by
    push_cast
    ring
  obtain ⟨k, hk⟩ := h.multiple
  refine ⟨⟨-k, by rw [hk, hcast]⟩, fun l => ?_, fun l hl => ?_⟩
  · rw [hopposite, hopposite, neg_neg, hcast]
    exact h.nearest (-l)
  · rw [hopposite, hopposite, neg_neg, hcast] at hl
    rw [abs_neg, ← abs_neg, hcast]
    exact h.away (-l) hl

/-- Rounding keeps the order. -/
theorem le (hq : RoundsTo places q v) (hr : RoundsTo places r w) (h : q ≤ r) : v ≤ w := by
  obtain ⟨k, hk⟩ := hq.multiple
  obtain ⟨l, hl⟩ := hr.multiple
  have hnearest : |q - v| ≤ |q - w| := hl ▸ hq.nearest l
  have hnearest' : |r - w| ≤ |r - v| := hk ▸ hr.nearest k
  by_contra hlt
  -- Both numbers lie halfway between the two multiples.
  have hlow : v + w ≤ 2 * q := by nlinarith [sq_le_sq.mpr hnearest]
  have hhigh : 2 * r ≤ v + w := by nlinarith [sq_le_sq.mpr hnearest']
  obtain rfl : q = r := by linarith
  have htie : |q - w| = |q - v| := by
    rw [← abs_neg]
    congr 1
    linarith
  have hw : |w| ≤ |v| := hl ▸ hq.away l (hl ▸ htie)
  have hv : |v| ≤ |w| := hk ▸ hr.away k (hk ▸ htie.symm)
  rcases abs_eq_abs.mp (le_antisymm hv hw) with heq | heq
  · exact hlt heq.le
  · -- Then they are zero, which is a multiple itself.
    have hzero : q = 0 := by linarith
    have hnone := hq.nearest 0
    rw [hzero, Int.cast_zero, zero_div, sub_zero, abs_zero, zero_sub, abs_neg, abs_nonpos_iff]
      at hnone
    exact hlt (by linarith)

theorem unique (hv : RoundsTo places q v) (hw : RoundsTo places q w) : w = v :=
  le_antisymm (hw.le hv le_rfl) (hv.le hw le_rfl)

/-- Only multiples are not changed. -/
theorem eq_iff (h : RoundsTo places q v) : v = q ↔ ∃ k : Int, q * 10 ^ places = k := by
  have hpower : (10 : Rat) ^ places ≠ 0 := pow_ne_zero places (by decide)
  constructor
  · rintro rfl
    obtain ⟨k, hk⟩ := h.multiple
    exact ⟨k, by rw [hk, div_mul_cancel₀ _ hpower]⟩
  · rintro ⟨k, hk⟩
    have hq : q = k / 10 ^ places := by rw [← hk, mul_div_cancel_right₀ _ hpower]
    have hnearest := h.nearest k
    rw [← hq, sub_self, abs_zero, abs_nonpos_iff] at hnearest
    linarith

end RoundsTo

/-! ### Rounding a half up -/

theorem roundHalfUp_bounds (n : Nat) {d : Nat} (hd : 0 < d) :
    d * (2 * roundHalfUp n d) ≤ 2 * n + d ∧ 2 * n < d * (2 * roundHalfUp n d + 1) := by
  have hn := Nat.div_add_mod n d
  have hmod := Nat.mod_lt n hd
  rw [Nat.mul_succ, Nat.mul_left_comm d 2, roundHalfUp]
  split_ifs with h
  · rw [Nat.mul_succ]
    omega
  · rw [Nat.add_zero]
    omega

/-- A natural number is nearest to what is at most a half less and not a half more. -/
theorem abs_sub_le_of_near {x : Rat} {n : Nat} (hlow : (n : Rat) - 1 / 2 ≤ x)
    (hhigh : x < n + 1 / 2) (k : Int) :
    |x - n| ≤ |x - k| ∧ (0 ≤ x → |x - k| = |x - n| → |(k : Rat)| ≤ n) := by
  have hhalf : |x - n| ≤ 1 / 2 := abs_le.mpr ⟨by linarith, by linarith⟩
  rcases lt_or_ge (n : Int) k with hk | hk
  · -- A greater number is more than a half away.
    have hcast : (n : Rat) + 1 ≤ k := by exact_mod_cast hk
    have hfar : 1 / 2 < |x - k| := lt_abs.mpr (.inr (by linarith))
    exact ⟨by linarith, fun _ heq => by linarith⟩
  · have hcast : (k : Rat) ≤ n := by exact_mod_cast hk
    constructor
    · rcases eq_or_lt_of_le hk with rfl | hlt
      · rw [Int.cast_natCast]
      · have hless : (k : Rat) + 1 ≤ n := by exact_mod_cast hlt
        have hfar : 1 / 2 ≤ |x - k| := le_abs.mpr (.inl (by linarith))
        linarith
    · intro hx heq
      rw [heq.symm, abs_le] at hhalf
      have hpos : (-1 : Rat) < k := by linarith
      have hnonneg : (0 : Int) ≤ k := by
        have hint : (-1 : Int) < k := by exact_mod_cast hpos
        omega
      rwa [abs_of_nonneg (by exact_mod_cast hnonneg)]

theorem roundsTo_of_near {n : Nat} (hq : 0 ≤ q) (hlow : (n : Rat) - 1 / 2 ≤ q * 10 ^ places)
    (hhigh : q * 10 ^ places < n + 1 / 2) : RoundsTo places q (n / 10 ^ places) := by
  have hpower : (0 : Rat) < 10 ^ places := pow_pos (by decide) places
  have hscale (x : Rat) : |q - x / 10 ^ places| = |q * 10 ^ places - x| / 10 ^ places := by
    rw [← abs_of_pos hpower, ← abs_div, abs_of_pos hpower, sub_div,
      mul_div_cancel_right₀ _ hpower.ne']
  refine ⟨⟨n, by rw [Int.cast_natCast]⟩, fun k => ?_, fun k hk => ?_⟩
  · rw [hscale, hscale]
    exact div_le_div_of_nonneg_right (abs_sub_le_of_near hlow hhigh k).1 hpower.le
  · rw [hscale, hscale, div_left_inj' hpower.ne'] at hk
    have hle := (abs_sub_le_of_near hlow hhigh k).2 (mul_nonneg hq hpower.le) hk
    rw [abs_div, abs_div, Nat.abs_cast]
    exact div_le_div_of_nonneg_right hle (abs_nonneg _)

/-! ### What is written -/

/-- How many of the last place the absolute value of a number is rounded to. -/
def lastPlaces (places : Nat) (q : Rat) : Nat :=
  roundHalfUp (q.num.natAbs * Nat.pow 10 places) q.den

/-- Whether a number is written with a minus sign. -/
def writesMinus (places : Nat) (q : Rat) : Bool := q.num < 0 ∧ lastPlaces places q ≠ 0

/-- The number that is written. -/
def written (places : Nat) (q : Rat) : Rat :=
  Literal.withSign (writesMinus places q) (lastPlaces places q / 10 ^ places)

theorem toList_render_eq (places : Nat) (q : Rat) : (render places q).toList =
    Literal.signText (writesMinus places q) ++ (unsigned places (lastPlaces places q)).text := by
  rw [render, String.toList_ofList, text_unsigned, Literal.signText, writesMinus]
  simp only [decide_eq_true_eq]
  rfl

theorem read_render (places : Nat) (q : Rat) :
    Literal.read (render places q) = .ok (written places q) := by
  have hplain := isPlain_unsigned places (lastPlaces places q)
  rw [Literal.read_signed hplain _ (toList_render_eq places q), value_unsigned, written]

/-- The absolute value is rounded, a half going up. -/
theorem roundsTo_lastPlaces (places : Nat) (q : Rat) :
    RoundsTo places |q| (lastPlaces places q / 10 ^ places) := by
  obtain ⟨hlow, hhigh⟩ := roundHalfUp_bounds (q.num.natAbs * 10 ^ places) q.den_pos
  have hden : (0 : Rat) < q.den := by exact_mod_cast q.den_pos
  have hnum : (q.num.natAbs : Rat) = |q| * q.den := by
    rw [← Literal.natAbs_num_div_den, div_mul_cancel₀ _ hden.ne']
  have hlow' : q.den * (2 * (lastPlaces places q : Rat)) ≤
      2 * (q.num.natAbs * 10 ^ places) + q.den := by
    exact_mod_cast hlow
  have hhigh' : 2 * ((q.num.natAbs : Rat) * 10 ^ places) <
      q.den * (2 * lastPlaces places q + 1) := by
    exact_mod_cast hhigh
  rw [hnum] at hlow' hhigh'
  apply roundsTo_of_near (abs_nonneg q)
  · nlinarith
  · nlinarith

theorem roundsTo_written (places : Nat) (q : Rat) : RoundsTo places q (written places q) := by
  have hrounds := roundsTo_lastPlaces places q
  rcases lt_or_ge q 0 with hneg | hpos
  · have hwritten : written places q = -((lastPlaces places q : Rat) / 10 ^ places) := by
      by_cases hzero : lastPlaces places q = 0
      · simp [written, writesMinus, hzero, Literal.withSign]
      · simp [written, writesMinus, hzero, Literal.withSign, Rat.num_neg.mpr hneg]
    rw [abs_of_neg hneg] at hrounds
    rw [hwritten]
    simpa only [neg_neg] using hrounds.neg
  · have hminus : writesMinus places q = false := by
      have hnum : ¬ q.num < 0 := not_lt.mpr (Rat.num_nonneg.mpr hpos)
      simp [writesMinus, hnum]
    rw [abs_of_nonneg hpos] at hrounds
    rw [written, hminus]
    exact hrounds

/-! ### How the digits are written -/

/-- Whether a numeral behind a minus sign or nothing is written with at most the given number of
places, without zeros that could be left out, a point without digits, or the sign of a zero. -/
structure IsTidy (places : Nat) (negative : Bool) (n : Numeral) : Prop where
  whole_ne_nil : n.whole ≠ []
  digits : ∀ c ∈ n.whole ++ n.fraction, c.isDigit = true
  leading : n.whole.head? = some '0' → n.whole = ['0']
  point : n.point = true ↔ n.fraction ≠ []
  places : n.fraction.length ≤ places
  trailing : n.fraction.getLast? ≠ some '0'
  exponent : n.exponent = none
  sign : negative = true → n.value ≠ 0

theorem head?_digits (n : Nat) (h : (digits n).head? = some '0') : digits n = ['0'] := by
  induction n using Nat.strong_induction_on with
  | _ n ih =>
    rcases lt_or_ge n 10 with hn | hn
    · rw [digits, Nat.toDigits_of_lt_base hn] at h ⊢
      rw [Option.some.inj h]
    · -- The quotient by ten would be written as zero.
      rw [digits, Nat.toDigits_of_base_le (by decide) hn,
        List.head?_append_of_ne_nil _ Nat.toDigits_ne_nil] at h
      have hzero := ih (n / 10) (by omega) h
      have hvalue := positional_digits (n / 10)
      rw [hzero] at hvalue
      have hnone : positional ['0'] = 0 := by decide +kernel
      omega

theorem getLast?_stripZeros (cs : List Char) : (stripZeros cs).getLast? ≠ some '0' := by
  intro h
  rw [stripZeros, List.getLast?_reverse] at h
  have hfirst := List.head?_dropWhile_not (· == '0') cs.reverse
  rw [h] at hfirst
  cases hfirst

theorem isDigit_of_mem_unsigned {n : Nat} {c : Char}
    (h : c ∈ (unsigned places n).whole ++ (unsigned places n).fraction) : c.isDigit = true := by
  rcases List.mem_append.mp h with h | h
  · exact Nat.isDigit_of_mem_toDigits (by decide) (by decide) h
  · exact ascii_of_mem_lastDigits (mem_of_mem_stripZeros h)

theorem isTidy_unsigned (places n : Nat) {negative : Bool} (h : negative = true → n ≠ 0) :
    IsTidy places negative (unsigned places n) where
  whole_ne_nil := digits_ne_nil _
  digits := fun _ => isDigit_of_mem_unsigned
  leading := head?_digits _
  point := by simp [unsigned]
  places := by
    obtain ⟨k, hk⟩ := eq_append_replicate_of_stripZeros (lastDigits places n)
    have hlength := congrArg List.length hk
    rw [length_lastDigits, List.length_append] at hlength
    show (stripZeros (lastDigits places n)).length ≤ places
    omega
  trailing := getLast?_stripZeros _
  exponent := rfl
  sign hnegative := by
    have hn : (n : Rat) ≠ 0 := by exact_mod_cast h hnegative
    rw [value_unsigned]
    exact div_ne_zero hn (pow_ne_zero places (by decide))

/-- **Decimal notation is correctly rounded**: the text of a number with some places is read as the
multiple of the last place that is nearest to the number, the one farther from zero where two are
equally near, and this is the number itself just when it is such a multiple.  The text is tidy, and
of two numbers the greater one is read as the greater number. -/
theorem render_rounds (places : Nat) :
    (∀ q, ∃ v, Literal.read (render places q) = .ok v ∧
      RoundsTo places q v ∧ (∀ w, RoundsTo places q w → w = v) ∧
      (v = q ↔ ∃ k : Int, q * 10 ^ places = k) ∧
      ∃ negative n, (render places q).toList = Literal.signText negative ++ n.text ∧
        IsTidy places negative n) ∧
    ∀ q r, q ≤ r → ∃ v w, Literal.read (render places q) = .ok v ∧
      Literal.read (render places r) = .ok w ∧ v ≤ w := by
  constructor
  · intro q
    have hrounds := roundsTo_written places q
    refine ⟨written places q, read_render places q, hrounds, fun w hw => hrounds.unique hw,
      hrounds.eq_iff, writesMinus places q, _, toList_render_eq places q, ?_⟩
    refine isTidy_unsigned places _ fun hminus => ?_
    exact (of_decide_eq_true hminus).2
  · intro q r h
    refine ⟨written places q, written places r, read_render places q, read_render places r, ?_⟩
    exact (roundsTo_written places q).le (roundsTo_written places r) h

/-- A carry goes through all places into the digits before the point. -/
example : render 3 (-99995 / 10000) = "-10" := by decide +kernel

end Decimal

end Metrology
