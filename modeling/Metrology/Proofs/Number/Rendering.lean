import Mathlib.Data.List.TakeWhile
import Mathlib.Tactic.FieldSimp
import Metrology.Proofs.Number.Decimal

/-!
# What decimal notation is worth

The digits of `n / 10 ^ places` are worth that number (`Decimal.value_unsigned`): the last `places`
digits of `n` are worth `n % 10 ^ places` (`positional_lastDigits`), the digits before the point
are worth the rest, and the zeros that are left out at the end are worth nothing
(`eq_append_replicate_of_stripZeros`).  A number that needs no more places than it is given is not
rounded (`toList_render`), so that decimal notation is exact for it.
-/

namespace Metrology

open Text

namespace Decimal

variable {places n : Nat} {q : Rat}

/-! ### Digits behind the point -/

theorem digitValue_digitChar {k : Nat} (hk : k < 10) : digitValue (Nat.digitChar k) = k := by
  have hdigit : (Nat.digitChar k).isDigit = true := by
    rw [Nat.isDigit_digitChar, decide_eq_true_eq]
    exact hk
  rw [digitValue, digitValue?_of_ascii hdigit, Option.getD_some, Nat.toNat_digitChar_of_lt_ten hk]
  omega

theorem length_lastDigits (places n : Nat) : (lastDigits places n).length = places := by
  induction places generalizing n with
  | zero => rfl
  | succ places ih => rw [lastDigits, List.length_append, ih, List.length_singleton]

theorem positional_lastDigits (places n : Nat) :
    positional (lastDigits places n) = n % 10 ^ places := by
  induction places generalizing n with
  | zero => exact (Nat.mod_one n).symm
  | succ places ih =>
    have hlast : positional [Nat.digitChar (n % 10)] = n % 10 := by
      show 10 * 0 + digitValue (Nat.digitChar (n % 10)) = n % 10
      rw [digitValue_digitChar (Nat.mod_lt n (by decide)), Nat.mul_zero, Nat.zero_add]
    rw [lastDigits, positional_append, ih, hlast, List.length_singleton, pow_one,
      pow_succ' 10 places, Nat.mod_mul]
    ring

theorem eq_append_replicate_of_stripZeros (cs : List Char) :
    ∃ k, cs = stripZeros cs ++ List.replicate k '0' := by
  refine ⟨(cs.reverse.takeWhile (· == '0')).length, ?_⟩
  have hzeros : cs.reverse.takeWhile (· == '0') =
      List.replicate (cs.reverse.takeWhile (· == '0')).length '0' := by
    rw [List.eq_replicate_iff]
    refine ⟨rfl, fun c hc => ?_⟩
    have hzero := List.mem_takeWhile_imp hc
    exact beq_iff_eq.mp hzero
  rw [← List.reverse_inj, List.reverse_append, List.reverse_replicate, ← hzeros, stripZeros,
    List.reverse_reverse, List.takeWhile_append_dropWhile]

theorem positional_replicate_zero (k : Nat) : positional (List.replicate k '0') = 0 := by
  induction k with
  | zero => rfl
  | succ k ih =>
    rw [List.replicate_succ', positional_append, ih]
    rfl

/-! ### Exact notation -/

theorem value_unsigned (places n : Nat) : (unsigned places n).value = n / (10 : Rat) ^ places := by
  let whole := digits (n / 10 ^ places)
  let fraction := stripZeros (lastDigits places n)
  obtain ⟨k, hk⟩ := eq_append_replicate_of_stripZeros (lastDigits places n)
  have hlength : fraction.length + k = places := by
    have := congrArg List.length hk
    rw [length_lastDigits, List.length_append, List.length_replicate] at this
    exact this.symm
  -- With the zeros that are left out, the digits are those of the whole number.
  have hall : positional (whole ++ lastDigits places n) = n := by
    rw [positional_append, positional_digits, positional_lastDigits, length_lastDigits,
      Nat.div_add_mod']
  have hzeros : positional (whole ++ lastDigits places n) =
      positional (whole ++ fraction) * 10 ^ k := by
    rw [hk, ← List.append_assoc, positional_append, positional_replicate_zero,
      List.length_replicate, Nat.add_zero]
  have hvalue : ((positional (whole ++ fraction) * 10 ^ k : Nat) : Rat) = n := by
    rw [← hzeros, hall]
  rw [(isPlain_unsigned places n).value_eq]
  show (positional (whole ++ fraction) : Rat) / 10 ^ fraction.length = n / 10 ^ places
  rw [← hvalue, ← hlength, pow_add]
  push_cast
  field_simp

theorem roundHalfUp_mul (n : Nat) {d : Nat} (hd : 0 < d) : roundHalfUp (n * d) d = n := by
  rw [roundHalfUp, Nat.mul_div_cancel n hd, Nat.mul_mod_left, if_neg (by omega), Nat.add_zero]

/-- A number is written without rounding if it needs no more places than it is given. -/
theorem toList_render (h : q * 10 ^ places = n) :
    (render places q).toList = unsignedText places n := by
  have hnum : (q.num : Rat) * 10 ^ places = n * q.den := by
    rw [← h, ← q.mul_den_eq_num]
    ring
  have hint : q.num * 10 ^ places = n * q.den := by exact_mod_cast hnum
  have hnonneg : 0 ≤ q.num := by
    by_contra hneg
    have hpos : (0 : Int) < 10 ^ places := Int.pow_pos (by decide)
    have hleft : q.num * 10 ^ places < 0 := Int.mul_neg_of_neg_of_pos (by omega) hpos
    have hright : (0 : Int) ≤ n * q.den :=
      Int.mul_nonneg (Int.natCast_nonneg n) (Int.natCast_nonneg q.den)
    omega
  have hnat : q.num.natAbs * Nat.pow 10 places = n * q.den := by
    have habs := congrArg Int.natAbs hint
    rwa [Int.natAbs_mul, Int.natAbs_mul, Int.natAbs_pow, Int.natAbs_natCast,
      Int.natAbs_natCast] at habs
  have hsign : ¬ (q.num < 0 ∧ n ≠ 0) := fun hneg => by omega
  rw [render, hnat, roundHalfUp_mul n q.den_pos, String.toList_ofList, if_neg hsign,
    List.nil_append]

end Decimal

end Metrology
