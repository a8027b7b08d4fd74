import Metrology.Number.Number
import Metrology.Proofs.Number.Decimal

/-!
# Numbers of equal place are equal

A number of any format but the doubles stands for one exact number (`Number.exactRat?`).  A decimal
number is compared with an exact one by its leading exponent and, where that does not decide, by
integers over a common denominator; if these agree then so do the numbers
(`Scientific.toRat?_eq_of_compareRat`).  Hence a number that is found equal to an integer stands for
it, whatever its format (`Number.exists_equality_integer`).
-/

namespace Metrology

namespace Scientific

/-- A power of ten as a fraction of integers, of which one is one. -/
theorem power_ten_eq_div (e : Int) :
    Binary64.power 10 e = (Nat.pow 10 e.toNat : Nat) / (Nat.pow 10 (-e).toNat : Nat) := by
  have he : e = (e.toNat : Int) - ((-e).toNat : Int) := by omega
  have hten : ((10 : Nat) : Rat) ≠ 0 := Nat.cast_ne_zero.mpr (by decide)
  calc Binary64.power 10 e = ((10 : Nat) : Rat) ^ ((e.toNat : Int) - ((-e).toNat : Int)) := by
        rw [Binary64.power, ← he]
    _ = ((10 : Nat) : Rat) ^ e.toNat / ((10 : Nat) : Rat) ^ (-e).toNat := by
        rw [zpow_sub₀ hten, zpow_natCast, zpow_natCast]
    _ = (Nat.pow 10 e.toNat : Nat) / (Nat.pow 10 (-e).toNat : Nat) := by
        rw [← Nat.cast_pow, ← Nat.cast_pow]
        rfl

/-- Magnitudes that agree over a common denominator are equal. -/
theorem mul_power_eq_div {m n d : Nat} {e : Int} (hd : d ≠ 0)
    (h : m * Nat.pow 10 e.toNat * d = n * Nat.pow 10 (-e).toNat) :
    (m : Rat) * Binary64.power 10 e = (n : Rat) / d := by
  have hpow : ((Nat.pow 10 (-e).toNat : Nat) : Rat) ≠ 0 :=
    Nat.cast_ne_zero.mpr (Nat.pow_pos (by decide)).ne'
  rw [power_ten_eq_div, ← mul_div_assoc, div_eq_div_iff hpow (Nat.cast_ne_zero.mpr hd)]
  exact_mod_cast h

/-- Signed magnitudes are equal only if signs and magnitudes are; a zero has no sign. -/
theorem eq_of_compareSigned {a b aIsZero bIsZero : Bool} {o : Ordering}
    (h : compareSigned a b aIsZero bIsZero o = .eq) :
    (a && !aIsZero) = (b && !bIsZero) ∧ o = .eq := by
  unfold compareSigned at h
  cases ha : a && !aIsZero <;> cases hb : b && !bIsZero <;> rw [ha, hb] at h
  · exact ⟨rfl, h⟩
  · cases h
  · cases h
  · exact ⟨rfl, Ordering.swap_eq_eq.mp h⟩

/-- A decimal number that is found equal to an exact number stands for it. -/
theorem toRat?_eq_of_compareRat {negative : Bool} {m : Nat} {e : Int} {q : Rat}
    (h : compareRat negative m e q = .eq) : (finite negative m e).toRat? = some q := by
  obtain ⟨hsign, hmagnitudes⟩ := eq_of_compareSigned h
  split_ifs at hmagnitudes with hzero
  · -- One of the two is zero, and so is the other.
    have hmn : m = q.num.natAbs := Nat.compare_eq_eq.mp hmagnitudes
    have hm : m = 0 := by omega
    have hq : q = 0 := Rat.num_eq_zero.mp (Int.natAbs_eq_zero.mp (by omega))
    rw [toRat?, if_pos hm, hq]
  · rw [not_or] at hzero
    have hvalue := mul_power_eq_div q.den_ne_zero (Nat.compare_eq_eq.mp hmagnitudes)
    have hnegative : negative = decide (q.num < 0) := by
      simpa only [hzero.1, hzero.2, decide_false, Bool.not_false, Bool.and_true, Rat.num_neg]
        using hsign
    rw [toRat?, if_neg hzero.1, hvalue, hnegative, Literal.withSign_num_div_den]

end Scientific

namespace Number

/-- The exact number that a number stands for, if it is finite and no double. -/
def exactRat? : Number → Option Rat
  | integer n => some n
  | rational q => some q
  | fraction q => some q
  | double _ => none
  | decimal x => x.toRat?

theorem toRat_of_exactRat? {n : Number} {q : Rat} (h : n.exactRat? = some q) : n.toRat = .ok q := by
  cases n with
  | integer k =>
    cases h
    rfl
  | rational r =>
    cases h
    rfl
  | fraction r =>
    cases h
    rfl
  | double x => cases h
  | decimal x =>
    have hx : x.toRat? = some q := h
    rw [toRat, hx]

/-- Places compare as equal only where they are the same. -/
theorem eq_of_equal_position {p q : Rat}
    (h : (Position.point p).compare? (.point q) = some .eq) : p = q := by
  have hcompare := Option.some.inj h
  split_ifs at hcompare with hlt heq
  exact heq

/-- An exact number may be compared with every integer, and stands for those that it equals. -/
theorem exists_equality_integer {n : Number} {q : Rat} (h : n.exactRat? = some q) (k : Int) :
    ∃ b, n.equality (.integer k) = .ok b ∧ (b = true → q = k) := by
  cases n with
  | integer m =>
    cases h
    exact ⟨_, rfl, fun hb => eq_of_equal_position (of_decide_eq_true hb)⟩
  | rational r =>
    cases h
    exact ⟨_, rfl, fun hb => eq_of_equal_position (of_decide_eq_true hb)⟩
  | fraction r =>
    cases h
    exact ⟨_, rfl, fun hb => eq_of_equal_position (of_decide_eq_true hb)⟩
  | double x => cases h
  | decimal x =>
    cases x with
    | finite negative m e =>
      refine ⟨_, rfl, fun hb => ?_⟩
      have hk := Scientific.toRat?_eq_of_compareRat (Option.some.inj (of_decide_eq_true hb))
      exact Option.some.inj (h.symm.trans hk)
    | infinite negative => cases h
    | undefined negative signaling payload => cases h

end Number

end Metrology
