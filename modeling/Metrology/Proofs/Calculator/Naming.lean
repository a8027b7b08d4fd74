import Metrology.Calculator.Naming
import Metrology.Proofs.Number.Comparison

/-!
# Whole exponents in names

An exponent may be written in any exact format: names of powers (`Value.powerName_of_isWhole`) and
superscripts (`Value.superscript_of_isWhole`) show no difference between an integer and a number of
the library or a fraction that equals it.  Such numbers compare, multiply and show as the integer
does, so that the name is composed step by step as `Name.power` composes it.
-/

namespace Metrology.Calculator.Value

/-- A value is the given integer, in one of the exact formats. -/
inductive IsWhole : Value → Int → Prop
  | integer (n : Int) : IsWhole (integer n) n
  | rational (n : Int) : IsWhole (rational n) n
  | fraction (n : Int) : IsWhole (number (.fraction n)) n

variable {x : Value} {n : Int}

theorem exactText_intCast (n : Int) : Decimal.exactText n = toString n :=
  if_pos (Rat.den_intCast n)

theorem equality_number (a b : Number) : (number a).equality (number b) = a.equality b := by
  rw [equality]
  · rfl
  all_goals
    intros
    contradiction

theorem compare?_point (m n : Int) :
    (Number.Position.point m).compare? (.point n) = some .eq ↔ m = n := by
  constructor
  · intro h
    exact Rat.intCast_inj.mp (Number.eq_of_equal_position h)
  · rintro rfl
    rw [Number.Position.compare?, if_neg (Rat.lt_irrefl), if_pos rfl]

/-- Whole numbers of all exact formats compare as the integers do. -/
theorem equality_of_isWhole (h : x.IsWhole n) (k : Int) :
    x.equality (integer k) = .ok (decide (n = k)) := by
  have hequal :
      decide ((Number.Position.point n).compare? (.point k) = some .eq) = decide (n = k) :=
    decide_eq_decide.mpr (compare?_point n k)
  cases h with
  | integer => exact (equality_number _ _).trans (congrArg Except.ok hequal)
  | rational => exact (equality_number _ _).trans (congrArg Except.ok hequal)
  | fraction => exact (equality_number _ _).trans (congrArg Except.ok hequal)

theorem display_of_isWhole (h : x.IsWhole n) : x.display = .ok (toString n) := by
  cases h with
  | integer => rfl
  | rational => exact congrArg Except.ok (exactText_intCast n)
  | fraction => exact congrArg Except.ok (exactText_intCast n)

theorem exists_mul_of_isWhole (h : x.IsWhole n) (k : Int) :
    ∃ y, (integer k).mul x = .ok y ∧ y.IsWhole (k * n) := by
  cases h with
  | integer => exact ⟨_, rfl, .integer _⟩
  | rational =>
    refine ⟨_, ?_, .rational _⟩
    rw [Rat.intCast_mul]
    rfl
  | fraction =>
    refine ⟨_, ?_, .fraction _⟩
    rw [Rat.intCast_mul]
    rfl

/-- **Superscripts of whole numbers**: they are those of the integer, in every exact format. -/
theorem superscript_of_isWhole (h : x.IsWhole n) :
    x.superscript = .ok (text (Dimension.superscript n)) := by
  rw [superscript, equality_of_isWhole h, display_of_isWhole h, Dimension.superscript]
  by_cases hn : n = 1
  · rw [if_pos hn, decide_eq_true hn]
    rfl
  · rw [if_neg hn, decide_eq_false hn]
    rfl

/-- The name of a power whose exponent is whole and no integer. -/
theorem unusualPowerName_of_isWhole (h : x.IsWhole n) (name : String) :
    (text name).unusualPowerName x = .ok (text (Name.power name n)) := by
  rw [Name.power]
  by_cases hname : name = ""
  · rw [if_pos hname, hname]
    rfl
  have htrue : (text name).isTrue = true := bne_iff_ne.mpr hname
  rw [if_neg hname, unusualPowerName, htrue, equality_of_isWhole h, equality_of_isWhole h]
  by_cases hzero : n = 0
  · rw [if_pos hzero, decide_eq_true hzero]
    rfl
  rw [if_neg hzero, decide_eq_false hzero]
  by_cases hone : n = 1
  · rw [if_pos hone, decide_eq_true hone]
    rfl
  rw [if_neg hone, decide_eq_false hone, display_of_isWhole h]
  -- The name is not missing and the exponent neither zero nor one, so it is up to the atom.
  simp only [Bool.not_true, Bool.false_eq_true, if_false, Outcome.ok_bind, asText]
  cases Name.atom? name.toList with
  | none => rfl
  | some parts =>
    obtain ⟨base, _ | e⟩ := parts
    · rfl
    obtain ⟨y, hy, hwhole⟩ := exists_mul_of_isWhole h e
    dsimp only
    rw [hy]
    show (do
      if ← y.equality (integer 1) then return text (String.ofList base)
      else return text (String.ofList base ++ "^" ++ (← y.display))) = _
    rw [equality_of_isWhole hwhole, display_of_isWhole hwhole]
    by_cases hproduct : e * n = 1
    · rw [if_pos hproduct, decide_eq_true hproduct]
      rfl
    · rw [if_neg hproduct, decide_eq_false hproduct]
      rfl

/-- **Names of whole powers**: they are those of the integer power, in every exact format of the
exponent. -/
theorem powerName_of_isWhole (h : x.IsWhole n) (name : String) :
    (text name).powerName x = .ok (text (Name.power name n)) := by
  cases h with
  | integer => rfl
  | rational => exact unusualPowerName_of_isWhole (.rational n) name
  | fraction => exact unusualPowerName_of_isWhole (.fraction n) name

end Metrology.Calculator.Value
