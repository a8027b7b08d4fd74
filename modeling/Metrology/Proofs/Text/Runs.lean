import Mathlib.Data.List.TakeWhile
import Metrology.Text.Blank
import Metrology.Text.Word

/-!
# Runs of characters of one class

A run of characters ends where the text goes on with a character of another class:
`takeWhile_append_of_ends` and `dropWhile_append_of_ends` take it apart again.  Word characters and
blanks are different classes (`isBlank_eq_false_of_isWord`), so that names end at blanks.
-/

namespace Metrology.Text

/-- Whether a text does not go on with a character of a class. -/
def EndsRun (p : Char → Bool) (rest : List Char) : Prop := ∀ c ∈ rest.head?, p c = false

variable {p : Char → Bool} {run rest : List Char}

theorem endsRun_nil (p : Char → Bool) : EndsRun p [] := fun _ h => nomatch h

theorem endsRun_cons {c : Char} (h : p c = false) (rest : List Char) : EndsRun p (c :: rest) := by
  rintro c' ⟨⟩
  exact h

theorem takeWhile_of_ends (hrest : EndsRun p rest) : rest.takeWhile p = [] := by
  cases rest with
  | nil => rfl
  | cons c cs => rw [List.takeWhile_cons, hrest c rfl, if_neg Bool.false_ne_true]

theorem dropWhile_of_ends (hrest : EndsRun p rest) : rest.dropWhile p = rest := by
  cases rest with
  | nil => rfl
  | cons c cs => rw [List.dropWhile_cons, hrest c rfl, if_neg Bool.false_ne_true]

theorem takeWhile_append_of_ends (hrun : ∀ c ∈ run, p c = true) (hrest : EndsRun p rest) :
    (run ++ rest).takeWhile p = run := by
  rw [List.takeWhile_append_of_pos hrun, takeWhile_of_ends hrest, List.append_nil]

theorem dropWhile_append_of_ends (hrun : ∀ c ∈ run, p c = true) (hrest : EndsRun p rest) :
    (run ++ rest).dropWhile p = rest := by
  rw [List.dropWhile_append_of_pos hrun, dropWhile_of_ends hrest]

/-- Behind a run that is as long as it can be the text goes on with another class. -/
theorem endsRun_dropWhile (p : Char → Bool) (cs : List Char) : EndsRun p (cs.dropWhile p) := by
  intro c hc
  have hhead := List.head?_dropWhile_not p cs
  rw [hc] at hhead
  exact hhead

theorem EndsRun.of_append {after : List Char} (h : EndsRun p (rest ++ after)) :
    EndsRun p rest := by
  intro c hc
  apply h
  rw [List.head?_append, hc]
  rfl

/-- A separator of one character between two texts. -/
theorem toList_separated (separator : String) {c : Char} (h : separator.toList = [c])
    (a b : String) : (a ++ separator ++ b).toList = a.toList ++ c :: b.toList := by
  rw [String.toList_append, String.toList_append, h, List.append_assoc, List.singleton_append]

/-- A text is the blanks in front of it and what is left without them. -/
theorem exists_eq_append_dropBlank (cs : List Char) :
    ∃ gap, (∀ c ∈ gap, isBlank c = true) ∧ cs = gap ++ dropBlank cs :=
  ⟨cs.takeWhile isBlank, fun _ hc => List.mem_takeWhile_imp hc,
    List.takeWhile_append_dropWhile.symm⟩

/-- Blanks end every run to which they do not belong; where there are none, what follows has to. -/
theorem endsRun_blank_append {gap : List Char} (hp : ∀ c, isBlank c = true → p c = false)
    (hgap : ∀ c ∈ gap, isBlank c = true) (hrest : gap = [] → EndsRun p rest) :
    EndsRun p (gap ++ rest) := by
  cases gap with
  | nil => exact hrest rfl
  | cons c gap => exact endsRun_cons (hp c (hgap c List.mem_cons_self)) _

theorem endsRun_of_blank {gap : List Char} (hp : ∀ c, isBlank c = true → p c = false)
    (hgap : ∀ c ∈ gap, isBlank c = true) : EndsRun p gap := by
  have h := endsRun_blank_append hp hgap fun _ => endsRun_nil p
  rwa [List.append_nil] at h

/-- What is in a class is none of the characters outside. -/
theorem ne_of_class {c d : Char} (hc : p c = true) (hd : p d = false) : c ≠ d := by
  rintro rfl
  cases hc.symm.trans hd

/-! ### Words and blanks -/

/-- No code point of a blank is that of a letter or an underscore. -/
theorem blankRanges_disjoint :
    ∀ r ∈ blankRanges, ∀ k ≤ r.2 - r.1, inRanges letterRanges (r.1 + k) = false ∧
      digitOffset zeroDigits (r.1 + k) = none ∧ r.1 + k ≠ '_'.toNat := by
  decide +kernel

theorem isWord_eq_false_of_isBlank {c : Char} (h : isBlank c = true) : isWord c = false := by
  obtain ⟨r, hr, hlow, hhigh⟩ := exists_of_inRanges h
  obtain ⟨hletter, hdigit, hunderscore⟩ := blankRanges_disjoint r hr (c.toNat - r.1) (by omega)
  rw [Nat.add_sub_cancel' hlow] at hletter hdigit hunderscore
  have hne : (c == '_') = false := by
    rw [beq_eq_false_iff_ne]
    rintro rfl
    exact hunderscore rfl
  rw [isWord, hne, isDigit, digitValue?, hdigit, hletter]
  rfl

theorem isBlank_eq_false_of_isWord {c : Char} (h : isWord c = true) : isBlank c = false := by
  cases hb : isBlank c with
  | false => rfl
  | true => cases (isWord_eq_false_of_isBlank hb).symm.trans h

theorem isIdentifier_cons {c : Char} {cs : List Char} (hc : isNameStart c = true)
    (hcs : ∀ x ∈ cs, isWord x = true) : isIdentifier (c :: cs) = true := by
  rw [isIdentifier, hc, Bool.true_and, List.all_eq_true]
  exact hcs

/-- What stands in a name is no blank. -/
theorem isWord_of_isIdentifier {cs : List Char} (h : isIdentifier cs = true) :
    cs ≠ [] ∧ ∀ c ∈ cs, isWord c = true := by
  cases cs with
  | nil => cases h
  | cons c cs =>
    rw [isIdentifier, Bool.and_eq_true, List.all_eq_true] at h
    refine ⟨List.cons_ne_nil c cs, fun x hx => ?_⟩
    rcases List.mem_cons.mp hx with rfl | hx
    · exact isWord_of_isNameStart h.1
    · exact h.2 x hx

end Metrology.Text
