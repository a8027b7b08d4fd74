import Mathlib.Data.List.Perm.Basic
import Metrology.Calculator.Comparison

/-!
# Texts in order

Values are put in order one after the other, each behind the last that it is not less than.  For
texts this never fails, and the result is the one that sorting always has: among texts that are
equal there is nothing to be seen of their order.

The insertion keeps a row that is in decreasing order (`exists_insertSorted_text`), and the whole
row is built of it (`exists_foldlM_insertSorted_text`).  The main result is `sorted_map_text`.
-/

namespace Metrology.Calculator.Value

/-- A row of texts of which each is at most the one before it. -/
def Descends (texts : List String) : Prop := texts.Pairwise fun a b => b ≤ a

theorem related_less_text (a b : String) :
    related .less (text a) (text b) = .ok (decide (a < b)) := by
  rw [related, compareTexts]
  refine congrArg Except.ok ?_
  by_cases heq : a = b
  · rw [if_pos heq, heq, decide_eq_false (String.lt_irrefl b)]
    rfl
  · rw [if_neg heq]
    by_cases hlt : a < b
    · rw [if_pos hlt, decide_eq_true hlt]
      rfl
    · rw [if_neg hlt, decide_eq_false hlt]
      rfl

/-- A text is inserted into a decreasing row at a place where the row still decreases. -/
theorem exists_insertSorted_text (s : String) {texts : List String} (h : Descends texts) :
    ∃ later, insertSorted (text s) (texts.map text) = .ok (later.map text) ∧
      later.Perm (s :: texts) ∧ Descends later := by
  induction texts with
  | nil => exact ⟨[s], rfl, .refl _, List.pairwise_singleton _ _⟩
  | cons last rest ih =>
    obtain ⟨hlast, hrest⟩ := List.pairwise_cons.mp h
    rw [List.map_cons, insertSorted, related_less_text]
    by_cases hlt : s < last
    · -- The text goes further down the row, and what it passes is greater.
      obtain ⟨later, hlater, hperm, hdescends⟩ := ih hrest
      refine ⟨last :: later, ?_, (hperm.cons last).trans (.swap s last rest), ?_⟩
      · rw [decide_eq_true hlt, hlater]
        rfl
      · refine List.pairwise_cons.mpr ⟨fun a ha => ?_, hdescends⟩
        rcases List.mem_cons.mp (hperm.subset ha) with rfl | hmem
        · exact String.not_lt.mp (String.lt_asymm hlt)
        · exact hlast a hmem
    · have hle : last ≤ s := String.not_lt.mp hlt
      refine ⟨s :: last :: rest, ?_, .refl _, List.pairwise_cons.mpr ⟨fun a ha => ?_, h⟩⟩
      · rw [decide_eq_false hlt]
        rfl
      · rcases List.mem_cons.mp ha with rfl | hmem
        · exact hle
        · exact String.le_trans (hlast a hmem) hle

/-- Texts inserted one after the other make up a decreasing row. -/
theorem exists_foldlM_insertSorted_text (texts : List String) {row : List String}
    (h : Descends row) :
    ∃ later, (texts.map text).foldlM (fun row v => insertSorted v row) (row.map text) =
      .ok (later.map text) ∧ later.Perm (texts ++ row) ∧ Descends later := by
  induction texts generalizing row with
  | nil => exact ⟨row, rfl, .refl _, h⟩
  | cons s rest ih =>
    obtain ⟨next, hnext, hperm, hdescends⟩ := exists_insertSorted_text s h
    obtain ⟨later, hlater, hperm', hdescends'⟩ := ih hdescends
    refine ⟨later, ?_, ?_, hdescends'⟩
    · rw [List.map_cons, List.foldlM_cons, hnext]
      exact hlater
    · exact (hperm'.trans (hperm.append_left rest)).trans List.perm_middle

/-- Texts that are sorted are in alphabetical order. -/
theorem pairwise_mergeSort_texts (texts : List String) :
    (texts.mergeSort fun a b => decide (a ≤ b)).Pairwise fun a b => a ≤ b := by
  have htrans (a b c : String) (hab : decide (a ≤ b) = true) (hbc : decide (b ≤ c) = true) :
      decide (a ≤ c) = true :=
    decide_eq_true (String.le_trans (of_decide_eq_true hab) (of_decide_eq_true hbc))
  have htotal (a b : String) : (decide (a ≤ b) || decide (b ≤ a)) = true := by
    rw [Bool.or_eq_true, decide_eq_true_eq, decide_eq_true_eq]
    exact String.le_total a b
  exact (List.pairwise_mergeSort htrans htotal texts).imp of_decide_eq_true

/-- **Texts in order**: putting texts in order never fails and sorts them. -/
theorem sorted_map_text (texts : List String) :
    sorted (texts.map text) = .ok ((texts.mergeSort fun a b => decide (a ≤ b)).map text) := by
  obtain ⟨row, hrow, hperm, hdescends⟩ := exists_foldlM_insertSorted_text texts List.Pairwise.nil
  have hreverse : row.reverse.Pairwise fun a b => a ≤ b := List.pairwise_reverse.mpr hdescends
  -- Two alphabetical rows of the same texts are one row.
  have heq : row.reverse = texts.mergeSort fun a b => decide (a ≤ b) := by
    refine List.Perm.eq_of_pairwise (fun a b _ _ => String.le_antisymm) hreverse
      (pairwise_mergeSort_texts texts) ?_
    have hrow : row.reverse.Perm texts := (List.reverse_perm row).trans (by simpa using hperm)
    exact hrow.trans (List.mergeSort_perm texts _).symm
  rw [sorted]
  change List.foldlM _ [] _ = _ at hrow
  rw [hrow, ← heq, List.map_reverse]
  rfl

end Metrology.Calculator.Value
