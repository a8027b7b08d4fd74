import Mathlib.Data.List.DropRight
import Metrology.Database.Record
import Metrology.Proofs.Text.Runs

/-!
# Blank texts

A text without anything but blanks has no records (`Record.ofText_of_blank`).  Taking comments out
of a line leaves nothing behind that was not in it but spaces (`Dialect.mem_stripComments`), so a
blank line stays blank; and it is not continued, whatever the marker is, since no marker is empty.
-/

namespace Metrology

namespace Text

variable {cs : List Char}

/-! ### Blanks at the ends -/

theorem dropBlank_eq_nil_iff : dropBlank cs = [] ↔ ∀ c ∈ cs, isBlank c = true :=
  List.dropWhile_eq_nil_iff

theorem trimBlank_eq_nil_iff : trimBlank cs = [] ↔ ∀ c ∈ cs, isBlank c = true := by
  rw [trimBlank, List.reverse_eq_nil_iff, dropBlank_eq_nil_iff]
  constructor
  · intro h
    -- What is left behind the blanks in front is blank too, so that nothing is left.
    have hrest : dropBlank (dropBlank cs) = [] := by
      rw [dropBlank_eq_nil_iff]
      intro c hc
      exact h c (List.mem_reverse.mpr hc)
    rw [dropBlank, dropBlank, List.dropWhile_idempotent] at hrest
    exact dropBlank_eq_nil_iff.mp hrest
  · intro h
    rw [dropBlank_eq_nil_iff.mpr h]
    exact fun _ hc => nomatch hc

theorem trim_eq_empty_iff {s : String} : trim s = "" ↔ ∀ c ∈ s.toList, isBlank c = true := by
  rw [← trimBlank_eq_nil_iff, trim]
  constructor
  · intro h
    exact String.ofList_injective h
  · intro h
    rw [h]

/-! ### Parts of a text -/

/-- The lines of a text have only characters of the text. -/
theorem mem_of_mem_lines {line : List Char} (hline : line ∈ lines cs) : ∀ c ∈ line, c ∈ cs := by
  intro c hc
  induction cs using lines.induct generalizing line with
  | case1 => cases hline
  | case2 rest ih =>
    rw [lines] at hline
    rcases List.mem_cons.mp hline with rfl | hline
    · cases hc
    · exact List.mem_cons_of_mem _ (List.mem_cons_of_mem _ (ih hline hc))
  | case3 x rest hx hend ih =>
    rw [lines, if_pos hend] at hline
    · rcases List.mem_cons.mp hline with rfl | hline
      · cases hc
      · exact List.mem_cons_of_mem _ (ih hline hc)
    · exact hx
  | case4 x rest hx hend hrest ih =>
    rw [lines, if_neg hend, hrest] at hline
    · rw [List.mem_singleton.mp hline] at hc
      rw [List.mem_singleton.mp hc]
      exact List.mem_cons_self
    · exact hx
  | case5 x rest hx hend first after hrest ih =>
    rw [lines, if_neg hend, hrest] at hline
    · rw [hrest] at ih
      rcases List.mem_cons.mp hline with rfl | hline
      · rcases List.mem_cons.mp hc with rfl | hc
        · exact List.mem_cons_self
        · exact List.mem_cons_of_mem _ (ih List.mem_cons_self hc)
      · exact List.mem_cons_of_mem _ (ih (List.mem_cons_of_mem _ hline) hc)
    · exact hx

/-- The two sides of a marker have only characters of the text. -/
theorem mem_of_breakOn {marker before rest : List Char}
    (h : breakOn marker cs = some (before, rest)) :
    (∀ c ∈ before, c ∈ cs) ∧ ∀ c ∈ rest, c ∈ cs := by
  rw [eq_append_of_breakOn h]
  constructor
  · intro c hc
    exact List.mem_append_left _ (List.mem_append_left _ hc)
  · intro c hc
    exact List.mem_append_right _ hc

end Text

namespace Dialect

open Text

variable {d : Dialect} {cs before after : List Char} {c : Char}

/-! ### Lines without their comments -/

theorem mem_of_commentStart_line (h : d.commentStart cs = .line before) : ∀ c ∈ before, c ∈ cs := by
  unfold commentStart at h
  split at h
  · cases h
  · next hline _ =>
    cases h
    exact (mem_of_breakOn hline).1
  · cases h
  · next hline _ =>
    split_ifs at h
    cases h
    exact (mem_of_breakOn hline).1

theorem mem_of_commentStart_block (h : d.commentStart cs = .block before after) :
    (∀ c ∈ before, c ∈ cs) ∧ ∀ c ∈ after, c ∈ cs := by
  unfold commentStart at h
  split at h
  · cases h
  · cases h
  · next hblock =>
    cases h
    exact mem_of_breakOn hblock
  · next hblock =>
    split_ifs at h
    cases h
    exact mem_of_breakOn hblock

theorem stripComments_of_unclosed (hne : cs ≠ [])
    (h : breakOn d.markers.blockClose.toList cs = none) : d.stripComments true cs = ([], true) := by
  rw [stripComments, if_neg hne, if_pos rfl]
  split
  · rfl
  · next hclose => cases h.symm.trans hclose

theorem stripComments_of_closed (hne : cs ≠ [])
    (h : breakOn d.markers.blockClose.toList cs = some (before, after)) :
    d.stripComments true cs =
      (' ' :: (d.stripComments false after).1, (d.stripComments false after).2) := by
  rw [stripComments, if_neg hne, if_pos rfl]
  split
  · next hclose => cases h.symm.trans hclose
  · next hclose =>
    cases h.symm.trans hclose
    rfl

theorem stripComments_of_none (hne : cs ≠ []) (h : d.commentStart cs = .none) :
    d.stripComments false cs = (cs, false) := by
  rw [stripComments, if_neg hne, if_neg Bool.false_ne_true]
  split
  · rfl
  · next hstart => cases h.symm.trans hstart
  · next hstart => cases h.symm.trans hstart

theorem stripComments_of_line (hne : cs ≠ []) (h : d.commentStart cs = .line before) :
    d.stripComments false cs = (before, false) := by
  rw [stripComments, if_neg hne, if_neg Bool.false_ne_true]
  split
  · next hstart => cases h.symm.trans hstart
  · next hstart =>
    cases h.symm.trans hstart
    rfl
  · next hstart => cases h.symm.trans hstart

theorem stripComments_of_block (hne : cs ≠ []) (h : d.commentStart cs = .block before after) :
    d.stripComments false cs =
      (before ++ (d.stripComments true after).1, (d.stripComments true after).2) := by
  rw [stripComments, if_neg hne, if_neg Bool.false_ne_true]
  split
  · next hstart => cases h.symm.trans hstart
  · next hstart => cases h.symm.trans hstart
  · next hstart =>
    cases h.symm.trans hstart
    rfl

/-- What is left of a line without its comments was in it, but for the spaces that blocks leave. -/
theorem mem_stripComments {inBlock : Bool} (h : c ∈ (d.stripComments inBlock cs).1) :
    c ∈ cs ∨ c = ' ' := by
  induction inBlock, cs using stripComments.induct d with
  | case1 inBlock =>
    rw [stripComments, if_pos rfl] at h
    cases h
  | case2 cs hne hclose =>
    rw [stripComments_of_unclosed hne hclose] at h
    cases h
  | case3 cs hne before after hclose rest isOpen hrest ih =>
    rw [stripComments_of_closed hne hclose] at h
    rcases List.mem_cons.mp h with hspace | hmem
    · exact .inr hspace
    · exact (ih hmem).imp_left ((mem_of_breakOn hclose).2 c)
  | case4 inBlock cs hne hblock hstart =>
    rw [Bool.not_eq_true] at hblock
    rw [hblock, stripComments_of_none hne hstart] at h
    exact .inl h
  | case5 inBlock cs hne hblock before hstart =>
    rw [Bool.not_eq_true] at hblock
    rw [hblock, stripComments_of_line hne hstart] at h
    exact .inl (mem_of_commentStart_line hstart c h)
  | case6 inBlock cs hne hblock before after hstart rest isOpen hrest ih =>
    rw [Bool.not_eq_true] at hblock
    rw [hblock, stripComments_of_block hne hstart] at h
    obtain ⟨hbefore, hafter⟩ := mem_of_commentStart_block hstart
    rcases List.mem_append.mp h with hmem | hmem
    · exact .inl (hbefore c hmem)
    · exact (ih hmem).imp_left (hafter c)

theorem continuation_ne_nil (d : Dialect) : d.markers.continuation.toList ≠ [] :=
  toList_ne_nil (d.complete ("continuation", _) (by simp [Markers.settings]))

end Dialect

namespace Record

open Text

variable {d : Dialect}

/-! ### Records of blank lines -/

/-- Blank lines end no record and are not continued. -/
theorem ofLines_of_blank (number : Nat) (inBlock : Bool) (start : Nat) {raws : List (List Char)}
    (h : ∀ raw ∈ raws, ∀ c ∈ raw, isBlank c = true) :
    ofLines d number inBlock start [] raws = [] := by
  induction raws generalizing number inBlock start with
  | nil => rfl
  | cons raw rest ih =>
    obtain ⟨stripped, isOpen, hstrip⟩ : ∃ stripped isOpen,
        d.stripComments inBlock raw = (stripped, isOpen) := ⟨_, _, rfl⟩
    have hline : trimBlank stripped = [] := by
      rw [trimBlank_eq_nil_iff]
      intro c hc
      have hmem : c ∈ (d.stripComments inBlock raw).1 := by rwa [hstrip]
      rcases Dialect.mem_stripComments hmem with hmem | rfl
      · exact h raw List.mem_cons_self c hmem
      · decide
    have hmarker : dropLastMarker d.markers.continuation.toList [] = none := by
      cases hkept : dropLastMarker d.markers.continuation.toList [] with
      | none => rfl
      | some kept =>
        have happend := dropLastMarker_eq_some_iff.mp hkept
        exact absurd (List.append_eq_nil_iff.mp happend.symm).2 d.continuation_ne_nil
    rw [ofLines, hstrip]
    dsimp only
    rw [hline, hmarker]
    exact ih (number + 1) isOpen number fun line hmem => h line (List.mem_cons_of_mem _ hmem)

theorem ofText_of_blank {text : String} (h : trim text = "") : ofText d text = [] := by
  refine ofLines_of_blank _ _ _ fun raw hraw c hc => ?_
  exact trim_eq_empty_iff.mp h c (mem_of_mem_lines hraw c hc)

end Record

end Metrology
