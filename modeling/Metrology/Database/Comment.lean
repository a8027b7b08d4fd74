import Metrology.Database.Dialect
import Metrology.Text.Search

/-!
# Comments

A comment runs from its marker to the end of the line, or from one block marker to the next,
perhaps over several lines; a block leaves one space behind. The marker that stands first in a line
counts, and of two at the same place the one for the rest of the line. `stripComments` takes a line
and whether a block is open at its beginning, and gives what is left of the line and whether a
block is open at its end.
-/

namespace Metrology

open Text

namespace Dialect

/-- The first comment of a line that is not inside a block. -/
inductive CommentStart
  /-- There is none. -/
  | none
  /-- The rest of the line is a comment; the text is before it. -/
  | line (before : List Char)
  /-- A block begins between the two texts. -/
  | block (before after : List Char)

/-- The first comment of a line. -/
def commentStart (d : Dialect) (cs : List Char) : CommentStart :=
  match breakOn d.markers.comment.toList cs, breakOn d.markers.blockOpen.toList cs with
  | none, none => .none
  | some (before, _), none => .line before
  | none, some (before, after) => .block before after
  | some (before, _), some (before', after) =>
    if before'.length < before.length then .block before' after else .line before

/-- What follows the opening of a block is shorter than the line. -/
theorem length_of_commentStart_eq_block {d : Dialect} {cs before after : List Char}
    (h : d.commentStart cs = .block before after) : after.length < cs.length := by
  unfold commentStart at h
  split at h
  · simp at h
  · simp at h
  · rename_i hb
    simp only [CommentStart.block.injEq] at h
    obtain ⟨rfl, rfl⟩ := h
    exact length_lt_of_breakOn d.blockOpen_ne_nil hb
  · rename_i hb
    split at h
    · simp only [CommentStart.block.injEq] at h
      obtain ⟨rfl, rfl⟩ := h
      exact length_lt_of_breakOn d.blockOpen_ne_nil hb
    · simp at h

/-- The rest of a line without its comments, and whether a block is open behind it. -/
def stripComments (d : Dialect) (inBlock : Bool) (cs : List Char) : List Char × Bool :=
  if cs = [] then ([], inBlock)
  else if inBlock then
    match _h : breakOn d.markers.blockClose.toList cs with
    | none => ([], true)
    | some (_, after) =>
      let (rest, isOpen) := d.stripComments false after
      (' ' :: rest, isOpen)
  else
    match _h : d.commentStart cs with
    | .none => (cs, false)
    | .line before => (before, false)
    | .block before after =>
      let (rest, isOpen) := d.stripComments true after
      (before ++ rest, isOpen)
termination_by cs.length
decreasing_by
  · exact length_lt_of_breakOn d.blockClose_ne_nil _h
  · exact length_of_commentStart_eq_block _h

end Dialect

end Metrology
