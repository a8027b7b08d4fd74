import Mathlib.Logic.Function.Iterate
import Metrology.Proofs.Database.Blank

/-!
# Comments, one position after the other

`Dialect.stripComments` jumps from marker to marker.  `Dialect.scanComments` walks: what stands at a
position says what becomes of it, and whichever markers overlap there, or begin alike, the one that
ends the line counts before the one that opens a block.

* `stripComments_close`, `stripComments_inside` and the like: at every single position
  `stripComments` does what the scanner does, for a jump over a character that begins no marker is
  a step and then the jump from there.  By induction they are equal (`stripComments_eq_scan`).
* `Stripping.turn`: one turn of the loop that jumps.  It keeps what the line comes to in the end
  (`Stripping.result_turn`) and leaves less of the line to be read (`Stripping.length_turn_lt`), so
  that the loop ends within as many turns as the line has characters
  (`Stripping.iterate_turn`).
* `Record.ofLines_eq_ofStripped`: a database is read through its lines without comments, each
  stripped as the one before it says.

The main result is `Record.comments_scanned`.
-/

namespace Metrology

namespace Text

variable {marker cs rest : List Char} {c : Char}

/-! ### Markers at a position -/

theorem length_lt_of_dropMarker (hne : marker ≠ []) (h : dropMarker marker cs = some rest) :
    rest.length < cs.length := by
  have hpos : 0 < marker.length := List.length_pos_iff.mpr hne
  rw [eq_append_of_dropMarker h, List.length_append]
  omega

theorem breakOn_nil (hne : marker ≠ []) : breakOn marker [] = none := by
  cases marker with
  | nil => exact absurd rfl hne
  | cons m marker => rfl

theorem breakOn_cons_of_some (h : dropMarker marker (c :: cs) = some rest) :
    breakOn marker (c :: cs) = some ([], rest) := by
  rw [breakOn, h]

theorem breakOn_cons_of_none (h : dropMarker marker (c :: cs) = none) :
    breakOn marker (c :: cs) =
      (breakOn marker cs).map fun (before, rest) => (c :: before, rest) := by
  rw [breakOn, h]

end Text

namespace Dialect

open Text

variable {d : Dialect} {cs before after rest : List Char} {c : Char}

/-! ### The scanner -/

/-- The rest of a line without its comments, and whether a block is open behind it, found position
by position. -/
def scanComments (d : Dialect) (inBlock : Bool) : List Char → List Char × Bool
  | [] => ([], inBlock)
  | c :: cs =>
    if inBlock then
      match _h : dropMarker d.markers.blockClose.toList (c :: cs) with
      | some rest =>
        let (text, isOpen) := d.scanComments false rest
        (' ' :: text, isOpen)
      | none => d.scanComments true cs
    else if (dropMarker d.markers.comment.toList (c :: cs)).isSome then ([], false)
    else
      match _h : dropMarker d.markers.blockOpen.toList (c :: cs) with
      | some rest => d.scanComments true rest
      | none =>
        let (text, isOpen) := d.scanComments false cs
        (c :: text, isOpen)
termination_by cs => cs.length
decreasing_by
  · exact length_lt_of_dropMarker d.blockClose_ne_nil _h
  · exact Nat.lt_succ_self _
  · exact length_lt_of_dropMarker d.blockOpen_ne_nil _h
  · exact Nat.lt_succ_self _

/-! ### The first comment of a line, from its first character -/

/-- The first comment of a line with one character more in front, where no marker begins. -/
def CommentStart.behind (c : Char) : CommentStart → CommentStart
  | .none => .none
  | .line before => .line (c :: before)
  | .block before after => .block (c :: before) after

theorem commentStart_nil (d : Dialect) : d.commentStart [] = .none := by
  rw [commentStart, breakOn_nil d.comment_ne_nil, breakOn_nil d.blockOpen_ne_nil]

/-- The rest of the line is a comment even where a block opens as well. -/
theorem commentStart_of_comment (h : dropMarker d.markers.comment.toList (c :: cs) = some rest) :
    d.commentStart (c :: cs) = .line [] := by
  rw [commentStart, breakOn_cons_of_some h]
  cases breakOn d.markers.blockOpen.toList (c :: cs) with
  | none => rfl
  | some sides => exact if_neg (Nat.not_lt_zero _)

theorem commentStart_of_blockOpen (hcomment : dropMarker d.markers.comment.toList (c :: cs) = none)
    (h : dropMarker d.markers.blockOpen.toList (c :: cs) = some rest) :
    d.commentStart (c :: cs) = .block [] rest := by
  rw [commentStart, breakOn_cons_of_none hcomment, breakOn_cons_of_some h]
  cases breakOn d.markers.comment.toList cs with
  | none => rfl
  | some sides => exact if_pos (Nat.succ_pos _)

theorem commentStart_cons (hcomment : dropMarker d.markers.comment.toList (c :: cs) = none)
    (hopen : dropMarker d.markers.blockOpen.toList (c :: cs) = none) :
    d.commentStart (c :: cs) = (d.commentStart cs).behind c := by
  rw [commentStart, commentStart, breakOn_cons_of_none hcomment, breakOn_cons_of_none hopen]
  cases breakOn d.markers.comment.toList cs with
  | none => cases breakOn d.markers.blockOpen.toList cs <;> rfl
  | some lineSides =>
    cases breakOn d.markers.blockOpen.toList cs with
    | none => rfl
    | some blockSides =>
      simp only [Option.map_some, List.length_cons, Nat.succ_lt_succ_iff]
      split_ifs <;> rfl

/-! ### Lines without comments, from their first character -/

theorem stripComments_nil (d : Dialect) (inBlock : Bool) :
    d.stripComments inBlock [] = ([], inBlock) := by
  rw [stripComments, if_pos rfl]

theorem stripComments_close (h : dropMarker d.markers.blockClose.toList (c :: cs) = some rest) :
    d.stripComments true (c :: cs) =
      (' ' :: (d.stripComments false rest).1, (d.stripComments false rest).2) :=
  stripComments_of_closed (List.cons_ne_nil c cs) (breakOn_cons_of_some h)

theorem stripComments_inside (h : dropMarker d.markers.blockClose.toList (c :: cs) = none) :
    d.stripComments true (c :: cs) = d.stripComments true cs := by
  have hbreak := breakOn_cons_of_none h
  rcases eq_or_ne cs [] with rfl | hne
  · rw [breakOn_nil d.blockClose_ne_nil, Option.map_none] at hbreak
    rw [stripComments_of_unclosed (List.cons_ne_nil c []) hbreak, stripComments_nil]
  · cases hclose : breakOn d.markers.blockClose.toList cs with
    | none =>
      rw [hclose, Option.map_none] at hbreak
      rw [stripComments_of_unclosed (List.cons_ne_nil c cs) hbreak,
        stripComments_of_unclosed hne hclose]
    | some sides =>
      rw [hclose, Option.map_some] at hbreak
      rw [stripComments_of_closed (List.cons_ne_nil c cs) hbreak,
        stripComments_of_closed hne hclose]

theorem stripComments_comment (h : dropMarker d.markers.comment.toList (c :: cs) = some rest) :
    d.stripComments false (c :: cs) = ([], false) :=
  stripComments_of_line (List.cons_ne_nil c cs) (commentStart_of_comment h)

theorem stripComments_open (hcomment : dropMarker d.markers.comment.toList (c :: cs) = none)
    (h : dropMarker d.markers.blockOpen.toList (c :: cs) = some rest) :
    d.stripComments false (c :: cs) = d.stripComments true rest :=
  stripComments_of_block (List.cons_ne_nil c cs) (commentStart_of_blockOpen hcomment h)

theorem stripComments_kept (hcomment : dropMarker d.markers.comment.toList (c :: cs) = none)
    (hopen : dropMarker d.markers.blockOpen.toList (c :: cs) = none) :
    d.stripComments false (c :: cs) =
      (c :: (d.stripComments false cs).1, (d.stripComments false cs).2) := by
  have hstart := commentStart_cons hcomment hopen
  rcases eq_or_ne cs [] with rfl | hne
  · rw [commentStart_nil] at hstart
    rw [stripComments_of_none (List.cons_ne_nil c []) hstart, stripComments_nil]
  · cases hrest : d.commentStart cs with
    | none =>
      rw [hrest] at hstart
      rw [stripComments_of_none (List.cons_ne_nil c cs) hstart, stripComments_of_none hne hrest]
    | line before =>
      rw [hrest] at hstart
      rw [stripComments_of_line (List.cons_ne_nil c cs) hstart, stripComments_of_line hne hrest]
    | block before after =>
      rw [hrest] at hstart
      rw [stripComments_of_block (List.cons_ne_nil c cs) hstart, stripComments_of_block hne hrest]
      rfl

/-- Jumping from marker to marker comes to the same as walking. -/
theorem stripComments_eq_scan (d : Dialect) (inBlock : Bool) (cs : List Char) :
    d.stripComments inBlock cs = d.scanComments inBlock cs := by
  induction inBlock, cs using scanComments.induct d with
  | case1 inBlock => rw [stripComments_nil, scanComments]
  | case2 c cs rest hclose text isOpen hrest ih =>
    rw [stripComments_close hclose, ih, scanComments, if_pos rfl]
    split
    · next hclose' =>
      cases hclose.symm.trans hclose'
      rfl
    · next hclose' => cases hclose.symm.trans hclose'
  | case3 c cs hclose ih =>
    rw [stripComments_inside hclose, ih, scanComments, if_pos rfl]
    split
    · next hclose' => cases hclose.symm.trans hclose'
    · rfl
  | case4 inBlock c cs hblock hcomment =>
    obtain ⟨rest, hrest⟩ := Option.isSome_iff_exists.mp hcomment
    rw [Bool.not_eq_true] at hblock
    rw [hblock, stripComments_comment hrest, scanComments, if_neg Bool.false_ne_true,
      if_pos hcomment]
  | case5 inBlock c cs hblock hcomment rest hopen ih =>
    have hnone := Option.not_isSome_iff_eq_none.mp hcomment
    rw [Bool.not_eq_true] at hblock
    rw [hblock, stripComments_open hnone hopen, ih, scanComments, if_neg Bool.false_ne_true,
      if_neg hcomment]
    split
    · next hopen' =>
      cases hopen.symm.trans hopen'
      rfl
    · next hopen' => cases hopen.symm.trans hopen'
  | case6 inBlock c cs hblock hcomment hopen text isOpen hrest ih =>
    have hnone := Option.not_isSome_iff_eq_none.mp hcomment
    rw [Bool.not_eq_true] at hblock
    rw [hblock, stripComments_kept hnone hopen, ih, scanComments, if_neg Bool.false_ne_true,
      if_neg hcomment]
    split
    · next hopen' => cases hopen.symm.trans hopen'
    · rfl

-- The slash that ends a block does not begin a comment with the one behind it.
example : standard.scanComments false "a/*b*//c/*d".toList = ("a /c".toList, true) := by
  decide +kernel

/-! ### The loop -/

/-- A line that has been read in part. -/
structure Stripping where
  /-- What is kept of it so far. -/
  kept : List Char
  /-- Whether a block is open. -/
  inBlock : Bool
  /-- What has not been read. -/
  rest : List Char

namespace Stripping

/-- A line that has not been read. -/
def start (inBlock : Bool) (line : List Char) : Stripping := ⟨[], inBlock, line⟩

/-- One turn of the loop, from a marker to the next or to the end of the line; where nothing is left
to be read, the loop has ended. -/
def turn (d : Dialect) (s : Stripping) : Stripping :=
  if s.rest = [] then s
  else if s.inBlock then
    match breakOn d.markers.blockClose.toList s.rest with
    | none => ⟨s.kept, true, []⟩
    | some (_, after) => ⟨s.kept ++ [' '], false, after⟩
  else
    match d.commentStart s.rest with
    | .none => ⟨s.kept ++ s.rest, false, []⟩
    | .line before => ⟨s.kept ++ before, false, []⟩
    | .block before after => ⟨s.kept ++ before, true, after⟩

/-- What a line that has been read in part comes to. -/
def result (d : Dialect) (s : Stripping) : List Char × Bool :=
  (s.kept ++ (d.stripComments s.inBlock s.rest).1, (d.stripComments s.inBlock s.rest).2)

/-- A turn takes something off the line. -/
theorem length_turn_lt {s : Stripping} (h : s.rest ≠ []) :
    (s.turn d).rest.length < s.rest.length := by
  have hpos : 0 < s.rest.length := List.length_pos_iff.mpr h
  rw [turn, if_neg h]
  split_ifs
  · split
    · exact hpos
    · next hclose => exact length_lt_of_breakOn d.blockClose_ne_nil hclose
  · split
    · exact hpos
    · exact hpos
    · next hstart => exact length_of_commentStart_eq_block hstart

/-- A turn does not change what the line comes to. -/
theorem result_turn (d : Dialect) (s : Stripping) : (s.turn d).result d = s.result d := by
  obtain ⟨kept, inBlock, rest⟩ := s
  rcases eq_or_ne rest [] with rfl | hne
  · rw [turn, if_pos rfl]
  · rw [turn, if_neg hne]
    cases inBlock with
    | true =>
      rw [if_pos rfl]
      split
      · next hclose =>
        rw [result, result, stripComments_nil, stripComments_of_unclosed hne hclose]
      · next hclose =>
        rw [result, result, stripComments_of_closed hne hclose, List.append_assoc]
        rfl
    | false =>
      rw [if_neg Bool.false_ne_true]
      split
      · next hstart =>
        rw [result, result, stripComments_nil, stripComments_of_none hne hstart, List.append_nil]
      · next hstart =>
        rw [result, result, stripComments_nil, stripComments_of_line hne hstart, List.append_nil]
      · next hstart =>
        rw [result, result, stripComments_of_block hne hstart, List.append_assoc]

/-- Where nothing is left to be read, what is kept is what the line comes to. -/
theorem eq_of_rest_eq_nil {s : Stripping} (h : s.rest = []) :
    s = ⟨(s.result d).1, (s.result d).2, []⟩ := by
  obtain ⟨kept, inBlock, rest⟩ := s
  obtain rfl : rest = [] := h
  rw [result, stripComments_nil, List.append_nil]

/-- After enough turns the loop has ended. -/
theorem iterate_turn (d : Dialect) {n : Nat} {s : Stripping} (h : s.rest.length ≤ n) :
    (turn d)^[n] s = ⟨(s.result d).1, (s.result d).2, []⟩ := by
  induction n generalizing s with
  | zero => exact eq_of_rest_eq_nil (List.eq_nil_of_length_eq_zero (Nat.le_zero.mp h))
  | succ n ih =>
    rw [Function.iterate_succ_apply, ← result_turn]
    refine ih ?_
    rcases eq_or_ne s.rest [] with hnil | hne
    · rw [turn, if_pos hnil, hnil]
      exact Nat.zero_le n
    · have hless := length_turn_lt (d := d) hne
      omega

end Stripping

/-! ### Lines one after the other -/

/-- What is made of lines when each is read with the flag that the one before it left. -/
def carried (read : Bool → List Char → List Char × Bool) (inBlock : Bool) :
    List (List Char) → List (List Char × Bool)
  | [] => []
  | line :: rest => read inBlock line :: carried read (read inBlock line).2 rest

end Dialect

namespace Record

open Text Dialect

/-- The records of lines without comments, from the given number on, where the parts of a record
that began at line `start` wait to be continued. -/
def ofStripped (d : Dialect) (number start : Nat) (pending : List (List Char)) :
    List (List Char) → List Record
  | [] => ofParts start pending
  | stripped :: rest =>
    let line := trimBlank stripped
    let first := if pending.isEmpty then number else start
    match dropLastMarker d.markers.continuation.toList line with
    | some kept => ofStripped d (number + 1) first (pending ++ [kept]) rest
    | none => ofParts first (pending ++ [line]) ++ ofStripped d (number + 1) first [] rest

/-- Lines give the records of what is left of them without their comments. -/
theorem ofLines_eq_ofStripped (d : Dialect) (number : Nat) (inBlock : Bool) (start : Nat)
    (pending raws : List (List Char)) :
    ofLines d number inBlock start pending raws =
      ofStripped d number start pending ((carried d.stripComments inBlock raws).map Prod.fst) := by
  induction raws generalizing number inBlock start pending with
  | nil => rfl
  | cons raw rest ih =>
    rw [ofLines, carried, List.map_cons, ofStripped]
    dsimp only
    cases dropLastMarker d.markers.continuation.toList
        (trimBlank (d.stripComments inBlock raw).1) with
    | some kept => exact ih _ _ _ _
    | none => exact congrArg _ (ih _ _ _ _)

/-- **Comments are scanned**: whatever the markers are, the loop that takes comments out of a line
ends within as many turns as the line has characters.  Of lines that are read one after the other,
each with the flag that the one before it left, it gives the texts and the flags that the scanner
gives, which walks each line position by position; and so the records of a database are those of
its scanned lines. -/
theorem comments_scanned (d : Dialect) :
    (∀ inBlock line, (Stripping.turn d)^[line.length] (.start inBlock line) =
      ⟨(d.stripComments inBlock line).1, (d.stripComments inBlock line).2, []⟩) ∧
    (∀ inBlock raws,
      carried d.stripComments inBlock raws = carried d.scanComments inBlock raws) ∧
    ∀ text, ofText d text =
      ofStripped d 1 0 [] ((carried d.scanComments false (lines text.toList)).map Prod.fst) := by
  have hscan : d.stripComments = d.scanComments :=
    funext fun inBlock => funext (stripComments_eq_scan d inBlock)
  refine ⟨?_, ?_, ?_⟩
  · intro inBlock line
    exact Stripping.iterate_turn d (s := .start inBlock line) (Nat.le_refl line.length)
  · intro inBlock raws
    rw [hscan]
  · intro text
    rw [ofText, ofLines_eq_ofStripped, hscan]

end Record

end Metrology
