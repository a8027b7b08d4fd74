import Metrology.Proofs.Database.Accounting
import Metrology.Proofs.Database.Joining

/-!
# Texts one after the other

A text is put behind another one with a line feed between them.

* `Text.lines_append`: the physical lines of both are those of the first and then those of the
  second, unless the first one ends a line already.
* `Dialect.uncommented_append`, `Record.runs_append`: comments and records do not reach from one
  text into the other, unless a block is left open or the last line is continued.
* `Record.ofStripped_add`: where lines are numbered from does not count for anything else.

So the records of both texts are those of the one and then those of the other
(`Record.ofText_append`), and since a reader carries no line number into its tables, it makes the
same of both texts together as of one after the other: the main result is `Record.read_piecewise`.
-/

namespace Metrology

namespace Text

/-! ### Lines -/

theorem lines_cons_of_lineEnd {c : Char} {cs : List Char}
    (hpair : ∀ rest, c = '\r' → cs = '\n' :: rest → False) (hend : isLineEnd c = true) :
    lines (c :: cs) = [] :: lines cs := by
  rw [lines, if_pos hend]
  exact hpair

theorem lines_cons_of_not_lineEnd {c : Char} (hend : isLineEnd c = false) (cs : List Char) :
    lines (c :: cs) = (c :: (lines cs).headD []) :: (lines cs).tail := by
  rw [lines, hend, if_neg Bool.false_ne_true]
  · cases lines cs <;> rfl
  · rintro rest rfl -
    cases hend

/-- A line feed behind a text that does not end a line ends its last line. -/
theorem lines_append {cs : List Char} (h : ∃ c ∈ cs.getLast?, isLineEnd c = false)
    (rest : List Char) : lines (cs ++ '\n' :: rest) = lines cs ++ lines rest := by
  -- A text that begins with a line end has more characters, the last of which is the one meant.
  have htail {c : Char} {cs : List Char} (hne : cs ≠ []) :
      (c :: cs).getLast? = cs.getLast? := List.getLast?_cons_of_ne_nil hne
  induction cs using lines.induct with
  | case1 => simp at h
  | case2 cs ih =>
    have hne : cs ≠ [] := by
      rintro rfl
      obtain ⟨c, hc, hnot⟩ := h
      have hlast : c = '\n' := (Option.some.inj hc).symm
      rw [hlast] at hnot
      exact absurd hnot (by decide)
    rw [htail (List.cons_ne_nil _ _), htail hne] at h
    rw [List.cons_append, List.cons_append, lines, ih h, lines, List.cons_append]
  | case3 c cs hpair hend ih =>
    have hne : cs ≠ [] := by
      rintro rfl
      simp [hend] at h
    rw [htail hne] at h
    have hpair' : ∀ more, c = '\r' → cs ++ '\n' :: rest = '\n' :: more → False := by
      obtain ⟨x, xs, rfl⟩ := List.exists_cons_of_ne_nil hne
      rintro more hc heq
      obtain ⟨rfl, -⟩ := List.cons.inj heq
      exact hpair xs hc rfl
    rw [List.cons_append, lines_cons_of_lineEnd hpair' hend, ih h,
      lines_cons_of_lineEnd hpair hend, List.cons_append]
  | case4 c cs hpair hend hcs ih =>
    rw [Bool.not_eq_true] at hend
    obtain rfl := lines_eq_nil_iff.mp hcs
    have hnewline : lines ('\n' :: rest) = [] :: lines rest :=
      lines_cons_of_lineEnd (fun _ hc => absurd hc (by decide)) (by decide)
    rw [List.cons_append, List.nil_append, lines_cons_of_not_lineEnd hend, hnewline,
      lines_cons_of_not_lineEnd hend]
    rfl
  | case5 c cs hpair hend line after hcs ih =>
    rw [Bool.not_eq_true] at hend
    have hne : cs ≠ [] := by
      rintro rfl
      cases hcs
    rw [htail hne] at h
    rw [List.cons_append, lines_cons_of_not_lineEnd hend, ih h, lines_cons_of_not_lineEnd hend, hcs]
    rfl

end Text

namespace Dialect

open Text

variable {d : Dialect}

/-! ### What a text leaves behind -/

/-- Whether a block is open behind the last line of a text. -/
def leavesOpen (d : Dialect) (text : String) : Bool := (d.uncommented text).getLast?.any Prod.snd

/-- Whether the last line of a text is continued. -/
def leavesContinued (d : Dialect) (text : String) : Bool :=
  (d.uncommented text).getLast?.any fun line => d.isContinued line.1

/-- Further lines are read with the flag that the last one leaves. -/
theorem carried_append (read : Bool → List Char → List Char × Bool) (inBlock : Bool)
    (raws rest : List (List Char)) :
    carried read inBlock (raws ++ rest) =
      carried read inBlock raws ++
        carried read (((carried read inBlock raws).getLast?.map Prod.snd).getD inBlock) rest := by
  induction raws generalizing inBlock with
  | nil => rfl
  | cons raw raws ih =>
    rw [List.cons_append, carried, carried, ih, List.cons_append, List.getLast?_cons]
    cases (carried read (read inBlock raw).2 raws).getLast? <;> rfl

theorem uncommented_append {a : String} (hend : ∃ c ∈ a.toList.getLast?, isLineEnd c = false)
    (hopen : d.leavesOpen a = false) (b : String) :
    d.uncommented (a ++ "\n" ++ b) = d.uncommented a ++ d.uncommented b := by
  have htext : (a ++ "\n" ++ b).toList = a.toList ++ '\n' :: b.toList := by
    simp
  have hflag : ((d.uncommented a).getLast?.map Prod.snd).getD false = false := by
    rw [leavesOpen] at hopen
    cases hlast : (d.uncommented a).getLast? with
    | none => rfl
    | some line => simpa [hlast] using hopen
  rw [uncommented, htext, lines_append hend, carried_append]
  exact congrArg (fun flag => _ ++ carried d.stripComments flag _) hflag

end Dialect

namespace Record

open Text Dialect

variable {d : Dialect}

/-! ### Records of two texts -/

/-- A record that stands so many lines further down. -/
def lowered (count : Nat) (record : Record) : Record :=
  { record with line := record.line + count }

theorem ofParts_add (line count : Nat) (parts : List (List Char)) :
    ofParts (line + count) parts = (ofParts line parts).map (lowered count) := by
  rw [ofParts, ofParts]
  cases trimBlank (joined (parts.map trimBlank)) <;> rfl

theorem ofStripped_add (d : Dialect) (number count start : Nat)
    (pending lines : List (List Char)) :
    ofStripped d (number + count) (start + count) pending lines =
      (ofStripped d number start pending lines).map (lowered count) := by
  induction lines generalizing number start pending with
  | nil => exact ofParts_add start count pending
  | cons line rest ih =>
    have hfirst : (if pending.isEmpty then number + count else start + count) =
        (if pending.isEmpty then number else start) + count := by
      split <;> rfl
    have hnext : number + count + 1 = number + 1 + count := by omega
    rw [ofStripped, ofStripped, hfirst, hnext]
    cases dropLastMarker d.markers.continuation.toList (trimBlank line) with
    | some kept => exact ih _ _ _
    | none =>
      dsimp only
      rw [List.map_append, ih, ofParts_add]

/-- The lines of two texts are cut apart where the first text ends, unless it is continued. -/
theorem runs_append {lines : List (List Char × Nat)}
    (h : ∀ line ∈ lines.getLast?, d.isContinued line.1 = false)
    (lines' : List (List Char × Nat)) :
    runs d (lines ++ lines') = runs d lines ++ runs d lines' := by
  apply List.splitBy_append
  intro line hline next hnext
  exact h line hline

theorem ofText_append {a : String} (hend : ∃ c ∈ a.toList.getLast?, isLineEnd c = false)
    (hopen : d.leavesOpen a = false) (hcontinued : d.leavesContinued a = false) (b : String) :
    ofText d (a ++ "\n" ++ b) =
      ofText d a ++ (ofText d b).map (lowered (lines a.toList).length) := by
  have hlength : ((d.uncommented a).map Prod.fst).length = (lines a.toList).length := by
    rw [List.length_map, uncommented, length_carried]
  have hlast : ∀ line ∈ (((d.uncommented a).map Prod.fst).zipIdx 1).getLast?,
      d.isContinued line.1 = false := by
    intro line hline
    rw [leavesContinued] at hcontinued
    have hmem : line.1 ∈ ((d.uncommented a).map Prod.fst).getLast? := by
      rw [← List.zipIdx_map_fst 1 ((d.uncommented a).map Prod.fst), List.getLast?_map]
      exact Option.mem_map_of_mem Prod.fst hline
    rw [List.getLast?_map] at hmem
    obtain ⟨last, hlast, hfst⟩ := Option.mem_map.mp hmem
    rw [hlast] at hcontinued
    rw [← hfst]
    exact hcontinued
  have hlater : (runs d (((d.uncommented b).map Prod.fst).zipIdx
      (1 + (lines a.toList).length))).flatMap (ofRun d) =
      (ofText d b).map (lowered (lines a.toList).length) := by
    rw [← ofStripped_nil_eq d _ (0 + (lines a.toList).length), ofStripped_add, ofText,
      ofLines_eq_ofStripped, uncommented]
  rw [ofText_eq, uncommented_append hend hopen, List.map_append, List.zipIdx_append,
    runs_append hlast, List.flatMap_append, ← ofText_eq, hlength, hlater]

/-- **Records are read piece by piece**: where the first of two texts does not end a line, leaves no
block open and its last line is not continued, the records of both, with a line feed between them,
are those of the first and then those of the second, whose lines stand further down by as many lines
as the first has.  So feeding the records of the first and then those of the second gives the tables
that come of both texts together. -/
theorem read_piecewise (d : Dialect) (a b : String)
    (hend : ∃ c ∈ a.toList.getLast?, isLineEnd c = false)
    (hopen : d.leavesOpen a = false) (hcontinued : d.leavesContinued a = false) :
    ofText d (a ++ "\n" ++ b) =
      ofText d a ++ (ofText d b).map (lowered (lines a.toList).length) ∧
    ∀ minted, ∃ r s t reading,
      (ofText d a).foldlM (Reader.feed d) (Reader.start d minted) = .ok r ∧
      (ofText d b).foldlM (Reader.feed d) r = .ok s ∧
      (ofText d (a ++ "\n" ++ b)).foldlM (Reader.feed d) (Reader.start d minted) = .ok t ∧
      t.journal.catalogue.units = s.journal.catalogue.units ∧
      t.journal.catalogue.prefixes = s.journal.catalogue.prefixes ∧
      t.journal.catalogue.quantities = s.journal.catalogue.quantities ∧
      Reading.ofText d minted (a ++ "\n" ++ b) = .ok reading ∧
      (reading.catalogue = some t.journal.catalogue ∧ s.journal.catalogue.units.size ≠ 0 ∨
        reading.catalogue = none ∧ s.journal.catalogue.units.size = 0) := by
  have hrecords := ofText_append hend hopen hcontinued b
  refine ⟨hrecords, fun minted => ?_⟩
  obtain ⟨r, hr⟩ := Reader.exists_foldlM_eq_ok d (Reader.start d minted) (ofText d a)
  obtain ⟨s, hs⟩ := Reader.exists_foldlM_eq_ok d r (ofText d b)
  obtain ⟨reading, t, -, hreading, ht, -, -, -, hcatalogue⟩ :=
    Reading.exists_ofText_eq_ok d minted (a ++ "\n" ++ b)
  -- The second text's records, wherever they stand, are read by the reader that comes to them.
  have hlater : ((ofText d b).map (lowered (lines a.toList).length)).foldlM (Reader.feed d) r =
      .ok t := by
    rw [hrecords, List.foldlM_append, hr] at ht
    exact ht
  have htexts : ((ofText d b).map (lowered (lines a.toList).length)).map Record.text =
      (ofText d b).map Record.text := by
    rw [List.map_map]
    rfl
  have halike :=
    Reader.foldlM_feed_alike_of_texts_eq d htexts (Reader.alike_self_of_foldlM hr)
  rw [hs, hlater] at halike
  cases halike with
  | ok h =>
    obtain ⟨hunits, hprefixes, -⟩ := h.journal.agrees
    rw [hunits] at hcatalogue
    exact ⟨r, s, t, reading, hr, hs, ht, hunits, hprefixes, h.journal.quantities, hreading,
      hcatalogue⟩

/-- A continuation and a comment that are closed before the first text ends do not reach into the
second one, whose records are counted from the fourth line on. -/
theorem read_piecewise_two_units :
    let a := "length =!= \\\nm /* the\nmetre */ // base"
    let b := "\nkm := \\\n1000 m"
    (∃ c ∈ a.toList.getLast?, isLineEnd c = false) ∧ standard.leavesOpen a = false ∧
      standard.leavesContinued a = false ∧
      ofText standard (a ++ "\n" ++ b) =
        ofText standard a ++ (ofText standard b).map (lowered 3) := by
  have hend : ∃ c ∈ "length =!= \\\nm /* the\nmetre */ // base".toList.getLast?,
      isLineEnd c = false := ⟨'e', by decide +kernel, by decide⟩
  have hopen : standard.leavesOpen "length =!= \\\nm /* the\nmetre */ // base" = false := by
    decide +kernel
  have hcontinued :
      standard.leavesContinued "length =!= \\\nm /* the\nmetre */ // base" = false := by
    decide +kernel
  exact ⟨hend, hopen, hcontinued, (read_piecewise standard _ _ hend hopen hcontinued).1⟩

end Record

end Metrology
