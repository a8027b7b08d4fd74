import Mathlib.Data.List.SplitBy
import Metrology.Proofs.Database.Comments

/-!
# Lines joined to records

The records of a text are its physical lines, cut behind every line that is not continued.

* `Record.Runs`: how numbered lines are cut into runs.  There is exactly one way to do it, which is
  the library's `List.splitBy` (`Record.runs_iff`).
* `Record.ofStripped_eq`: the loop that joins lines gives the record of each run.  Its invariant is
  that the parts that wait to be continued are the beginning of the first run of what is left.
* `Text.unspaced`: what a text is without its blanks.  Stripping and joining with spaces do not
  change it, so that it can be followed from the lines to the records
  (`Record.unspaced_ofParts`).

The main result is `Record.lines_joined`.
-/

namespace Metrology

namespace Text

variable {cs : List Char}

/-! ### Texts without their blanks -/

/-- A text without its blanks. -/
def unspaced (cs : List Char) : List Char := cs.filter fun c => !isBlank c

@[simp] theorem unspaced_nil : unspaced [] = [] := rfl

@[simp] theorem unspaced_append (cs cs' : List Char) :
    unspaced (cs ++ cs') = unspaced cs ++ unspaced cs' := List.filter_append cs cs'

@[simp] theorem unspaced_reverse (cs : List Char) : unspaced cs.reverse = (unspaced cs).reverse :=
  List.filter_reverse

theorem unspaced_eq_nil_iff : unspaced cs = [] ↔ ∀ c ∈ cs, isBlank c = true := by
  simp [unspaced]

@[simp] theorem unspaced_dropBlank (cs : List Char) : unspaced (dropBlank cs) = unspaced cs := by
  have hblank : unspaced (cs.takeWhile isBlank) = [] := by
    rw [unspaced_eq_nil_iff]
    intro c hc
    exact List.mem_takeWhile_imp hc
  conv_rhs => rw [← List.takeWhile_append_dropWhile (p := isBlank) (l := cs)]
  rw [unspaced_append, hblank, List.nil_append, dropBlank]

@[simp] theorem unspaced_trimBlank (cs : List Char) : unspaced (trimBlank cs) = unspaced cs := by
  simp [trimBlank]

/-- A text that has been stripped has no blank at its ends. -/
theorem trimBlank_trimBlank (cs : List Char) : trimBlank (trimBlank cs) = trimBlank cs := by
  -- What is left when the blanks behind it are dropped still begins as it did.
  obtain ⟨blanks, happend⟩ : trimBlank cs <+: dropBlank cs :=
    List.rdropWhile_prefix isBlank (dropBlank cs)
  have hfront : EndsRun isBlank (trimBlank cs ++ blanks) := by
    rw [happend]
    exact endsRun_dropWhile isBlank cs
  have hdrop : dropBlank (trimBlank cs) = trimBlank cs := dropWhile_of_ends hfront.of_append
  have hback : (trimBlank cs).rdropWhile isBlank = trimBlank cs :=
    List.rdropWhile_idempotent isBlank (dropBlank cs)
  rw [trimBlank, hdrop]
  exact hback

end Text

namespace Dialect

open Text

variable {d : Dialect} {line : List Char}

/-! ### Continued lines -/

/-- The physical lines of a text without their comments, each with whether a block is open behind
it. -/
def uncommented (d : Dialect) (text : String) : List (List Char × Bool) :=
  carried d.stripComments false (lines text.toList)

theorem length_carried (read : Bool → List Char → List Char × Bool) (inBlock : Bool)
    (raws : List (List Char)) : (carried read inBlock raws).length = raws.length := by
  induction raws generalizing inBlock with
  | nil => rfl
  | cons raw rest ih => rw [carried, List.length_cons, ih, List.length_cons]

/-- Whether a line without comments is continued by the next one: stripped, it ends in the
continuation marker. -/
def isContinued (d : Dialect) (line : List Char) : Bool :=
  d.markers.continuation.toList.isSuffixOf (trimBlank line)

/-- What a line without comments adds to its record: the line stripped and, if it is continued,
without the marker that says so. -/
def part (d : Dialect) (line : List Char) : List Char :=
  if d.isContinued line then (trimBlank line).rdrop d.markers.continuation.toList.length
  else trimBlank line

theorem part_of_eq_some {kept : List Char}
    (h : dropLastMarker d.markers.continuation.toList (trimBlank line) = some kept) :
    d.isContinued line = true ∧ d.part line = kept := by
  have happend : trimBlank line = kept ++ d.markers.continuation.toList :=
    dropLastMarker_eq_some_iff.mp h
  have hcontinued : d.isContinued line = true := by
    rw [isContinued, List.isSuffixOf_iff_suffix, happend]
    exact List.suffix_append kept _
  refine ⟨hcontinued, ?_⟩
  rw [part, if_pos hcontinued, happend]
  simp [List.rdrop]

theorem part_of_eq_none
    (h : dropLastMarker d.markers.continuation.toList (trimBlank line) = none) :
    d.isContinued line = false ∧ d.part line = trimBlank line := by
  have hcontinued : d.isContinued line = false := by
    rw [Bool.eq_false_iff, isContinued, ne_eq, List.isSuffixOf_iff_suffix]
    rintro ⟨kept, hkept⟩
    cases h.symm.trans (dropLastMarker_eq_some_iff.mpr hkept.symm)
  refine ⟨hcontinued, ?_⟩
  rw [part, hcontinued, if_neg Bool.false_ne_true]

end Dialect

namespace Record

open Text Dialect

variable {d : Dialect}

/-! ### Runs -/

/-- Whether numbered lines are cut into the given runs: nothing is lost, all lines of a run but its
last are continued, and no run could go on. -/
structure Runs (d : Dialect) (lines : List (List Char × Nat))
    (runs : List (List (List Char × Nat))) : Prop where
  flatten : runs.flatten = lines
  nonempty : [] ∉ runs
  continued : ∀ run ∈ runs, ∀ line ∈ run.dropLast, d.isContinued line.1 = true
  maximal : ∀ run ∈ runs.dropLast, ∀ line ∈ run.getLast?, d.isContinued line.1 = false

/-- Numbered lines, cut behind every one that is not continued. -/
def runs (d : Dialect) (lines : List (List Char × Nat)) : List (List (List Char × Nat)) :=
  lines.splitBy fun line _ => d.isContinued line.1

/-- A chain whose relation looks at the first of two neighbours only. -/
theorem isChain_iff_forall_mem_dropLast {α : Type} {P : α → Prop} {as : List α} :
    as.IsChain (fun a _ => P a) ↔ ∀ a ∈ as.dropLast, P a := by
  induction as with
  | nil => simp
  | cons a as ih =>
    cases as with
    | nil => simp
    | cons b bs => rw [List.isChain_cons_cons, ih, List.dropLast_cons_cons, List.forall_mem_cons]

/-- There is exactly one way to cut lines into runs. -/
theorem runs_iff {lines : List (List Char × Nat)} {rs : List (List (List Char × Nat))} :
    Runs d lines rs ↔ rs = runs d lines := by
  -- As no run is empty, whether a run could go on does not depend on the one behind it.
  have hmaximal (hne : [] ∉ rs) :
      rs.IsChain (fun run next => ∃ (hrun : run ≠ []) (_ : next ≠ []),
        d.isContinued (run.getLast hrun).1 = false) ↔
      ∀ run ∈ rs.dropLast, ∀ line ∈ run.getLast?, d.isContinued line.1 = false := by
    rw [← isChain_iff_forall_mem_dropLast]
    apply List.IsChain.iff_of_mem_imp
    intro run next hrun hnext
    have hrun' : run ≠ [] := ne_of_mem_of_not_mem hrun hne
    have hnext' : next ≠ [] := ne_of_mem_of_not_mem hnext hne
    simp [hrun', hnext', List.getLast?_eq_some_getLast hrun']
  rw [eq_comm, runs, List.splitBy_eq_iff]
  simp only [isChain_iff_forall_mem_dropLast]
  constructor
  · rintro ⟨hflatten, hne, hcontinued, hlast⟩
    exact ⟨hflatten.symm, hne, hcontinued, (hmaximal hne).mpr hlast⟩
  · rintro ⟨hflatten, hne, hcontinued, hlast⟩
    exact ⟨hflatten.symm, hne, hcontinued, (hmaximal hne).mp hlast⟩

theorem runs_cons_of_not_continued {line : List Char × Nat} (h : d.isContinued line.1 = false)
    (lines : List (List Char × Nat)) : runs d (line :: lines) = [line] :: runs d lines := by
  have happend : [line] ++ lines = line :: lines := rfl
  rw [runs, ← happend, List.splitBy_append]
  · rfl
  · rintro _ ⟨⟩ next -
    exact h

/-- A continued line is the first of the run behind it, if there is one. -/
theorem runs_cons_of_continued {line : List Char × Nat} (h : d.isContinued line.1 = true)
    (lines : List (List Char × Nat)) :
    runs d (line :: lines) = (line :: (runs d lines).headD []) :: (runs d lines).tail := by
  have hruns : Runs d lines (runs d lines) := runs_iff.mpr rfl
  rw [eq_comm, ← runs_iff]
  cases hrs : runs d lines with
  | nil =>
    rw [hrs] at hruns
    have hnil : lines = [] := hruns.flatten.symm
    exact ⟨by simp [hnil], by simp, by simp, by simp⟩
  | cons run later =>
    rw [hrs] at hruns
    have hne : run ≠ [] := ne_of_mem_of_not_mem List.mem_cons_self hruns.nonempty
    refine ⟨?_, ?_, ?_, ?_⟩
    · simp [← hruns.flatten]
    · simpa using fun hnil => hruns.nonempty (List.mem_cons_of_mem _ hnil)
    · intro run' hrun'
      rcases List.mem_cons.mp hrun' with rfl | hlater
      · have hdrop : (line :: run).dropLast = line :: run.dropLast :=
          List.dropLast_cons_of_ne_nil hne
        show ∀ line' ∈ (line :: run).dropLast, d.isContinued line'.1 = true
        rw [hdrop, List.forall_mem_cons]
        exact ⟨h, hruns.continued run List.mem_cons_self⟩
      · exact hruns.continued run' (List.mem_cons_of_mem _ hlater)
    · -- The last line of the first run is the one that it has without the line in front.
      have hlast : (line :: run).getLast? = run.getLast? := by
        rw [List.getLast?_cons, List.getLast?_eq_some_getLast hne]
        rfl
      have hmaximal := hruns.maximal
      cases later with
      | nil => simp
      | cons next later =>
        rw [List.dropLast_cons_cons, List.forall_mem_cons] at hmaximal
        show ∀ run' ∈ ((line :: run) :: next :: later).dropLast, _
        rw [List.dropLast_cons_cons, List.forall_mem_cons, hlast]
        exact hmaximal

/-! ### Records of runs -/

/-- The record of a run of numbered lines, if it has any text. -/
def ofRun (d : Dialect) : List (List Char × Nat) → List Record
  | [] => []
  | first :: rest => ofParts first.2 ((first :: rest).map fun line => d.part line.1)

theorem ofParts_nil (line : Nat) : ofParts line [] = [] := rfl

/-- The first run has the number of the first line. -/
theorem exists_eq_cons_of_runs {lines : List (List Char)} {number : Nat}
    {run : List (List Char × Nat)} {later : List (List (List Char × Nat))}
    (h : runs d (lines.zipIdx number) = run :: later) :
    ∃ line more, run = (line, number) :: more := by
  have hruns : Runs d (lines.zipIdx number) (run :: later) := runs_iff.mpr h.symm
  have hne : run ≠ [] := ne_of_mem_of_not_mem List.mem_cons_self hruns.nonempty
  obtain ⟨⟨line, n⟩, more, rfl⟩ := List.exists_cons_of_ne_nil hne
  have hflatten := hruns.flatten
  cases lines with
  | nil => simp at hflatten
  | cons first rest =>
    rw [List.zipIdx_cons, List.flatten_cons, List.cons_append] at hflatten
    obtain ⟨hfirst, -⟩ := List.cons.inj hflatten
    cases hfirst
    exact ⟨_, _, rfl⟩

/-- Lines give the records of their runs; parts that wait to be continued go with the first run. -/
theorem ofStripped_eq (d : Dialect) (number start : Nat) (pending lines : List (List Char)) :
    ofStripped d number start pending lines =
      match runs d (lines.zipIdx number) with
      | [] => ofParts start pending
      | run :: later =>
        ofParts (if pending.isEmpty then number else start)
          (pending ++ run.map fun line => d.part line.1) ++ later.flatMap (ofRun d) := by
  induction lines generalizing number start pending with
  | nil => rfl
  | cons line rest ih =>
    rw [ofStripped, List.zipIdx_cons]
    cases hmarker : dropLastMarker d.markers.continuation.toList (trimBlank line) with
    | some kept =>
      obtain ⟨hcontinued, hpart⟩ := part_of_eq_some hmarker
      have hwaits : (pending ++ [kept]).isEmpty = false := by simp
      rw [runs_cons_of_continued hcontinued]
      dsimp only
      rw [ih, hwaits]
      cases runs d (rest.zipIdx (number + 1)) with
      | nil => simp [hpart]
      | cons run later => simp [hpart]
    | none =>
      obtain ⟨hcontinued, hpart⟩ := part_of_eq_none hmarker
      rw [runs_cons_of_not_continued hcontinued]
      dsimp only
      rw [ih, List.map_singleton, hpart]
      cases hrs : runs d (rest.zipIdx (number + 1)) with
      | nil => simp [ofParts_nil]
      | cons run later =>
        obtain ⟨text, more, rfl⟩ := exists_eq_cons_of_runs hrs
        simp [ofRun]

/-- Where no part waits to be continued, lines give the records of their runs. -/
theorem ofStripped_nil_eq (d : Dialect) (number start : Nat) (lines : List (List Char)) :
    ofStripped d number start [] lines = (runs d (lines.zipIdx number)).flatMap (ofRun d) := by
  rw [ofStripped_eq]
  cases hrs : runs d (lines.zipIdx number) with
  | nil => rfl
  | cons run later =>
    obtain ⟨line, more, rfl⟩ := exists_eq_cons_of_runs hrs
    simp [ofRun]

/-- The records of a text are those of the runs of its lines. -/
theorem ofText_eq (d : Dialect) (text : String) :
    ofText d text =
      (runs d (((d.uncommented text).map Prod.fst).zipIdx 1)).flatMap (ofRun d) := by
  rw [ofText, ofLines_eq_ofStripped, ofStripped_nil_eq, uncommented]

/-! ### Texts of records -/

/-- Joining parts with spaces adds nothing but blanks. -/
theorem unspaced_joined (parts : List (List Char)) :
    unspaced (joined parts) = parts.flatMap unspaced := by
  induction parts with
  | nil => rfl
  | cons part rest ih =>
    cases rest with
    | nil => simp [joined]
    | cons next rest =>
      have hspace : unspaced (' ' :: joined (next :: rest)) = unspaced (joined (next :: rest)) := by
        rw [unspaced, List.filter_cons_of_neg (by decide)]
        rfl
      rw [joined, unspaced_append, hspace, ih]
      · rfl
      · exact List.cons_ne_nil next rest

/-- The record of some parts has what they have, without the blanks; where it is left out, they have
nothing. -/
theorem unspaced_ofParts (line : Nat) (parts : List (List Char)) :
    (ofParts line parts).flatMap (fun record => unspaced record.text) =
      parts.flatMap unspaced := by
  have htext : unspaced (trimBlank (joined (parts.map trimBlank))) = parts.flatMap unspaced := by
    rw [unspaced_trimBlank, unspaced_joined, List.flatMap_map]
    simp
  rw [← htext, ofParts]
  cases trimBlank (joined (parts.map trimBlank)) with
  | nil => rfl
  | cons c cs => simp

theorem unspaced_ofRun (d : Dialect) (run : List (List Char × Nat)) :
    (ofRun d run).flatMap (fun record => unspaced record.text) =
      run.flatMap fun line => unspaced (d.part line.1) := by
  cases run with
  | nil => rfl
  | cons first rest => rw [ofRun, unspaced_ofParts, List.flatMap_map]

theorem mem_ofParts {line : Nat} {parts : List (List Char)} {record : Record}
    (h : record ∈ ofParts line parts) :
    record.line = line ∧ record.text ≠ [] ∧ trimBlank record.text = record.text := by
  rw [ofParts] at h
  split at h
  · cases h
  · next hne =>
    rw [List.mem_singleton.mp h]
    exact ⟨rfl, hne, trimBlank_trimBlank _⟩

theorem mem_ofRun {run : List (List Char × Nat)} {record : Record} (h : record ∈ ofRun d run) :
    (∃ first rest, run = first :: rest ∧ record.line = first.2) ∧ record.text ≠ [] ∧
      trimBlank record.text = record.text := by
  cases run with
  | nil => cases h
  | cons first rest =>
    obtain ⟨hline, htext⟩ := mem_ofParts h
    exact ⟨⟨first, rest, rfl, hline⟩, htext⟩

/-- The records of runs come in the order of the lines. -/
theorem pairwise_line_flatMap_ofRun {runs : List (List (List Char × Nat))}
    (h : runs.flatten.Pairwise fun line next => line.2 < next.2) :
    (runs.flatMap (ofRun d)).Pairwise fun record next => record.line < next.line := by
  obtain ⟨-, hruns⟩ := List.pairwise_flatten.mp h
  rw [List.pairwise_flatMap]
  constructor
  · intro run hrun
    cases run with
    | nil => exact .nil
    | cons first rest =>
      rw [ofRun, ofParts]
      split
      · exact .nil
      · exact List.pairwise_singleton _ _
  · refine hruns.imp fun {run next} hlines record hrecord record' hrecord' => ?_
    obtain ⟨⟨first, rest, rfl, hline⟩, -⟩ := mem_ofRun hrecord
    obtain ⟨⟨first', rest', rfl, hline'⟩, -⟩ := mem_ofRun hrecord'
    rw [hline, hline']
    exact hlines first List.mem_cons_self first' List.mem_cons_self

/-- Lines are numbered in their order. -/
theorem pairwise_zipIdx (lines : List (List Char)) (number : Nat) :
    (lines.zipIdx number).Pairwise fun line next => line.2 < next.2 := by
  have hnumbers : ((lines.zipIdx number).map Prod.snd).Pairwise (· < ·) := by
    rw [List.zipIdx_map_snd]
    exact List.pairwise_lt_range'
  exact List.pairwise_map.mp hnumbers

/-- The records of a text have the characters of its lines, without the blanks. -/
theorem unspaced_ofText (d : Dialect) (text : String) :
    (ofText d text).flatMap (fun record => unspaced record.text) =
      ((d.uncommented text).map Prod.fst).flatMap fun line => unspaced (d.part line) := by
  have hruns : Runs d (((d.uncommented text).map Prod.fst).zipIdx 1) _ := runs_iff.mpr rfl
  calc (ofText d text).flatMap (fun record => unspaced record.text)
      = (runs d (((d.uncommented text).map Prod.fst).zipIdx 1)).flatMap fun run =>
          (ofRun d run).flatMap fun record => unspaced record.text := by
        rw [ofText_eq, List.flatMap_assoc]
    _ = (runs d (((d.uncommented text).map Prod.fst).zipIdx 1)).flatMap fun run =>
          run.flatMap fun line => unspaced (d.part line.1) := by
        simp only [unspaced_ofRun]
    _ = (((d.uncommented text).map Prod.fst).zipIdx 1).flatMap fun line =>
          unspaced (d.part line.1) := by
        rw [← List.flatMap_assoc, List.flatMap_id', hruns.flatten]
    _ = ((d.uncommented text).map Prod.fst).flatMap fun line => unspaced (d.part line) := by
        conv_rhs => rw [← List.zipIdx_map_fst 1 ((d.uncommented text).map Prod.fst),
          List.flatMap_map]

/-- **Lines are joined to records**: the physical lines, numbered from one, are cut into runs in
exactly one way, such that all lines of a run but its last are continued and no run could go on.
Each record is that of a run and has the number of its first line.  The records have text, without
blanks at its ends, and their numbers increase.  Put together they have the characters of all lines
without comments, in their order, but for blanks and one marker for each line that is continued,
even where nothing follows it. -/
theorem lines_joined (d : Dialect) (text : String) :
    let physical := (d.uncommented text).map Prod.fst
    let records := ofText d text
    physical.length = (lines text.toList).length ∧
    (∃! runs, Runs d (physical.zipIdx 1) runs) ∧
    (∀ runs, Runs d (physical.zipIdx 1) runs →
      records = runs.flatMap (ofRun d) ∧
      ∀ record ∈ records, ∃ first rest, first :: rest ∈ runs ∧ record.line = first.2) ∧
    (∀ record ∈ records, record.text ≠ [] ∧ trimBlank record.text = record.text) ∧
    (records.Pairwise fun record next => record.line < next.line) ∧
    records.flatMap (fun record => unspaced record.text) =
      physical.flatMap fun line => unspaced (d.part line) := by
  intro physical records
  have hrecords : records = (runs d (physical.zipIdx 1)).flatMap (ofRun d) := ofText_eq d text
  have hruns : Runs d (physical.zipIdx 1) (runs d (physical.zipIdx 1)) := runs_iff.mpr rfl
  refine ⟨?_, ?_, ?_, ?_, ?_, ?_⟩
  · show ((carried d.stripComments false (lines text.toList)).map Prod.fst).length = _
    rw [List.length_map, length_carried]
  · exact ⟨_, hruns, fun rs hrs => runs_iff.mp hrs⟩
  · intro rs hrs
    obtain rfl := runs_iff.mp hrs
    refine ⟨hrecords, fun record hrecord => ?_⟩
    rw [hrecords] at hrecord
    obtain ⟨run, hrun, hmem⟩ := List.mem_flatMap.mp hrecord
    obtain ⟨⟨first, rest, rfl, hline⟩, -⟩ := mem_ofRun hmem
    exact ⟨first, rest, hrun, hline⟩
  · intro record hrecord
    rw [hrecords] at hrecord
    obtain ⟨run, -, hmem⟩ := List.mem_flatMap.mp hrecord
    exact (mem_ofRun hmem).2
  · rw [hrecords]
    apply pairwise_line_flatMap_ofRun
    rw [hruns.flatten]
    exact pairwise_zipIdx physical 1
  · exact unspaced_ofText d text

end Record

end Metrology
