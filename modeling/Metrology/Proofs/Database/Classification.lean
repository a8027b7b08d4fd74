import Metrology.Proofs.Database.Rows

/-!
# A record is of one kind

No marker of a dialect begins with a character that can stand before it, and none begins with
another one: then the marker of a record is found where its names end, and it says of which kind
the record is.

* `Split`: a way to read a record as one of a kind.  The reader finds one if there is any
  (`exists_split_of_sides`, `Split.sides_isSome`), whatever the markers are.
* `Split.takeWhile_record`, `Split.dropWhile_record`: the marker stands at the first character that
  neither belongs to a word nor is blank, so that two splits of a record are of one kind and differ
  at most in the blanks behind the marker (`Split.unique`).

The main result is `classified_once`.
-/

namespace Metrology

open Text

namespace Declaration

variable {cs : List Char}

/-! ### What can stand before a marker -/

/-- Whether a character can stand before a marker: it belongs to a word or is blank. -/
def canPrecede (c : Char) : Bool := isWord c || isBlank c

theorem canPrecede_of_isWord {c : Char} (h : isWord c = true) : canPrecede c = true := by
  rw [canPrecede, h, Bool.true_or]

theorem canPrecede_of_isBlank {c : Char} (h : isBlank c = true) : canPrecede c = true := by
  rw [canPrecede, h, Bool.or_true]

theorem NameRow.all_canPrecede (h : NameRow cs) : ∀ c ∈ cs, canPrecede c = true := by
  induction h with
  | single hname =>
    intro c hc
    exact canPrecede_of_isWord ((isWord_of_isIdentifier hname).2 c hc)
  | cons hname _ hgap _ ih =>
    have hword := (isWord_of_isIdentifier hname).2
    rw [List.forall_mem_append, List.forall_mem_append]
    exact ⟨⟨fun c hc => canPrecede_of_isWord (hword c hc),
      fun c hc => canPrecede_of_isBlank (hgap c hc)⟩, ih⟩

/-! ### Kinds of records -/

/-- What a record can declare. -/
inductive Kind
  | primitive
  | standalone
  | factor
  | derived
  | quantity
  deriving DecidableEq, Repr

namespace Kind

/-- The kinds, in the order in which a record is tried. -/
def all : List Kind := [.primitive, .standalone, .factor, .derived, .quantity]

/-- What stands between the two sides of a record. -/
def marker (m : Markers) : Kind → List Char
  | .primitive => m.primitive.toList
  | .standalone => m.standalone.toList
  | .factor => m.factor.toList
  | .derived => m.derived.toList
  | .quantity => m.quantity.toList

/-- What can stand before the marker: for a primitive a dimension, and otherwise names. -/
def TakesFront : Kind → List Char → Prop
  | .primitive, cs => isIdentifier cs = true
  | _, cs => NameRow cs

/-- What can stand behind the marker: for a primitive names, and otherwise anything in one line. -/
def TakesBack : Kind → List Char → Prop
  | .primitive, cs => NameRow cs
  | _, cs => cs ≠ [] ∧ '\n' ∉ cs

/-- The ways to cut a record behind what can stand before the marker. -/
def fronts (record : List Char) : Kind → List (Nat × List Char)
  | .primitive => (cuts record).filter fun cut => cut.1 ≤ (record.takeWhile isWord).length
  | _ => cuts record

/-- The test of what stands behind the marker. -/
def accepts : Kind → List Char → Bool
  | .primitive => isNames
  | _ => isBody

/-- What the two sides of a record declare. -/
def declaration? (front back : List Char) : Kind → Option Declaration
  | .primitive => (namesOf? back).map fun names => .primitive (String.ofList front) names
  | .standalone => (namesOf? front).map fun names => .standalone names (String.ofList back)
  | .factor => (namesOf? front).map fun names => .factor names (String.ofList back)
  | .derived => (namesOf? front).map fun names => .derived names (String.ofList back)
  | .quantity => (namesOf? front).map fun names => .quantity names (String.ofList back)

/-- What a record declares when it is tried as one of a kind. -/
def read (m : Markers) (record : List Char) (kind : Kind) : Option Declaration := do
  let (front, back) ← sides (kind.marker m) record (kind.fronts record) kind.accepts
  kind.declaration? front back

theorem mem_all (kind : Kind) : kind ∈ all := by cases kind <;> decide

variable {kind : Kind} {record : List Char}

theorem accepts_iff {back : List Char} : kind.accepts back = true ↔ kind.TakesBack back := by
  cases kind with
  | primitive => exact isNames_iff
  | standalone | factor | derived | quantity => simp [accepts, TakesBack, isBody]

theorem mem_fronts_iff {cut : Nat × List Char} :
    cut ∈ kind.fronts record ↔ ∃ front rest, record = front ++ rest ∧ kind.TakesFront front ∧
      cut = (front.length, rest) := by
  cases kind with
  | standalone | factor | derived | quantity =>
    simp only [fronts, TakesFront, mem_cuts_iff, isNames_iff]
  | primitive =>
    rw [fronts, List.mem_filter, mem_cuts_iff, decide_eq_true_eq]
    constructor
    · rintro ⟨⟨front, rest, rfl, hnames, rfl⟩, hlength⟩
      -- A front that ends within the first word consists of word characters.
      have hfront : front <+: (front ++ rest).takeWhile isWord :=
        List.prefix_of_prefix_length_le (List.prefix_append front rest)
          (List.takeWhile_prefix isWord) hlength
      have hword : ∀ c ∈ front, isWord c = true := fun c hc =>
        List.mem_takeWhile_imp (hfront.subset hc)
      exact ⟨front, rest, rfl, (isNames_iff.mp hnames).isIdentifier hword, rfl⟩
    · rintro ⟨front, rest, rfl, hname, rfl⟩
      refine ⟨⟨front, rest, rfl, isNames_iff.mpr (.single hname), rfl⟩, ?_⟩
      rw [List.takeWhile_append_of_pos (isWord_of_isIdentifier hname).2, List.length_append]
      exact Nat.le_add_right ..

theorem TakesFront.nameRow {front : List Char} (h : kind.TakesFront front) : NameRow front := by
  cases kind with
  | primitive => exact .single h
  | standalone | factor | derived | quantity => exact h

end Kind

theorem map_primitive? {α : Type} (f : String × DeclaredNames → α) (marker : String)
    (record : List Char) : (primitive? marker record).map f =
      (sides marker.toList record (Kind.fronts record .primitive) isNames).bind fun found =>
        (namesOf? found.2).map fun names => f (String.ofList found.1, names) := by
  dsimp only [primitive?, Kind.fronts]
  rcases sides marker.toList record _ isNames with _ | ⟨front, back⟩
  · rfl
  · show Option.map f ((namesOf? back).bind fun names => some (String.ofList front, names)) =
      (namesOf? back).map fun names => f (String.ofList front, names)
    cases namesOf? back <;> rfl

theorem map_marked? {α : Type} (f : DeclaredNames × String → α) (marker : String)
    (record : List Char) : (marked? marker record).map f =
      (sides marker.toList record (cuts record) isBody).bind fun found =>
        (namesOf? found.1).map fun names => f (names, String.ofList found.2) := by
  unfold marked?
  rcases sides marker.toList record _ isBody with _ | ⟨front, back⟩
  · rfl
  · show Option.map f ((namesOf? front).bind fun names => some (names, String.ofList back)) =
      (namesOf? front).map fun names => f (names, String.ofList back)
    cases namesOf? front <;> rfl

/-- A record is read as each of the kinds in turn. -/
theorem ofRecord?_eq_findSome? (d : Dialect) (record : List Char) :
    ofRecord? d record = Kind.all.findSome? (Kind.read d.markers record) := by
  have hcons (kind : Kind) (kinds : List Kind) :
      (kind :: kinds).findSome? (Kind.read d.markers record) =
        (Kind.read d.markers record kind).or (kinds.findSome? (Kind.read d.markers record)) := by
    rw [List.findSome?_cons]
    cases Kind.read d.markers record kind <;> rfl
  rw [Kind.all, hcons, hcons, hcons, hcons, hcons, List.findSome?_nil, Option.or_none]
  simp only [ofRecord?, map_primitive?, map_marked?, Option.orElse_eq_orElse, Option.orElse_eq_or]
  rfl

/-! ### Splits -/

/-- A way to read a record as one of a kind: two sides that the kind takes, with the marker between
them and perhaps blanks around it. -/
structure Split (m : Markers) (kind : Kind) (record : List Char) where
  front : List Char
  gap : List Char
  gapBehind : List Char
  back : List Char
  record_eq : record = front ++ gap ++ (kind.marker m ++ (gapBehind ++ back))
  takesFront : kind.TakesFront front
  blank_gap : ∀ c ∈ gap, isBlank c = true
  blank_gapBehind : ∀ c ∈ gapBehind, isBlank c = true
  takesBack : kind.TakesBack back

variable {m : Markers} {kind kind' : Kind} {record : List Char}

/-- Whether as many blanks as possible are taken from behind the marker. -/
def Split.IsShortest (s : Split m kind record) : Prop :=
  ∀ other : Split m kind record, s.back.length ≤ other.back.length

theorem mem_blankCuts_iff {rest : List Char} :
    rest ∈ blankCuts cs ↔ ∃ gap, cs = gap ++ rest ∧ ∀ c ∈ gap, isBlank c = true := by
  induction cs with
  | nil =>
    rw [blankCuts, List.mem_singleton]
    constructor
    · rintro rfl
      exact ⟨[], rfl, List.forall_mem_nil _⟩
    · rintro ⟨gap, hgap, -⟩
      exact (List.append_eq_nil_iff.mp hgap.symm).2
  | cons c cs ih =>
    rw [blankCuts, List.mem_append, List.mem_singleton]
    constructor
    · rintro (hrest | rfl)
      · split_ifs at hrest with hblank
        · obtain ⟨gap, rfl, hgap⟩ := ih.mp hrest
          exact ⟨c :: gap, rfl, List.forall_mem_cons.mpr ⟨hblank, hgap⟩⟩
        · exact absurd hrest List.not_mem_nil
      · exact ⟨[], rfl, List.forall_mem_nil _⟩
    · rintro ⟨gap, hcs, hgap⟩
      cases gap with
      | nil => exact .inr hcs.symm
      | cons x gap =>
        obtain ⟨rfl, rfl⟩ := List.cons.inj hcs
        rw [List.forall_mem_cons] at hgap
        rw [if_pos hgap.1]
        exact .inl (ih.mpr ⟨gap, rfl, hgap.2⟩)

/-- The cuts that take more blanks come first. -/
theorem pairwise_blankCuts (cs : List Char) :
    (blankCuts cs).Pairwise fun rest rest' => rest.length < rest'.length := by
  induction cs with
  | nil => exact List.pairwise_singleton _ _
  | cons c cs ih =>
    rw [blankCuts, List.pairwise_append]
    refine ⟨?_, List.pairwise_singleton _ _, ?_⟩
    · split_ifs
      · exact ih
      · exact .nil
    · intro rest hrest rest' hrest'
      rw [List.mem_singleton.mp hrest']
      split_ifs at hrest
      · obtain ⟨gap, rfl, -⟩ := mem_blankCuts_iff.mp hrest
        simp only [List.length_cons, List.length_append]
        omega
      · exact absurd hrest List.not_mem_nil

/-- The text that is found behind blanks is the shortest that is accepted. -/
theorem length_le_of_find?_blankCuts {accepts : List Char → Bool} {back other : List Char}
    (h : (blankCuts cs).find? accepts = some back) (hother : other ∈ blankCuts cs)
    (haccepts : accepts other = true) : back.length ≤ other.length := by
  obtain ⟨-, before, after, hcuts, hbefore⟩ := List.find?_eq_some_iff_append.mp h
  have hpairwise := pairwise_blankCuts cs
  rw [hcuts, List.pairwise_append] at hpairwise
  rw [hcuts, List.mem_append] at hother
  rcases hother with hother | hother
  · have hnot := hbefore other hother
    rw [haccepts] at hnot
    cases hnot
  · rcases List.mem_cons.mp hother with rfl | hother
    · exact le_rfl
    · exact (List.rel_of_pairwise_cons hpairwise.2.1 hother).le

/-- What is found in a record splits it, with the shortest back behind its marker. -/
theorem exists_split_of_sides {front back : List Char}
    (h : sides (kind.marker m) record (kind.fronts record) kind.accepts = some (front, back)) :
    ∃ s : Split m kind record, s.front = front ∧ s.back = back ∧
      ∀ gap other, s.gapBehind ++ s.back = gap ++ other → (∀ c ∈ gap, isBlank c = true) →
        kind.TakesBack other → s.back.length ≤ other.length := by
  obtain ⟨cut, hcut, hfound⟩ := List.exists_of_findSome?_eq_some h
  obtain ⟨fromMarker, hfromMarker, hmarker⟩ := List.exists_of_findSome?_eq_some hfound
  obtain ⟨front', afterFront, rfl, hfront, rfl⟩ := Kind.mem_fronts_iff.mp hcut
  obtain ⟨gap, rfl, hgap⟩ := mem_blankCuts_iff.mp hfromMarker
  split at hmarker
  · cases hmarker
  · rename_i afterMarker hdrop
    obtain ⟨back', hback, heq⟩ := Option.map_eq_some_iff.mp hmarker
    rw [List.take_left] at heq
    cases heq
    obtain ⟨gapBehind, rfl, hgapBehind⟩ := mem_blankCuts_iff.mp (List.mem_of_find?_eq_some hback)
    obtain rfl := eq_append_of_dropMarker hdrop
    refine ⟨⟨front, gap, gapBehind, back, (List.append_assoc ..).symm, hfront, hgap, hgapBehind,
      Kind.accepts_iff.mp (List.find?_some hback)⟩, rfl, rfl, ?_⟩
    intro gap' other heq hgap' hother
    exact length_le_of_find?_blankCuts hback (mem_blankCuts_iff.mpr ⟨gap', heq, hgap'⟩)
      (Kind.accepts_iff.mpr hother)

/-- A split is found where there is one. -/
theorem Split.sides_isSome (s : Split m kind record) :
    (sides (kind.marker m) record (kind.fronts record) kind.accepts).isSome = true := by
  -- All three cuts are among those that are tried, and then the search finds these or others.
  have hfront := Kind.mem_fronts_iff.mpr
    ⟨s.front, _, s.record_eq.trans (List.append_assoc ..), s.takesFront, rfl⟩
  have hgap := mem_blankCuts_iff.mpr
    ⟨s.gap, (rfl : s.gap ++ (kind.marker m ++ (s.gapBehind ++ s.back)) = _), s.blank_gap⟩
  have hback := mem_blankCuts_iff.mpr
    ⟨s.gapBehind, (rfl : s.gapBehind ++ s.back = _), s.blank_gapBehind⟩
  rw [sides, List.findSome?_isSome_iff]
  refine ⟨_, hfront, ?_⟩
  rw [List.findSome?_isSome_iff]
  refine ⟨_, hgap, ?_⟩
  rw [dropMarker_append, Option.isSome_map, List.find?_isSome]
  exact ⟨s.back, hback, Kind.accepts_iff.mpr s.takesBack⟩

/-- Both sides of a split together declare something. -/
theorem Split.declaration?_isSome (s : Split m kind record) :
    (kind.declaration? s.front s.back).isSome = true := by
  cases kind with
  | primitive =>
    rw [Kind.declaration?, Option.isSome_map]
    exact NameRow.namesOf?_isSome s.takesBack
  | standalone | factor | derived | quantity =>
    rw [Kind.declaration?, Option.isSome_map]
    exact s.takesFront.nameRow.namesOf?_isSome

theorem Kind.read_isSome_iff :
    (kind.read m record).isSome = true ↔ Nonempty (Split m kind record) := by
  constructor
  · intro h
    obtain ⟨declaration, hread⟩ := Option.isSome_iff_exists.mp h
    obtain ⟨⟨front, back⟩, hsides, -⟩ := Option.bind_eq_some_iff.mp hread
    obtain ⟨s, -⟩ := exists_split_of_sides hsides
    exact ⟨s⟩
  · rintro ⟨s⟩
    obtain ⟨⟨front, back⟩, hsides⟩ := Option.isSome_iff_exists.mp s.sides_isSome
    obtain ⟨found, rfl, rfl, -⟩ := exists_split_of_sides hsides
    rw [Kind.read, hsides]
    exact found.declaration?_isSome

/-! ### Markers that can be told apart -/

end Declaration

/-- Whether the markers of records can be told from what stands before them, and from each other. -/
structure Markers.Distinct (m : Markers) : Prop where
  begins : ∀ kind : Declaration.Kind, ∃ c rest, kind.marker m = c :: rest ∧
    isWord c = false ∧ isBlank c = false
  apart : ∀ kind kind' : Declaration.Kind, kind ≠ kind' → ¬ kind.marker m <+: kind'.marker m

namespace Declaration

variable {m : Markers} {kind kind' : Kind} {record : List Char}

theorem endsRun_marker (h : m.Distinct) (kind : Kind) (rest : List Char) :
    EndsRun canPrecede (kind.marker m ++ rest) := by
  obtain ⟨c, others, hmarker, hword, hblank⟩ := h.begins kind
  have hc : canPrecede c = false := by rw [canPrecede, hword, hblank, Bool.or_false]
  rw [hmarker]
  exact endsRun_cons hc _

theorem Split.all_canPrecede (s : Split m kind record) :
    ∀ c ∈ s.front ++ s.gap, canPrecede c = true := by
  rw [List.forall_mem_append]
  exact ⟨s.takesFront.nameRow.all_canPrecede, fun c hc => canPrecede_of_isBlank (s.blank_gap c hc)⟩

/-- What stands before the marker ends with the last character that can stand there. -/
theorem Split.takeWhile_record (h : m.Distinct) (s : Split m kind record) :
    record.takeWhile canPrecede = s.front ++ s.gap := by
  conv_lhs => rw [s.record_eq]
  exact takeWhile_append_of_ends s.all_canPrecede (endsRun_marker h kind _)

/-- The marker stands at the first character that cannot stand before it. -/
theorem Split.dropWhile_record (h : m.Distinct) (s : Split m kind record) :
    record.dropWhile canPrecede = kind.marker m ++ (s.gapBehind ++ s.back) := by
  conv_lhs => rw [s.record_eq]
  exact dropWhile_append_of_ends s.all_canPrecede (endsRun_marker h kind _)

/-- A record can be split in one way only, apart from the blanks behind its marker. -/
theorem Split.unique (h : m.Distinct) (s : Split m kind record) (s' : Split m kind' record) :
    kind = kind' ∧ s.front = s'.front ∧ s.gap = s'.gap ∧
      s.gapBehind ++ s.back = s'.gapBehind ++ s'.back := by
  have hbefore : s.front ++ s.gap = s'.front ++ s'.gap :=
    (s.takeWhile_record h).symm.trans (s'.takeWhile_record h)
  have hbehind : kind.marker m ++ (s.gapBehind ++ s.back) =
      kind'.marker m ++ (s'.gapBehind ++ s'.back) :=
    (s.dropWhile_record h).symm.trans (s'.dropWhile_record h)
  have hkind : kind = kind' := by
    by_contra hne
    -- Of two texts with which a third one begins, one begins with the other.
    rcases List.append_eq_append_iff.mp hbehind with ⟨more, hmore, -⟩ | ⟨more, hmore, -⟩
    · exact h.apart kind kind' hne ⟨more, hmore.symm⟩
    · exact h.apart kind' kind (Ne.symm hne) ⟨more, hmore.symm⟩
  subst hkind
  have hfront : s.front = s'.front := by
    rw [← s.takesFront.nameRow.rdropWhile_append s.blank_gap, hbefore]
    exact s'.takesFront.nameRow.rdropWhile_append s'.blank_gap
  rw [hfront] at hbefore
  exact ⟨rfl, hfront, List.append_cancel_left hbefore, List.append_cancel_left hbehind⟩

/-- A record that is read as one of a kind declares what the shortest split says. -/
theorem Kind.read_eq_some_iff (h : m.Distinct) {declaration : Declaration} :
    kind.read m record = some declaration ↔ ∃ s : Split m kind record, s.IsShortest ∧
      kind.declaration? s.front s.back = some declaration := by
  have hfound : ∀ {front back}, sides (kind.marker m) record (kind.fronts record) kind.accepts =
      some (front, back) → ∃ s : Split m kind record, s.front = front ∧ s.back = back ∧
        s.IsShortest := by
    intro front back hsides
    obtain ⟨s, hfront, hback, hshortest⟩ := exists_split_of_sides hsides
    refine ⟨s, hfront, hback, fun other => ?_⟩
    obtain ⟨-, -, -, hbehind⟩ := s.unique h other
    exact hshortest other.gapBehind other.back hbehind other.blank_gapBehind other.takesBack
  constructor
  · intro hread
    obtain ⟨⟨front, back⟩, hsides, hdeclaration⟩ := Option.bind_eq_some_iff.mp hread
    obtain ⟨s, rfl, rfl, hshortest⟩ := hfound hsides
    exact ⟨s, hshortest, hdeclaration⟩
  · rintro ⟨s, hshortest, hdeclaration⟩
    obtain ⟨⟨front, back⟩, hsides⟩ := Option.isSome_iff_exists.mp s.sides_isSome
    obtain ⟨s', rfl, rfl, hshortest'⟩ := hfound hsides
    obtain ⟨-, hfront, -, hbehind⟩ := s'.unique h s
    have hlength : s'.back.length = s.back.length :=
      Nat.le_antisymm (hshortest' s) (hshortest s')
    obtain ⟨-, hback⟩ := List.append_inj' hbehind hlength
    rw [Kind.read, hsides]
    exact (congrArg₂ (kind.declaration? · ·) hfront hback).trans hdeclaration

/-- Where at most one entry of a list gives something, their order does not matter. -/
theorem findSome?_eq_of_perm {α β : Type} {f : α → Option β} {entries entries' : List α}
    (hunique : ∀ a a', (f a).isSome = true → (f a').isSome = true → a = a')
    (hperm : entries.Perm entries') : entries.findSome? f = entries'.findSome? f := by
  induction hperm with
  | nil => rfl
  | cons a _ ih => rw [List.findSome?_cons, List.findSome?_cons, ih]
  | swap a a' rest =>
    simp only [List.findSome?_cons]
    cases ha : f a with
    | none => rfl
    | some b =>
      cases ha' : f a' with
      | none => rfl
      | some b' =>
        have hsame : a = a' := hunique a a' (by rw [ha]; rfl) (by rw [ha']; rfl)
        rw [← ha, ← ha', hsame]
  | trans _ _ ih ih' => exact ih.trans ih'

/-- **A record is of one kind**, and its marker stands where its names end. -/
theorem classified_once {d : Dialect} (h : d.markers.Distinct) (record : List Char) :
    (∀ kind kind' (s : Split d.markers kind record) (s' : Split d.markers kind' record),
      kind = kind' ∧ s.front = s'.front ∧ s.gap = s'.gap ∧
        s.gapBehind ++ s.back = s'.gapBehind ++ s'.back) ∧
    (∀ kind (s : Split d.markers kind record),
      record.takeWhile canPrecede = s.front ++ s.gap ∧
        record.dropWhile canPrecede = kind.marker d.markers ++ (s.gapBehind ++ s.back)) ∧
    (∀ kind : Kind, (kind.read d.markers record).isSome = true ↔
      Nonempty (Split d.markers kind record)) ∧
    (∀ order : List Kind, order.Perm Kind.all →
      order.findSome? (Kind.read d.markers record) = ofRecord? d record) ∧
    ∀ declaration, ofRecord? d record = some declaration ↔
      ∃ kind, ∃ s : Split d.markers kind record, s.IsShortest ∧
        kind.declaration? s.front s.back = some declaration := by
  have hone : ∀ kind kind' : Kind, (kind.read d.markers record).isSome = true →
      (kind'.read d.markers record).isSome = true → kind = kind' := by
    intro kind kind' hread hread'
    obtain ⟨s⟩ := Kind.read_isSome_iff.mp hread
    obtain ⟨s'⟩ := Kind.read_isSome_iff.mp hread'
    exact (s.unique h s').1
  have hread : ∀ declaration, ofRecord? d record = some declaration ↔
      ∃ kind : Kind, kind.read d.markers record = some declaration := by
    intro declaration
    rw [ofRecord?_eq_findSome?]
    constructor
    · intro hfound
      obtain ⟨kind, -, hkind⟩ := List.exists_of_findSome?_eq_some hfound
      exact ⟨kind, hkind⟩
    · rintro ⟨kind, hkind⟩
      -- The order does not count, so that this kind may be tried first.
      have hfirst : (kind :: Kind.all.erase kind).Perm Kind.all :=
        (List.perm_cons_erase kind.mem_all).symm
      rw [← findSome?_eq_of_perm hone hfirst, List.findSome?_cons, hkind]
  refine ⟨fun _ _ s s' => s.unique h s', fun _ s => ⟨s.takeWhile_record h, s.dropWhile_record h⟩,
    fun _ => Kind.read_isSome_iff, fun order horder => ?_, fun declaration => ?_⟩
  · rw [ofRecord?_eq_findSome?]
    exact findSome?_eq_of_perm hone horder
  · rw [hread]
    exact exists_congr fun kind => Kind.read_eq_some_iff h

/-- The names end before the first marker of the three, whichever kind is tried first. -/
theorem classified_once_three_markers :
    Dialect.standard.markers.Distinct ∧
      ofRecord? Dialect.standard "inch in := 2 ::- 4 ||| x".toList =
        some (.derived ⟨"inch", ["in"]⟩ "2 ::- 4 ||| x") ∧
      Kind.all.reverse.findSome?
          (Kind.read Dialect.standard.markers "inch in := 2 ::- 4 ||| x".toList) =
        ofRecord? Dialect.standard "inch in := 2 ::- 4 ||| x".toList := by
  have hdistinct : Dialect.standard.markers.Distinct := by
    constructor
    · rintro (_ | _ | _ | _ | _) <;> exact ⟨_, _, rfl, by decide +kernel, by decide +kernel⟩
    · rintro (_ | _ | _ | _ | _) (_ | _ | _ | _ | _) <;> decide +kernel
  obtain ⟨-, -, -, horder, -⟩ :=
    classified_once hdistinct "inch in := 2 ::- 4 ||| x".toList
  exact ⟨hdistinct, by decide +kernel, horder _ (List.reverse_perm Kind.all)⟩

end Declaration

end Metrology
