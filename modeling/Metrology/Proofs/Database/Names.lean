import Mathlib.Tactic.SplitIfs
import Metrology.Database.Declaration
import Metrology.Proofs.Text.Runs

/-!
# Declared names are identifiers

Whatever a record declares, every name under which it declares it is an identifier
(`Declaration.isIdentifier_of_ofRecord?`).

A record is only ever cut behind a row of names, and only a row of names is taken for the names
behind a marker (`mem_cuts_iff`, `sides_eq_some`).  The machine that reads a row of names and
the function that splits it at its blanks go through it in opposite directions, so that what they
have to do with each other is said for every state of the machine (`runs_of_foldlM`): within a name
the characters up to the next blank are word characters, and elsewhere they are an identifier.
-/

namespace Metrology

open Text

namespace Declaration

/-! ### Rows of names -/

theorem runs_cons_of_blank {c : Char} (h : isBlank c = true) (cs : List Char) :
    runs (c :: cs) = [] :: runs cs := if_pos h

/-- A character that is no blank joins the run behind it, if there is one. -/
theorem runs_cons_of_not_blank {c : Char} (h : isBlank c = false) (cs : List Char) :
    ∃ part rest, runs (c :: cs) = (c :: part) :: rest ∧
      (runs cs = part :: rest ∨ runs cs = [] ∧ part = [] ∧ rest = []) := by
  have hc : ¬ isBlank c = true := Bool.not_eq_true _ ▸ h
  unfold runs
  rw [List.foldr_cons, if_neg hc]
  generalize List.foldr _ [] cs = parts
  cases parts with
  | nil => exact ⟨[], [], rfl, .inr ⟨rfl, rfl, rfl⟩⟩
  | cons part rest => exact ⟨part, rest, rfl, .inl rfl⟩

/-- What the first run of a row has to be where the row is read on in the given state. -/
def NamesState.Continues : NamesState → List Char → Prop
  | within, cs => ∀ c ∈ cs, isWord c = true
  | start, cs | between, cs => cs = [] ∨ isIdentifier cs = true

/-- Whether the runs of a row are names where it is read on in the given state. -/
structure NamesState.Splits (state : NamesState) (parts : List (List Char)) : Prop where
  head : ∀ part ∈ parts.head?, state.Continues part
  tail : ∀ part ∈ parts.tail, part = [] ∨ isIdentifier part = true

theorem NamesState.continues_nil (state : NamesState) : state.Continues [] := by
  cases state with
  | within => exact fun c hc => absurd hc List.not_mem_nil
  | start | between => exact .inl rfl

theorem NamesState.splits_nil (state : NamesState) : state.Splits [] :=
  ⟨fun _ h => absurd h (by simp), fun _ h => absurd h List.not_mem_nil⟩

/-- The first run is a name unless a name is being read. -/
theorem NamesState.Splits.all {parts : List (List Char)} (h : NamesState.Splits .between parts) :
    ∀ part ∈ parts, part = [] ∨ isIdentifier part = true := by
  cases parts with
  | nil => exact fun _ h => absurd h List.not_mem_nil
  | cons first rest =>
    intro part hpart
    rcases List.mem_cons.mp hpart with rfl | hpart
    · exact h.head part rfl
    · exact h.tail part hpart

/-- A blank ends a name, so that what follows it is read on between names. -/
theorem NamesState.Splits.cons_blank {state : NamesState} {c : Char} {cs : List Char}
    (hblank : isBlank c = true) (h : NamesState.Splits .between (runs cs)) :
    state.Splits (runs (c :: cs)) := by
  rw [runs_cons_of_blank hblank]
  refine ⟨?_, h.all⟩
  rintro part ⟨⟩
  exact state.continues_nil

/-- A word character joins the name behind it. -/
theorem NamesState.Splits.cons_word {state : NamesState} {c : Char} {cs : List Char}
    (hword : isWord c = true)
    (hstate : ∀ part, (∀ x ∈ part, isWord x = true) → state.Continues (c :: part))
    (h : NamesState.Splits .within (runs cs)) : state.Splits (runs (c :: cs)) := by
  obtain ⟨part, rest, hruns, hcs⟩ := runs_cons_of_not_blank (isBlank_eq_false_of_isWord hword) cs
  rw [hruns]
  constructor
  · rintro _ ⟨⟩
    apply hstate
    rcases hcs with hcs | ⟨-, rfl, -⟩
    · exact h.head part (by rw [hcs]; rfl)
    · exact fun _ hx => absurd hx List.not_mem_nil
  · rcases hcs with hcs | ⟨-, -, rfl⟩
    · intro other hother
      exact h.tail other (by rw [hcs]; exact hother)
    · exact fun _ hx => absurd hx List.not_mem_nil

/-- The runs of a row that is read to its end are names. -/
theorem runs_of_foldlM {cs : List Char} {state final : NamesState}
    (h : cs.foldlM NamesState.step state = some final) : state.Splits (runs cs) := by
  induction cs generalizing state with
  | nil => exact state.splits_nil
  | cons c cs ih =>
    rw [List.foldlM_cons] at h
    obtain ⟨next, hnext, hrest⟩ := Option.bind_eq_some_iff.mp h
    have hcs := ih hrest
    cases state with
    | start =>
      rw [NamesState.step] at hnext
      split_ifs at hnext with hc
      cases hnext
      exact hcs.cons_word (isWord_of_isNameStart hc) fun part hpart =>
        .inr (isIdentifier_cons hc hpart)
    | within =>
      rw [NamesState.step] at hnext
      split_ifs at hnext with hword hblank
      · cases hnext
        exact hcs.cons_word hword fun part hpart => List.forall_mem_cons.mpr ⟨hword, hpart⟩
      · cases hnext
        exact hcs.cons_blank hblank
    | between =>
      rw [NamesState.step] at hnext
      split_ifs at hnext with hblank hc
      · cases hnext
        exact hcs.cons_blank hblank
      · cases hnext
        exact hcs.cons_word (isWord_of_isNameStart hc) fun part hpart =>
          .inr (isIdentifier_cons hc hpart)

theorem isIdentifier_of_mem_words {cs : List Char} (h : isNames cs = true) {word : List Char}
    (hword : word ∈ words cs) : isIdentifier word = true := by
  have hsplits := runs_of_foldlM (eq_of_beq h)
  rw [words, List.mem_filter] at hword
  obtain ⟨hmem, hne⟩ := hword
  -- At its start a row is read on as it is between two names.
  have hbetween : NamesState.Splits .between (runs cs) := ⟨hsplits.head, hsplits.tail⟩
  refine (hbetween.all word hmem).resolve_left ?_
  rintro rfl
  cases hne

/-! ### The names of a declaration -/

theorem isIdentifier_of_namesOf? {cs : List Char} {names : DeclaredNames}
    (h : namesOf? cs = some names) (hcs : isNames cs = true) :
    ∀ name ∈ names.toList, isIdentifier name.toList = true := by
  have hnames : names.toList = (words cs).map String.ofList := by
    unfold namesOf? at h
    split at h
    · cases h
    · rename_i first others hwords
      cases h
      exact hwords.symm
  intro name hname
  rw [hnames, List.mem_map] at hname
  obtain ⟨word, hword, rfl⟩ := hname
  rw [String.toList_ofList]
  exact isIdentifier_of_mem_words hcs hword

/-- The cuts of a text that is read on are those behind the rows that end within a name. -/
theorem mem_namesCuts_iff {state : NamesState} {read : Nat} {found : List (Nat × List Char)}
    {cs : List Char} {cut : Nat × List Char} :
    cut ∈ namesCuts state read found cs ↔ cut ∈ found ∨ ∃ front rest, cs = front ++ rest ∧
      front ≠ [] ∧ front.foldlM NamesState.step state = some .within ∧
      cut = (read + front.length, rest) := by
  induction cs generalizing state read found with
  | nil =>
    constructor
    · exact .inl
    · rintro (hfound | ⟨front, rest, hcs, hne, -⟩)
      · exact hfound
      · exact absurd (List.append_eq_nil_iff.mp hcs.symm).1 hne
  | cons c cs ih =>
    rw [namesCuts]
    cases hstep : state.step c with
    | none =>
      constructor
      · exact .inl
      · rintro (hfound | ⟨front, rest, hcs, hne, hread, -⟩)
        · exact hfound
        · obtain ⟨x, front, rfl⟩ := List.exists_cons_of_ne_nil hne
          obtain ⟨rfl, -⟩ := List.cons.inj hcs
          rw [List.foldlM_cons, hstep] at hread
          cases hread
    | some next =>
      dsimp only
      rw [ih]
      constructor
      · rintro (hfound | ⟨front, rest, rfl, -, hread, rfl⟩)
        · split_ifs at hfound with hwithin
          · rcases List.mem_cons.mp hfound with rfl | hfound
            · -- The row may end with the character that has just been read.
              refine .inr ⟨[c], cs, rfl, List.cons_ne_nil _ _, ?_, rfl⟩
              rw [List.foldlM_cons, hstep, hwithin]
              rfl
            · exact .inl hfound
          · exact .inl hfound
        · refine .inr ⟨c :: front, rest, rfl, List.cons_ne_nil _ _, ?_, ?_⟩
          · rw [List.foldlM_cons, hstep]
            exact hread
          · rw [List.length_cons]
            congr 1
            omega
      · rintro (hfound | ⟨front, rest, hcs, hne, hread, rfl⟩)
        · left
          split_ifs
          · exact List.mem_cons_of_mem _ hfound
          · exact hfound
        · obtain ⟨x, front, rfl⟩ := List.exists_cons_of_ne_nil hne
          obtain ⟨rfl, rfl⟩ := List.cons.inj hcs
          rw [List.foldlM_cons, hstep] at hread
          cases front with
          | nil =>
            left
            rw [if_pos (Option.some.inj hread)]
            exact List.mem_cons_self
          | cons y front =>
            refine .inr ⟨y :: front, rest, rfl, List.cons_ne_nil _ _, hread, ?_⟩
            rw [List.length_cons, List.length_cons]
            congr 1
            omega

/-- A record is cut behind the rows of names with which it begins. -/
theorem mem_cuts_iff {record : List Char} {cut : Nat × List Char} :
    cut ∈ cuts record ↔ ∃ front rest, record = front ++ rest ∧ isNames front = true ∧
      cut = (front.length, rest) := by
  rw [cuts, mem_namesCuts_iff]
  constructor
  · rintro (hnil | ⟨front, rest, hrecord, -, hread, rfl⟩)
    · cases hnil
    · exact ⟨front, rest, hrecord, beq_iff_eq.mpr hread, by rw [Nat.zero_add]⟩
  · rintro ⟨front, rest, hrecord, hnames, rfl⟩
    refine .inr ⟨front, rest, hrecord, ?_, beq_iff_eq.mp hnames, by rw [Nat.zero_add]⟩
    rintro rfl
    cases hnames

theorem isNames_of_mem_cuts {record : List Char} {cut : Nat × List Char}
    (h : cut ∈ cuts record) : isNames (record.take cut.1) = true := by
  obtain ⟨front, rest, rfl, hnames, rfl⟩ := mem_cuts_iff.mp h
  rwa [List.take_left]

/-- The two sides of a marker are the front of a cut and an accepted text. -/
theorem sides_eq_some {marker record front back : List Char} {fronts : List (Nat × List Char)}
    {accepts : List Char → Bool} (h : sides marker record fronts accepts = some (front, back)) :
    (∃ cut ∈ fronts, front = record.take cut.1) ∧ accepts back = true := by
  obtain ⟨cut, hcut, hfound⟩ := List.exists_of_findSome?_eq_some h
  obtain ⟨fromMarker, -, hmarker⟩ := List.exists_of_findSome?_eq_some hfound
  split at hmarker
  · cases hmarker
  · obtain ⟨text, htext, heq⟩ := Option.map_eq_some_iff.mp hmarker
    cases heq
    exact ⟨⟨cut, hcut, rfl⟩, List.find?_some htext⟩

theorem isIdentifier_of_marked? {marker : String} {record : List Char} {names : DeclaredNames}
    {body : String} (h : marked? marker record = some (names, body)) :
    ∀ name ∈ names.toList, isIdentifier name.toList = true := by
  obtain ⟨⟨front, back⟩, hsides, h⟩ := Option.bind_eq_some_iff.mp h
  obtain ⟨names', hnames, h⟩ := Option.bind_eq_some_iff.mp h
  cases h
  obtain ⟨⟨cut, hcut, rfl⟩, -⟩ := sides_eq_some hsides
  exact isIdentifier_of_namesOf? hnames (isNames_of_mem_cuts hcut)

theorem isIdentifier_of_primitive? {marker dimension : String} {record : List Char}
    {names : DeclaredNames} (h : primitive? marker record = some (dimension, names)) :
    ∀ name ∈ names.toList, isIdentifier name.toList = true := by
  obtain ⟨⟨front, back⟩, hsides, h⟩ := Option.bind_eq_some_iff.mp h
  obtain ⟨names', hnames, h⟩ := Option.bind_eq_some_iff.mp h
  cases h
  exact isIdentifier_of_namesOf? hnames (sides_eq_some hsides).2

/-- The names under which something is declared. -/
def names : Declaration → DeclaredNames
  | primitive _ names | standalone names _ | factor names _ | derived names _ | quantity names _ =>
    names

/-- **Declared names are identifiers.** -/
theorem isIdentifier_of_ofRecord? {d : Dialect} {record : List Char} {declaration : Declaration}
    (h : ofRecord? d record = some declaration) :
    ∀ name ∈ declaration.names.toList, isIdentifier name.toList = true := by
  simp only [ofRecord?, Option.orElse_eq_orElse, Option.orElse_eq_or, Option.or_eq_some_iff] at h
  rcases h with h | ⟨-, h | ⟨-, h | ⟨-, h | ⟨-, h⟩⟩⟩⟩
  · obtain ⟨⟨dimension, names⟩, hnames, rfl⟩ := Option.map_eq_some_iff.mp h
    exact isIdentifier_of_primitive? hnames
  all_goals
    obtain ⟨⟨names, body⟩, hnames, rfl⟩ := Option.map_eq_some_iff.mp h
    exact isIdentifier_of_marked? hnames

end Declaration

end Metrology
