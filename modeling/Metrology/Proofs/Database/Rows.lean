import Mathlib.Data.List.DropRight
import Metrology.Proofs.Database.Names

/-!
# Rows of names

A row of names is a name, or several of them with blanks between them (`NameRow`), and that is what
the machine that reads one takes (`isNames_iff`).  One direction says for every state what still has
to be read (`NamesState.Completes`); the other follows the row name by name, which begins wherever
no name is being read (`NameRow.foldlM`).

A row begins and ends with a word character, so that the blanks behind it can be told from it
(`NameRow.rdropWhile_append`).
-/

namespace Metrology

open Text

namespace Declaration

variable {cs : List Char}

/-! ### What the machine reads -/

/-- A name, or several of them with blanks between them. -/
inductive NameRow : List Char → Prop
  | single {name : List Char} (hname : isIdentifier name = true) : NameRow name
  | cons {name gap row : List Char} (hname : isIdentifier name = true) (hne : gap ≠ [])
      (hgap : ∀ c ∈ gap, isBlank c = true) (hrow : NameRow row) : NameRow (name ++ gap ++ row)

/-- What still has to be read in a state for the whole to be a row of names. -/
def NamesState.Completes : NamesState → List Char → Prop
  | start, cs => NameRow cs
  | within, cs => ∀ name, isIdentifier name = true → NameRow (name ++ cs)
  | between, cs => ∀ name gap, isIdentifier name = true → gap ≠ [] → (∀ c ∈ gap, isBlank c = true) →
      NameRow (name ++ gap ++ cs)

theorem isIdentifier_concat {name : List Char} {c : Char} (hname : isIdentifier name = true)
    (hc : isWord c = true) : isIdentifier (name ++ [c]) = true := by
  cases name with
  | nil => cases hname
  | cons first name =>
    rw [isIdentifier, Bool.and_eq_true, List.all_eq_true] at hname
    exact isIdentifier_cons hname.1
      (List.forall_mem_append.mpr ⟨hname.2, List.forall_mem_singleton.mpr hc⟩)

theorem NamesState.completes_of_foldlM {state : NamesState}
    (h : cs.foldlM NamesState.step state = some .within) : state.Completes cs := by
  -- The names that have been read are no part of the state, so that it has to do for all of them.
  induction cs generalizing state with
  | nil =>
    cases h
    intro name hname
    rw [List.append_nil]
    exact .single hname
  | cons c cs ih =>
    rw [List.foldlM_cons] at h
    obtain ⟨next, hnext, hrest⟩ := Option.bind_eq_some_iff.mp h
    have hcs := ih hrest
    cases state with
    | start =>
      rw [NamesState.step] at hnext
      split_ifs at hnext with hc
      cases hnext
      exact hcs [c] (isIdentifier_cons hc (List.forall_mem_nil _))
    | within =>
      rw [NamesState.step] at hnext
      intro name hname
      split_ifs at hnext with hword hblank
      · cases hnext
        have hrow := hcs (name ++ [c]) (isIdentifier_concat hname hword)
        rwa [List.append_assoc] at hrow
      · cases hnext
        have hgap : ∀ x ∈ [c], isBlank x = true := List.forall_mem_singleton.mpr hblank
        have hrow := hcs name [c] hname (List.cons_ne_nil c []) hgap
        rwa [List.append_assoc] at hrow
    | between =>
      rw [NamesState.step] at hnext
      intro name gap hname hne hgap
      split_ifs at hnext with hblank hc
      · cases hnext
        have hgap' : ∀ x ∈ gap ++ [c], isBlank x = true :=
          List.forall_mem_append.mpr ⟨hgap, List.forall_mem_singleton.mpr hblank⟩
        have hrow := hcs name (gap ++ [c]) hname (by simp) hgap'
        rwa [← List.append_assoc name, List.append_assoc (name ++ gap)] at hrow
      · cases hnext
        -- The next name begins here.
        have hrow := hcs [c] (isIdentifier_cons hc (List.forall_mem_nil _))
        exact .cons hname hne hgap hrow

theorem foldlM_within_of_isWord (h : ∀ c ∈ cs, isWord c = true) :
    cs.foldlM NamesState.step .within = some .within := by
  induction cs with
  | nil => rfl
  | cons c cs ih =>
    have hstep : NamesState.step .within c = some .within := if_pos (h c List.mem_cons_self)
    rw [List.foldlM_cons, hstep]
    exact ih fun x hx => h x (List.mem_cons_of_mem c hx)

theorem foldlM_between_of_isBlank (h : ∀ c ∈ cs, isBlank c = true) :
    cs.foldlM NamesState.step .between = some .between := by
  induction cs with
  | nil => rfl
  | cons c cs ih =>
    have hstep : NamesState.step .between c = some .between := if_pos (h c List.mem_cons_self)
    rw [List.foldlM_cons, hstep]
    exact ih fun x hx => h x (List.mem_cons_of_mem c hx)

/-- A name begins wherever no name is being read. -/
theorem foldlM_of_isIdentifier {state : NamesState} (hstate : state ≠ .within)
    (h : isIdentifier cs = true) : cs.foldlM NamesState.step state = some .within := by
  cases cs with
  | nil => cases h
  | cons c cs =>
    rw [isIdentifier, Bool.and_eq_true, List.all_eq_true] at h
    have hstep : state.step c = some .within := by
      have hblank := isBlank_eq_false_of_isWord (isWord_of_isNameStart h.1)
      cases state with
      | start => simp [NamesState.step, h.1]
      | within => exact absurd rfl hstate
      | between => simp [NamesState.step, h.1, hblank]
    rw [List.foldlM_cons, hstep]
    exact foldlM_within_of_isWord h.2

theorem NameRow.foldlM {state : NamesState} (h : NameRow cs) (hstate : state ≠ .within) :
    cs.foldlM NamesState.step state = some .within := by
  induction h generalizing state with
  | single hname => exact foldlM_of_isIdentifier hstate hname
  | @cons name gap row hname hne hgap _ ih =>
    obtain ⟨c, gap, rfl⟩ := List.exists_cons_of_ne_nil hne
    rw [List.forall_mem_cons] at hgap
    have hstep : NamesState.step .within c = some .between := by
      simp [NamesState.step, hgap.1, isWord_eq_false_of_isBlank hgap.1]
    -- The gap leads from within the first name to between two names, where the other row begins.
    have hblank : (c :: gap).foldlM NamesState.step .within = some .between := by
      rw [List.foldlM_cons, hstep]
      exact foldlM_between_of_isBlank hgap.2
    rw [List.foldlM_append, List.foldlM_append, foldlM_of_isIdentifier hstate hname]
    exact (congrArg (· >>= row.foldlM NamesState.step) hblank).trans (ih (by decide))

/-- **What is read as a row of names is one.** -/
theorem isNames_iff : isNames cs = true ↔ NameRow cs := by
  rw [isNames, beq_iff_eq]
  exact ⟨fun h => NamesState.completes_of_foldlM h, fun h => h.foldlM (by decide)⟩

/-! ### The ends of a row -/

theorem NameRow.exists_head (h : NameRow cs) : ∃ c rest, cs = c :: rest ∧ isNameStart c = true := by
  have hidentifier : ∃ name rest, cs = name ++ rest ∧ isIdentifier name = true := by
    cases h with
    | single hname => exact ⟨cs, [], (List.append_nil cs).symm, hname⟩
    | @cons name gap row hname => exact ⟨name, gap ++ row, List.append_assoc .., hname⟩
  obtain ⟨name, rest, rfl, hname⟩ := hidentifier
  cases name with
  | nil => cases hname
  | cons c name =>
    rw [isIdentifier, Bool.and_eq_true] at hname
    exact ⟨c, name ++ rest, rfl, hname.1⟩

theorem NameRow.exists_last (h : NameRow cs) :
    ∃ before c, cs = before ++ [c] ∧ isWord c = true := by
  induction h with
  | @single name hname =>
    obtain ⟨hne, hword⟩ := isWord_of_isIdentifier hname
    exact ⟨name.dropLast, name.getLast hne, (List.dropLast_append_getLast hne).symm,
      hword _ (List.getLast_mem hne)⟩
  | @cons name gap row _ _ _ _ ih =>
    obtain ⟨before, c, rfl, hc⟩ := ih
    exact ⟨name ++ gap ++ before, c, (List.append_assoc ..).symm, hc⟩

/-- The blanks behind a row of names can be told from it. -/
theorem NameRow.rdropWhile_append {gap : List Char} (h : NameRow cs)
    (hgap : ∀ c ∈ gap, isBlank c = true) : (cs ++ gap).rdropWhile isBlank = cs := by
  obtain ⟨before, c, rfl, hc⟩ := h.exists_last
  have hends : EndsRun isBlank (before ++ [c]).reverse := by
    rw [List.reverse_append]
    exact endsRun_cons (isBlank_eq_false_of_isWord hc) _
  have hgap' : ∀ x ∈ gap.reverse, isBlank x = true := fun x hx => hgap x (List.mem_reverse.mp hx)
  rw [List.rdropWhile, List.reverse_append, dropWhile_append_of_ends hgap' hends,
    List.reverse_reverse]

theorem NameRow.isIdentifier (h : NameRow cs) (hword : ∀ c ∈ cs, isWord c = true) :
    isIdentifier cs = true := by
  obtain ⟨c, rest, rfl, hc⟩ := h.exists_head
  exact isIdentifier_cons hc fun x hx => hword x (List.mem_cons_of_mem c hx)

/-- A row of names has names. -/
theorem NameRow.namesOf?_isSome (h : NameRow cs) : (namesOf? cs).isSome = true := by
  obtain ⟨c, rest, rfl, hc⟩ := h.exists_head
  obtain ⟨part, others, hruns, -⟩ :=
    runs_cons_of_not_blank (isBlank_eq_false_of_isWord (isWord_of_isNameStart hc)) rest
  rw [namesOf?, words, hruns]
  rfl

end Declaration

end Metrology
