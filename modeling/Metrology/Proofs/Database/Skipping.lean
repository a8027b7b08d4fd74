import Metrology.Proofs.Database.Feed

/-!
# Skipped records

A record that is skipped should leave the catalogue as it was.  Most declarations are `Atomic`: all
that they do before they can fail is to read, so that a failure changes no table (`atomic_apply`).
A prefix that may stand alone is defined before the unit of the same name is made, and no unit has
the scale zero: of such a declaration with the factor zero the prefix stays
(`apply_standalone_zero`), while with any other factor nothing fails behind the reading
(`apply_standalone_ne_zero`).

The main result is `feed_skipped`: a skipped record changes the counts as it should and leaves units
and quantities alone; it leaves the prefixes alone just when it is no such declaration of a factor
that its names did not have (`LeavesZero`); and whenever it does, everything that is read or done
later has the outcome that it has without the record.
-/

namespace Metrology

namespace Catalogue

variable {α β : Type}

/-- Whether an activity has only read where it fails. -/
def Atomic (a : Activity α) : Prop :=
  ∀ (j : Journal) (e : Error), (a j).1 = .error e →
    j.LeadsTo (a j).2 ∧ (a j).2.catalogue.quantities = j.catalogue.quantities

/-- What never fails is atomic. -/
theorem atomic_of_ok {a : Activity α} (h : ∀ j : Journal, ∃ x, (a j).1 = .ok x) : Atomic a := by
  intro j e he
  obtain ⟨x, hx⟩ := h j
  rw [hx] at he
  cases he

/-- Reading before something atomic is atomic. -/
theorem Reads.bind_atomic {a : Activity α} {f : Catalogue → Outcome α} {b : α → Activity β}
    (ha : Reads a f) (hb : ∀ x, Atomic (b x)) : Atomic (a >>= b) := by
  intro j e he
  cases hx : (a j).1 with
  | ok x =>
    rw [bind_of_ok hx] at he ⊢
    obtain ⟨hleads, hquantities⟩ := hb x (a j).2 e he
    exact ⟨(ha.leadsTo j).trans hleads, hquantities.trans (ha.quantities j)⟩
  | error e' =>
    rw [bind_of_error hx]
    exact ⟨ha.leadsTo j, ha.quantities j⟩

end Catalogue

namespace Declaration

open Catalogue

variable (d : Dialect) (minted : Nat) {names : DeclaredNames} {body : String}

/-! ### Declarations that fail -/

/-- All declarations but one kind have only read where they fail. -/
theorem atomic_apply {declaration : Declaration}
    (h : ∀ names body, declaration ≠ .standalone names body) :
    Atomic (declaration.apply d minted) := by
  cases declaration with
  | primitive dimension names => exact atomic_of_ok fun _ => ⟨minted + 1, rfl⟩
  | derived names body =>
    refine (reads_evaluate body).bind_atomic fun v => ?_
    refine (Reads.ofExcept (v.toUnit d.numericDefinitions)).bind_atomic fun u => ?_
    exact atomic_of_ok fun _ => ⟨minted, rfl⟩
  | standalone names body => exact absurd rfl (h names body)
  | factor names body =>
    refine (reads_evaluateFactor body).bind_atomic fun f => ?_
    exact atomic_of_ok fun _ => ⟨minted, rfl⟩
  | quantity names body =>
    refine (reads_evaluate body).bind_atomic fun v => ?_
    refine (Reads.ofExcept (v.toUnit false)).bind_atomic fun u => ?_
    exact atomic_of_ok fun _ => ⟨minted, rfl⟩

variable {d minted} {j : Journal}

/-- The factor zero is refused as a scale when the prefix has it already. -/
theorem apply_standalone_zero (h : (evaluateFactor body j).1 = .ok 0) :
    apply d minted (.standalone names body) j =
      (.error .zeroScale, (defineFactor names.toList 0 (evaluateFactor body j).2).2) := by
  rw [apply, bind_of_ok h, bind_of_ok rfl]
  rfl

/-- With another factor than zero, nothing can fail once the factor is known. -/
theorem apply_standalone_ne_zero {e : Error}
    (he : (apply d minted (.standalone names body) j).1 = .error e)
    (h : (evaluateFactor body j).1 ≠ .ok 0) :
    apply d minted (.standalone names body) j = (.error e, (evaluateFactor body j).2) := by
  rw [apply] at he ⊢
  cases hf : (evaluateFactor body j).1 with
  | ok f =>
    have hne : f ≠ 0 := fun h0 => h (by rw [hf, h0])
    rw [bind_of_ok hf, bind_of_ok rfl, UnitOfMeasure.ofScale, dif_neg hne] at he
    cases he
  | error e' =>
    rw [bind_of_error hf] at he ⊢
    rw [show e' = e from Except.error.inj he]

/-- How a declaration can fail: either it has only read, or it is a prefix that may stand alone, of
the factor zero, which the prefix then has. -/
theorem apply_error {declaration : Declaration} {e : Error}
    (he : (declaration.apply d minted j).1 = .error e) :
    (j.LeadsTo (declaration.apply d minted j).2 ∧
      (declaration.apply d minted j).2.catalogue.quantities = j.catalogue.quantities ∧
      ∀ names body, declaration = .standalone names body →
        (evaluateFactor body j).1 ≠ .ok 0) ∨
    ∃ names body, declaration = .standalone names body ∧ (evaluateFactor body j).1 = .ok 0 ∧
      (declaration.apply d minted j).2 =
        (defineFactor names.toList 0 (evaluateFactor body j).2).2 := by
  by_cases hstandalone : ∃ names body, declaration = .standalone names body
  · obtain ⟨names, body, rfl⟩ := hstandalone
    by_cases h0 : (evaluateFactor body j).1 = .ok 0
    · exact .inr ⟨names, body, rfl, h0, by rw [apply_standalone_zero h0]⟩
    · -- The factor is no zero, so it is the factor that could not be found.
      have hreads := reads_evaluateFactor body
      rw [apply_standalone_ne_zero he h0]
      refine .inl ⟨hreads.leadsTo j, hreads.quantities j, ?_⟩
      rintro _ _ ⟨⟩
      exact h0
  · have hne : ∀ names body, declaration ≠ .standalone names body :=
      fun names body h => hstandalone ⟨names, body, h⟩
    obtain ⟨hleads, hquantities⟩ := atomic_apply d minted hne j e he
    exact .inl ⟨hleads, hquantities, fun names body h => absurd h (hne names body)⟩

end Declaration

namespace Reader

open Catalogue

variable {d : Dialect} {r s : Reader} {record : Record}

/-! ### Records that are skipped -/

/-- A definition of a prefix behind something that only reads changes the prefixes, and kept units
are forgotten. -/
theorem catalogue_defineFactor {α : Type} {a : Activity α} {f : Catalogue → Outcome α}
    (h : Reads a f) (names : List String) (q : Rat) (j : Journal) :
    (defineFactor names q (a j).2).2.catalogue =
      { j.catalogue with prefixes := j.catalogue.prefixes.putAll names q, composed := .empty } := by
  have hagrees := (h.leadsTo j).agrees
  show Catalogue.mk (a j).2.catalogue.units ((a j).2.catalogue.prefixes.putAll names q)
    (a j).2.catalogue.quantities .empty (a j).2.catalogue.plurals = _
  rw [hagrees.units, hagrees.prefixes, hagrees.plurals, h.quantities j]

/-- What a skipped record does: it may keep units, or it is a prefix that may stand alone, of the
factor zero, which the prefix then has. -/
theorem feed_skipped_cases (hr : r.Alike r) (hs : r.feed d record = .ok s)
    (hskip : r.reports d record = false) :
    (r.Alike s ∧ ∀ names body,
      Declaration.ofRecord? d record.text = some (.standalone names body) →
        Declaration.factorOf r.journal.catalogue body ≠ .ok 0) ∨
    ∃ names body, Declaration.ofRecord? d record.text = some (.standalone names body) ∧
      Declaration.factorOf r.journal.catalogue body = .ok 0 ∧ s.minted = r.minted ∧
      s.journal.catalogue =
        { r.journal.catalogue with
          prefixes := r.journal.catalogue.prefixes.putAll names.toList 0, composed := .empty } := by
  have hsound := hr.journal.soundLeft
  have hfactor (body : String) : (Declaration.evaluateFactor body r.journal).1 =
      Declaration.factorOf r.journal.catalogue body :=
    (Declaration.reads_evaluateFactor body).outcome _ hsound
  cases fed_of_feed hs with
  | unrecognized hd =>
    refine .inl ⟨⟨⟨.refl _, rfl, hsound, hsound⟩, rfl⟩, ?_⟩
    intro names body h
    cases hd.symm.trans h
  | accepted hd hx =>
    rw [reports_of_some hd, hx] at hskip
    cases hskip
  | failed hd hx =>
    obtain ⟨hleads, hquantities, hne⟩ | ⟨names, body, rfl, hzero, hafter⟩ :=
      Declaration.apply_error hx
    · left
      refine ⟨⟨⟨hleads.agrees, hquantities, hsound, hleads.sound hsound⟩, rfl⟩, ?_⟩
      intro names body h
      rw [← hfactor]
      exact hne names body (Option.some.inj (hd.symm.trans h))
    · right
      refine ⟨names, body, hd, (hfactor body).symm.trans hzero, rfl, ?_⟩
      show (Declaration.apply d r.minted _ r.journal).2.catalogue = _
      rw [hafter]
      exact catalogue_defineFactor (Declaration.reads_evaluateFactor body) _ _ _

/-- Whether a record that is skipped leaves a prefix behind: it declares the factor zero for a
prefix that may stand alone, under names of which not all had that factor. -/
def LeavesZero (d : Dialect) (r : Reader) (record : Record) : Prop :=
  ∃ names body, Declaration.ofRecord? d record.text = some (.standalone names body) ∧
    Declaration.factorOf r.journal.catalogue body = .ok 0 ∧
    ∃ name ∈ names.toList, r.journal.catalogue.prefixes.get? name ≠ some 0

/-- A skipped record changes no units and no names of quantities, and the prefixes only if it leaves
one behind. -/
theorem tables_of_skipped (hr : r.Alike r) (hs : r.feed d record = .ok s)
    (hskip : r.reports d record = false) :
    s.journal.catalogue.units = r.journal.catalogue.units ∧
    s.journal.catalogue.quantities = r.journal.catalogue.quantities ∧
    (s.journal.catalogue.prefixes = r.journal.catalogue.prefixes ↔ ¬ r.LeavesZero d record) := by
  obtain ⟨halike, hne⟩ | ⟨names, body, hd, hzero, -, hcatalogue⟩ :=
    feed_skipped_cases hr hs hskip
  · refine ⟨halike.journal.agrees.units, halike.journal.quantities,
      iff_of_true halike.journal.agrees.prefixes ?_⟩
    rintro ⟨names, body, hd, hzero, -⟩
    exact hne names body hd hzero
  · refine ⟨by rw [hcatalogue], by rw [hcatalogue], ?_⟩
    rw [hcatalogue]
    refine (Table.putAll_eq_self_iff _ _ _).trans ⟨?_, ?_⟩
    · rintro hall ⟨names', body', hd', -, name, hname, hget⟩
      rw [hd] at hd'
      cases hd'
      exact hget (hall name hname)
    · intro hnone name hname
      by_contra hget
      exact hnone ⟨names, body, hd, hzero, name, hname, hget⟩

/-- A skipped record that leaves no prefix behind is never seen again. -/
theorem alike_of_skipped (hr : r.Alike r) (hs : r.feed d record = .ok s)
    (hskip : r.reports d record = false) (hnone : ¬ r.LeavesZero d record) : r.Alike s := by
  obtain ⟨halike, -⟩ | ⟨names, body, -, -, hminted, hcatalogue⟩ :=
    feed_skipped_cases hr hs hskip
  · exact halike
  · -- The names had the factor zero before, so that giving it to them changed nothing.
    obtain ⟨-, hquantities, hprefixes⟩ := tables_of_skipped hr hs hskip
    refine ⟨⟨⟨?_, hprefixes.mpr hnone, ?_⟩, hquantities, hr.journal.soundLeft, ?_⟩, hminted⟩
    · rw [hcatalogue]
    · rw [hcatalogue]
    · exact sound_of_composed_empty (by rw [hcatalogue])

/-- **What a skipped record leaves behind**: the counts go as they should, and units and names of
quantities stay as they were; the prefixes stay just when the record is not a prefix that may stand
alone, of a factor zero that is new to it; and then everything later is as it is without the
record. -/
theorem feed_skipped {minted : Nat} {before : List Record}
    (hr : before.foldlM (feed d) (start d minted) = .ok r) (hs : r.feed d record = .ok s)
    (hskip : r.reports d record = false) :
    s.accepted = r.accepted ∧ s.skipped = r.skipped + 1 ∧
    s.journal.catalogue.units = r.journal.catalogue.units ∧
    s.journal.catalogue.quantities = r.journal.catalogue.quantities ∧
    (s.journal.catalogue.prefixes = r.journal.catalogue.prefixes ↔ ¬ r.LeavesZero d record) ∧
    (¬ r.LeavesZero d record →
      ∀ (later : List Record) (operations : List Operation),
        (∀ name, s.outcomeAfter d later operations (lookup name) =
          r.outcomeAfter d later operations (lookup name)) ∧
        ∀ text, s.outcomeAfter d later operations (evaluate text) =
          r.outcomeAfter d later operations (evaluate text)) := by
  have hself := alike_self_of_foldlM hr
  obtain ⟨haccepted, hskipped⟩ := feed_counts hs
  rw [hskip, if_neg Bool.false_ne_true] at haccepted hskipped
  obtain ⟨hunits, hquantities, hprefixes⟩ := tables_of_skipped hself hs hskip
  refine ⟨haccepted, hskipped, hunits, hquantities, hprefixes, ?_⟩
  intro hnone later operations
  have halike := alike_of_skipped hself hs hskip hnone
  constructor
  · intro name
    exact halike.outcomeAfter (reads_lookup name).blind d later operations
  · intro text
    exact halike.outcomeAfter (reads_evaluate text).blind d later operations

theorem exists_eq_ok_of_isOk {α : Type} {x : Outcome α} (h : x.isOk = true) : ∃ a, x = .ok a := by
  cases x with
  | ok a => exact ⟨a, rfl⟩
  | error e => cases h

/-- A unit that is defined by an unknown one is skipped and never seen again. -/
theorem feed_skipped_unknown_unit :
    ∃ s, (start .standard 0).feed .standard ⟨1, "x := y".toList⟩ = .ok s ∧ s.skipped = 1 ∧
      ∀ later operations name,
        s.outcomeAfter .standard later operations (lookup name) =
          (start .standard 0).outcomeAfter .standard later operations (lookup name) := by
  obtain ⟨s, hs⟩ : ∃ s, (start .standard 0).feed .standard ⟨1, "x := y".toList⟩ = .ok s :=
    exists_eq_ok_of_isOk (by decide +kernel)
  have hskip : (start .standard 0).reports .standard ⟨1, "x := y".toList⟩ = false := by
    decide +kernel
  have hrecord : Declaration.ofRecord? .standard "x := y".toList =
      some (.derived ⟨"x", []⟩ "y") := by
    decide +kernel
  have hnone : ¬ (start .standard 0).LeavesZero .standard ⟨1, "x := y".toList⟩ := by
    rintro ⟨names, body, hd, -⟩
    cases hrecord.symm.trans hd
  have hstart : ([] : List Record).foldlM (feed .standard) (start .standard 0) =
      .ok (start .standard 0) := rfl
  obtain ⟨-, hskipped, -, -, -, hlater⟩ := feed_skipped hstart hs hskip
  exact ⟨s, hs, hskipped, fun later operations name => (hlater hnone later operations).1 name⟩

/-- The tables do not always stay: a prefix that may stand alone, of the factor zero, is skipped and
stays behind. -/
theorem not_forall_skipped_prefixes_eq :
    ¬ ∀ (d : Dialect) (minted : Nat) (before : List Record) (record : Record) (r s : Reader),
      before.foldlM (feed d) (start d minted) = .ok r → r.feed d record = .ok s →
      r.reports d record = false →
      s.journal.catalogue.prefixes = r.journal.catalogue.prefixes := by
  intro hall
  obtain ⟨s, hs⟩ : ∃ s, (start .standard 0).feed .standard ⟨1, "kilo ::- 0".toList⟩ = .ok s :=
    exists_eq_ok_of_isOk (by decide +kernel)
  have hskip : (start .standard 0).reports .standard ⟨1, "kilo ::- 0".toList⟩ = false := by
    decide +kernel
  have hleaves : (start .standard 0).LeavesZero .standard ⟨1, "kilo ::- 0".toList⟩ :=
    ⟨⟨"kilo", []⟩, "0", by decide +kernel, by decide +kernel, "kilo", List.mem_cons_self, by decide⟩
  have hstart : ([] : List Record).foldlM (feed .standard) (start .standard 0) =
      .ok (start .standard 0) := rfl
  have hprefixes := hall .standard 0 [] _ _ s hstart hs hskip
  exact (tables_of_skipped (alike_self_of_foldlM hstart) hs hskip).2.2.mp hprefixes hleaves

end Reader

end Metrology
