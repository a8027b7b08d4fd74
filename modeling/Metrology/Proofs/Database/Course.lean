import Metrology.Proofs.Database.Names
import Metrology.Proofs.Database.Recovery
import Metrology.Proofs.Database.Skipping

/-!
# The course of a reading

Reading goes from reader to reader.  `Reader.visits` lists the records together with the reader
that comes to each of them, so that it can be said what was known when a record was read and what
was read later.

* `units_of_apply`: what a declaration that is carried out does to the units.  The unit that it
  defines, if any, is given by the tables as they are when it is read (`Declaration.Defines`).
* `units_feed`: a record gives a name a unit just when it is accepted and defines one under that
  name (`Reader.Binds`); every other name keeps what it had.
* `units_of_not_binds` and `units_of_last_binds`: over any number of records, a name keeps its unit
  until a record gives it another, and in the end it has the one that the last such record gave it.
-/

namespace Metrology

namespace Catalogue

variable {α β : Type}

/-- What follows something that only reads has the answer of the tables to start with. -/
theorem Reads.exists_of_bind_eq_ok {a : Activity α} {f : Catalogue → Outcome α}
    {b : α → Activity β} {j : Journal} {y : β} (ha : Reads a f) (hsound : j.catalogue.Sound)
    (h : ((a >>= b) j).1 = .ok y) :
    ∃ x k, f j.catalogue = .ok x ∧ j.LeadsTo k ∧ (a >>= b) j = b x k := by
  cases hx : (a j).1 with
  | ok x =>
    have hanswer : f j.catalogue = .ok x := (ha.outcome j hsound).symm.trans hx
    exact ⟨x, (a j).2, hanswer, ha.leadsTo j, bind_of_ok hx b⟩
  | error e =>
    rw [bind_of_error hx] at h
    cases h

end Catalogue

namespace Declaration

open Catalogue

variable {d : Dialect} {minted : Nat} {c : Catalogue} {declaration : Declaration}

/-! ### Units that declarations define -/

/-- Whether a declaration is of a kind that defines a unit. -/
def definesUnit : Declaration → Bool
  | primitive _ _ | standalone _ _ | derived _ _ => true
  | factor _ _ | quantity _ _ => false

/-- Whether a declaration defines the given unit, by the tables of a catalogue. -/
inductive Defines (d : Dialect) (minted : Nat) (c : Catalogue) : Declaration → UnitOfMeasure → Prop
  | primitive (dimension : String) (names : DeclaredNames) :
    Defines d minted c (.primitive dimension names) (.ofPrimitive ⟨minted, dimension⟩ names.first)
  | derived {names : DeclaredNames} {body : String} {v : Quantity} {u : UnitOfMeasure}
      (value : c.value body = .ok v) (unit : v.toUnit d.numericDefinitions = .ok u) :
    Defines d minted c (.derived names body) (u.renamed names.first)
  | standalone {names : DeclaredNames} {body : String} {f : Rat} {u : UnitOfMeasure}
      (factor : factorOf c body = .ok f)
      (unit : UnitOfMeasure.ofScale .dimensionless f names.first = .ok u) :
    Defines d minted c (.standalone names body) u

theorem Defines.definesUnit {u : UnitOfMeasure} (h : declaration.Defines d minted c u) :
    declaration.definesUnit = true := by
  cases h with
  | primitive _ _ | derived _ _ | standalone _ _ => rfl

/-- What a declaration that is carried out does to the units. -/
theorem units_of_apply {j : Journal} (hsound : j.catalogue.Sound) {n : Nat}
    (h : (declaration.apply d minted j).1 = .ok n) :
    (∃ u, declaration.Defines d minted j.catalogue u ∧
      (declaration.apply d minted j).2.catalogue.units =
        j.catalogue.units.putAll declaration.names.toList u) ∨
    declaration.definesUnit = false ∧
      (declaration.apply d minted j).2.catalogue.units = j.catalogue.units := by
  cases declaration with
  | primitive dimension names => exact .inl ⟨_, .primitive dimension names, rfl⟩
  | derived names body =>
    rw [apply] at h ⊢
    obtain ⟨v, k, hv, hk, hvalue⟩ := (reads_evaluate body).exists_of_bind_eq_ok hsound h
    rw [hvalue] at h ⊢
    have hunit := Reads.ofExcept (v.toUnit d.numericDefinitions)
    obtain ⟨u, l, hu, hl, hdefine⟩ := hunit.exists_of_bind_eq_ok (hk.sound hsound) h
    rw [hdefine]
    refine .inl ⟨u.renamed names.first, .derived hv hu, ?_⟩
    show l.catalogue.units.putAll names.toList (u.renamed names.first) = _
    rw [hl.agrees.units, hk.agrees.units]
    rfl
  | standalone names body =>
    rw [apply] at h ⊢
    obtain ⟨f, k, hf, hk, hfactor⟩ := (reads_evaluateFactor body).exists_of_bind_eq_ok hsound h
    rw [hfactor, bind_of_ok rfl] at h ⊢
    -- The prefix is defined before the unit is made, so that no unit is kept there.
    have hempty : (defineFactor names.toList f k).2.catalogue.Sound := sound_of_composed_empty rfl
    have hunit := Reads.ofExcept (UnitOfMeasure.ofScale .dimensionless f names.first)
    obtain ⟨u, l, hu, hl, hdefine⟩ := hunit.exists_of_bind_eq_ok hempty h
    rw [hdefine]
    refine .inl ⟨u, .standalone hf hu, ?_⟩
    show l.catalogue.units.putAll names.toList u = _
    rw [hl.agrees.units]
    show k.catalogue.units.putAll names.toList u = _
    rw [hk.agrees.units]
    rfl
  | factor names body =>
    rw [apply] at h ⊢
    obtain ⟨f, k, -, hk, hfactor⟩ := (reads_evaluateFactor body).exists_of_bind_eq_ok hsound h
    rw [hfactor]
    exact .inr ⟨rfl, hk.agrees.units⟩
  | quantity names body =>
    rw [apply] at h ⊢
    obtain ⟨v, k, -, hk, hvalue⟩ := (reads_evaluate body).exists_of_bind_eq_ok hsound h
    rw [hvalue] at h ⊢
    have hunit := Reads.ofExcept (v.toUnit false)
    obtain ⟨u, l, -, hl, hname⟩ := hunit.exists_of_bind_eq_ok (hk.sound hsound) h
    rw [hname]
    exact .inr ⟨rfl, hl.agrees.units.trans hk.agrees.units⟩

end Declaration

namespace Reader

variable {d : Dialect} {r s : Reader} {record : Record} {declaration : Declaration}
  {records : List Record}

/-! ### Records that define units -/

/-- Whether a record declares the given thing, and it is carried out. -/
def Accepts (d : Dialect) (r : Reader) (record : Record) (declaration : Declaration) : Prop :=
  Declaration.ofRecord? d record.text = some declaration ∧
    (declaration.apply d r.minted r.journal).1.isOk = true

theorem reports_iff_accepts :
    r.reports d record = true ↔ ∃ declaration, r.Accepts d record declaration := by
  constructor
  · intro h
    cases hd : Declaration.ofRecord? d record.text with
    | none => cases (reports_of_none hd).symm.trans h
    | some declaration => exact ⟨declaration, hd, (reports_of_some hd).symm.trans h⟩
  · rintro ⟨declaration, hd, hok⟩
    exact (reports_of_some hd).trans hok

theorem Accepts.unique {declaration' : Declaration} (h : r.Accepts d record declaration)
    (h' : r.Accepts d record declaration') : declaration = declaration' :=
  Option.some.inj (h.1.symm.trans h'.1)

/-- Whether a visit of a reader to a record gives a unit to a name. -/
def Binds (d : Dialect) (name : String) (visit : Reader × Record) : Prop :=
  ∃ declaration, visit.1.Accepts d visit.2 declaration ∧ declaration.definesUnit = true ∧
    name ∈ declaration.names.toList

theorem units_of_accepts (hr : r.Alike r) (hs : r.feed d record = .ok s)
    (h : r.Accepts d record declaration) :
    (∃ u, declaration.Defines d r.minted r.journal.catalogue u ∧
      s.journal.catalogue.units =
        r.journal.catalogue.units.putAll declaration.names.toList u) ∨
    declaration.definesUnit = false ∧ s.journal.catalogue.units = r.journal.catalogue.units := by
  obtain ⟨hrecord, hok⟩ := h
  obtain ⟨n, hn⟩ := exists_eq_ok_of_isOk hok
  rw [feed_of_ok hrecord hn] at hs
  cases hs
  exact Declaration.units_of_apply hr.journal.soundLeft hn

/-- What reading a record does to the unit of a name. -/
theorem units_feed (hr : r.Alike r) (hs : r.feed d record = .ok s) (name : String) :
    (∃ declaration u, r.Accepts d record declaration ∧ name ∈ declaration.names.toList ∧
      declaration.Defines d r.minted r.journal.catalogue u ∧
      s.journal.catalogue.units.get? name = some u) ∨
    ¬ Binds d name (r, record) ∧
      s.journal.catalogue.units.get? name = r.journal.catalogue.units.get? name := by
  cases hreports : r.reports d record with
  | false =>
    -- Even a record that leaves a prefix behind leaves the units alone when it is skipped.
    have hunits := (tables_of_skipped hr hs hreports).1
    refine .inr ⟨?_, by rw [hunits]⟩
    rintro ⟨declaration, haccepts, -⟩
    have htrue := reports_iff_accepts.mpr ⟨declaration, haccepts⟩
    cases hreports.symm.trans htrue
  | true =>
    obtain ⟨declaration, haccepts⟩ := reports_iff_accepts.mp hreports
    rcases units_of_accepts hr hs haccepts with ⟨u, hdefines, hunits⟩ | ⟨hkind, hunits⟩
    · by_cases hname : name ∈ declaration.names.toList
      · refine .inl ⟨declaration, u, haccepts, hname, hdefines, ?_⟩
        rw [hunits, Table.get?_putAll, if_pos hname]
      · refine .inr ⟨?_, by rw [hunits, Table.get?_putAll, if_neg hname]⟩
        rintro ⟨declaration', haccepts', -, hname'⟩
        rw [← haccepts.unique haccepts'] at hname'
        exact hname hname'
    · refine .inr ⟨?_, by rw [hunits]⟩
      rintro ⟨declaration', haccepts', hkind', -⟩
      rw [← haccepts.unique haccepts', hkind] at hkind'
      cases hkind'

/-! ### Readers on their way -/

theorem alike_self_start (d : Dialect) (minted : Nat) :
    (start d minted).Alike (start d minted) := by
  have hread : [].foldlM (feed d) (start d minted) = .ok (start d minted) := rfl
  exact alike_self_of_foldlM hread

theorem alike_self_of_feed (hr : r.Alike r) (hs : r.feed d record = .ok s) : s.Alike s := by
  have halike := feed_alike d record hr
  rw [hs] at halike
  cases halike with
  | ok h => exact h

/-- The readers that come to the records, each with its record. -/
def visits (d : Dialect) : Reader → List Record → List (Reader × Record)
  | _, [] => []
  | r, record :: rest =>
    (r, record) :: match r.feed d record with
      | .ok s => visits d s rest
      | .error _ => []

theorem visits_cons (h : r.feed d record = .ok s) (rest : List Record) :
    visits d r (record :: rest) = (r, record) :: visits d s rest := by
  rw [visits, h]

theorem map_snd_visits (d : Dialect) (r : Reader) (records : List Record) :
    (visits d r records).map Prod.snd = records := by
  induction records generalizing r with
  | nil => rfl
  | cons record rest ih =>
    obtain ⟨s, hs⟩ := exists_feed_eq_ok d r record
    rw [visits_cons hs, List.map_cons, ih s]

/-! ### Names and their last units -/

/-- A name to which no record gives a unit keeps what it had. -/
theorem units_of_not_binds (hr : r.Alike r) (hs : records.foldlM (feed d) r = .ok s)
    {name : String} (h : ∀ visit ∈ visits d r records, ¬ Binds d name visit) :
    s.journal.catalogue.units.get? name = r.journal.catalogue.units.get? name := by
  induction records generalizing r with
  | nil =>
    cases hs
    rfl
  | cons record rest ih =>
    obtain ⟨next, hnext, hrest⟩ := exists_feed_of_foldlM hs
    rw [visits_cons hnext] at h
    have hfirst := h (r, record) List.mem_cons_self
    have hlater := ih (alike_self_of_feed hr hnext) hrest fun visit hvisit =>
      h visit (List.mem_cons_of_mem _ hvisit)
    rcases units_feed hr hnext name with
      ⟨declaration, u, haccepts, hname, hdefines, -⟩ | ⟨-, hkeeps⟩
    · exact absurd ⟨declaration, haccepts, hdefines.definesUnit, hname⟩ hfirst
    · exact hlater.trans hkeeps

/-- The unit of a name is the one that the last record gave it that gave it any. -/
theorem units_of_last_binds (hr : r.Alike r) (hs : records.foldlM (feed d) r = .ok s)
    {name : String} {q : Reader} {before after : List (Reader × Record)}
    (hvisits : visits d r records = before ++ (q, record) :: after)
    (haccepts : q.Accepts d record declaration) (hkind : declaration.definesUnit = true)
    (hname : name ∈ declaration.names.toList) (hlast : ∀ visit ∈ after, ¬ Binds d name visit) :
    ∃ u, declaration.Defines d q.minted q.journal.catalogue u ∧
      s.journal.catalogue.units.get? name = some u := by
  induction records generalizing r before with
  | nil => cases before <;> cases hvisits
  | cons record' rest ih =>
    obtain ⟨next, hnext, hrest⟩ := exists_feed_of_foldlM hs
    have hself := alike_self_of_feed hr hnext
    rw [visits_cons hnext] at hvisits
    cases before with
    | cons visit before => exact ih hself hrest (List.cons.inj hvisits).2
    | nil =>
      -- The last record that gives the name a unit is the first one that is read here.
      obtain ⟨hvisit, hafter⟩ := List.cons.inj hvisits
      cases hvisit
      have hkeeps := units_of_not_binds hself hrest fun visit hmem => hlast visit (hafter ▸ hmem)
      rw [hkeeps]
      rcases units_feed hr hnext name with
        ⟨declaration', u, haccepts', -, hdefines, hget⟩ | ⟨hnot, -⟩
      · obtain rfl := haccepts.unique haccepts'
        exact ⟨u, hdefines, hget⟩
      · exact absurd ⟨declaration, haccepts, hkind, hname⟩ hnot

/-- Of a row of visits none gives a unit to a name, or there is a last one that does. -/
theorem exists_last_binds (d : Dialect) (name : String) (visits : List (Reader × Record)) :
    (∀ visit ∈ visits, ¬ Binds d name visit) ∨
    ∃ before visit after, visits = before ++ visit :: after ∧ Binds d name visit ∧
      ∀ later ∈ after, ¬ Binds d name later := by
  induction visits with
  | nil => exact .inl fun _ h => nomatch h
  | cons visit rest ih =>
    rcases ih with hnone | ⟨before, visit', after, hrest, hbinds, hlast⟩
    · by_cases hbinds : Binds d name visit
      · exact .inr ⟨[], visit, rest, rfl, hbinds, hnone⟩
      · left
        intro visit' hvisit'
        rcases List.mem_cons.mp hvisit' with rfl | hmem
        · exact hbinds
        · exact hnone visit' hmem
    · exact .inr ⟨visit :: before, visit', after, by rw [hrest, List.cons_append], hbinds, hlast⟩

end Reader

end Metrology
