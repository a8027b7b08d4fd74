import Metrology.Proofs.Database.Course
import Metrology.Proofs.Database.Missing

/-!
# Definitions last

A definition is made of what is known where it stands.  What is read later does not reach back: a
unit changes only when it is defined again, whatever becomes of the units and prefixes that it was
defined by, and a quantity never gets another name.

Which unit a name has in the end is said by `units_eq_some_iff`: the one that the last record
defines that defines any under that name, by the tables as they were when it was read.  The main
result `definitions_last` adds what is left alone.
-/

namespace Metrology

namespace Declaration

open Catalogue

/-! ### Names of quantities -/

/-- No declaration takes the name of a quantity away or gives it another. -/
theorem preserves_quantity_apply (d : Dialect) (minted : Nat) (declaration : Declaration)
    (dim : Dimension) (name : String) :
    Preserves (fun c => c.quantities.get? dim = some name) (declaration.apply d minted) := by
  refine preserves_apply d minted ?_ ?_ ?_ ?_
  · intro α a f h j hj
    show (a j).2.catalogue.quantities.get? dim = some name
    rw [h.quantities j]
    exact hj
  · exact fun _ _ hj => hj
  · exact fun _ _ hj => hj
  · intro dim' j hj
    show (j.catalogue.quantities.putNew dim' declaration.names.first).get? dim = some name
    exact Table.get?_putNew_of_some hj _ _

/-- A declaration defines one unit at most. -/
theorem Defines.unique {d : Dialect} {minted : Nat} {c : Catalogue} {declaration : Declaration}
    {u v : UnitOfMeasure} (hu : declaration.Defines d minted c u)
    (hv : declaration.Defines d minted c v) : u = v := by
  cases hu with
  | primitive _ _ =>
    cases hv
    rfl
  | derived value unit =>
    cases hv with
    | derived value' unit' =>
      cases value.symm.trans value'
      cases unit.symm.trans unit'
      rfl
  | standalone factor unit =>
    cases hv with
    | standalone factor' unit' =>
      cases factor.symm.trans factor'
      exact Except.ok.inj (unit.symm.trans unit')

end Declaration

namespace Reader

open Catalogue

variable {d : Dialect} {r s : Reader} {records : List Record} {name : String}

/-! ### Names and their units in the end -/

/-- Whether a declaration is the last of a row of visits to give a unit to a name, and by which
reader it is read. -/
def LastBinds (d : Dialect) (name : String) (visits : List (Reader × Record)) (q : Reader)
    (declaration : Declaration) : Prop :=
  ∃ before record after, visits = before ++ (q, record) :: after ∧
    q.Accepts d record declaration ∧ declaration.definesUnit = true ∧
    name ∈ declaration.names.toList ∧ ∀ later ∈ after, ¬ Binds d name later

theorem LastBinds.units_eq {q : Reader} {declaration : Declaration} (hr : r.Alike r)
    (hs : records.foldlM (feed d) r = .ok s)
    (h : LastBinds d name (visits d r records) q declaration) :
    ∃ u, declaration.Defines d q.minted q.journal.catalogue u ∧
      s.journal.catalogue.units.get? name = some u := by
  obtain ⟨before, record, after, hvisits, haccepts, hkind, hname, hlast⟩ := h
  exact units_of_last_binds hr hs hvisits haccepts hkind hname hlast

/-- A name has the unit that the last declaration defines that gives it any. -/
theorem units_eq_some_iff (hr : r.Alike r) (hs : records.foldlM (feed d) r = .ok s)
    (hnew : r.journal.catalogue.units.get? name = none) (u : UnitOfMeasure) :
    s.journal.catalogue.units.get? name = some u ↔
      ∃ q declaration, LastBinds d name (visits d r records) q declaration ∧
        declaration.Defines d q.minted q.journal.catalogue u := by
  constructor
  · intro hu
    rcases exists_last_binds d name (visits d r records) with
      hnone | ⟨before, ⟨q, record⟩, after, h⟩
    · have hkeeps := units_of_not_binds hr hs hnone
      rw [hnew, hu] at hkeeps
      cases hkeeps
    · obtain ⟨hvisits, ⟨declaration, haccepts, hkind, hname⟩, hlast⟩ := h
      have hbinds : LastBinds d name (visits d r records) q declaration :=
        ⟨before, record, after, hvisits, haccepts, hkind, hname, hlast⟩
      obtain ⟨v, hdefines, hv⟩ := hbinds.units_eq hr hs
      obtain rfl : v = u := Option.some.inj (hv.symm.trans hu)
      exact ⟨q, declaration, hbinds, hdefines⟩
  · rintro ⟨q, declaration, hbinds, hdefines⟩
    obtain ⟨v, hdefines', hv⟩ := hbinds.units_eq hr hs
    rw [hv, hdefines.unique hdefines']

/-- A derived unit is as much as its expression was when it was read. -/
theorem LastBinds.derived {q : Reader} {names : DeclaredNames} {body : String} (hr : r.Alike r)
    (hs : records.foldlM (feed d) r = .ok s)
    (h : LastBinds d name (visits d r records) q (.derived names body)) :
    ∃ v u, q.journal.catalogue.value body = .ok v ∧
      s.journal.catalogue.units.get? name = some u ∧ u.scale = v.magnitude ∧ u.dim = v.dim := by
  obtain ⟨u, hdefines, hu⟩ := h.units_eq hr hs
  cases hdefines with
  | derived value unit =>
    obtain ⟨hscale, hdim⟩ := Quantity.amount_of_toUnit unit
    exact ⟨_, _, value, hu, hscale, hdim⟩

/-- A name that no record lists gets no unit. -/
theorem not_binds_of_not_listed
    (h : ∀ record ∈ records, ∀ declaration,
      Declaration.ofRecord? d record.text = some declaration → name ∉ declaration.names.toList) :
    ∀ visit ∈ visits d r records, ¬ Binds d name visit := by
  rintro visit hvisit ⟨declaration, haccepts, -, hname⟩
  have hrecord : visit.2 ∈ records := by
    rw [← map_snd_visits d r records]
    exact List.mem_map_of_mem hvisit
  exact h visit.2 hrecord declaration haccepts.1 hname

/-- **Definitions last**: when some records are read after others, a name that none of them lists
keeps its unit, and a quantity that had a name keeps it.  In the end a name has a unit just when
some record gave it one; the last such record defined it by the tables as they were when it was
read, and a derived unit is as much as its expression was then. -/
theorem definitions_last (d : Dialect) (minted : Nat) (first second : List Record) :
    ∃ r s, first.foldlM (feed d) (start d minted) = .ok r ∧ second.foldlM (feed d) r = .ok s ∧
    (∀ name, (∀ record ∈ second, ∀ declaration,
        Declaration.ofRecord? d record.text = some declaration →
          name ∉ declaration.names.toList) →
      s.journal.catalogue.units.get? name = r.journal.catalogue.units.get? name) ∧
    (∀ dim name, r.journal.catalogue.quantities.get? dim = some name →
      s.journal.catalogue.quantities.get? dim = some name) ∧
    (∀ name u, s.journal.catalogue.units.get? name = some u ↔
      ∃ q declaration,
        LastBinds d name (visits d (start d minted) (first ++ second)) q declaration ∧
        declaration.Defines d q.minted q.journal.catalogue u) ∧
    ∀ name q names body,
      LastBinds d name (visits d (start d minted) (first ++ second)) q (.derived names body) →
      ∃ v u, q.journal.catalogue.value body = .ok v ∧
        s.journal.catalogue.units.get? name = some u ∧ u.scale = v.magnitude ∧ u.dim = v.dim := by
  obtain ⟨r, hr⟩ := exists_foldlM_eq_ok d (start d minted) first
  obtain ⟨s, hs⟩ := exists_foldlM_eq_ok d r second
  have hall : (first ++ second).foldlM (feed d) (start d minted) = .ok s := by
    rw [List.foldlM_append, hr]
    exact hs
  have hstart : (start d minted).Alike (start d minted) := alike_self_start d minted
  have hself : r.Alike r := alike_self_of_foldlM hr
  refine ⟨r, s, hr, hs, ?_, ?_, ?_, ?_⟩
  · intro name hname
    exact units_of_not_binds hself hs (not_binds_of_not_listed hname)
  · intro dim name hname
    have happly (n : Nat) (text : List Char) (declaration : Declaration)
        (_ : Declaration.ofRecord? d text = some declaration) :=
      declaration.preserves_quantity_apply d n dim name
    exact preserves_foldlM happly hname hs
  · intro name u
    exact units_eq_some_iff hstart hall rfl u
  · intro name q names body h
    exact h.derived hstart hall

/-- A pace of three metres stays as long as it is when the metre becomes two paces. -/
theorem definitions_last_pace :
    ∃ r s, [⟨1, "length =!= m".toList⟩, ⟨2, "pace := 3 m".toList⟩].foldlM (feed .standard)
        (start .standard 0) = .ok r ∧
      [⟨3, "m := 2 pace".toList⟩].foldlM (feed .standard) r = .ok s ∧
      (s.journal.catalogue.units.get? "pace").map UnitOfMeasure.scale = some 3 := by
  obtain ⟨r, s, hr, hs, hkeeps, -⟩ := definitions_last .standard 0
    [⟨1, "length =!= m".toList⟩, ⟨2, "pace := 3 m".toList⟩] [⟨3, "m := 2 pace".toList⟩]
  refine ⟨r, s, hr, hs, ?_⟩
  rw [hkeeps "pace" ?_]
  · have hscale : (do
        let r ← [⟨1, "length =!= m".toList⟩, ⟨2, "pace := 3 m".toList⟩].foldlM (feed .standard)
          (start .standard 0)
        return (r.journal.catalogue.units.get? "pace").map UnitOfMeasure.scale) =
        (.ok (some 3) : Outcome (Option Rat)) := by
      decide +kernel
    rw [hr] at hscale
    exact Except.ok.inj hscale
  · have hm : Declaration.ofRecord? .standard "m := 2 pace".toList =
        some (.derived ⟨"m", []⟩ "2 pace") := by
      decide +kernel
    intro record hrecord declaration hdeclaration
    rw [List.mem_singleton.mp hrecord, hm] at hdeclaration
    cases hdeclaration
    decide

end Reader

end Metrology
