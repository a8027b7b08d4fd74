import Metrology.Proofs.Catalogue.Provenance
import Metrology.Proofs.Database.Binding

/-!
# Where dimensions come from

Every dimension of a database is made of primitives that records of it declared.  Only the
declaration of a primitive brings a new one in (`Declaration.Defines.madeOf`).  So reading a record
keeps the invariant `Catalogue.MadeOf`, with one more primitive if the record declares one
(`Reader.madeOf_feed`), and by induction reading many records does (`Reader.madeOf_foldlM`).

Primitives are numbered in the order of their records (`Reader.index_primitives`), so that each of
them is new, and that the units of two records that declare primitives never measure the same,
however the dimensions are called.  The main result is `Reader.dimensions_declared`.
-/

namespace Metrology

open Dimension

namespace Catalogue

/-! ### Results of activities -/

section Activity

variable {α β : Type}

/-- Whether every result of an activity has a property, whatever the catalogue. -/
def Results (P : α → Prop) (a : Activity α) : Prop :=
  ∀ (j : Journal) (x : α), (a j).1 = .ok x → P x

theorem Results.pure {P : α → Prop} {x : α} (h : P x) : Results P (Pure.pure x) := by
  intro j y hy
  cases hy
  exact h

/-- The results of two activities, one after the other, are those of the second. -/
theorem Results.bind {P : β → Prop} {a : Activity α} {b : α → Activity β}
    (h : ∀ x, Results P (b x)) : Results P (a >>= b) := by
  intro j y hy
  cases hx : (a j).1 with
  | ok x =>
    rw [bind_of_ok hx] at hy
    exact h x _ y hy
  | error e =>
    rw [bind_of_error hx] at hy
    cases hy

end Activity

end Catalogue

namespace Declaration

open Catalogue

variable {d : Dialect} {minted : Nat} {c : Catalogue} {declaration : Declaration}
  {u : UnitOfMeasure} {ps : List Primitive}

/-! ### Declarations that mint primitives -/

/-- The primitive that a declaration mints under a number, if it does. -/
def mints? (minted : Nat) : Declaration → Option Primitive
  | primitive dimension _ => some ⟨minted, dimension⟩
  | standalone _ _ | factor _ _ | derived _ _ | quantity _ _ => none

/-- A declaration defines a unit of what it mints and of what there was before. -/
theorem Defines.madeOf (hc : c.MadeOf ps) (h : declaration.Defines d minted c u) :
    u.dim.MadeOf (ps ++ (declaration.mints? minted).toList) := by
  cases h with
  | primitive dimension names =>
    exact madeOf_ofPrimitive (List.mem_append_right ps List.mem_cons_self)
  | derived value unit =>
    have hdim := (Quantity.amount_of_toUnit unit).2
    rw [mints?, Option.toList_none, List.append_nil, UnitOfMeasure.renamed, hdim]
    exact hc.value value
  | standalone factor unit =>
    rw [(UnitOfMeasure.dim_and_scale_of_ofScale unit).1]
    exact madeOf_dimensionless _

/-- Carrying a declaration out counts the primitive that it mints. -/
theorem results_apply (d : Dialect) (minted : Nat) (declaration : Declaration) :
    Results (· = minted + (declaration.mints? minted).toList.length)
      (declaration.apply d minted) := by
  cases declaration with
  | primitive dimension names => exact .bind fun _ => .pure rfl
  | derived names body => exact .bind fun _ => .bind fun _ => .bind fun _ => .pure rfl
  | standalone names body =>
    exact .bind fun _ => .bind fun _ => .bind fun _ => .bind fun _ => .pure rfl
  | factor names body => exact .bind fun _ => .bind fun _ => .pure rfl
  | quantity names body => exact .bind fun _ => .bind fun _ => .bind fun _ => .pure rfl

end Declaration

namespace Reader

open Catalogue

variable {d : Dialect} {r s : Reader} {record : Record} {records : List Record}
  {declaration : Declaration} {ps : List Primitive}

/-! ### Records that mint primitives -/

/-- The primitive that is minted when a reader comes to a record, which it is if the record
declares one and is accepted. -/
def mints? (d : Dialect) (visit : Reader × Record) : Option Primitive :=
  if visit.1.reports d visit.2 then
    (Declaration.ofRecord? d visit.2.text).bind (Declaration.mints? visit.1.minted)
  else none

theorem Accepts.mints?_eq (h : r.Accepts d record declaration) :
    mints? d (r, record) = declaration.mints? r.minted := by
  have hreports : r.reports d record = true := reports_iff_accepts.mpr ⟨declaration, h⟩
  rw [mints?, if_pos hreports, h.1, Option.bind_some]

theorem mints?_of_not_reports (h : r.reports d record = false) : mints? d (r, record) = none := by
  rw [mints?, h, if_neg Bool.false_ne_true]

theorem mints?_eq_some_iff {p : Primitive} :
    mints? d (r, record) = some p ↔
      ∃ names, r.Accepts d record (.primitive p.name names) ∧ p.index = r.minted := by
  constructor
  · intro h
    unfold mints? at h
    split_ifs at h with hreports
    obtain ⟨declaration, haccepts⟩ := reports_iff_accepts.mp hreports
    rw [haccepts.1, Option.bind_some] at h
    cases declaration with
    | primitive dimension names =>
      cases h
      exact ⟨names, haccepts, rfl⟩
    | standalone _ _ | factor _ _ | derived _ _ | quantity _ _ => cases h
  · rintro ⟨names, haccepts, hindex⟩
    rw [haccepts.mints?_eq, Declaration.mints?, ← hindex]

/-- Reading a record counts the primitive that it mints. -/
theorem minted_feed (hs : r.feed d record = .ok s) :
    s.minted = r.minted + (mints? d (r, record)).toList.length := by
  cases fed_of_feed hs with
  | unrecognized hd => rw [mints?_of_not_reports (reports_of_none hd)]; rfl
  | accepted hd hx =>
    have haccepts : r.Accepts d record _ := ⟨hd, by rw [hx]; rfl⟩
    rw [haccepts.mints?_eq]
    exact Declaration.results_apply d r.minted _ r.journal _ hx
  | failed hd hx =>
    rw [mints?_of_not_reports (by rw [reports_of_some hd, hx]; rfl)]
    rfl

/-- The units of a reader are made of the primitives that were minted before the record and of the
one that the record mints. -/
theorem madeOf_feed (hr : r.Alike r) (hs : r.feed d record = .ok s)
    (h : r.journal.catalogue.MadeOf ps) :
    s.journal.catalogue.MadeOf (ps ++ (mints? d (r, record)).toList) := by
  intro name u hu
  rcases units_feed hr hs name with
    ⟨declaration, v, haccepts, -, hdefines, hget⟩ | ⟨-, hkeeps⟩
  · obtain rfl : v = u := Option.some.inj (hget.symm.trans hu)
    rw [haccepts.mints?_eq]
    exact hdefines.madeOf h
  · rw [Defines, hkeeps] at hu
    exact (h name u hu).mono (List.subset_append_left ps _)

/-! ### Rows of records -/

/-- The primitives that the records mint one after the other. -/
def primitives (d : Dialect) (r : Reader) (records : List Record) : List Primitive :=
  (visits d r records).filterMap (mints? d)

theorem primitives_cons (h : r.feed d record = .ok s) (rest : List Record) :
    primitives d r (record :: rest) =
      (mints? d (r, record)).toList ++ primitives d s rest := by
  rw [primitives, visits_cons h, List.filterMap_cons]
  cases mints? d (r, record) <;> rfl

theorem madeOf_foldlM (hr : r.Alike r) (hs : records.foldlM (feed d) r = .ok s)
    (h : r.journal.catalogue.MadeOf ps) :
    s.journal.catalogue.MadeOf (ps ++ primitives d r records) := by
  induction records generalizing r ps with
  | nil =>
    cases hs
    rw [primitives, visits, List.filterMap_nil, List.append_nil]
    exact h
  | cons record rest ih =>
    obtain ⟨next, hnext, hrest⟩ := exists_feed_of_foldlM hs
    have hlater := ih (alike_self_of_feed hr hnext) hrest (madeOf_feed hr hnext h)
    rwa [List.append_assoc, ← primitives_cons hnext] at hlater

/-- Primitives are numbered one after the other, in the order of their records. -/
theorem index_primitives (d : Dialect) (r : Reader) (records : List Record) :
    (primitives d r records).map Primitive.index =
      List.range' r.minted (primitives d r records).length := by
  induction records generalizing r with
  | nil => rfl
  | cons record rest ih =>
    obtain ⟨next, hnext⟩ := exists_feed_eq_ok d r record
    have hlater := ih next
    rw [minted_feed hnext] at hlater
    rw [primitives_cons hnext]
    cases hmints : mints? d (r, record) with
    | none =>
      rw [hmints] at hlater
      exact hlater
    | some p =>
      obtain ⟨names, -, hp⟩ := mints?_eq_some_iff.mp hmints
      rw [hmints, Option.toList_some, List.length_singleton] at hlater
      rw [Option.toList_some, List.singleton_append, List.map_cons, List.length_cons, hp, hlater,
        List.range'_succ]

theorem pairwise_index_primitives (d : Dialect) (r : Reader) (records : List Record) :
    (primitives d r records).Pairwise fun p q => p.index < q.index := by
  rw [← List.pairwise_map (f := Primitive.index), index_primitives]
  exact List.pairwise_lt_range'

theorem alike_self_of_mem_visits (hr : r.Alike r) {visit : Reader × Record}
    (h : visit ∈ visits d r records) : visit.1.Alike visit.1 := by
  induction records generalizing r with
  | nil => cases h
  | cons record rest ih =>
    obtain ⟨next, hnext⟩ := exists_feed_eq_ok d r record
    rw [visits_cons hnext] at h
    rcases List.mem_cons.mp h with rfl | hrest
    · exact hr
    · exact ih (alike_self_of_feed hr hnext) hrest

/-- All names of a primitive have one unit. -/
theorem units_of_primitive (hr : r.Alike r) (hs : r.feed d record = .ok s) {dimension : String}
    {names : DeclaredNames} (h : r.Accepts d record (.primitive dimension names)) {name : String}
    (hname : name ∈ names.toList) :
    s.journal.catalogue.units.get? name =
      some (.ofPrimitive ⟨r.minted, dimension⟩ names.first) := by
  rcases units_of_accepts hr hs h with ⟨u, hdefines, hunits⟩ | ⟨hkind, -⟩
  · obtain rfl := hdefines.unique (.primitive dimension names)
    rw [hunits, Table.get?_putAll]
    exact if_pos hname
  · cases hkind

/-! ### The main result -/

/-- **Dimensions are declared**: whatever records are read, every unit, defined or composed, has a
scale that is not zero and a canonical dimension, made of the primitives that the accepted ones of
these records minted.  The primitives are numbered one after the other.  A record that declares a
primitive and is accepted mints exactly one, of which all its names have the same unit, and no other
record mints any; the units of two such records never measure the same. -/
theorem dimensions_declared (d : Dialect) (minted : Nat) (records : List Record) :
    ∃ r, records.foldlM (feed d) (start d minted) = .ok r ∧
    (∀ name u, r.journal.catalogue.units.get? name = some u ∨
        r.journal.catalogue.composed.get? name = some u →
      u.scale ≠ 0 ∧ Entry.Canonical u.dim.entries ∧
      ∀ e ∈ u.dim.entries, ∃ visit ∈ visits d (start d minted) records, ∃ names,
        visit.1.Accepts d visit.2 (.primitive e.1.name names) ∧ e.1.index = visit.1.minted) ∧
    (∀ visit ∈ visits d (start d minted) records, ∃ s, visit.1.feed d visit.2 = .ok s ∧
      (∀ dimension names, visit.1.Accepts d visit.2 (.primitive dimension names) →
        s.minted = visit.1.minted + 1 ∧ ∀ name ∈ names.toList,
          s.journal.catalogue.units.get? name =
            some (.ofPrimitive ⟨visit.1.minted, dimension⟩ names.first)) ∧
      ((∀ dimension names, ¬ visit.1.Accepts d visit.2 (.primitive dimension names)) →
        s.minted = visit.1.minted)) ∧
    (visits d (start d minted) records).Pairwise fun a b =>
      ∀ dimension names, a.1.Accepts d a.2 (.primitive dimension names) →
      ∀ dimension' names', b.1.Accepts d b.2 (.primitive dimension' names') →
        (UnitOfMeasure.ofPrimitive ⟨a.1.minted, dimension⟩ names.first).compatible
          (.ofPrimitive ⟨b.1.minted, dimension'⟩ names'.first) = false := by
  obtain ⟨r, hr⟩ := exists_foldlM_eq_ok d (start d minted) records
  have hstart : (start d minted).Alike (start d minted) := alike_self_start d minted
  refine ⟨r, hr, ?_, ?_, ?_⟩
  · intro name u hu
    have hsound : r.journal.catalogue.Sound := (alike_self_of_foldlM hr).journal.soundLeft
    have hempty : (start d minted).journal.catalogue.MadeOf [] := fun _ _ h => nomatch h
    have hmade : r.journal.catalogue.MadeOf (primitives d (start d minted) records) :=
      madeOf_foldlM hstart hr hempty
    have hdim : u.dim.MadeOf (primitives d (start d minted) records) :=
      hu.elim (hmade name u) (hmade.composed hsound)
    refine ⟨u.scale_ne_zero, u.dim.canonical, fun e he => ?_⟩
    obtain ⟨visit, hvisit, hmints⟩ := List.mem_filterMap.mp (hdim e he)
    exact ⟨visit, hvisit, mints?_eq_some_iff.mp hmints⟩
  · intro visit hvisit
    obtain ⟨s, hs⟩ := exists_feed_eq_ok d visit.1 visit.2
    have hself := alike_self_of_mem_visits hstart hvisit
    refine ⟨s, hs, ?_, ?_⟩
    · intro dimension names haccepts
      have hcount := minted_feed hs
      rw [haccepts.mints?_eq] at hcount
      exact ⟨hcount, fun name hname => units_of_primitive hself hs haccepts hname⟩
    · intro hnone
      have hmints : mints? d (visit.1, visit.2) = none := by
        rw [Option.eq_none_iff_forall_ne_some]
        intro p hp
        obtain ⟨names, haccepts, -⟩ := mints?_eq_some_iff.mp hp
        exact hnone p.name names haccepts
      have hcount := minted_feed hs
      rwa [hmints] at hcount
  · have hordered := pairwise_index_primitives d (start d minted) records
    refine (List.pairwise_filterMap.mp hordered).imp ?_
    intro a b hab dimension names ha dimension' names' hb
    have hlt := hab _ ha.mints?_eq _ hb.mints?_eq
    exact UnitOfMeasure.compatible_ofPrimitive_of_ne (fun heq => hlt.ne (congrArg _ heq)) _ _

/-- Two lengths that are declared apart are not the same, and the second is the next primitive. -/
theorem dimensions_declared_lengths :
    ∃ s, (start .standard 0).feed .standard ⟨1, "length =!= m metre".toList⟩ = .ok s ∧
      s.journal.catalogue.units.get? "metre" = some (.ofPrimitive ⟨0, "length"⟩ "m") ∧
      s.minted = 1 ∧
      (UnitOfMeasure.ofPrimitive ⟨0, "length"⟩ "m").compatible
        (.ofPrimitive ⟨1, "length"⟩ "f") = false := by
  obtain ⟨-, -, -, heach, hpairs⟩ := dimensions_declared .standard 0
    [⟨1, "length =!= m metre".toList⟩, ⟨2, "length =!= f foot".toList⟩]
  obtain ⟨s, hs, hprimitive, -⟩ := heach _ List.mem_cons_self
  have hmetre : (start .standard 0).Accepts .standard ⟨1, "length =!= m metre".toList⟩
      (.primitive "length" ⟨"m", ["metre"]⟩) := by
    constructor <;> decide +kernel
  obtain ⟨hcount, hunits⟩ := hprimitive _ _ hmetre
  refine ⟨s, hs, hunits "metre" (by decide), hcount, ?_⟩
  have hfoot : s.Accepts .standard ⟨2, "length =!= f foot".toList⟩
      (.primitive "length" ⟨"f", ["foot"]⟩) := by
    refine ⟨?_, rfl⟩
    decide +kernel
  rw [visits_cons hs] at hpairs
  have hcompatible := List.rel_of_pairwise_cons hpairs List.mem_cons_self _ _ hmetre _ _ hfoot
  rwa [hcount] at hcompatible

end Reader

end Metrology
