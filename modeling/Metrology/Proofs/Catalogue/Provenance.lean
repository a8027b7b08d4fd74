import Metrology.Proofs.Catalogue.Meaning
import Metrology.Proofs.Dimension.Group
import Metrology.Proofs.Expression.Evaluation

/-!
# What dimensions are made of

The dimensions of a catalogue are made of primitives that the dimensions of its units contain, and
nothing in a catalogue that is used brings others in.  Dimensions of expressions are made of those
of the names in them (`Expression.Denotes.madeOf`), and a composed unit has the dimension of a
defined one (`Catalogue.exists_defined_of_find`).  So where all units that are defined are made of
given primitives (`Catalogue.MadeOf`), the units that are kept are too, and so are the values of all
expressions.  Kept units need no invariant of their own, since they are composed of defined ones.
-/

namespace Metrology

namespace Dimension

variable {ps qs : List Primitive} {a b d : Dimension}

/-! ### Dimensions made of primitives -/

/-- Whether all primitives of a dimension are among the given ones. -/
def MadeOf (ps : List Primitive) (d : Dimension) : Prop := ∀ e ∈ d.entries, e.1 ∈ ps

theorem madeOf_iff_exponent : d.MadeOf ps ↔ ∀ p, d.exponent p ≠ 0 → p ∈ ps := by
  constructor
  · intro h p hp
    rw [exponent_eq_total] at hp
    exact h (p, _) ((d.canonical.mem_iff _).mpr ⟨hp, rfl⟩)
  · rintro h ⟨p, n⟩ hmem
    obtain ⟨hn, htotal⟩ := (d.canonical.mem_iff n).mp hmem
    refine h p ?_
    rw [exponent_eq_total, ← htotal]
    exact hn

theorem madeOf_dimensionless (ps : List Primitive) : dimensionless.MadeOf ps :=
  fun _ h => nomatch h

theorem exponent_ofPrimitive (p q : Primitive) :
    (ofPrimitive p).exponent q = if p = q then 1 else 0 := by
  rw [ofPrimitive, exponent_ofEntries, Entry.total_cons, Entry.total_nil, add_zero]

theorem ofPrimitive_injective : Function.Injective ofPrimitive := by
  intro p q h
  by_contra hne
  have hexponent : (ofPrimitive p).exponent q = (ofPrimitive q).exponent q := by rw [h]
  rw [exponent_ofPrimitive, exponent_ofPrimitive, if_neg hne, if_pos rfl] at hexponent
  exact zero_ne_one hexponent

theorem madeOf_ofPrimitive {p : Primitive} (h : p ∈ ps) : (ofPrimitive p).MadeOf ps := by
  intro e he
  obtain ⟨x, hx, heq⟩ := Entry.exists_mem_of_mem_normalize he
  rw [← heq, List.mem_singleton.mp hx]
  exact h

theorem MadeOf.mono (h : d.MadeOf ps) (hsubset : ps ⊆ qs) : d.MadeOf qs :=
  fun e he => hsubset (h e he)

/-- A dimension is made of the primitives of two others when it has no exponent without them. -/
theorem MadeOf.of_exponent (ha : a.MadeOf ps) (hb : b.MadeOf ps)
    (h : ∀ p, a.exponent p = 0 → b.exponent p = 0 → d.exponent p = 0) : d.MadeOf ps := by
  rw [madeOf_iff_exponent] at ha hb ⊢
  intro p hp
  by_contra hnot
  have ha0 : a.exponent p = 0 := not_imp_comm.mp (ha p) hnot
  have hb0 : b.exponent p = 0 := not_imp_comm.mp (hb p) hnot
  exact hp (h p ha0 hb0)

end Dimension

open Dimension

/-- Units of different primitives measure different things. -/
theorem UnitOfMeasure.compatible_ofPrimitive_of_ne {p q : Primitive} (h : p ≠ q)
    (symbol symbol' : String) :
    (ofPrimitive p symbol).compatible (ofPrimitive q symbol') = false :=
  decide_eq_false (ofPrimitive_injective.ne h)

/-- Whatever an expression stands for is made of the primitives of the values of its names. -/
theorem Expression.Denotes.madeOf {ps : List Primitive} {resolve : String → Outcome Quantity}
    (hnames : ∀ name v, resolve name = .ok v → v.dim.MadeOf ps) {e : Expression} {x : Amount}
    (h : e.Denotes resolve x) : x.dim.MadeOf ps := by
  induction h with
  | number q => exact madeOf_dimensionless ps
  | name h => exact hnames _ _ h
  | neg _ ih => exact ih
  | mul _ _ hd ihl ihr =>
    refine ihl.of_exponent ihr fun p hx hy => ?_
    rw [hd, hx, hy, add_zero]
  | div _ _ _ hd ihl ihr =>
    refine ihl.of_exponent ihr fun p hx hy => ?_
    rw [hd, hx, hy, sub_zero]
  | pow _ _ _ _ _ hd ihb _ =>
    refine ihb.of_exponent ihb fun p hx _ => ?_
    rw [hd, hx, zero_mul]

namespace Catalogue

variable {c : Catalogue} {name : String} {u : UnitOfMeasure} {ps : List Primitive}

/-! ### Composed units -/

/-- What a name is composed of is defined. -/
theorem exists_defined_of_composition? {k : Composition UnitOfMeasure}
    (h : c.composition? c.defined? name.toList = some k) : ∃ base, c.Defines base k.base := by
  unfold composition? at h
  split at h
  · next f v hprefixed =>
    cases h
    obtain ⟨p, hp⟩ := (prefixed?_eq_some_iff c.defined?_eq_some_iff).mp hprefixed
    obtain ⟨-, rest, -, -, hrest⟩ := hp.splits
    exact ⟨rest, hrest⟩
  · split_ifs at h
    split at h
    · next v hsingular =>
      cases h
      obtain ⟨stem, -, -, hstem⟩ := (singular?_eq_some_iff c _ v).mp hsingular
      exact ⟨stem, hstem⟩
    · obtain ⟨⟨f, v⟩, hprefixed, heq⟩ := Option.map_eq_some_iff.mp h
      cases heq
      obtain ⟨p, hp⟩ := (prefixed?_eq_some_iff c.singular?_eq_some_iff).mp hprefixed
      obtain ⟨-, rest, -, -, stem, -, -, hstem⟩ := hp.splits
      exact ⟨stem, hstem⟩

/-- A composed unit has the dimension of a defined one. -/
theorem exists_defined_of_compose (h : c.compose name = .ok u) :
    ∃ base v, c.Defines base v ∧ u.dim = v.dim := by
  unfold compose at h
  split at h
  · next f v hcomposition =>
    obtain ⟨base, hbase⟩ := exists_defined_of_composition? hcomposition
    obtain ⟨w, hw, hu⟩ := Outcome.bind_eq_ok_iff.mp h
    cases hu
    exact ⟨base, v, hbase, (UnitOfMeasure.dim_and_scale_of_ofScale hw).1⟩
  · next v hcomposition =>
    cases h
    obtain ⟨base, hbase⟩ := exists_defined_of_composition? hcomposition
    exact ⟨base, u, hbase, rfl⟩
  · cases h

theorem exists_defined_of_find (h : c.find name = .ok u) :
    ∃ base v, c.Defines base v ∧ u.dim = v.dim := by
  unfold find at h
  split at h
  · next v hv =>
    cases h
    exact ⟨name, u, hv, rfl⟩
  · exact exists_defined_of_compose h

/-! ### Catalogues made of primitives -/

/-- Whether the dimensions of all units are made of the given primitives. -/
def MadeOf (ps : List Primitive) (c : Catalogue) : Prop :=
  ∀ name u, c.Defines name u → u.dim.MadeOf ps

/-- Kept units are made of the same primitives as the units of which they are composed. -/
theorem MadeOf.composed (h : c.MadeOf ps) (hsound : c.Sound)
    (hu : c.composed.get? name = some u) : u.dim.MadeOf ps := by
  obtain ⟨base, v, hv, hdim⟩ := exists_defined_of_compose (hsound name u hu)
  rw [hdim]
  exact h base v hv

theorem MadeOf.resolve (h : c.MadeOf ps) {v : Quantity} (hv : c.resolve name = .ok v) :
    v.dim.MadeOf ps := by
  unfold Catalogue.resolve at hv
  split at hv
  · split at hv
    · cases hv
      exact madeOf_dimensionless ps
    · cases hv
  · cases hv
  · next u hu =>
    cases hv
    obtain ⟨base, w, hw, hdim⟩ := exists_defined_of_find hu
    rw [Quantity.dim, hdim]
    exact h base w hw

/-- The value of an expression is made of the primitives of the catalogue. -/
theorem MadeOf.value (h : c.MadeOf ps) {text : String} {v : Quantity}
    (hv : c.value text = .ok v) : v.dim.MadeOf ps := by
  obtain ⟨e, -, he⟩ := Outcome.bind_eq_ok_iff.mp hv
  exact (Expression.denotes_of_eval he).madeOf fun _ _ => h.resolve

end Catalogue

end Metrology
