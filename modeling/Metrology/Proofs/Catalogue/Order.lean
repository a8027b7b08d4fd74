import Metrology.Proofs.Catalogue.Meaning
import Metrology.Text.Search

/-!
# Prefixes are tried by length

The search for a prefix (`Catalogue.prefixed?`) goes through the lengths that a prefix can have.  It
may as well go through the prefixes themselves, the longest first: two prefixes of one length never
fit the same name, so that their order does not count.

The main result is `prefixed?_eq_walk`.
-/

namespace Metrology.Catalogue

open Text

/-- The factor of a prefix, if a name begins with it and `base` knows the rest, of which there has
to be some, and what that is. -/
def prefixedBy? {α : Type} (c : Catalogue) (base : List Char → Option α) (name : List Char)
    (p : String) : Option (Rat × α) :=
  if p.length < name.length then
    (dropMarker p.toList name).bind fun rest =>
      (base rest).bind fun b => (c.prefixes.get? p).map fun factor => (factor, b)
  else none

variable {c : Catalogue} {base : List Char → Option UnitOfMeasure}
  {known : String → UnitOfMeasure → Prop} {name p : String} {f : Rat} {u : UnitOfMeasure}

/-- What is found behind a prefix is what is left of a name that it splits. -/
theorem prefixedBy?_eq_some_iff (hbase : ∀ cs u, base cs = some u ↔ known (String.ofList cs) u) :
    c.prefixedBy? base name.toList p = some (f, u) ↔ c.Splits known name p f u := by
  constructor
  · intro h
    rw [prefixedBy?] at h
    split_ifs at h with hlength
    obtain ⟨rest, hrest, h⟩ := Option.bind_eq_some_iff.mp h
    obtain ⟨v, hv, h⟩ := Option.bind_eq_some_iff.mp h
    obtain ⟨factor, hfactor, hpair⟩ := Option.map_eq_some_iff.mp h
    cases hpair
    have hname : name.toList = p.toList ++ rest := eq_append_of_dropMarker hrest
    refine ⟨hfactor, String.ofList rest, ?_, ?_, (hbase _ _).mp hv⟩
    · intro hnil
      rw [← String.toList_eq_nil_iff, String.toList_ofList] at hnil
      rw [hname, hnil, List.append_nil, String.length_toList] at hlength
      exact lt_irrefl _ hlength
    · rw [← String.toList_inj, String.toList_append, String.toList_ofList, hname]
  · rintro ⟨hfactor, rest, hrest, rfl, hknown⟩
    have hlength : p.length < (p ++ rest).toList.length := by
      have hpos : 0 < rest.toList.length :=
        List.length_pos_iff.mpr fun hnil => hrest (String.toList_eq_nil_iff.mp hnil)
      rw [String.toList_append, List.length_append, String.length_toList]
      omega
    have hbehind : base rest.toList = some u := (hbase _ _).mpr (by rwa [String.ofList_toList])
    rw [prefixedBy?, if_pos hlength, String.toList_append, dropMarker_append, Option.bind_some,
      hbehind, Option.bind_some, hfactor]
    rfl

theorem mem_prefixesByLength (h : c.Splits known name p f u) : p ∈ c.prefixesByLength := by
  rw [prefixesByLength, List.mem_mergeSort]
  exact List.mem_map_of_mem (Table.get?_eq_some_iff.mp h.1)

theorem pairwise_prefixesByLength (c : Catalogue) :
    c.prefixesByLength.Pairwise fun p q => q.length ≤ p.length := by
  have htrans (a b c : String) (hab : decide (b.length ≤ a.length) = true)
      (hbc : decide (c.length ≤ b.length) = true) : decide (c.length ≤ a.length) = true := by
    rw [decide_eq_true_eq] at *
    omega
  have htotal (a b : String) : (decide (b.length ≤ a.length) || decide (a.length ≤ b.length)) := by
    rw [Bool.or_eq_true, decide_eq_true_eq, decide_eq_true_eq]
    omega
  exact (List.pairwise_mergeSort htrans htotal c.prefixes.keys).imp of_decide_eq_true

/-- What is found first, the longest prefixes being tried first, is found behind the longest prefix
that splits the name. -/
theorem splitsLongest_of_walk (hbase : ∀ cs u, base cs = some u ↔ known (String.ofList cs) u)
    (h : c.prefixesByLength.findSome? (c.prefixedBy? base name.toList) = some (f, u)) :
    ∃ p, c.SplitsLongest known name p f u := by
  obtain ⟨before, p, after, horder, hfound, hnone⟩ := List.findSome?_eq_some_iff.mp h
  refine ⟨p, (prefixedBy?_eq_some_iff hbase).mp hfound, fun p' f' u' hp' => ?_⟩
  have hmem : p' ∈ before ++ p :: after := horder ▸ mem_prefixesByLength hp'
  have hsorted := pairwise_prefixesByLength c
  rw [horder] at hsorted
  rcases List.mem_append.mp hmem with hbefore | hbehind
  · -- Nothing was found behind the prefixes that were tried before.
    have hfound' := (prefixedBy?_eq_some_iff hbase).mpr hp'
    cases (hnone p' hbefore).symm.trans hfound'
  · rcases List.mem_cons.mp hbehind with rfl | hafter
    · exact le_refl _
    · exact List.rel_of_pairwise_cons (List.pairwise_append.mp hsorted).2.1 hafter

/-- **Prefixes are tried by length**: the longest prefix that splits a name is the first one that
does, when the prefixes are gone through from the longest to the shortest. -/
theorem prefixed?_eq_walk (hbase : ∀ cs u, base cs = some u ↔ known (String.ofList cs) u) :
    c.prefixed? base name.toList =
      c.prefixesByLength.findSome? (c.prefixedBy? base name.toList) := by
  rcases hwalk : c.prefixesByLength.findSome? (c.prefixedBy? base name.toList) with _ | ⟨f, u⟩
  · rw [prefixed?_eq_none_iff hbase]
    rintro ⟨p, f, u, hp⟩
    have hnone := List.findSome?_eq_none_iff.mp hwalk p (mem_prefixesByLength hp)
    cases hnone.symm.trans ((prefixedBy?_eq_some_iff hbase).mpr hp)
  · exact (prefixed?_eq_some_iff hbase).mpr (splitsLongest_of_walk hbase hwalk)

end Metrology.Catalogue
