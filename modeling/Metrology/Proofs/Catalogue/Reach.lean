import Metrology.Proofs.Catalogue.Meaning

/-!
# What a definition reaches

To define a unit can change the meaning of the names that it reaches (`Catalogue.Reaches`): of the
name that is defined, of its plural, and of both behind a prefix.  A prefix reaches the names that
begin with it, as far as they are not defined.

The meaning of a name is found by looking at the factors of its initial parts, at what is left
behind those that are prefixes, and at what either is without an `s`, and two catalogues that agree
there give the name one meaning (`AgreesFor.find_eq`): the search for a prefix goes through the same
lengths as far as they count.

The main result is `lookup_eq_of_not_reached`.
-/

namespace Metrology

namespace Catalogue

variable {c d : Catalogue} {x : String}

/-- Whether to define a name as a unit can change what another name means. -/
inductive Reaches (c : Catalogue) (n x : String) : Prop
  | itself (h : x = n) : Reaches c n x
  | plural (h : x = n ++ "s") : Reaches c n x
  | multiple {p : String} {f : Rat} (hp : c.prefixes.get? p = some f) (h : x = p ++ n) :
    Reaches c n x
  | multiplePlural {p : String} {f : Rat} (hp : c.prefixes.get? p = some f)
    (h : x = p ++ (n ++ "s")) : Reaches c n x

/-! ### Catalogues that agree about a name -/

/-- Whether two catalogues agree in all that the meaning of a name can depend on. -/
structure AgreesFor (c d : Catalogue) (x : String) : Prop where
  plurals : d.plurals = c.plurals
  prefixes : ∀ p rest, x = p ++ rest → d.prefixes.get? p = c.prefixes.get? p
  units : ∀ n, c.Reaches n x → d.units.get? n = c.units.get? n

namespace AgreesFor

theorem definesPlural_iff (h : c.AgreesFor d x) (u : UnitOfMeasure) :
    d.DefinesPlural x u ↔ c.DefinesPlural x u := by
  refine exists_congr fun stem => and_congr_right fun _ => and_congr_right fun hx => ?_
  rw [Defines, Defines, h.units stem (.plural hx)]

theorem splits_defines_iff (h : c.AgreesFor d x) (p : String) (f : Rat) (u : UnitOfMeasure) :
    d.Splits d.Defines x p f u ↔ c.Splits c.Defines x p f u := by
  constructor
  · rintro ⟨hp, rest, hne, hx, hu⟩
    rw [h.prefixes p rest hx] at hp
    rw [Defines, h.units rest (.multiple hp hx)] at hu
    exact ⟨hp, rest, hne, hx, hu⟩
  · rintro ⟨hp, rest, hne, hx, hu⟩
    rw [Defines, ← h.units rest (.multiple hp hx)] at hu
    rw [← h.prefixes p rest hx] at hp
    exact ⟨hp, rest, hne, hx, hu⟩

theorem splits_definesPlural_iff (h : c.AgreesFor d x) (p : String) (f : Rat)
    (u : UnitOfMeasure) :
    d.Splits d.DefinesPlural x p f u ↔ c.Splits c.DefinesPlural x p f u := by
  constructor
  · rintro ⟨hp, _, hne, hx, stem, hstem, rfl, hu⟩
    rw [h.prefixes p _ hx] at hp
    rw [Defines, h.units stem (.multiplePlural hp hx)] at hu
    exact ⟨hp, _, hne, hx, stem, hstem, rfl, hu⟩
  · rintro ⟨hp, _, hne, hx, stem, hstem, rfl, hu⟩
    rw [Defines, ← h.units stem (.multiplePlural hp hx)] at hu
    rw [← h.prefixes p _ hx] at hp
    exact ⟨hp, _, hne, hx, stem, hstem, rfl, hu⟩

end AgreesFor

/-- The longest prefix is the same where the same prefixes split a name. -/
theorem prefixed?_congr {base base' : List Char → Option UnitOfMeasure}
    {known known' : String → UnitOfMeasure → Prop}
    (hbase : ∀ cs u, base cs = some u ↔ known (String.ofList cs) u)
    (hbase' : ∀ cs u, base' cs = some u ↔ known' (String.ofList cs) u)
    (h : ∀ p f u, d.Splits known' x p f u ↔ c.Splits known x p f u) :
    d.prefixed? base' x.toList = c.prefixed? base x.toList := by
  refine Option.ext fun ⟨f, u⟩ => ?_
  rw [prefixed?_eq_some_iff hbase', prefixed?_eq_some_iff hbase]
  refine exists_congr fun p => ⟨fun hp => ?_, fun hp => ?_⟩
  · refine ⟨(h p f u).mp hp.splits, fun p' f' u' hp' => hp.longest p' f' u' ?_⟩
    exact (h p' f' u').mpr hp'
  · refine ⟨(h p f u).mpr hp.splits, fun p' f' u' hp' => hp.longest p' f' u' ?_⟩
    exact (h p' f' u').mp hp'

/-- Catalogues that agree about a name find the same for it. -/
theorem AgreesFor.find_eq (h : c.AgreesFor d x) : d.find x = c.find x := by
  have hwhole : d.prefixed? d.defined? x.toList = c.prefixed? c.defined? x.toList :=
    prefixed?_congr c.defined?_eq_some_iff d.defined?_eq_some_iff h.splits_defines_iff
  have hplural : d.prefixed? (singular? d.defined?) x.toList =
      c.prefixed? (singular? c.defined?) x.toList :=
    prefixed?_congr c.singular?_eq_some_iff d.singular?_eq_some_iff h.splits_definesPlural_iff
  have hsingular : singular? d.defined? x.toList = singular? c.defined? x.toList := by
    refine Option.ext fun u => ?_
    rw [singular?_eq_some_iff, singular?_eq_some_iff, String.ofList_toList]
    exact h.definesPlural_iff u
  rw [find, find, h.units x (.itself rfl), compose, compose, composition?, composition?, hwhole,
    hplural, hsingular, h.plurals]

/-! ### Definitions -/

/-- To define names that do not reach another one leaves all alone that its meaning depends on. -/
theorem agreesFor_define {names : List String} (u : UnitOfMeasure) {j : Journal}
    (h : ∀ n ∈ names, ¬ j.catalogue.Reaches n x) :
    j.catalogue.AgreesFor (define names u j).2.catalogue x where
  plurals := rfl
  prefixes _ _ _ := rfl
  units n hn := by
    have hnot : n ∉ names := fun hmem => h n hmem hn
    exact (Table.get?_putAll _ names u n).trans (if_neg hnot)

/-- Prefixes with which a name does not begin leave all alone that its meaning depends on. -/
theorem agreesFor_defineFactor {names : List String} (f : Rat) {j : Journal}
    (h : ∀ p ∈ names, ∀ rest, x ≠ p ++ rest) :
    j.catalogue.AgreesFor (defineFactor names f j).2.catalogue x where
  plurals := rfl
  prefixes p rest hx := by
    have hnot : p ∉ names := fun hmem => h p hmem rest hx
    exact (Table.get?_putAll _ names f p).trans (if_neg hnot)
  units _ _ := rfl

/-- **A definition only changes what it reaches**: in a catalogue after any row of operations, a
look-up has the same outcome before and after units are defined under names that do not reach its
own, and before and after a factor is defined for prefixes with which its name does not begin, or
whatever they are if its name is defined.  All other entries of the two tables stay. -/
theorem lookup_eq_of_not_reached (units : List (String × UnitOfMeasure))
    (factors : List (String × Rat)) (plurals : Bool) (operations : List Operation) :
    let j := Operation.run operations (ofDefinitions units factors plurals).start
    (∀ (names : List String) (u : UnitOfMeasure),
      let k := Operation.perform j (.define names u)
      (∀ x, (∀ n ∈ names, ¬ j.catalogue.Reaches n x) → (lookup x k).1 = (lookup x j).1) ∧
      (∀ n, n ∉ names → k.catalogue.units.get? n = j.catalogue.units.get? n) ∧
      k.catalogue.prefixes = j.catalogue.prefixes) ∧
    ∀ (names : List String) (factor : Outcome Rat),
      let k := Operation.perform j (.defineFactor names factor)
      (∀ x, (∀ p ∈ names, ∀ rest, x ≠ p ++ rest) ∨ (∃ u, j.catalogue.Defines x u) →
        (lookup x k).1 = (lookup x j).1) ∧
      (∀ p, p ∉ names → k.catalogue.prefixes.get? p = j.catalogue.prefixes.get? p) ∧
      k.catalogue.units = j.catalogue.units := by
  intro j
  have hj : j.catalogue.Sound := Operation.sound_run operations (sound_of_composed_empty rfl)
  have hlookup (op : Operation) (x : String)
      (h : (op.perform j).catalogue.find x = j.catalogue.find x) :
      (lookup x (op.perform j)).1 = (lookup x j).1 := by
    rw [lookup_eq_find hj, lookup_eq_find (op.sound_perform hj), h]
  refine ⟨fun names u => ⟨fun x hx => ?_, fun n hn => ?_, rfl⟩, fun names factor => ?_⟩
  · exact hlookup (.define names u) x (agreesFor_define u hx).find_eq
  · exact (Table.get?_putAll _ names u n).trans (if_neg hn)
  cases factor with
  | error e => exact ⟨fun _ _ => rfl, fun _ _ => rfl, rfl⟩
  | ok f =>
    refine ⟨fun x hx => hlookup (.defineFactor names (.ok f)) x ?_, fun p hp => ?_, rfl⟩
    · rcases hx with hx | ⟨u, hu⟩
      · exact (agreesFor_defineFactor f hx).find_eq
      · -- A defined name means its unit, whatever the prefixes are.
        have hbefore : j.catalogue.units.get? x = some u := hu
        have hafter : (defineFactor names f j).2.catalogue.units.get? x = some u := hu
        rw [Operation.perform, find, find, hbefore, hafter]
    · exact (Table.get?_putAll _ names f p).trans (if_neg hp)

/-- Grams do not reach kilometres, not even with an `s`, and a factor for `km` leaves alone the
name that is defined. -/
theorem lookup_eq_of_not_reached_plural :
    let j := Operation.run [.lookup "kms"]
      (ofDefinitions [("m", .one), ("kmh", .one)] [("k", 1000)] true).start
    let k := Operation.perform j (.define ["g", "kg", "s"] .one)
    let l := Operation.perform j (.defineFactor ["km", "mega"] (.ok 5))
    (lookup "kms" j).1.toOption.map UnitOfMeasure.scale = some 1000 ∧
    (lookup "kms" k).1 = (lookup "kms" j).1 ∧ (lookup "kmh" l).1 = (lookup "kmh" j).1 := by
  intro j k l
  obtain ⟨hdefine, hfactor⟩ := lookup_eq_of_not_reached [("m", .one), ("kmh", .one)]
    [("k", 1000)] true [.lookup "kms"]
  have hkmh : j.catalogue.units.get? "kmh" = some .one := by decide +kernel
  have hprefixes : j.catalogue.prefixes.keys = ["k"] := by decide +kernel
  refine ⟨by decide +kernel, (hdefine ["g", "kg", "s"] .one).1 "kms" fun n hn hreaches => ?_,
    (hfactor ["km", "mega"] (.ok 5)).1 "kmh" (.inr ⟨.one, hkmh⟩)⟩
  have honly (p : String) (f : Rat) (hp : j.catalogue.prefixes.get? p = some f) : p = "k" := by
    have hmem : p ∈ j.catalogue.prefixes.keys :=
      List.mem_map.mpr ⟨_, Table.get?_eq_some_iff.mp hp, rfl⟩
    rw [hprefixes] at hmem
    exact List.mem_singleton.mp hmem
  have hall : ∀ n ∈ ["g", "kg", "s"], "kms" ≠ n ∧ "kms" ≠ n ++ "s" ∧ "kms" ≠ "k" ++ n ∧
      "kms" ≠ "k" ++ (n ++ "s") := by
    decide +kernel
  obtain ⟨hitself, hplural, hmultiple, hmultiplePlural⟩ := hall n hn
  cases hreaches with
  | itself h => exact hitself h
  | plural h => exact hplural h
  | multiple hp h => exact hmultiple (honly _ _ hp ▸ h)
  | multiplePlural hp h => exact hmultiplePlural (honly _ _ hp ▸ h)

end Catalogue

end Metrology
