import Metrology.Proofs.Catalogue.Run
import Metrology.Proofs.Measurement.BaseValue

/-!
# What a name means

`Catalogue.Means` says what the outcome of looking a name up has to be, in terms of which names are
defined and which prefixes have factors, and of nothing else: a defined name means its unit; else
the longest prefix behind which a defined name stands counts; else, where plurals are open, the
name may be the plural of a defined one; else the longest prefix counts behind which the plural of
a defined name stands; and a name that is none of these is unknown.

The main result is `lookup_eq_iff_means`: whatever was done with a catalogue of which no prefix has
the factor zero, a look-up has that outcome, and it has the same one on every catalogue that gives
the same units and factors to names, in whatever order they were defined.

The search for a prefix goes through the lengths that a prefix can have, from the greatest down.
Two prefixes of one length never fit the same name, so that what is found first is the longest
(`prefixed?_eq_some_iff`).
-/

namespace Metrology

namespace Catalogue

/-! ### Ways to compose a name -/

/-- Whether a name is defined as a unit. -/
def Defines (c : Catalogue) (name : String) (u : UnitOfMeasure) : Prop := c.units.get? name = some u

/-- Whether a name is a defined name followed by an `s`. -/
def DefinesPlural (c : Catalogue) (name : String) (u : UnitOfMeasure) : Prop :=
  ∃ stem, stem ≠ "" ∧ name = stem ++ "s" ∧ c.Defines stem u

/-- Whether a prefix of the given factor is a proper initial part of a name, and what is left of
the name is `known` as the given unit. -/
def Splits (c : Catalogue) (known : String → UnitOfMeasure → Prop) (name p : String) (f : Rat)
    (u : UnitOfMeasure) : Prop :=
  c.prefixes.get? p = some f ∧ ∃ rest, rest ≠ "" ∧ name = p ++ rest ∧ known rest u

/-- Whether no longer prefix splits the name. -/
structure SplitsLongest (c : Catalogue) (known : String → UnitOfMeasure → Prop) (name p : String)
    (f : Rat) (u : UnitOfMeasure) : Prop where
  splits : c.Splits known name p f u
  longest : ∀ p' f' u', c.Splits known name p' f' u' → p'.length ≤ p.length

/-- Whether a name that is not defined is composed of a factor and a unit: of the longest prefix
before a defined name, or else of the longest prefix before the plural of a defined name. -/
inductive Composes (c : Catalogue) (name : String) (f : Rat) (u : UnitOfMeasure) : Prop
  | singular {p : String} (undefined : ¬ ∃ v, c.Defines name v)
    (splits : c.SplitsLongest c.Defines name p f u) : Composes c name f u
  | plural {p : String} (undefined : ¬ ∃ v, c.Defines name v)
    (whole : ¬ ∃ p f v, c.Splits c.Defines name p f v) (plurals : c.plurals = true)
    (noPlural : ¬ ∃ v, c.DefinesPlural name v)
    (splits : c.SplitsLongest c.DefinesPlural name p f u) : Composes c name f u

/-- What the outcome of looking a name up has to be. -/
inductive Means (c : Catalogue) (name : String) : Outcome UnitOfMeasure → Prop
  | defined {u : UnitOfMeasure} (h : c.Defines name u) : Means c name (.ok u)
  | composed {f : Rat} {u v : UnitOfMeasure} (h : c.Composes name f u) (hname : v.name = name)
    (hdim : v.dim = u.dim) (hscale : v.scale = f * u.scale) : Means c name (.ok v)
  | plural {u : UnitOfMeasure} (undefined : ¬ ∃ v, c.Defines name v)
    (whole : ¬ ∃ p f v, c.Splits c.Defines name p f v) (plurals : c.plurals = true)
    (h : c.DefinesPlural name u) : Means c name (.ok u)
  | unknown (undefined : ¬ ∃ v, c.Defines name v)
    (whole : ¬ ∃ p f v, c.Splits c.Defines name p f v)
    (noPlural : c.plurals = true →
      (¬ ∃ v, c.DefinesPlural name v) ∧ ¬ ∃ p f v, c.Splits c.DefinesPlural name p f v) :
    Means c name (.error (.unknownUnit name))

/-! ### The search for the longest prefix -/

/-- What is found first among the numbers below a bound, from the greatest down, is found at the
greatest of those at which something is found. -/
theorem findSome?_reverse_range_eq_some_iff {α : Type} (g : Nat → Option α) (bound : Nat) (x : α) :
    (List.range bound).reverse.findSome? g = some x ↔
      ∃ n < bound, g n = some x ∧ ∀ m, n < m → m < bound → g m = none := by
  induction bound with
  | zero => simp
  | succ bound ih =>
    rw [List.range_succ, List.reverse_append, List.reverse_singleton, List.singleton_append,
      List.findSome?_cons]
    cases hg : g bound with
    | some y =>
      constructor
      · intro h
        cases h
        exact ⟨bound, Nat.lt_succ_self bound, hg, fun m hm hm' => by omega⟩
      · rintro ⟨n, hn, hx, hnone⟩
        by_cases h : n = bound
        · rw [← hx, h, hg]
        · cases (hnone bound (by omega) (Nat.lt_succ_self bound)).symm.trans hg
    | none =>
      refine ih.trans ⟨?_, ?_⟩
      · rintro ⟨n, hn, hx, hnone⟩
        refine ⟨n, by omega, hx, fun m hm hm' => ?_⟩
        by_cases h : m = bound
        · rw [h, hg]
        · exact hnone m hm (by omega)
      · rintro ⟨n, hn, hx, hnone⟩
        have hne : n ≠ bound := by
          rintro rfl
          cases hx.symm.trans hg
        exact ⟨n, by omega, hx, fun m hm hm' => hnone m hm (by omega)⟩

theorem le_foldl_max (names : List String) (n : Nat) :
    n ≤ names.foldl (fun n name => max n name.length) n ∧
      ∀ name ∈ names, name.length ≤ names.foldl (fun n name => max n name.length) n := by
  induction names generalizing n with
  | nil => exact ⟨le_refl n, fun _ h => nomatch h⟩
  | cons first rest ih =>
    obtain ⟨hstart, hall⟩ := ih (max n first.length)
    rw [List.foldl_cons]
    refine ⟨by omega, fun name hname => ?_⟩
    rcases List.mem_cons.mp hname with rfl | hname
    · omega
    · exact hall name hname

/-- No prefix is longer than the reach of the catalogue. -/
theorem length_le_reach {c : Catalogue} {p : String} {f : Rat} (h : c.prefixes.get? p = some f) :
    p.length ≤ c.reach := by
  have hmem : p ∈ c.prefixes.keys := List.mem_map_of_mem (Table.get?_eq_some_iff.mp h)
  exact (le_foldl_max c.prefixes.keys 0).2 p hmem

variable {c : Catalogue} {base : List Char → Option UnitOfMeasure}
  {known : String → UnitOfMeasure → Prop} {name p : String} {f : Rat} {u : UnitOfMeasure}

/-- What is found at a length is the prefix of that length that splits the name, if there is one. -/
theorem prefixedAt?_eq_some_iff (hbase : ∀ cs u, base cs = some u ↔ known (String.ofList cs) u)
    (n : Nat) :
    c.prefixedAt? base name.toList n = some (f, u) ↔
      ∃ p, p.length = n ∧ c.Splits known name p f u := by
  constructor
  · intro h
    unfold prefixedAt? at h
    split_ifs at h with hn
    cases hf : c.prefixes.get? (String.ofList (name.toList.take n)) with
    | none =>
      rw [hf] at h
      cases h
    | some f' =>
      rw [hf, Option.map_eq_some_iff] at h
      obtain ⟨u', hu, hpair⟩ := h
      cases hpair
      refine ⟨_, ?_, hf, String.ofList (name.toList.drop n), ?_, ?_, (hbase _ _).mp hu⟩
      · rw [← String.length_toList, String.toList_ofList, List.length_take]
        omega
      · intro hnil
        rw [← String.toList_eq_nil_iff, String.toList_ofList, List.drop_eq_nil_iff] at hnil
        omega
      · rw [← String.ofList_append, List.take_append_drop, String.ofList_toList]
  · rintro ⟨p, rfl, hf, rest, hrest, rfl, hu⟩
    have hpos : 0 < rest.toList.length := by
      rw [List.length_pos_iff]
      exact fun hnil => hrest (String.toList_eq_nil_iff.mp hnil)
    have hlen : p.length < (p ++ rest).toList.length := by
      rw [String.toList_append, List.length_append, String.length_toList]
      omega
    have htake : (p ++ rest).toList.take p.length = p.toList := by
      rw [String.toList_append, ← String.length_toList, List.take_left]
    have hdrop : (p ++ rest).toList.drop p.length = rest.toList := by
      rw [String.toList_append, ← String.length_toList, List.drop_left]
    have hknown : base rest.toList = some u := (hbase _ _).mpr (by rwa [String.ofList_toList])
    rw [prefixedAt?, if_pos hlen, htake, hdrop, String.ofList_toList, hf, hknown]
    rfl

theorem prefixed?_eq_some_iff (hbase : ∀ cs u, base cs = some u ↔ known (String.ofList cs) u) :
    c.prefixed? base name.toList = some (f, u) ↔ ∃ p, c.SplitsLongest known name p f u := by
  rw [prefixed?, findSome?_reverse_range_eq_some_iff]
  constructor
  · rintro ⟨n, hn, hfound, hnone⟩
    obtain ⟨p, rfl, hp⟩ := (prefixedAt?_eq_some_iff hbase n).mp hfound
    refine ⟨p, hp, fun p' f' u' hp' => ?_⟩
    have hreach := length_le_reach hp'.1
    by_contra hlt
    have hfound' := (prefixedAt?_eq_some_iff hbase p'.length).mpr ⟨p', rfl, hp'⟩
    cases (hnone p'.length (by omega) (by omega)).symm.trans hfound'
  · rintro ⟨p, hp, hlongest⟩
    have hreach := length_le_reach hp.1
    refine ⟨p.length, by omega, (prefixedAt?_eq_some_iff hbase _).mpr ⟨p, rfl, hp⟩, ?_⟩
    intro m hm _
    rw [Option.eq_none_iff_forall_ne_some]
    rintro ⟨f', u'⟩ hfound
    obtain ⟨p', rfl, hp'⟩ := (prefixedAt?_eq_some_iff hbase m).mp hfound
    have := hlongest p' f' u' hp'
    omega

theorem prefixed?_eq_none_iff (hbase : ∀ cs u, base cs = some u ↔ known (String.ofList cs) u) :
    c.prefixed? base name.toList = none ↔ ¬ ∃ p f u, c.Splits known name p f u := by
  rw [prefixed?, List.findSome?_eq_none_iff]
  constructor
  · rintro hnone ⟨p, f, u, hp⟩
    have hreach := length_le_reach hp.1
    have hmem : p.length ∈ (List.range (c.reach + 1)).reverse := by
      rw [List.mem_reverse, List.mem_range]
      omega
    have hfound := (prefixedAt?_eq_some_iff hbase p.length).mpr ⟨p, rfl, hp⟩
    cases (hnone _ hmem).symm.trans hfound
  · intro hnone n _
    rw [Option.eq_none_iff_forall_ne_some]
    rintro ⟨f', u'⟩ hfound
    obtain ⟨p, -, hp⟩ := (prefixedAt?_eq_some_iff hbase n).mp hfound
    exact hnone ⟨p, f', u', hp⟩

/-! ### What is found for a name -/

theorem defined?_eq_some_iff (c : Catalogue) (cs : List Char) (u : UnitOfMeasure) :
    c.defined? cs = some u ↔ c.Defines (String.ofList cs) u := Iff.rfl

theorem singular?_eq_some_iff (c : Catalogue) (cs : List Char) (u : UnitOfMeasure) :
    singular? c.defined? cs = some u ↔ c.DefinesPlural (String.ofList cs) u := by
  unfold singular?
  constructor
  · intro h
    split_ifs at h with hs
    obtain ⟨hlen, hlast⟩ := hs
    obtain ⟨stem, rfl⟩ := List.getLast?_eq_some_iff.mp hlast
    rw [List.dropLast_concat] at h
    refine ⟨String.ofList stem, ?_, String.ofList_append, h⟩
    intro hnil
    rw [← String.toList_eq_nil_iff, String.toList_ofList] at hnil
    rw [hnil, List.nil_append, List.length_singleton] at hlen
    omega
  · rintro ⟨stem, hstem, hcs, hu⟩
    have hlist : cs = stem.toList ++ ['s'] := by
      rw [← String.toList_ofList (l := cs), hcs, String.toList_append]
      rfl
    have hpos : 0 < stem.toList.length := by
      rw [List.length_pos_iff]
      exact fun hnil => hstem (String.toList_eq_nil_iff.mp hnil)
    rw [hlist, if_pos, List.dropLast_concat, defined?_eq_some_iff, String.ofList_toList]
    · exact hu
    · rw [List.length_append, List.getLast?_concat]
      exact ⟨by rw [List.length_singleton]; omega, rfl⟩

theorem singular?_eq_none_iff (c : Catalogue) (name : String) :
    singular? c.defined? name.toList = none ↔ ¬ ∃ u, c.DefinesPlural name u := by
  rw [Option.eq_none_iff_forall_ne_some]
  constructor
  · rintro h ⟨u, hu⟩
    exact h u ((singular?_eq_some_iff c _ u).mpr (by rwa [String.ofList_toList]))
  · intro h u hu
    have hplural := (singular?_eq_some_iff c _ u).mp hu
    rw [String.ofList_toList] at hplural
    exact h ⟨u, hplural⟩

theorem find_of_undefined (h : ¬ ∃ v, c.Defines name v) : c.find name = c.compose name := by
  have hnone : c.units.get? name = none := by
    rw [Option.eq_none_iff_forall_ne_some]
    exact fun u hu => h ⟨u, hu⟩
  rw [find, hnone]

theorem find_of_composes (h : c.Composes name f u) : c.find name = multiple name f u := by
  cases h with
  | singular undefined splits =>
    have hprefixed := (prefixed?_eq_some_iff c.defined?_eq_some_iff).mpr ⟨_, splits⟩
    rw [find_of_undefined undefined, compose, composition?, hprefixed]
  | plural undefined whole plurals noPlural splits =>
    have hwhole := (prefixed?_eq_none_iff c.defined?_eq_some_iff).mpr whole
    have hsingular := (singular?_eq_none_iff c name).mpr noPlural
    have hprefixed := (prefixed?_eq_some_iff c.singular?_eq_some_iff).mpr ⟨_, splits⟩
    rw [find_of_undefined undefined, compose, composition?, hwhole]
    simp only [plurals, if_true, hsingular, hprefixed, Option.map_some]

theorem find_of_plural (undefined : ¬ ∃ v, c.Defines name v)
    (whole : ¬ ∃ p f v, c.Splits c.Defines name p f v) (plurals : c.plurals = true)
    (h : c.DefinesPlural name u) : c.find name = .ok u := by
  have hwhole := (prefixed?_eq_none_iff c.defined?_eq_some_iff).mpr whole
  have hsingular := (singular?_eq_some_iff c name.toList u).mpr (by rwa [String.ofList_toList])
  rw [find_of_undefined undefined, compose, composition?, hwhole]
  simp only [plurals, if_true, hsingular]

theorem find_of_unknown (undefined : ¬ ∃ v, c.Defines name v)
    (whole : ¬ ∃ p f v, c.Splits c.Defines name p f v)
    (noPlural : c.plurals = true →
      (¬ ∃ v, c.DefinesPlural name v) ∧ ¬ ∃ p f v, c.Splits c.DefinesPlural name p f v) :
    c.find name = .error (.unknownUnit name) := by
  have hwhole := (prefixed?_eq_none_iff c.defined?_eq_some_iff).mpr whole
  rw [find_of_undefined undefined, compose, composition?, hwhole]
  cases hplurals : c.plurals with
  | false => rfl
  | true =>
    have hsingular := (singular?_eq_none_iff c name).mpr (noPlural hplurals).1
    have hprefixed := (prefixed?_eq_none_iff c.singular?_eq_some_iff).mpr (noPlural hplurals).2
    simp only [if_true, hsingular, hprefixed, Option.map_none]

theorem multiple_of_ne_zero (name : String) (hf : f ≠ 0) (u : UnitOfMeasure) :
    ∃ v, multiple name f u = .ok v ∧ v.name = name ∧ v.dim = u.dim ∧ v.scale = f * u.scale := by
  obtain ⟨v, hv, hscale, hdim⟩ := u.scaled_eq_ok hf
  refine ⟨v.renamed name, ?_, rfl, hdim, hscale⟩
  rw [multiple, hv]
  rfl

theorem multiple_zero (name : String) (u : UnitOfMeasure) :
    multiple name 0 u = .error .zeroScale := by
  rw [multiple, u.scaled_zero]
  rfl

/-! ### Every name has its meaning -/

/-- What a name means is found for it. -/
theorem Means.find_eq {x : Outcome UnitOfMeasure} (h : c.Means name x) : c.find name = x := by
  cases h with
  | defined h =>
    have hget : c.units.get? name = some _ := h
    rw [find, hget]
  | @composed f u v h hname hdim hscale =>
    -- The scale of the composed unit is not zero, so neither is the factor.
    have hf : f ≠ 0 := by
      rintro rfl
      exact v.scale_ne_zero (by rw [hscale, Rat.zero_mul])
    obtain ⟨w, hw, hwname, hwdim, hwscale⟩ := multiple_of_ne_zero name hf u
    have hvw : v = w := by
      cases v
      cases w
      simp_all
    rw [find_of_composes h, hw, hvw]
  | plural undefined whole plurals h => exact find_of_plural undefined whole plurals h
  | unknown undefined whole noPlural => exact find_of_unknown undefined whole noPlural

/-- Of the prefixes that split a name one is the longest. -/
theorem exists_splitsLongest (hbase : ∀ cs u, base cs = some u ↔ known (String.ofList cs) u)
    (h : ∃ p f u, c.Splits known name p f u) : ∃ p f u, c.SplitsLongest known name p f u := by
  cases hfound : c.prefixed? base name.toList with
  | none => exact absurd h ((prefixed?_eq_none_iff hbase).mp hfound)
  | some x =>
    obtain ⟨f, u⟩ := x
    obtain ⟨p, hp⟩ := (prefixed?_eq_some_iff hbase).mp hfound
    exact ⟨p, f, u, hp⟩

/-- What is composed has a meaning, unless its factor is zero. -/
theorem Composes.exists_means (h : c.Composes name f u) :
    (∃ x, c.Means name x) ∨ ∃ u, c.Composes name 0 u := by
  by_cases hf : f = 0
  · exact .inr ⟨u, hf ▸ h⟩
  · obtain ⟨v, -, hname, hdim, hscale⟩ := multiple_of_ne_zero name hf u
    exact .inl ⟨.ok v, .composed h hname hdim hscale⟩

/-- A name has a meaning, or it would be composed of a prefix of the factor zero. -/
theorem exists_means_or_composes_zero (c : Catalogue) (name : String) :
    (∃ x, c.Means name x) ∨ ∃ u, c.Composes name 0 u := by
  by_cases hdefined : ∃ v, c.Defines name v
  · obtain ⟨v, hv⟩ := hdefined
    exact .inl ⟨_, .defined hv⟩
  by_cases hwhole : ∃ p f v, c.Splits c.Defines name p f v
  · obtain ⟨p, f, v, hp⟩ := exists_splitsLongest c.defined?_eq_some_iff hwhole
    exact (Composes.singular hdefined hp).exists_means
  by_cases hplurals : c.plurals = true
  · by_cases hplural : ∃ v, c.DefinesPlural name v
    · obtain ⟨v, hv⟩ := hplural
      exact .inl ⟨_, .plural hdefined hwhole hplurals hv⟩
    by_cases hsplits : ∃ p f v, c.Splits c.DefinesPlural name p f v
    · obtain ⟨p, f, v, hp⟩ := exists_splitsLongest c.singular?_eq_some_iff hsplits
      exact (Composes.plural hdefined hwhole hplurals hplural hp).exists_means
    · exact .inl ⟨_, .unknown hdefined hwhole fun _ => ⟨hplural, hsplits⟩⟩
  · exact .inl ⟨_, .unknown hdefined hwhole fun h => absurd h hplurals⟩

/-- What is composed takes its factor from a prefix. -/
theorem Composes.exists_factor (h : c.Composes name f u) :
    ∃ p, c.prefixes.get? p = some f := by
  cases h with
  | singular _ splits => exact ⟨_, splits.splits.1⟩
  | plural _ _ _ _ splits => exact ⟨_, splits.splits.1⟩

/-- Where no prefix has the factor zero, what is found for a name is what it means. -/
theorem find_eq_iff_means (h : ∀ p f, c.prefixes.get? p = some f → f ≠ 0) (name : String)
    (x : Outcome UnitOfMeasure) : c.find name = x ↔ c.Means name x := by
  refine ⟨?_, Means.find_eq⟩
  rintro rfl
  obtain ⟨x, hx⟩ | ⟨u, hu⟩ := exists_means_or_composes_zero c name
  · rw [hx.find_eq]
    exact hx
  · obtain ⟨p, hp⟩ := hu.exists_factor
    exact absurd rfl (h p 0 hp)

/-! ### Tables that agree -/

/-- Whether two catalogues give the same units and factors to names and are open to plurals
alike. -/
structure GivesSame (c d : Catalogue) : Prop where
  units : ∀ name, d.units.get? name = c.units.get? name
  prefixes : ∀ p, d.prefixes.get? p = c.prefixes.get? p
  plurals : d.plurals = c.plurals

namespace GivesSame

variable {d : Catalogue}

theorem symm (h : c.GivesSame d) : d.GivesSame c :=
  ⟨fun name => (h.units name).symm, fun p => (h.prefixes p).symm, h.plurals.symm⟩

theorem defines_eq (h : c.GivesSame d) : d.Defines = c.Defines := by
  funext name u
  rw [Defines, Defines, h.units]

theorem definesPlural_eq (h : c.GivesSame d) : d.DefinesPlural = c.DefinesPlural := by
  funext name u
  rw [DefinesPlural, DefinesPlural, h.defines_eq]

theorem splits_eq (h : c.GivesSame d) : d.Splits = c.Splits := by
  funext known name p f u
  rw [Splits, Splits, h.prefixes]

theorem splitsLongest (h : c.GivesSame d) (hp : c.SplitsLongest known name p f u) :
    d.SplitsLongest known name p f u := by
  refine ⟨by rw [h.splits_eq]; exact hp.splits, fun p' f' u' hp' => hp.longest p' f' u' ?_⟩
  rwa [h.splits_eq] at hp'

theorem composes (h : c.GivesSame d) (hu : c.Composes name f u) : d.Composes name f u := by
  cases hu with
  | singular undefined splits =>
    have hsplits := h.splitsLongest splits
    rw [← h.defines_eq] at undefined hsplits
    exact .singular undefined hsplits
  | plural undefined whole plurals noPlural splits =>
    have hsplits := h.splitsLongest splits
    rw [← h.definesPlural_eq] at noPlural hsplits
    rw [← h.defines_eq] at undefined
    rw [← h.splits_eq, ← h.defines_eq] at whole
    exact .plural undefined whole (h.plurals.trans plurals) noPlural hsplits

theorem means {x : Outcome UnitOfMeasure} (h : c.GivesSame d) (hx : c.Means name x) :
    d.Means name x := by
  cases hx with
  | defined hu =>
    rw [← h.defines_eq] at hu
    exact .defined hu
  | composed hu hname hdim hscale => exact .composed (h.composes hu) hname hdim hscale
  | plural undefined whole plurals hu =>
    rw [← h.defines_eq] at undefined
    rw [← h.splits_eq, ← h.defines_eq] at whole
    rw [← h.definesPlural_eq] at hu
    exact .plural undefined whole (h.plurals.trans plurals) hu
  | unknown undefined whole noPlural =>
    rw [← h.defines_eq] at undefined
    rw [← h.splits_eq, ← h.defines_eq] at whole
    rw [← h.splits_eq, ← h.definesPlural_eq, ← h.plurals] at noPlural
    exact .unknown undefined whole noPlural

end GivesSame

/-- **A look-up gives what the name means**: whatever was done with a catalogue of which no prefix
has the factor zero, looking a name up has the outcome that the tables give it, and it has the same
outcome on every other catalogue with the same units and factors, in whatever order and by whatever
operations these were defined. -/
theorem lookup_eq_iff_means (units : List (String × UnitOfMeasure))
    (factors : List (String × Rat)) (plurals : Bool) (operations : List Operation) :
    let j := Operation.run operations (ofDefinitions units factors plurals).start
    (∀ p f, j.catalogue.prefixes.get? p = some f → f ≠ 0) →
    (∀ name x, (lookup name j).1 = x ↔ j.catalogue.Means name x) ∧
    ∀ (units' : List (String × UnitOfMeasure)) (factors' : List (String × Rat))
      (operations' : List Operation),
      let k := Operation.run operations' (ofDefinitions units' factors' plurals).start
      (∀ name, k.catalogue.units.get? name = j.catalogue.units.get? name) →
      (∀ p, k.catalogue.prefixes.get? p = j.catalogue.prefixes.get? p) →
      ∀ name, (lookup name k).1 = (lookup name j).1 := by
  intro j hne
  have hj : j.catalogue.Sound := Operation.sound_run operations (sound_of_composed_empty rfl)
  have hmeans (name : String) (x : Outcome UnitOfMeasure) :
      (lookup name j).1 = x ↔ j.catalogue.Means name x := by
    rw [lookup_eq_find hj]
    exact find_eq_iff_means hne name x
  refine ⟨hmeans, ?_⟩
  intro units' factors' operations' k hunits hprefixes name
  have hk : k.catalogue.Sound := Operation.sound_run operations' (sound_of_composed_empty rfl)
  have hplurals : k.catalogue.plurals = j.catalogue.plurals := by
    rw [Operation.plurals_run, Operation.plurals_run]
    rfl
  have hsame : j.catalogue.GivesSame k.catalogue := ⟨hunits, hprefixes, hplurals⟩
  rw [lookup_eq_find hk]
  exact (hsame.means ((hmeans name _).mp rfl)).find_eq

/-- Two prefixes fit the name, of which the longer one counts, and the order of definition does
not. -/
theorem lookup_eq_iff_means_longest :
    let j := (ofDefinitions [("m", .one), ("ilom", .one)] [("k", 10), ("kilo", 1000)] true).start
    let k := (ofDefinitions [("ilom", .one), ("m", .one)] [("kilo", 1000), ("k", 10)] true).start
    (lookup "kilom" j).1.toOption.map UnitOfMeasure.scale = some 1000 ∧
    (∀ name x, (lookup name j).1 = x ↔ j.catalogue.Means name x) ∧
    ∀ name, (lookup name k).1 = (lookup name j).1 := by
  intro j k
  have hunits : k.catalogue.units.entries.Perm j.catalogue.units.entries := by decide +kernel
  have hfactors : k.catalogue.prefixes.entries.Perm j.catalogue.prefixes.entries := by
    decide +kernel
  have hall : ∀ e ∈ j.catalogue.prefixes.entries, e.2 ≠ 0 := by decide +kernel
  have hne (p : String) (f : Rat) (h : j.catalogue.prefixes.get? p = some f) : f ≠ 0 :=
    hall (p, f) (Table.get?_eq_some_iff.mp h)
  obtain ⟨hmeans, horder⟩ := lookup_eq_iff_means [("m", .one), ("ilom", .one)]
    [("k", 10), ("kilo", 1000)] true [] hne
  refine ⟨by decide +kernel, hmeans, ?_⟩
  exact horder [("ilom", .one), ("m", .one)] [("kilo", 1000), ("k", 10)] []
    (Table.get?_eq_of_perm hunits) (Table.get?_eq_of_perm hfactors)

end Catalogue

end Metrology
