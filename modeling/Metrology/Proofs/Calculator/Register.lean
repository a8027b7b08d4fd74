import Metrology.Calculator.Register
import Metrology.Catalogue.Activity
import Metrology.Proofs.Catalogue.Order
import Metrology.Proofs.Table.Definitions

/-!
# Registers of catalogues

A register that has the definitions of a catalogue does what the catalogue does.  Its entries are
those of the tables of the catalogue (`Value.entriesOf`), so that it finds the same values and
changes in the same way (`valueAt?_entriesOf`, `withEntry_entriesOf`), and it goes through the same
prefixes in the same order (`prefixed?_ofCatalogue`).

The main results are `lookup_ofCatalogue`, `factor_ofCatalogue` and, for the definitions,
`define_ofCatalogue`, `defineFactor_ofCatalogue` and `nameQuantity_ofCatalogue`.  A name that is no
text is composed of nothing, so that looking one up changes no register (`lookup_of_notText`).
-/

namespace Metrology.Calculator

namespace Value

/-! ### Entries of tables -/

variable {κ α : Type} [DecidableEq κ] {key : κ → Value} {value : α → Value}

/-- The entries of a table, its keys and values taken as values of a calculation. -/
def entriesOf (key : κ → Value) (value : α → Value) (t : Table κ α) : List (Value × Value) :=
  t.entries.map fun e => (key e.1, value e.2)

/-- Values of a calculation are equal only if what they are made of is. -/
def KeepsApart (key : κ → Value) : Prop := ∀ a b, (key a).equal (key b) = true ↔ a = b

theorem keepsApart_text : KeepsApart text := fun a b => by rw [equal, decide_eq_true_eq]

theorem keepsApart_dimension : KeepsApart dimension := fun a b => by rw [equal, decide_eq_true_eq]

theorem valueAt?_entriesOf (hkey : KeepsApart key) (t : Table κ α) (k : κ) :
    valueAt? (entriesOf key value t) (key k) = (t.get? k).map value := by
  obtain ⟨entries, hn⟩ := t
  show valueAt? (entries.map _) _ = (Table.find k entries).map value
  clear hn
  rw [valueAt?]
  induction entries with
  | nil => rfl
  | cons e rest ih =>
    rw [List.map_cons, List.find?_cons, Table.find]
    by_cases hk : e.1 = k
    · rw [if_pos hk, (hkey _ _).mpr hk]
      rfl
    · rw [if_neg hk, Bool.eq_false_iff.mpr (mt (hkey _ _).mp hk)]
      exact ih

/-- A key that is there has its value replaced where it stands. -/
theorem map_replace_eq_putEntry {k : κ} {v : α} {entries : List (κ × α)}
    (hn : (entries.map Prod.fst).Nodup) (hk : k ∈ entries.map Prod.fst) :
    entries.map (fun e => if e.1 = k then (e.1, v) else e) = Table.putEntry k v entries := by
  induction entries with
  | nil => cases hk
  | cons e rest ih =>
    obtain ⟨k', v'⟩ := e
    rw [List.map_cons, List.nodup_cons] at hn
    rw [List.map_cons, Table.putEntry]
    by_cases heq : k' = k
    · subst heq
      -- No entry behind this one has the key.
      have hrest : rest.map (fun e => if e.1 = k' then (e.1, v) else e) = rest.map id :=
        List.map_congr_left fun e he =>
          if_neg fun h => hn.1 (List.mem_map.mpr ⟨e, he, h⟩)
      rw [if_pos rfl, if_pos rfl, hrest, List.map_id]
    · rw [if_neg heq, if_neg heq, ih hn.2 ((List.mem_cons.mp hk).resolve_left (Ne.symm heq))]

theorem withEntry_entriesOf (hkey : KeepsApart key) (t : Table κ α) (k : κ) (v : α) :
    withEntry (entriesOf key value t) (key k) (value v) = entriesOf key value (t.put k v) := by
  obtain ⟨entries, hn⟩ := t
  show withEntry (entries.map _) _ _ = (Table.putEntry k v entries).map _
  have hany : ((entries.map fun e => (key e.1, value e.2)).any fun e => e.1.equal (key k)) = true ↔
      k ∈ entries.map Prod.fst := by
    rw [List.any_map, List.any_eq_true, List.mem_map]
    exact exists_congr fun e => and_congr_right fun _ => hkey _ _
  rw [withEntry]
  by_cases hk : k ∈ entries.map Prod.fst
  · rw [if_pos (hany.mpr hk), ← map_replace_eq_putEntry hn hk, List.map_map, List.map_map]
    refine List.map_congr_left fun e _ => ?_
    by_cases heq : e.1 = k
    · exact (if_pos ((hkey _ _).mpr heq)).trans (by rw [Function.comp_apply, if_pos heq])
    · exact (if_neg (mt (hkey _ _).mp heq)).trans (by rw [Function.comp_apply, if_neg heq])
  · rw [if_neg (mt hany.mp hk), Table.putEntry_of_notMem v hk, List.map_append]
    rfl

end Value

namespace Register

open Value

variable {c : Catalogue} {name : String}

theorem units_ofCatalogue (c : Catalogue) :
    (ofCatalogue c).units = entriesOf text unit c.units := rfl

theorem names_ofCatalogue (c : Catalogue) :
    (ofCatalogue c).units.map Prod.fst = c.units.keys.map text := by
  rw [units_ofCatalogue, entriesOf, Table.keys, List.map_map, List.map_map]
  rfl

theorem prefixes_ofCatalogue (c : Catalogue) :
    (ofCatalogue c).prefixes = entriesOf text rational c.prefixes := rfl

theorem quantities_ofCatalogue (c : Catalogue) :
    (ofCatalogue c).quantities = entriesOf dimension text c.quantities := rfl

theorem composed_ofCatalogue (c : Catalogue) :
    (ofCatalogue c).composed = entriesOf text unit c.composed := rfl

/-! ### What a name means -/

theorem defined?_ofCatalogue (c : Catalogue) (name : String) :
    (ofCatalogue c).defined? (text name) = (c.units.get? name).map unit := by
  rw [defined?, units_ofCatalogue, valueAt?_entriesOf keepsApart_text]
  cases c.units.get? name with
  | none => rfl
  | some u => rfl

/-- What the name stands for of which a text is a plural, as a value. -/
theorem singular?_map {α β : Type} (f : α → β) (base : List Char → Option α) (cs : List Char) :
    Catalogue.singular? (fun cs => (base cs).map f) cs = (Catalogue.singular? base cs).map f := by
  rw [Catalogue.singular?, Catalogue.singular?]
  split_ifs
  · rfl
  · rfl

theorem singular?_ofCatalogue (c : Catalogue) (cs : List Char) :
    (ofCatalogue c).singular? cs = (Catalogue.singular? c.defined? cs).map unit := by
  rw [singular?, ← singular?_map]
  exact congrArg (Catalogue.singular? · cs) (funext fun cs => defined?_ofCatalogue c _)

theorem size?_text (s : String) : (text s).size? = some s.length := by
  rw [size?, items, ← String.length_toList]
  exact congrArg some (List.length_map _)

/-- A name is a text that begins with a prefix, of which something is left. -/
theorem restBehind?_text (p name : String) :
    restBehind? (text p) (text name) =
      .ok (if p.length < name.length then Text.dropMarker p.toList name.toList else none) := by
  rw [restBehind?, size?_text, size?_text]
  by_cases h : name.length ≤ p.length
  · rw [if_neg (not_lt.mpr h)]
    exact if_pos h
  · rw [if_pos (not_le.mp h)]
    exact if_neg h

theorem multiple_unit (name : String) (f : Rat) (u : UnitOfMeasure) :
    multiple (text name) f (unit u) = unit <$> Catalogue.multiple name f u := by
  show (unit <$> u.scaled f >>= fun v => Except.ok (v.relabelled (text name))) = _
  rw [Catalogue.multiple]
  cases u.scaled f with
  | error e => rfl
  | ok v => rfl

theorem prefixedBy?_of_get? {α : Type} {base : List Char → Option α} {cs : List Char} {p : String}
    {f : Rat} (h : c.prefixes.get? p = some f) :
    c.prefixedBy? base cs p =
      ((if p.length < cs.length then Text.dropMarker p.toList cs else none).bind base).map
        fun b => (f, b) := by
  rw [Catalogue.prefixedBy?, h]
  split_ifs
  · cases Text.dropMarker p.toList cs with
    | none => rfl
    | some rest => exact Option.map_eq_bind.symm
  · rfl

/-- What a name stands for that is composed of another in the given way, as a value. -/
def ofComposition? (name : String) :
    Option (Catalogue.Composition UnitOfMeasure) → Outcome (Option Value)
  | some (.multiple f u) => (fun v => some (unit v)) <$> Catalogue.multiple name f u
  | some (.plural u) => .ok (some (unit u))
  | none => .ok none

/-- The prefixes of a catalogue are gone through until there is one behind which `base` knows the
rest. -/
theorem prefixed?_ofCatalogue (c : Catalogue) (base : List Char → Option UnitOfMeasure)
    (name : String) {prefixes : List String} (h : ∀ p ∈ prefixes, p ∈ c.prefixes.keys) :
    (ofCatalogue c).prefixed? (fun cs => (base cs).map unit) (text name) (prefixes.map text) =
      ofComposition? name ((prefixes.findSome? (c.prefixedBy? base name.toList)).map
        fun (f, u) => .multiple f u) := by
  induction prefixes with
  | nil => rfl
  | cons p rest ih =>
    obtain ⟨e, he, rfl⟩ := List.mem_map.mp (h p List.mem_cons_self)
    have hfactor : c.prefixes.get? e.1 = some e.2 := Table.get?_eq_some_iff.mpr he
    have hvalue : valueAt? (ofCatalogue c).prefixes (text e.1) = some (rational e.2) := by
      rw [prefixes_ofCatalogue, valueAt?_entriesOf keepsApart_text, hfactor]
      rfl
    rw [List.map_cons, prefixed?, restBehind?_text, List.findSome?_cons,
      prefixedBy?_of_get? hfactor, String.length_toList]
    -- What is left of the name behind the prefix counts for both.
    generalize (if e.1.length < name.length then _ else none : Option (List Char)) = left
    have hbind : (left.bind fun cs => (base cs).map unit) = (left.bind base).map unit :=
      Option.map_bind.symm
    rw [Outcome.ok_bind, hbind]
    cases left.bind base with
    | none => exact ih fun p hp => h p (List.mem_cons_of_mem _ hp)
    | some u =>
      dsimp only [Option.map_some]
      rw [hvalue]
      show some <$> multiple (text name) e.2 (unit u) = _
      rw [multiple_unit]
      exact (comp_map unit some (Catalogue.multiple name e.2 u)).symm

theorem order_walk_ofCatalogue (c : Catalogue) (base : List Char → Option UnitOfMeasure)
    (name : String) :
    (ofCatalogue c).prefixed? (fun cs => (base cs).map unit) (text name) (ofCatalogue c).order =
      ofComposition? name ((c.prefixed? base name.toList).map fun (f, u) => .multiple f u) := by
  have hbase (cs : List Char) (u : UnitOfMeasure) :
      base cs = some u ↔ base (String.ofList cs).toList = some u := by rw [String.toList_ofList]
  rw [@Catalogue.prefixed?_eq_walk c base (fun s u => base s.toList = some u) name hbase]
  exact prefixed?_ofCatalogue c base name fun p hp => List.mem_mergeSort.mp hp

/-- A name is composed by a register as it is by the catalogue. -/
theorem compose?_ofCatalogue (c : Catalogue) (name : String) :
    (ofCatalogue c).compose? (text name) =
      ofComposition? name (c.composition? c.defined? name.toList) := by
  have hdefined : (fun cs => (ofCatalogue c).defined? (text (String.ofList cs))) =
      fun cs => (c.defined? cs).map unit := funext fun cs => defined?_ofCatalogue c _
  have hsingular : (ofCatalogue c).singular? =
      fun cs => (Catalogue.singular? c.defined? cs).map unit := funext (singular?_ofCatalogue c)
  show (ofCatalogue c).prefixed? (fun cs => (ofCatalogue c).defined? (text (String.ofList cs)))
    (text name) (ofCatalogue c).order >>= _ = _
  -- First a prefix and a defined name, then a plural, then a prefix and a plural.
  rw [hdefined, order_walk_ofCatalogue, Catalogue.composition?]
  cases c.prefixed? c.defined? name.toList with
  | some e =>
    show _ = (fun v => some (unit v)) <$> Catalogue.multiple name e.1 e.2
    show (fun v => some (unit v)) <$> Catalogue.multiple name e.1 e.2 >>= _ = _
    cases Catalogue.multiple name e.1 e.2 with
    | error e => rfl
    | ok v => rfl
  | none =>
    show (if c.plurals then _ else _) = ofComposition? name (if c.plurals then _ else _)
    cases c.plurals with
    | false => rfl
    | true =>
      have hplural : (ofCatalogue c).singularOf? (text name) =
          .ok ((Catalogue.singular? c.defined? name.toList).map unit) := by
        rw [singularOf?, hsingular]
      rw [if_pos rfl, if_pos rfl, hplural, hsingular, order_walk_ofCatalogue]
      cases Catalogue.singular? c.defined? name.toList with
      | some u => rfl
      | none => rfl

/-- What a register composes is what the catalogue composes, and where that has nothing to compose a
name of, neither has the register. -/
theorem compose?_cases (c : Catalogue) (name : String) :
    (∃ u, c.compose name = .ok u ∧ (ofCatalogue c).compose? (text name) = .ok (some (unit u))) ∨
    (c.compose name = .error (.unknownUnit name) ∧
      (ofCatalogue c).compose? (text name) = .ok none) ∨
    ∃ e, c.compose name = .error e ∧ (ofCatalogue c).compose? (text name) = .error e := by
  rw [compose?_ofCatalogue, Catalogue.compose]
  cases c.composition? c.defined? name.toList with
  | none => exact .inr (.inl ⟨rfl, rfl⟩)
  | some composition =>
    cases composition with
    | plural u => exact .inl ⟨u, rfl, rfl⟩
    | multiple f u =>
      rw [ofComposition?]
      show (∃ v, Catalogue.multiple name f u = .ok v ∧ _) ∨ _ ∨
        ∃ e, Catalogue.multiple name f u = .error e ∧ _
      cases Catalogue.multiple name f u with
      | ok v => exact .inl ⟨v, rfl, rfl⟩
      | error e => exact .inr (.inr ⟨e, rfl, rfl⟩)

/-- **A register of a catalogue looks up as the catalogue does**: a name has the same value or the
same failure, what was composed is kept, and the same events are left behind. -/
theorem lookup_ofCatalogue (c : Catalogue) (name : String) :
    (ofCatalogue c).lookup (text name) =
      (unit <$> (Catalogue.lookup name c.start).1,
        ofCatalogue (Catalogue.lookup name c.start).2.catalogue,
        (Catalogue.lookup name c.start).2.events) := by
  have hkept : valueAt? (ofCatalogue c).composed (text name) = (c.composed.get? name).map unit := by
    rw [composed_ofCatalogue, valueAt?_entriesOf keepsApart_text]
  have hkey : ¬ (!(text name).isKey) = true := Bool.false_ne_true
  rw [lookup, if_neg hkey, defined?_ofCatalogue, hkept, Catalogue.lookup, Catalogue.start]
  cases c.units.get? name with
  | some u => rfl
  | none =>
    cases c.composed.get? name with
    | some u => rfl
    | none =>
      rcases compose?_cases c name with ⟨u, hc, hr⟩ | ⟨hc, hr⟩ | ⟨e, hc, hr⟩
      · rw [hc, hr]
        have hkeep : { ofCatalogue c with
            composed := withEntry (ofCatalogue c).composed (text name) (unit u) } =
            ofCatalogue { c with composed := c.composed.put name u } := by
          rw [composed_ofCatalogue, withEntry_entriesOf keepsApart_text]
          rfl
        exact congrArg (fun r => (Except.ok (unit u), r, [Event.composed name u.scale])) hkeep
      · rw [hc, hr]
        rfl
      · rw [hc, hr]
        rfl

/-- **Registers find factors as catalogues do.** -/
theorem factor_ofCatalogue (c : Catalogue) (name : String) :
    (ofCatalogue c).factor (text name) = rational <$> c.factor name := by
  have hkey : ¬ (!(text name).isKey) = true := Bool.false_ne_true
  rw [factor, if_neg hkey, prefixes_ofCatalogue, valueAt?_entriesOf keepsApart_text,
    Catalogue.factor]
  cases c.prefixes.get? name <;> rfl

/-! ### Names that are no texts -/

variable {r : Register} {v w : Value}

theorem restBehind?_ne_some (h : ∀ s, v ≠ text s) (p : Value) (cs : List Char) :
    restBehind? p v ≠ .ok (some cs) := by
  rw [restBehind?]
  split
  · split
    · rintro ⟨⟩
    · cases v with
      | text s => exact absurd rfl (h s)
      | _ => rintro ⟨⟩
  · rintro ⟨⟩

theorem prefixed?_ne_some (h : ∀ s, v ≠ text s) (base : List Char → Option Value)
    (prefixes : List Value) : r.prefixed? base v prefixes ≠ .ok (some w) := by
  induction prefixes with
  | nil => rintro ⟨⟩
  | cons p rest ih =>
    intro hok
    rw [prefixed?] at hok
    obtain ⟨left, hleft, hok⟩ := Outcome.bind_eq_ok_iff.mp hok
    cases left with
    | none => exact ih hok
    | some cs => exact restBehind?_ne_some h p cs hleft

theorem singularOf?_ne_some (h : ∀ s, v ≠ text s) : r.singularOf? v ≠ .ok (some w) := by
  unfold singularOf?
  split
  · exact absurd rfl (h _)
  · split
    · rintro ⟨⟩
    · rintro ⟨⟩
  · rintro ⟨⟩

theorem compose?_ne_some (h : ∀ s, v ≠ text s) : r.compose? v ≠ .ok (some w) := by
  intro hok
  obtain ⟨found, hfound, hok⟩ := Outcome.bind_eq_ok_iff.mp hok
  cases found with
  | some x => exact prefixed?_ne_some h _ _ hfound
  | none =>
    change (if r.plurals then _ else _) = _ at hok
    split at hok
    · obtain ⟨single, hsingle, hok⟩ := Outcome.bind_eq_ok_iff.mp hok
      cases single with
      | some x => exact singularOf?_ne_some h hsingle
      | none => exact prefixed?_ne_some h _ _ hok
    · cases hok

/-- A name that is no text is composed of nothing, so looking it up leaves a register as it is. -/
theorem lookup_of_notText (h : ∀ s, v ≠ text s) : (r.lookup v).2 = (r, []) := by
  rw [lookup]
  split
  · rfl
  · cases r.defined? v with
    | some x => rfl
    | none =>
      cases valueAt? r.composed v with
      | some x => rfl
      | none =>
        cases hcompose : r.compose? v with
        | error e => rfl
        | ok found =>
          cases found with
          | none => rfl
          | some x => exact absurd hcompose (compose?_ne_some h)

/-! ### Definitions -/

/-- Giving a value to names one after the other does to a register what it does to a table. -/
theorem withEntries_entriesOf {α : Type} {value : α → Value} (event : String → Event)
    (t : Table String α) (a : α) (names : List String) :
    withEntries event (entriesOf text value t) (value a) (names.map text) =
      (entriesOf text value (t.putAll names a), Catalogue.redefinitions event a t names,
        false) := by
  induction names generalizing t with
  | nil => rfl
  | cons name rest ih =>
    have hevent : redefinition event (entriesOf text value t) (text name) =
        if t.contains name then [event name] else [] := by
      rw [redefinition, valueAt?_entriesOf keepsApart_text, Option.isSome_map, Table.contains]
    have hkey : (text name).isKey = true := rfl
    rw [List.map_cons, withEntries, if_pos hkey, withEntry_entriesOf keepsApart_text, ih, hevent,
      Catalogue.redefinitions]
    split_ifs
    · rfl
    · rfl

/-- Names are put in order by their lengths, among each other as they were. -/
theorem byLength_map_text (names : List String) :
    byLength (names.map text) =
      .ok ((names.mergeSort fun a b => decide (b.length ≤ a.length)).map text) := by
  have hmeasure (measure : Value → Outcome (Nat × Value))
      (h : ∀ s, measure (text s) = .ok (s.length, text s)) :
      (names.map text).mapM measure = .ok (names.map fun s => (s.length, text s)) := by
    have hpure : measure ∘ text = fun s => pure (s.length, text s) := funext h
    rw [List.mapM_map, hpure]
    exact List.mapM_pure
  have hsort := List.map_mergeSort (r := fun a b : String => decide (b.length ≤ a.length))
    (s := fun a b : Nat × Value => decide (b.1 ≤ a.1)) (f := fun s => (s.length, text s))
    (l := names) fun a _ b _ => rfl
  rw [byLength, hmeasure _ fun s => by rw [size?_text]; rfl]
  show Except.ok (List.map Prod.snd (List.mergeSort _ _)) = _
  rw [← hsort, List.map_map]
  rfl

/-- Units are defined in a register of a catalogue as they are in the catalogue. -/
theorem define_ofCatalogue (c : Catalogue) (names : List String) (u : UnitOfMeasure) :
    (ofCatalogue c).define (names.map text) (unit u) =
      ((Catalogue.define names u c.start).1,
        ofCatalogue (Catalogue.define names u c.start).2.catalogue,
        (Catalogue.define names u c.start).2.events) := by
  rw [define, units_ofCatalogue, withEntries_entriesOf]
  rfl

/-- Factors are defined in a register of a catalogue as they are in the catalogue, and the order of
the prefixes is that of the catalogue afterwards. -/
theorem defineFactor_ofCatalogue (c : Catalogue) (names : List String) (f : Rat) :
    (ofCatalogue c).defineFactor (names.map text) f =
      ((Catalogue.defineFactor names f c.start).1,
        ofCatalogue (Catalogue.defineFactor names f c.start).2.catalogue,
        (Catalogue.defineFactor names f c.start).2.events) := by
  have hkeys : (entriesOf text rational (c.prefixes.putAll names f)).map Prod.fst =
      (c.prefixes.putAll names f).keys.map text := by
    rw [entriesOf, Table.keys, List.map_map, List.map_map]
    rfl
  rw [defineFactor, prefixes_ofCatalogue, withEntries_entriesOf]
  dsimp only
  rw [hkeys, byLength_map_text]
  rfl

/-- Quantities are named in a register of a catalogue as they are in the catalogue. -/
theorem nameQuantity_ofCatalogue (c : Catalogue) (d : Dimension) (name : String) :
    (ofCatalogue c).nameQuantity (dimension d) (text name) =
      ((Catalogue.nameQuantity d name c.start).1,
        ofCatalogue (Catalogue.nameQuantity d name c.start).2.catalogue,
        (Catalogue.nameQuantity d name c.start).2.events) := by
  have hkey : ¬ (!(dimension d).isKey) = true := Bool.false_ne_true
  rw [nameQuantity, if_neg hkey, quantities_ofCatalogue, valueAt?_entriesOf keepsApart_dimension,
    Option.isSome_map, withEntry_entriesOf keepsApart_dimension, Catalogue.nameQuantity,
    Catalogue.start, Table.putNew, Table.contains]
  cases (c.quantities.get? d).isSome with
  | false => rfl
  | true => rfl

end Register

end Metrology.Calculator
