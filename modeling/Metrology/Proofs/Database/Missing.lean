import Metrology.Proofs.Catalogue.Meaning
import Metrology.Proofs.Database.Feed
import Metrology.Proofs.Database.Names
import Metrology.Proofs.Expression.Scanning

/-!
# Missing names of a database

A name that a catalogue does not know should be reported as unknown, and as nothing else.  In a
catalogue that was read from a database there is one other way for a name to be missing: it would
be composed of a prefix of the factor zero, and no unit has the scale zero
(`Catalogue.find_eq_zeroScale_iff`).

Everything else is as it should be, and the main result `Reading.missing_name` says both: a look-up
fails for one of these two reasons, the name means a unit or does not where the first one does not
get in the way, and an unknown name that is a prefix stands for its factor in an expression.  For
the last, a prefix has to be read as one name, which it is because all prefixes of a database are
called by identifiers (`prefixesNamed_of_ofText`).
-/

namespace Metrology

open Text

namespace Catalogue

variable {α β : Type} {c : Catalogue} {name : String}

/-! ### Two ways to be missing -/

theorem find_of_composes_zero (h : ∃ u, c.Composes name 0 u) :
    c.find name = .error .zeroScale := by
  obtain ⟨u, hu⟩ := h
  rw [find_of_composes hu, multiple_zero]

theorem find_of_not_composes_zero (h : ¬ ∃ u, c.Composes name 0 u) :
    (∃ u, c.find name = .ok u) ∨ c.find name = .error (.unknownUnit name) := by
  obtain ⟨x, hx⟩ := (exists_means_or_composes_zero c name).resolve_right h
  rw [hx.find_eq]
  cases hx with
  | defined _ | composed _ _ _ _ | plural _ _ _ _ => exact .inl ⟨_, rfl⟩
  | unknown _ _ _ => exact .inr rfl

theorem find_eq_zeroScale_iff (c : Catalogue) (name : String) :
    c.find name = .error .zeroScale ↔ ∃ u, c.Composes name 0 u := by
  refine ⟨fun hfind => ?_, find_of_composes_zero⟩
  by_contra h
  obtain ⟨u, hu⟩ | hu := find_of_not_composes_zero h
  · cases hfind.symm.trans hu
  · cases hfind.symm.trans hu

/-! ### Names in expressions -/

open Grammar in
/-- An identifier is an expression by itself. -/
theorem ofText_identifier (h : isIdentifier name.toList = true) :
    Expression.ofText name = .ok (.name name) := by
  have hspelled : (Product.mk (.power (.atom (.name name.toList))) .done).IsSpelled := by
    rw [Product.IsSpelled, Term.IsSpelled, Power.IsSpelled, Atom.IsSpelled, Factors.IsSpelled]
    exact ⟨h, trivial⟩
  have hread := Expression.ofText_spelled hspelled
  rw [Product.lexemes, Factors.lexemes, List.append_nil, Term.lexemes, Power.lexemes, Atom.lexemes,
    List.flatMap_singleton, Lexeme.text, String.ofList_toList] at hread
  rw [hread, Product.tree, Factors.fold, Term.tree, Power.tree, Atom.tree, String.ofList_toList]

theorem value_identifier (c : Catalogue) (h : isIdentifier name.toList = true) :
    c.value name = c.resolve name := by
  rw [value, ofText_identifier h]
  rfl

/-! ### Prefixes that are called by identifiers -/

/-- Whether all prefixes are called by identifiers. -/
def PrefixesNamed (c : Catalogue) : Prop :=
  ∀ name f, c.prefixes.get? name = some f → isIdentifier name.toList = true

/-- Whether an activity keeps a property of catalogues, whatever its outcome is. -/
def Preserves (P : Catalogue → Prop) (a : Activity α) : Prop :=
  ∀ j : Journal, P j.catalogue → P (a j).2.catalogue

theorem Preserves.bind {P : Catalogue → Prop} {a : Activity α} {b : α → Activity β}
    (ha : Preserves P a) (hb : ∀ x, Preserves P (b x)) : Preserves P (a >>= b) := by
  intro j hj
  cases h : (a j).1 with
  | ok x =>
    rw [bind_of_ok h]
    exact hb x _ (ha j hj)
  | error e =>
    rw [bind_of_error h]
    exact ha j hj

theorem Reads.preserves_prefixesNamed {a : Activity α} {f : Catalogue → Outcome α}
    (h : Reads a f) : Preserves PrefixesNamed a := by
  intro j hj
  rw [PrefixesNamed, (h.leadsTo j).agrees.prefixes]
  exact hj

theorem preserves_prefixesNamed_defineFactor {names : List String}
    (h : ∀ name ∈ names, isIdentifier name.toList = true) (f : Rat) :
    Preserves PrefixesNamed (defineFactor names f) := by
  intro j hj name g hget
  change (j.catalogue.prefixes.putAll names f).get? name = some g at hget
  rw [Table.get?_putAll] at hget
  split_ifs at hget with hmem
  · exact h name hmem
  · exact hj name g hget

end Catalogue

namespace Declaration

open Catalogue

/-- What reading keeps, and every kind of definition under the names of a declaration, is kept by
the declaration. -/
theorem preserves_apply {P : Catalogue → Prop} (d : Dialect) (minted : Nat)
    {declaration : Declaration}
    (hreads : ∀ {α : Type} {a : Activity α} {f : Catalogue → Outcome α}, Reads a f → Preserves P a)
    (hdefine : ∀ u, Preserves P (define declaration.names.toList u))
    (hfactor : ∀ f, Preserves P (defineFactor declaration.names.toList f))
    (hname : ∀ dim, Preserves P (nameQuantity dim declaration.names.first)) :
    Preserves P (declaration.apply d minted) := by
  have hpure (n : Nat) : Preserves P (pure n) := hreads (Reads.pure n)
  cases declaration with
  | primitive dimension names => exact (hdefine _).bind fun _ => hpure _
  | derived names body =>
    refine (hreads (reads_evaluate body)).bind fun v => ?_
    refine (hreads (Reads.ofExcept (v.toUnit d.numericDefinitions))).bind fun u => ?_
    exact (hdefine _).bind fun _ => hpure minted
  | standalone names body =>
    refine (hreads (reads_evaluateFactor body)).bind fun f => (hfactor f).bind fun _ => ?_
    refine (hreads (Reads.ofExcept _)).bind fun u => ?_
    exact (hdefine u).bind fun _ => hpure minted
  | factor names body =>
    refine (hreads (reads_evaluateFactor body)).bind fun f => ?_
    exact (hfactor f).bind fun _ => hpure minted
  | quantity names body =>
    refine (hreads (reads_evaluate body)).bind fun v => ?_
    refine (hreads (Reads.ofExcept (v.toUnit false))).bind fun u => ?_
    exact (hname u.dim).bind fun _ => hpure minted

/-- Defining units and naming quantities leave the prefixes as they are. -/
theorem preserves_prefixesNamed_apply (d : Dialect) (minted : Nat) {declaration : Declaration}
    (h : ∀ name ∈ declaration.names.toList, isIdentifier name.toList = true) :
    Preserves PrefixesNamed (declaration.apply d minted) := by
  refine preserves_apply d minted Reads.preserves_prefixesNamed ?_ ?_ ?_
  · exact fun _ _ hj => hj
  · exact preserves_prefixesNamed_defineFactor h
  · exact fun _ _ hj => hj

end Declaration

namespace Reader

open Catalogue

variable {d : Dialect} {r s : Reader} {record : Record}

/-- What no declaration of a dialect does away with is kept by reading a record. -/
theorem preserves_feed {P : Catalogue → Prop}
    (hP : ∀ (minted : Nat) (text : List Char) (declaration : Declaration),
      Declaration.ofRecord? d text = some declaration → Preserves P (declaration.apply d minted))
    (hr : P r.journal.catalogue) (h : r.feed d record = .ok s) : P s.journal.catalogue := by
  cases fed_of_feed h with
  | unrecognized hd => exact hr
  | accepted hd hx => exact hP r.minted record.text _ hd r.journal hr
  | failed hd hx => exact hP r.minted record.text _ hd r.journal hr

theorem preserves_foldlM {P : Catalogue → Prop}
    (hP : ∀ (minted : Nat) (text : List Char) (declaration : Declaration),
      Declaration.ofRecord? d text = some declaration → Preserves P (declaration.apply d minted))
    {records : List Record} (hr : P r.journal.catalogue)
    (h : records.foldlM (feed d) r = .ok s) : P s.journal.catalogue := by
  induction records generalizing r with
  | nil =>
    cases h
    exact hr
  | cons record rest ih =>
    obtain ⟨next, hnext, hrest⟩ := exists_feed_of_foldlM h
    exact ih (preserves_feed hP hr hnext) hrest

theorem prefixesNamed_of_foldlM {records : List Record} (hr : r.journal.catalogue.PrefixesNamed)
    (h : records.foldlM (feed d) r = .ok s) : s.journal.catalogue.PrefixesNamed := by
  have happly (minted : Nat) (text : List Char) (declaration : Declaration)
      (hd : Declaration.ofRecord? d text = some declaration) :
      Preserves PrefixesNamed (declaration.apply d minted) :=
    Declaration.preserves_prefixesNamed_apply d minted (Declaration.isIdentifier_of_ofRecord? hd)
  exact preserves_foldlM happly hr h

end Reader

namespace Reading

open Catalogue

variable {d : Dialect} {minted : Nat} {text : String} {reading : Reading} {c : Catalogue}

/-- A catalogue comes from a reader that has read all records. -/
theorem exists_reader (h : Reading.ofText d minted text = .ok reading)
    (hc : reading.catalogue = some c) :
    ∃ r, (Record.ofText d text).foldlM (Reader.feed d) (Reader.start d minted) = .ok r ∧
      r.journal.catalogue = c := by
  rw [Reading.ofText] at h
  split_ifs at h
  · cases h
    cases hc
  · cases hr : (Record.ofText d text).foldlM (Reader.feed d) (Reader.start d minted) with
    | error e =>
      rw [hr] at h
      cases h
    | ok r =>
      rw [hr] at h
      obtain rfl : r.finish = reading := Except.ok.inj h
      refine ⟨r, rfl, ?_⟩
      rw [Reader.finish] at hc
      split_ifs at hc
      exact Option.some.inj hc

/-- A database gives a catalogue when anything holds of the catalogue that it gives. -/
theorem exists_catalogue_of_any {p : Catalogue → Bool}
    (h : ((Reading.ofText d minted text).toOption.bind Reading.catalogue).any p = true) :
    ∃ reading c, Reading.ofText d minted text = .ok reading ∧ reading.catalogue = some c ∧
      p c = true := by
  obtain ⟨c, hc, hp⟩ := (Option.any_eq_true _ _).mp h
  obtain ⟨reading, hreading, hcatalogue⟩ := Option.bind_eq_some_iff.mp hc
  refine ⟨reading, c, ?_, hcatalogue, hp⟩
  cases hread : Reading.ofText d minted text with
  | ok x =>
    rw [hread] at hreading
    exact congrArg Except.ok (Option.some.inj hreading)
  | error e =>
    rw [hread] at hreading
    cases hreading

/-- The units that are kept while a database is read are sound. -/
theorem sound_of_ofText (h : Reading.ofText d minted text = .ok reading)
    (hc : reading.catalogue = some c) : c.Sound := by
  obtain ⟨r, hr, rfl⟩ := exists_reader h hc
  exact (Reader.alike_self_of_foldlM hr).journal.soundLeft

/-- All prefixes of a database are called by identifiers. -/
theorem prefixesNamed_of_ofText (h : Reading.ofText d minted text = .ok reading)
    (hc : reading.catalogue = some c) : c.PrefixesNamed := by
  obtain ⟨r, hr, rfl⟩ := exists_reader h hc
  refine Reader.prefixesNamed_of_foldlM (fun name f hget => ?_) hr
  cases hget

/-- **Missing names of a database**: in a catalogue that was read from a database, whatever has been
read from it since, a look-up gives a unit, or the name is unknown, or the unit would have the
scale zero; and the last happens just where the name is composed of a prefix of the factor zero.
A name means a unit just where a look-up gives one, and an unknown name that is a prefix stands for
its factor. -/
theorem missing_name (h : Reading.ofText d minted text = .ok reading)
    (hc : reading.catalogue = some c) (events : List Event) {operations : List Operation}
    (hreading : ∀ op ∈ operations, op.defines = false) (name : String) :
    let j := Operation.run operations ⟨c, events⟩
    ((lookup name j).1 = .error .zeroScale ↔ ∃ u, c.Composes name 0 u) ∧
    ((∃ u, (lookup name j).1 = .ok u) ∧ (has name j).1 = .ok true ∨
      (lookup name j).1 = .error (.unknownUnit name) ∧ (has name j).1 = .ok false ∧
        (∀ f, c.prefixes.get? name = some f → (evaluate name j).1 = .ok (.number f)) ∨
      (lookup name j).1 = .error .zeroScale ∧ (has name j).1 = .error .zeroScale ∧
        ∀ f, c.prefixes.get? name = some f → (evaluate name j).1 = .error .zeroScale) := by
  intro j
  have hsound : c.Sound := sound_of_ofText h hc
  have hnamed : c.PrefixesNamed := prefixesNamed_of_ofText h hc
  -- Reading changes no table, so that the catalogue that was read answers.
  have hleads : Journal.LeadsTo ⟨c, events⟩ j :=
    Operation.run_leadsTo hreading _
  have hj : j.catalogue.Sound := hleads.sound hsound
  have hlookup : (lookup name j).1 = c.find name := by
    rw [lookup_eq_find hj]
    exact hleads.agrees.find name
  have hhas : (has name j).1 = c.means name := by
    rw [(reads_has name).outcome j hj]
    exact (reads_has name).congr _ _ hleads.agrees
  have hevaluate (f : Rat) (hf : c.prefixes.get? name = some f) :
      (evaluate name j).1 = c.resolve name := by
    rw [(reads_evaluate name).outcome j hj, (reads_evaluate name).congr _ _ hleads.agrees]
    exact value_identifier _ (hnamed name f hf)
  rw [hlookup, hhas]
  refine ⟨find_eq_zeroScale_iff _ name, ?_⟩
  by_cases hzero : ∃ u, c.Composes name 0 u
  · have hfind := find_of_composes_zero hzero
    refine .inr (.inr ⟨hfind, by rw [means, hfind], fun f hf => ?_⟩)
    rw [hevaluate f hf, resolve, hfind]
  · obtain ⟨u, hfind⟩ | hfind := find_of_not_composes_zero hzero
    · exact .inl ⟨⟨u, hfind⟩, by rw [means, hfind]⟩
    · refine .inr (.inl ⟨hfind, by rw [means, hfind], fun f hf => ?_⟩)
      rw [hevaluate f hf, resolve, hfind]
      simp only [hf]

/-- A database of which a prefix has the factor zero. -/
def zeroPrefix : String := "length =!= m\nkilo :- 1000\nz :- 0"

theorem exists_catalogue_zeroPrefix :
    ∃ reading c, Reading.ofText .standard 0 zeroPrefix = .ok reading ∧
      reading.catalogue = some c ∧ c.find "zm" = .error .zeroScale ∧
      c.find "kilo" = .error (.unknownUnit "kilo") ∧ c.prefixes.get? "kilo" = some 1000 := by
  have hfind : ((Reading.ofText .standard 0 zeroPrefix).toOption.bind Reading.catalogue).any
      (fun c => c.find "zm" = .error .zeroScale ∧ c.find "kilo" = .error (.unknownUnit "kilo") ∧
        c.prefixes.get? "kilo" = some 1000) = true := by
    decide +kernel
  obtain ⟨reading, c, hreading, hc, hfind⟩ := exists_catalogue_of_any hfind
  exact ⟨reading, c, hreading, hc, of_decide_eq_true hfind⟩

/-- The name `zm` is neither found nor unknown, while `kilo` is unknown and stands for a
thousand. -/
theorem missing_name_zero_prefix :
    ∃ reading c, Reading.ofText .standard 0 zeroPrefix = .ok reading ∧
      reading.catalogue = some c ∧ (∃ u, c.Composes "zm" 0 u) ∧
      (lookup "zm" c.start).1 = .error .zeroScale ∧ (has "zm" c.start).1 = .error .zeroScale ∧
      (has "kilo" c.start).1 = .ok false ∧
      (evaluate "kilo" c.start).1 = .ok (.number 1000) := by
  obtain ⟨reading, c, hreading, hc, hzero, hunknown, hkilo⟩ := exists_catalogue_zeroPrefix
  have hfresh : ∀ op ∈ ([] : List Operation), op.defines = false := by decide
  have hsound := sound_of_ofText hreading hc
  have hzm := missing_name hreading hc [] hfresh "zm"
  have hk := missing_name hreading hc [] hfresh "kilo"
  have hlookup : (lookup "zm" c.start).1 = .error .zeroScale :=
    (lookup_eq_find hsound "zm").trans hzero
  have hlookup' : (lookup "kilo" c.start).1 = .error (.unknownUnit "kilo") :=
    (lookup_eq_find hsound "kilo").trans hunknown
  refine ⟨reading, c, hreading, hc, hzm.1.mp hlookup, hlookup, ?_, ?_⟩
  · obtain ⟨⟨u, hu⟩, -⟩ | ⟨hu, -⟩ | ⟨-, hhas, -⟩ := hzm.2
    · cases hlookup.symm.trans hu
    · cases hlookup.symm.trans hu
    · exact hhas
  · obtain ⟨⟨u, hu⟩, -⟩ | ⟨-, hhas, hevaluate⟩ | ⟨hu, -⟩ := hk.2
    · cases hlookup'.symm.trans hu
    · exact ⟨hhas, hevaluate 1000 hkilo⟩
    · cases hlookup'.symm.trans hu

/-- A missing name is not always unknown. -/
theorem not_forall_missing_name_unknown :
    ¬ ∀ (d : Dialect) (minted : Nat) (text : String) (reading : Reading) (c : Catalogue)
      (name : String), Reading.ofText d minted text = .ok reading → reading.catalogue = some c →
      (∃ u, (lookup name c.start).1 = .ok u) ∨
        ∃ unknown, (lookup name c.start).1 = .error (.unknownUnit unknown) := by
  intro hall
  obtain ⟨reading, c, hreading, hc, hzero, -⟩ := exists_catalogue_zeroPrefix
  have hlookup : (lookup "zm" c.start).1 = .error .zeroScale :=
    (lookup_eq_find (sound_of_ofText hreading hc) "zm").trans hzero
  obtain ⟨u, hu⟩ | ⟨unknown, hu⟩ := hall .standard 0 zeroPrefix reading c "zm" hreading hc
  · cases hlookup.symm.trans hu
  · cases hlookup.symm.trans hu

end Reading

end Metrology
