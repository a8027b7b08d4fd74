import Metrology.Proofs.Database.Binding

/-!
# Defined names mean themselves

The records of a database and the expressions that use them are scanned by different rules.  A name
that a record defines is nevertheless one name in every expression, because a record defines
identifiers only (`unitsNamed_of_ofText`) and an identifier is a single token
(`Token.ofText_identifier`).  Of the classes of characters this needs that digits are word
characters, and that neither blanks nor operators are.

The main result is `Reading.defined_name`: a defined name, looked up or written as an expression,
means the unit that is defined under it, and a prefix that is no unit means its factor.
-/

namespace Metrology

open Text

namespace Catalogue

/-- Whether all units are defined under identifiers. -/
def UnitsNamed (c : Catalogue) : Prop :=
  ∀ name u, c.units.get? name = some u → isIdentifier name.toList = true

variable {c : Catalogue} {name : String} {u : UnitOfMeasure}

theorem find_of_defined (h : c.units.get? name = some u) : c.find name = .ok u := by
  rw [find, h]

/-- A defined name that is an identifier is an expression for its unit. -/
theorem value_of_defined (hnamed : c.UnitsNamed) (h : c.units.get? name = some u) :
    c.value name = .ok (.unit u) := by
  rw [value_identifier c (hnamed name u h), resolve, find_of_defined h]

/-- A defined name stands for its unit as it is: nothing is renamed. -/
theorem unitOf_of_defined (hnamed : c.UnitsNamed) (h : c.units.get? name = some u) :
    c.unitOf name = .ok u := by
  rw [unitOf, value_of_defined hnamed h]
  rfl

/-- A prefix that is an identifier and means no unit is an expression for its factor. -/
theorem value_of_prefix {f : Rat} {unknown : String} (hnamed : c.PrefixesNamed)
    (h : c.prefixes.get? name = some f) (hfind : c.find name = .error (.unknownUnit unknown)) :
    c.value name = .ok (.number f) := by
  rw [value_identifier c (hnamed name f h), resolve, hfind]
  simp only [h]

end Catalogue

namespace Reading

open Catalogue

variable {d : Dialect} {minted : Nat} {text : String} {reading : Reading} {c : Catalogue}

/-- All units of a database are defined under identifiers: some record lists each of their names. -/
theorem unitsNamed_of_ofText (h : Reading.ofText d minted text = .ok reading)
    (hc : reading.catalogue = some c) : c.UnitsNamed := by
  obtain ⟨r, hr, rfl⟩ := exists_reader h hc
  intro name u hu
  have hstart : (Reader.start d minted).Alike (Reader.start d minted) :=
    Reader.alike_self_start d minted
  obtain ⟨q, declaration, hbinds, -⟩ := (Reader.units_eq_some_iff hstart hr rfl u).mp hu
  obtain ⟨before, record, after, -, haccepts, -, hname, -⟩ := hbinds
  exact Declaration.isIdentifier_of_ofRecord? haccepts.1 name hname

/-- **Defined names mean themselves**: in a catalogue that was read from a database, whatever has
been read from it since, a defined name is a single token and an expression by itself, and as a name
and as an expression it means the unit that is defined under it; a prefix that is unknown as a unit
means its factor. -/
theorem defined_name (h : Reading.ofText d minted text = .ok reading)
    (hc : reading.catalogue = some c) (events : List Event) {operations : List Operation}
    (hreading : ∀ op ∈ operations, op.defines = false) :
    let j := Operation.run operations ⟨c, events⟩
    (∀ name u, c.units.get? name = some u →
      Token.ofText name = .ok [⟨.name name.toList, 0⟩] ∧
      Expression.ofText name = .ok (.name name) ∧
      (lookup name j).1 = .ok u ∧ (evaluate name j).1 = .ok (.unit u) ∧
      (unit name j).1 = .ok u) ∧
    ∀ name f unknown, c.prefixes.get? name = some f →
      (lookup name j).1 = .error (.unknownUnit unknown) →
      (evaluate name j).1 = .ok (.number f) := by
  intro j
  -- Reading changes no table, so that the catalogue that was read answers.
  have hleads : Journal.LeadsTo ⟨c, events⟩ j := Operation.run_leadsTo hreading _
  have hsound : c.Sound := sound_of_ofText h hc
  have hlookup (name : String) : (lookup name j).1 = c.find name :=
    (reads_lookup name).outcome_of_leadsTo hsound hleads
  have hevaluate (name : String) : (evaluate name j).1 = c.value name :=
    (reads_evaluate name).outcome_of_leadsTo hsound hleads
  have hunit (name : String) : (unit name j).1 = c.unitOf name :=
    (reads_unit name).outcome_of_leadsTo hsound hleads
  have hunits : c.UnitsNamed := unitsNamed_of_ofText h hc
  constructor
  · intro name u hu
    have hname : isIdentifier name.toList = true := hunits name u hu
    rw [hlookup, hevaluate, hunit]
    exact ⟨Token.ofText_identifier hname, ofText_identifier hname, find_of_defined hu,
      value_of_defined hunits hu, unitOf_of_defined hunits hu⟩
  · intro name f unknown hf hunknown
    rw [hlookup] at hunknown
    rw [hevaluate]
    exact value_of_prefix (prefixesNamed_of_ofText h hc) hf hunknown

/-- A unit under a name of letters, digits and other numeric characters, and a prefix. -/
def squareUnit : String := "length =!= m\nkilo :- 1000\nare_2² µ9 := 100 m m"

/-- The name `µ9` means the unit of the first name beside it, and `kilo` a thousand. -/
theorem defined_name_square :
    ∃ reading c u, Reading.ofText .standard 0 squareUnit = .ok reading ∧
      reading.catalogue = some c ∧ u.name = "are_2²" ∧ u.scale = 100 ∧
      Token.ofText "µ9" = .ok [⟨.name "µ9".toList, 0⟩] ∧
      (evaluate "µ9" c.start).1 = .ok (.unit u) ∧ (unit "µ9" c.start).1 = .ok u ∧
      (evaluate "kilo" c.start).1 = .ok (.number 1000) := by
  have htables : ((Reading.ofText .standard 0 squareUnit).toOption.bind Reading.catalogue).any
      (fun c => (c.units.get? "µ9").any (fun u => u.name = "are_2²" ∧ u.scale = 100) ∧
        c.find "kilo" = .error (.unknownUnit "kilo") ∧ c.prefixes.get? "kilo" = some 1000) =
      true := by
    decide +kernel
  obtain ⟨reading, c, hread, hc, htables⟩ := exists_catalogue_of_any htables
  obtain ⟨hunit, hunknown, hkilo⟩ := of_decide_eq_true htables
  obtain ⟨u, hu, hname⟩ := (Option.any_eq_true _ _).mp hunit
  obtain ⟨hfirst, hscale⟩ := of_decide_eq_true hname
  have hfresh : ∀ op ∈ ([] : List Operation), op.defines = false := by decide
  obtain ⟨hdefined, hprefix⟩ := defined_name hread hc [] hfresh
  obtain ⟨htoken, -, -, hevaluate, hunit⟩ := hdefined "µ9" u hu
  have hlookup : (lookup "kilo" c.start).1 = .error (.unknownUnit "kilo") :=
    (lookup_eq_find (sound_of_ofText hread hc) "kilo").trans hunknown
  exact ⟨reading, c, u, hread, hc, hfirst, hscale, htoken, hevaluate, hunit,
    hprefix "kilo" 1000 "kilo" hkilo hlookup⟩

end Reading

end Metrology
