import Metrology.Proofs.Catalogue.Reads

/-!
# Kept units are invisible

`Catalogue.Operation` is what can be done with a catalogue in use, and `Operation.run` does any row
of such things, each of which may fail.  One operation keeps the kept units sound
(`Operation.sound_perform`), so a whole row does (`Operation.sound_run`), and so does an operation
that defines nothing with everything else that `Journal.LeadsTo` says
(`Operation.perform_leadsTo`, `Operation.run_leadsTo`).

The main result is `run_outcome_eq_fresh`: whatever was done with a catalogue, it answers like a
catalogue that was made of the same tables and keeps nothing, reading leaves the tables alone, and
between two definitions no name is composed twice.
-/

namespace Metrology

namespace Catalogue

/-- What can be done with a catalogue in use.  Numbers that come from outside may have failed to be
numbers. -/
inductive Operation
  | lookup (name : String)
  | has (name : String)
  | evaluate (text : String)
  | unit (text : String)
  | measure (value : Outcome Rat) (text : String)
  | quantityName (d : Dimension)
  | define (names : List String) (unit : UnitOfMeasure)
  | defineFactor (names : List String) (factor : Outcome Rat)
  | nameQuantity (d : Dimension) (name : String)

namespace Operation

/-- The catalogue in use after an operation, which may have failed. -/
def perform (j : Journal) : Operation → Journal
  | lookup name => (Catalogue.lookup name j).2
  | has name => (Catalogue.has name j).2
  | evaluate text => (Catalogue.evaluate text j).2
  | unit text => (Catalogue.unit text j).2
  | measure value text => (Catalogue.measure value text j).2
  | quantityName _ => j
  | define names u => (Catalogue.define names u j).2
  | defineFactor names (.ok f) => (Catalogue.defineFactor names f j).2
  | defineFactor _ (.error _) => j
  | nameQuantity d name => (Catalogue.nameQuantity d name j).2

/-- The catalogue in use after a row of operations. -/
def run (operations : List Operation) (j : Journal) : Journal := operations.foldl perform j

/-- Whether an operation defines units or prefixes. -/
def defines : Operation → Bool
  | define _ _ | defineFactor _ (.ok _) => true
  | _ => false

/-- Whether an operation only reads. -/
def isReading : Operation → Bool
  | define _ _ | defineFactor _ _ | nameQuantity _ _ => false
  | _ => true

/-! ### One operation -/

/-- Reading does to a catalogue what `Journal.LeadsTo` says, and names no quantity. -/
theorem reading_leadsTo {op : Operation} (h : op.isReading = true) (j : Journal) :
    j.LeadsTo (op.perform j) ∧
      (op.perform j).catalogue.quantities = j.catalogue.quantities := by
  cases op with
  | lookup name => exact ⟨(reads_lookup name).leadsTo j, (reads_lookup name).quantities j⟩
  | has name => exact ⟨(reads_has name).leadsTo j, (reads_has name).quantities j⟩
  | evaluate text => exact ⟨(reads_evaluate text).leadsTo j, (reads_evaluate text).quantities j⟩
  | unit text => exact ⟨(reads_unit text).leadsTo j, (reads_unit text).quantities j⟩
  | measure v text =>
    exact ⟨(reads_measure v text).leadsTo j, (reads_measure v text).quantities j⟩
  | quantityName d => exact ⟨.refl j, rfl⟩
  | define names u => cases h
  | defineFactor names factor => cases h
  | nameQuantity d name => cases h

theorem perform_leadsTo {op : Operation} (h : op.defines = false) (j : Journal) :
    j.LeadsTo (op.perform j) := by
  by_cases hr : op.isReading = true
  · exact (reading_leadsTo hr j).1
  cases op with
  | define names u => cases h
  | defineFactor names factor =>
    cases factor with
    | ok f => cases h
    | error e => exact .refl j
  | nameQuantity d name =>
    exact ⟨⟨rfl, rfl, rfl⟩, sound_nameQuantity d name, fun _ => id,
      (Journal.LeadsTo.refl j).composes⟩
  | _ => exact absurd rfl hr

/-- An operation that defines something forgets all kept units. -/
theorem composed_perform {op : Operation} (h : op.defines = true) (j : Journal) :
    (op.perform j).catalogue.composed = .empty := by
  cases op with
  | define names u => rfl
  | defineFactor names factor =>
    cases factor with
    | ok f => rfl
    | error e => cases h
  | _ => cases h

theorem sound_perform (op : Operation) {j : Journal} (h : j.catalogue.Sound) :
    (op.perform j).catalogue.Sound := by
  cases hd : op.defines with
  | false => exact (perform_leadsTo hd j).sound h
  | true => exact sound_of_composed_empty (composed_perform hd j)

theorem plurals_perform (op : Operation) (j : Journal) :
    (op.perform j).catalogue.plurals = j.catalogue.plurals := by
  cases hd : op.defines with
  | false => exact (perform_leadsTo hd j).agrees.plurals
  | true =>
    cases op with
    | define names u => rfl
    | defineFactor names factor => cases factor <;> rfl
    | _ => cases hd

/-- Catalogues that differ only in kept units still do so after the same operation. -/
theorem alike_perform (op : Operation) {j k : Journal} (h : j.Alike k) :
    (op.perform j).Alike (op.perform k) := by
  cases op with
  | lookup name => exact ((reads_lookup name).blind j k h).2
  | has name => exact ((reads_has name).blind j k h).2
  | evaluate text => exact ((reads_evaluate text).blind j k h).2
  | unit text => exact ((reads_unit text).blind j k h).2
  | measure v text => exact ((reads_measure v text).blind j k h).2
  | quantityName d => exact h
  | define names u => exact (blind_define names u j k h).2
  | defineFactor names factor =>
    cases factor with
    | ok f => exact (blind_defineFactor names f j k h).2
    | error e => exact h
  | nameQuantity d name => exact (blind_nameQuantity d name j k h).2

/-! ### Rows of operations -/

theorem sound_run (operations : List Operation) {j : Journal} (h : j.catalogue.Sound) :
    (run operations j).catalogue.Sound := by
  induction operations generalizing j with
  | nil => exact h
  | cons op rest ih => exact ih (op.sound_perform h)

theorem plurals_run (operations : List Operation) (j : Journal) :
    (run operations j).catalogue.plurals = j.catalogue.plurals := by
  induction operations generalizing j with
  | nil => rfl
  | cons op rest ih => exact (ih (op.perform j)).trans (op.plurals_perform j)

theorem run_leadsTo {operations : List Operation} (h : ∀ op ∈ operations, op.defines = false)
    (j : Journal) : j.LeadsTo (run operations j) := by
  induction operations generalizing j with
  | nil => exact .refl j
  | cons op rest ih =>
    have hop : j.LeadsTo (op.perform j) := perform_leadsTo (h op List.mem_cons_self) j
    exact hop.trans (ih (fun o ho => h o (List.mem_cons_of_mem op ho)) (op.perform j))

theorem alike_run (operations : List Operation) {j k : Journal} (h : j.Alike k) :
    (run operations j).Alike (run operations k) := by
  induction operations generalizing j k with
  | nil => exact h
  | cons op rest ih => exact ih (op.alike_perform h)

end Operation

/-- **Kept units are invisible**: after any row of operations on a catalogue, every look-up and
every expression has the outcome that it has on a catalogue made of the tables as they then are;
reading leaves these tables and the names of quantities as they are; and as long as nothing is
defined, no name is composed twice. -/
theorem run_outcome_eq_fresh (units : List (String × UnitOfMeasure))
    (factors : List (String × Rat)) (plurals : Bool) (operations : List Operation) :
    let j := Operation.run operations (ofDefinitions units factors plurals).start
    let fresh :=
      (ofDefinitions j.catalogue.units.entries j.catalogue.prefixes.entries plurals).start
    (∀ name, (lookup name j).1 = (lookup name fresh).1) ∧
    (∀ text, (evaluate text j).1 = (evaluate text fresh).1) ∧
    (∀ op : Operation, op.isReading = true →
      (op.perform j).catalogue.units = j.catalogue.units ∧
      (op.perform j).catalogue.prefixes = j.catalogue.prefixes ∧
      (op.perform j).catalogue.quantities = j.catalogue.quantities) ∧
    ∀ later : List Operation, (∀ op ∈ later, op.defines = false) →
      ∃ events, (Operation.run later j).events = j.events ++ events ∧
        (Event.composedNames events).Nodup := by
  intro j fresh
  have hj : j.catalogue.Sound := Operation.sound_run operations (sound_of_composed_empty rfl)
  have hfresh : fresh.catalogue.Sound := sound_of_composed_empty rfl
  -- No operation changes whether plurals are open, so the fresh catalogue has all of the tables.
  have hagrees : fresh.catalogue.Agrees j.catalogue := by
    refine ⟨(Table.ofList_entries _).symm, (Table.ofList_entries _).symm, ?_⟩
    exact Operation.plurals_run operations _
  refine ⟨fun name => ?_, fun text => ?_, fun op hop => ?_, fun later hlater => ?_⟩
  · rw [(reads_lookup name).outcome j hj, (reads_lookup name).outcome fresh hfresh]
    exact (reads_lookup name).congr _ _ hagrees
  · rw [(reads_evaluate text).outcome j hj, (reads_evaluate text).outcome fresh hfresh]
    exact (reads_evaluate text).congr _ _ hagrees
  · obtain ⟨hleads, hquantities⟩ := Operation.reading_leadsTo hop j
    exact ⟨hleads.agrees.units, hleads.agrees.prefixes, hquantities⟩
  · obtain ⟨events, hevents, hnodup, -⟩ := (Operation.run_leadsTo hlater j).composes
    exact ⟨events, hevents, hnodup⟩

/-- A name that was composed before its unit was defined anew is composed anew, once. -/
theorem run_outcome_eq_fresh_redefined :
    let two : UnitOfMeasure := ⟨.dimensionless, 2, "two", by decide⟩
    let j := Operation.run [.lookup "kilom", .define ["m"] two]
      (ofDefinitions [("m", .one)] [("kilo", 1000)] true).start
    let fresh := (ofDefinitions [("m", two)] [("kilo", 1000)] true).start
    (lookup "kilom" j).1.toOption.map UnitOfMeasure.scale = some 2000 ∧
    (lookup "kilom" j).1 = (lookup "kilom" fresh).1 ∧
    (Operation.perform j (.has "kilom")).catalogue.units = j.catalogue.units ∧
    ∃ events, (Operation.run [.has "kilom", .lookup "kilom"] j).events = j.events ++ events ∧
      (Event.composedNames events).Nodup := by
  intro two j fresh
  obtain ⟨hlookup, -, hreading, hlater⟩ := run_outcome_eq_fresh [("m", .one)] [("kilo", 1000)] true
    [.lookup "kilom", .define ["m"] two]
  have hunits : j.catalogue.units.entries = [("m", two)] := by decide +kernel
  have hprefixes : j.catalogue.prefixes.entries = [("kilo", 1000)] := by decide +kernel
  rw [hunits, hprefixes] at hlookup
  refine ⟨by decide +kernel, hlookup "kilom", (hreading (.has "kilom") rfl).1, hlater _ ?_⟩
  intro op hop
  obtain rfl | rfl : op = .has "kilom" ∨ op = .lookup "kilom" := by simpa using hop
  · rfl
  · rfl

end Catalogue

end Metrology
