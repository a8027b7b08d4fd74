import Metrology.Proofs.Database.Blank
import Metrology.Proofs.Database.Course

/-!
# Every record is accounted for

Reading a text always ends, whatever the text is, and every record of it is counted and accounted
for once: `counts_foldlM` says it of the two counts and `events_foldlM` of what is written down on
the way.  Both follow from what one record does (`feed_counts`, `events_feed`).

A catalogue comes out just when a record was accepted that defines a unit
(`size_units_ne_zero_iff`).  The main result `Reading.ofText_accounts` puts this together.
-/

namespace Metrology

namespace Event

/-- The record of which an event says that it was skipped. -/
def skippedRecord? : Event → Option Record
  | skipped line _ text => some ⟨line, text.toList⟩
  | redefinedUnit _ | redefinedFactor _ | composed _ _ | noText | noUnits _ | parsed _ _ _ _ => none

/-- What happens to a catalogue is a detail and skips no record. -/
theorem level_of_source {event : Event} (h : event.source = .catalogue) :
    event.level = .debug ∧ event.skippedRecord? = none := by
  cases event with
  | redefinedUnit _ | redefinedFactor _ | composed _ _ => exact ⟨rfl, rfl⟩
  | skipped _ _ _ | noText | noUnits _ | parsed _ _ _ _ => cases h

end Event

namespace Reader

variable {d : Dialect} {r s : Reader} {record : Record} {records : List Record}

/-! ### One record -/

/-- What reading a record writes down: details, of which one says that the record was skipped, if
it was. -/
theorem events_feed (h : r.feed d record = .ok s) :
    ∃ later, s.journal.events = r.journal.events ++ later ∧
      (∀ event ∈ later, event.level = .debug) ∧
      later.filterMap Event.skippedRecord? = if r.reports d record then [] else [record] := by
  have hskipped (reason : String) :
      (Event.skipped record.line reason (String.ofList record.text)).skippedRecord? =
        some record := by
    rw [Event.skippedRecord?, String.toList_ofList]
  have hdetails (declaration : Declaration) :
      ∃ notes, (declaration.apply d r.minted r.journal).2.events = r.journal.events ++ notes ∧
        (∀ event ∈ notes, event.level = .debug) ∧ notes.filterMap Event.skippedRecord? = [] := by
    obtain ⟨notes, hnotes, hcatalogue⟩ := (declaration.contained_apply d r.minted).notes r.journal
    refine ⟨notes, hnotes, ?_, ?_⟩
    · intro event hevent
      exact (Event.level_of_source (hcatalogue event hevent)).1
    · rw [List.filterMap_eq_nil_iff]
      intro event hevent
      exact (Event.level_of_source (hcatalogue event hevent)).2
  cases fed_of_feed h with
  | unrecognized hd =>
    refine ⟨_, rfl, ?_, ?_⟩
    · intro event hevent
      rw [List.mem_singleton.mp hevent]
      rfl
    · rw [reports_of_none hd, List.filterMap_cons, hskipped]
      rfl
  | @accepted declaration n hd hx =>
    obtain ⟨notes, hnotes, hdebug, hnone⟩ := hdetails declaration
    refine ⟨notes, hnotes, hdebug, ?_⟩
    rw [reports_of_some hd, hx, hnone]
    rfl
  | @failed declaration e hd hx =>
    obtain ⟨notes, hnotes, hdebug, hnone⟩ := hdetails declaration
    refine ⟨notes ++ [.skipped record.line e.reason (String.ofList record.text)], ?_, ?_, ?_⟩
    · show (declaration.apply d r.minted r.journal).2.events ++ _ = _
      rw [hnotes, List.append_assoc]
    · intro event hevent
      rcases List.mem_append.mp hevent with hevent | hevent
      · exact hdebug event hevent
      · rw [List.mem_singleton.mp hevent]
        rfl
    · rw [List.filterMap_append, hnone, reports_of_some hd, hx, List.filterMap_cons, hskipped]
      rfl

/-! ### All records -/

/-- The records that are skipped, in order. -/
def rejected (d : Dialect) (r : Reader) (records : List Record) : List Record :=
  ((visits d r records).filter fun visit => !visit.1.reports d visit.2).map Prod.snd

theorem rejected_cons (h : r.feed d record = .ok s) (rest : List Record) :
    rejected d r (record :: rest) =
      (if r.reports d record then [] else [record]) ++ rejected d s rest := by
  rw [rejected, rejected, visits_cons h, List.filter_cons]
  cases r.reports d record <;> rfl

theorem counts_foldlM (h : records.foldlM (feed d) r = .ok s) :
    s.skipped = r.skipped + (rejected d r records).length ∧
      s.accepted + s.skipped = r.accepted + r.skipped + records.length := by
  induction records generalizing r with
  | nil =>
    cases h
    exact ⟨rfl, rfl⟩
  | cons record rest ih =>
    obtain ⟨next, hnext, hrest⟩ := exists_feed_of_foldlM h
    obtain ⟨haccepted, hskipped⟩ := feed_counts hnext
    obtain ⟨hrejected, hsum⟩ := ih hrest
    rw [rejected_cons hnext, List.length_append, List.length_cons]
    cases hreports : r.reports d record with
    | true =>
      rw [hreports, if_pos rfl] at haccepted hskipped
      rw [if_pos rfl, List.length_nil]
      omega
    | false =>
      rw [hreports, if_neg Bool.false_ne_true] at haccepted hskipped
      rw [if_neg Bool.false_ne_true, List.length_singleton]
      omega

theorem events_foldlM (h : records.foldlM (feed d) r = .ok s) :
    ∃ later, s.journal.events = r.journal.events ++ later ∧
      (∀ event ∈ later, event.level = .debug) ∧
      later.filterMap Event.skippedRecord? = rejected d r records := by
  induction records generalizing r with
  | nil =>
    cases h
    exact ⟨[], (List.append_nil _).symm, List.forall_mem_nil _, rfl⟩
  | cons record rest ih =>
    obtain ⟨next, hnext, hrest⟩ := exists_feed_of_foldlM h
    obtain ⟨first, hfirst, hdetails, hskipped⟩ := events_feed hnext
    obtain ⟨second, hsecond, hdetails', hskipped'⟩ := ih hrest
    refine ⟨first ++ second, by rw [hsecond, hfirst, List.append_assoc], ?_, ?_⟩
    · intro event hevent
      rcases List.mem_append.mp hevent with hevent | hevent
      · exact hdetails event hevent
      · exact hdetails' event hevent
    · rw [List.filterMap_append, hskipped, hskipped', rejected_cons hnext]

/-- A catalogue has units just when a record was accepted that defines one. -/
theorem size_units_ne_zero_iff (hr : r.Alike r) (hs : records.foldlM (feed d) r = .ok s)
    (hempty : r.journal.catalogue.units = .empty) :
    s.journal.catalogue.units.size ≠ 0 ↔
      ∃ visit ∈ visits d r records, ∃ declaration,
        visit.1.Accepts d visit.2 declaration ∧ declaration.definesUnit = true := by
  rw [ne_eq, Table.size_eq_zero_iff]
  constructor
  · intro hsome
    by_contra hnone
    have hbinds (name : String) : ∀ visit ∈ visits d r records, ¬ Binds d name visit := by
      rintro visit hvisit ⟨declaration, haccepts, hkind, -⟩
      exact hnone ⟨visit, hvisit, declaration, haccepts, hkind⟩
    refine hsome fun name => ?_
    rw [units_of_not_binds hr hs (hbinds name), hempty, Table.get?_empty]
  · rintro ⟨visit, hvisit, declaration, haccepts, hkind⟩ hnone
    -- The first of its names has a unit, if only from a later record.
    have hbinds : Binds d declaration.names.first visit :=
      ⟨declaration, haccepts, hkind, List.mem_cons_self⟩
    rcases exists_last_binds d declaration.names.first (visits d r records) with
      hnever | ⟨before, ⟨q, record⟩, after, hvisits, ⟨last, haccepts', hkind', hname⟩, hlast⟩
    · exact hnever visit hvisit hbinds
    · obtain ⟨u, -, hu⟩ := units_of_last_binds hr hs hvisits haccepts' hkind' hname hlast
      cases (hnone _).symm.trans hu

/-- What comes out behind the last record: a summary, and a catalogue if it has units. -/
theorem finish_eq (r : Reader) :
    ∃ summary, r.finish.events = r.journal.events ++ [summary] ∧ summary.level = .info ∧
      summary.skippedRecord? = none ∧
      (r.finish.catalogue = some r.journal.catalogue ∧ r.journal.catalogue.units.size ≠ 0 ∨
        r.finish.catalogue = none ∧ r.journal.catalogue.units.size = 0) := by
  by_cases hsize : r.journal.catalogue.units.size = 0
  · have hfinish : r.finish =
        ⟨none, r.journal.events ++ [.noUnits r.skipped], r.minted⟩ := if_pos hsize
    rw [hfinish]
    exact ⟨_, rfl, rfl, rfl, .inr ⟨rfl, hsize⟩⟩
  · have hfinish : r.finish = ⟨some r.journal.catalogue, r.journal.events ++
        [.parsed r.journal.catalogue.units.size r.journal.catalogue.prefixes.size r.accepted
          r.skipped], r.minted⟩ := if_neg hsize
    rw [hfinish]
    exact ⟨_, rfl, rfl, rfl, .inl ⟨rfl, hsize⟩⟩

end Reader

namespace Reading

/-- Every text can be read.  A blank one has no records, so that nothing happens but its summary. -/
theorem exists_ofText_eq_ok (d : Dialect) (minted : Nat) (text : String) :
    ∃ reading r summary, ofText d minted text = .ok reading ∧
      (Record.ofText d text).foldlM (Reader.feed d) (Reader.start d minted) = .ok r ∧
      reading.events = r.journal.events ++ [summary] ∧ summary.level = .info ∧
      summary.skippedRecord? = none ∧
      (reading.catalogue = some r.journal.catalogue ∧ r.journal.catalogue.units.size ≠ 0 ∨
        reading.catalogue = none ∧ r.journal.catalogue.units.size = 0) := by
  by_cases hblank : Text.trim text = ""
  · refine ⟨⟨none, [.noText], minted⟩, Reader.start d minted, .noText, ?_, ?_, rfl, rfl, rfl, ?_⟩
    · rw [ofText, if_pos hblank]
    · rw [Record.ofText_of_blank hblank]
      rfl
    · exact .inr ⟨rfl, rfl⟩
  · obtain ⟨r, hr⟩ := Reader.exists_foldlM_eq_ok d (Reader.start d minted) (Record.ofText d text)
    obtain ⟨summary, hevents, hlevel, hnone, hcatalogue⟩ := r.finish_eq
    refine ⟨r.finish, r, summary, ?_, hr, hevents, hlevel, hnone, hcatalogue⟩
    rw [ofText, if_neg hblank, hr]
    rfl

/-- **Every record is accounted for**: a text can always be read.  Each of its records is counted
as accepted or as skipped; of each that is skipped, and of no other, one event says so, in their
order; one event is a summary, and it is the last.  A catalogue comes out just when a record was
accepted that defines a unit.  No declaration fails in a way that reading would not survive. -/
theorem ofText_accounts (d : Dialect) (minted : Nat) (text : String) :
    let records := Record.ofText d text
    let visits := Reader.visits d (Reader.start d minted) records
    ∃ reading r, ofText d minted text = .ok reading ∧
      records.foldlM (Reader.feed d) (Reader.start d minted) = .ok r ∧
      r.accepted + r.skipped = records.length ∧
      r.skipped = (visits.filter fun visit => !visit.1.reports d visit.2).length ∧
      reading.events.filterMap Event.skippedRecord? =
        (visits.filter fun visit => !visit.1.reports d visit.2).map Prod.snd ∧
      (∃ details summary, reading.events = details ++ [summary] ∧ summary.level = .info ∧
        ∀ event ∈ details, event.level = .debug) ∧
      (reading.catalogue = some r.journal.catalogue ∧ (∃ visit ∈ visits, ∃ declaration,
          visit.1.Accepts d visit.2 declaration ∧ declaration.definesUnit = true) ∨
        reading.catalogue = none ∧ ¬ ∃ visit ∈ visits, ∃ declaration,
          visit.1.Accepts d visit.2 declaration ∧ declaration.definesUnit = true) ∧
      ∀ (n : Nat) (declaration : Declaration) (j : Journal) (e : Error),
        (declaration.apply d n j).1 = .error e → e.kind.isRecoverable = true := by
  intro records visits
  obtain ⟨reading, r, summary, hreading, hr, hevents, hlevel, hnone, hcatalogue⟩ :=
    exists_ofText_eq_ok d minted text
  obtain ⟨hskipped, hsum⟩ := Reader.counts_foldlM hr
  obtain ⟨details, hdetails, hdebug, hrejected⟩ := Reader.events_foldlM hr
  have hnil : (Reader.start d minted).journal.events = [] := rfl
  rw [hnil, List.nil_append] at hdetails
  have hunits := Reader.size_units_ne_zero_iff (Reader.alike_self_start d minted) hr rfl
  refine ⟨reading, r, hreading, hr, ?_, ?_, ?_, ?_, ?_, ?_⟩
  · have hzero : (Reader.start d minted).accepted + (Reader.start d minted).skipped = 0 := rfl
    show r.accepted + r.skipped = (Record.ofText d text).length
    omega
  · have hzero : (Reader.start d minted).skipped = 0 := rfl
    rw [hskipped, hzero, Nat.zero_add, Reader.rejected, List.length_map]
  · rw [hevents, hdetails, List.filterMap_append, hrejected, List.filterMap_cons, hnone]
    exact List.append_nil _
  · exact ⟨details, summary, by rw [hevents, hdetails], hlevel, hdebug⟩
  · rcases hcatalogue with ⟨hsome, hsize⟩ | ⟨hnone, hsize⟩
    · exact .inl ⟨hsome, hunits.mp hsize⟩
    · exact .inr ⟨hnone, fun h => hunits.mpr h hsize⟩
  · intro n declaration j e he
    exact (declaration.contained_apply d n).recoverable j e he

end Reading

end Metrology
