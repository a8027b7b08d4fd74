import Metrology.Database.Reader
import Metrology.Proofs.Catalogue.Run

/-!
# Reading one record

What reading a record does to a reader, in terms of what its declaration does to the catalogue:
`feed_of_none`, `feed_of_ok` and `feed_of_error`, and all of it together `Reader.Fed`.
`Reader.reports` is what reading it reports, and `feed_counts` says that the two counts go by that.

Readers whose catalogues differ only in the units that they keep read on alike
(`foldlM_feed_alike`).  A reader that is like itself is one whose kept units are sound, which every
reader is that started with nothing (`alike_self_of_foldlM`).
-/

namespace Metrology

namespace Declaration

open Catalogue

/-- The factor that the body of a declaration writes, by the tables alone. -/
def factorOf (c : Catalogue) (body : String) : Outcome Rat := do
  let value ← c.value body
  value.toNumber

theorem reads_evaluateFactor (body : String) :
    Reads (evaluateFactor body) fun c => factorOf c body :=
  (reads_evaluate body).bind fun v => .ofExcept v.toNumber

/-- No declaration sees which units are kept. -/
theorem blind_apply (d : Dialect) (minted : Nat) (declaration : Declaration) :
    Blind (declaration.apply d minted) := by
  cases declaration with
  | primitive dimension names =>
    exact (blind_define _ _).bind fun _ => (Reads.pure _).blind
  | derived names body =>
    refine (reads_evaluate body).blind.bind fun v => ?_
    refine (Reads.ofExcept (v.toUnit d.numericDefinitions)).blind.bind fun u => ?_
    exact (blind_define _ _).bind fun _ => (Reads.pure minted).blind
  | standalone names body =>
    refine (reads_evaluateFactor body).blind.bind fun f => ?_
    refine (blind_defineFactor _ f).bind fun _ => ?_
    refine (Reads.ofExcept _).blind.bind fun u => ?_
    exact (blind_define _ u).bind fun _ => (Reads.pure minted).blind
  | factor names body =>
    refine (reads_evaluateFactor body).blind.bind fun f => ?_
    exact (blind_defineFactor _ f).bind fun _ => (Reads.pure minted).blind
  | quantity names body =>
    refine (reads_evaluate body).blind.bind fun v => ?_
    refine (Reads.ofExcept (v.toUnit false)).blind.bind fun u => ?_
    exact (blind_nameQuantity _ _).bind fun _ => (Reads.pure minted).blind

end Declaration

namespace Reader

variable {d : Dialect} {r s : Reader} {record : Record} {declaration : Declaration}

/-! ### What reading a record does -/

theorem feed_of_none (h : Declaration.ofRecord? d record.text = none) :
    r.feed d record = .ok (r.skip record "unrecognized record") := by
  simp only [feed, h]

theorem feed_of_ok (h : Declaration.ofRecord? d record.text = some declaration) {n : Nat}
    (hn : (declaration.apply d r.minted r.journal).1 = .ok n) :
    r.feed d record =
      .ok ⟨(declaration.apply d r.minted r.journal).2, n, r.accepted + 1, r.skipped⟩ := by
  simp only [feed, h]
  split
  · next m journal hm =>
    rw [hm] at hn ⊢
    rw [Except.ok.inj hn]
  · next e journal he =>
    rw [he] at hn
    cases hn

theorem feed_of_error (h : Declaration.ofRecord? d record.text = some declaration) {e : Error}
    (he : (declaration.apply d r.minted r.journal).1 = .error e) :
    r.feed d record =
      if e.kind.isRecoverable then
        .ok (skip { r with journal := (declaration.apply d r.minted r.journal).2 } record e.reason)
      else .error e := by
  simp only [feed, h]
  split
  · next m journal hm =>
    rw [hm] at he
    cases he
  · next e' journal he' =>
    rw [he'] at he ⊢
    rw [Except.error.inj he]

/-- What reading a record can do to a reader. -/
inductive Fed (d : Dialect) (r : Reader) (record : Record) : Reader → Prop
  /-- The record declares nothing, so that it is skipped. -/
  | unrecognized (hd : Declaration.ofRecord? d record.text = none) :
    Fed d r record (r.skip record "unrecognized record")
  /-- What the record declares is carried out. -/
  | accepted {declaration : Declaration} {n : Nat}
    (hd : Declaration.ofRecord? d record.text = some declaration)
    (hx : (declaration.apply d r.minted r.journal).1 = .ok n) :
    Fed d r record
      ⟨(declaration.apply d r.minted r.journal).2, n, r.accepted + 1, r.skipped⟩
  /-- What the record declares fails, and the record is skipped. -/
  | failed {declaration : Declaration} {e : Error}
    (hd : Declaration.ofRecord? d record.text = some declaration)
    (hx : (declaration.apply d r.minted r.journal).1 = .error e) :
    Fed d r record
      (skip { r with journal := (declaration.apply d r.minted r.journal).2 } record e.reason)

theorem fed_of_feed (h : r.feed d record = .ok s) : Fed d r record s := by
  cases hd : Declaration.ofRecord? d record.text with
  | none =>
    rw [feed_of_none hd] at h
    cases h
    exact .unrecognized hd
  | some declaration =>
    cases hx : (declaration.apply d r.minted r.journal).1 with
    | ok n =>
      rw [feed_of_ok hd hx] at h
      cases h
      exact .accepted hd hx
    | error e =>
      rw [feed_of_error hd hx] at h
      split_ifs at h
      cases h
      exact .failed hd hx

/-- Reading a list of records goes through the reader behind its first record. -/
theorem exists_feed_of_foldlM {rest : List Record} {t : Reader}
    (h : (record :: rest).foldlM (feed d) r = .ok t) :
    ∃ s, r.feed d record = .ok s ∧ rest.foldlM (feed d) s = .ok t := by
  rw [List.foldlM_cons] at h
  cases hfeed : r.feed d record with
  | ok s =>
    rw [hfeed] at h
    exact ⟨s, rfl, h⟩
  | error e =>
    rw [hfeed] at h
    cases h

/-- What reading a record reports: whether it declares something that could be carried out. -/
def reports (d : Dialect) (r : Reader) (record : Record) : Bool :=
  match Declaration.ofRecord? d record.text with
  | none => false
  | some declaration => (declaration.apply d r.minted r.journal).1.isOk

theorem reports_of_none (h : Declaration.ofRecord? d record.text = none) :
    r.reports d record = false := by
  rw [reports, h]

theorem reports_of_some (h : Declaration.ofRecord? d record.text = some declaration) :
    r.reports d record = (declaration.apply d r.minted r.journal).1.isOk := by
  rw [reports, h]

/-- A record that is reported is counted as accepted, and every other one as skipped. -/
theorem feed_counts (h : r.feed d record = .ok s) :
    s.accepted = (if r.reports d record then r.accepted + 1 else r.accepted) ∧
      s.skipped = (if r.reports d record then r.skipped else r.skipped + 1) := by
  cases fed_of_feed h with
  | unrecognized hd =>
    rw [reports_of_none hd]
    exact ⟨rfl, rfl⟩
  | accepted hd hx =>
    rw [reports_of_some hd, hx]
    exact ⟨rfl, rfl⟩
  | failed hd hx =>
    rw [reports_of_some hd, hx]
    exact ⟨rfl, rfl⟩

/-! ### Readers that read on alike -/

/-- Whether two readers differ only in kept units, in what happened and in their counts. -/
structure Alike (r s : Reader) : Prop where
  journal : r.journal.Alike s.journal
  minted : s.minted = r.minted

/-- Whether two outcomes of reading are alike. -/
inductive AlikeOutcome : Outcome Reader → Outcome Reader → Prop
  | ok {r s : Reader} (h : r.Alike s) : AlikeOutcome (.ok r) (.ok s)
  | error (e : Error) : AlikeOutcome (.error e) (.error e)

theorem Alike.skip (h : r.Alike s) (record record' : Record) (reason : String) :
    (r.skip record reason).Alike (s.skip record' reason) :=
  ⟨⟨h.journal.agrees, h.journal.quantities, h.journal.soundLeft, h.journal.soundRight⟩, h.minted⟩

/-- Where a record stands counts for nothing but what is said of it. -/
theorem feed_alike_of_text_eq (d : Dialect) {record record' : Record}
    (htext : record'.text = record.text) (h : r.Alike s) :
    AlikeOutcome (r.feed d record) (s.feed d record') := by
  cases hd : Declaration.ofRecord? d record.text with
  | none =>
    have hd' : Declaration.ofRecord? d record'.text = none := by rw [htext, hd]
    rw [feed_of_none hd, feed_of_none hd']
    exact .ok (h.skip record record' _)
  | some declaration =>
    have hd' : Declaration.ofRecord? d record'.text = some declaration := by rw [htext, hd]
    have hblind : (declaration.apply d s.minted s.journal).1 =
          (declaration.apply d r.minted r.journal).1 ∧
        (declaration.apply d r.minted r.journal).2.Alike
          (declaration.apply d s.minted s.journal).2 := by
      rw [h.minted]
      exact declaration.blind_apply d r.minted _ _ h.journal
    cases hx : (declaration.apply d r.minted r.journal).1 with
    | ok n =>
      rw [feed_of_ok hd hx, feed_of_ok hd' (hblind.1.trans hx)]
      exact .ok ⟨hblind.2, rfl⟩
    | error e =>
      rw [feed_of_error hd hx, feed_of_error hd' (hblind.1.trans hx)]
      split_ifs
      · refine .ok (Alike.skip ?_ record record' e.reason)
        exact ⟨hblind.2, h.minted⟩
      · exact .error e

theorem feed_alike (d : Dialect) (record : Record) (h : r.Alike s) :
    AlikeOutcome (r.feed d record) (s.feed d record) := feed_alike_of_text_eq d rfl h

theorem foldlM_feed_alike_of_texts_eq (d : Dialect) {records records' : List Record}
    (htexts : records'.map Record.text = records.map Record.text) (h : r.Alike s) :
    AlikeOutcome (records.foldlM (feed d) r) (records'.foldlM (feed d) s) := by
  induction records generalizing records' r s with
  | nil =>
    obtain rfl := List.map_eq_nil_iff.mp htexts
    exact .ok h
  | cons record rest ih =>
    obtain ⟨record', rest', rfl, htext, hrest⟩ := List.map_eq_cons_iff.mp htexts
    rw [List.foldlM_cons, List.foldlM_cons]
    have hfeed := feed_alike_of_text_eq d htext h
    generalize r.feed d record = x at hfeed ⊢
    generalize s.feed d record' = y at hfeed ⊢
    cases hfeed with
    | ok h' => exact ih hrest h'
    | error e => exact .error e

theorem foldlM_feed_alike (d : Dialect) (records : List Record) (h : r.Alike s) :
    AlikeOutcome (records.foldlM (feed d) r) (records.foldlM (feed d) s) :=
  foldlM_feed_alike_of_texts_eq d rfl h

/-- The units that are kept while a database is read are sound. -/
theorem alike_self_of_foldlM {minted : Nat} {records : List Record}
    (h : records.foldlM (feed d) (start d minted) = .ok r) : r.Alike r := by
  -- Being like oneself is an invariant: it goes through the same steps as being like another.
  have hstart : (start d minted).Alike (start d minted) := by
    have hsound := Catalogue.sound_of_composed_empty (c := Catalogue.empty d.plurals) rfl
    exact ⟨⟨.refl _, rfl, hsound, hsound⟩, rfl⟩
  have halike := foldlM_feed_alike d records hstart
  rw [h] at halike
  cases halike with
  | ok hr => exact hr

/-- The outcome of an activity after further records have been read and further things done. -/
def outcomeAfter {α : Type} (d : Dialect) (records : List Record)
    (operations : List Catalogue.Operation) (a : Activity α) (r : Reader) :
    Outcome (Outcome α) := do
  let after ← records.foldlM (feed d) r
  return (a (Catalogue.Operation.run operations after.journal)).1

theorem Alike.outcomeAfter {α : Type} {a : Activity α} (ha : Catalogue.Blind a) (h : r.Alike s)
    (d : Dialect) (records : List Record) (operations : List Catalogue.Operation) :
    s.outcomeAfter d records operations a = r.outcomeAfter d records operations a := by
  have halike := foldlM_feed_alike d records h
  unfold Reader.outcomeAfter
  generalize records.foldlM (feed d) r = x at halike ⊢
  generalize records.foldlM (feed d) s = y at halike ⊢
  cases halike with
  | ok h' =>
    have hrun := Catalogue.Operation.alike_run operations h'.journal
    exact congrArg Except.ok (ha _ _ hrun).1
  | error e => rfl

end Reader

end Metrology
