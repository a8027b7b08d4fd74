import Mathlib.Data.List.Nodup
import Metrology.Catalogue.Activity
import Metrology.Proofs.Table.Definitions

/-!
# Units that a catalogue keeps

A catalogue in use keeps the units that it composes.  `Catalogue.Sound` is the invariant that makes
them harmless: each of them is the unit that would be composed for its name now.  A look-up keeps
it (`lookup_leadsTo`), and where it holds a look-up gives what the tables say (`lookup_eq_find`).

`Journal.LeadsTo` collects what reading does to a catalogue in use, so that it can be followed over
any number of look-ups: the tables stay, kept units stay, and every unit that is composed is
composed for a name of which none was kept.
-/

namespace Metrology

namespace Catalogue

/-! ### The tables behind a name -/

/-- Whether the tables agree by which two catalogues give meanings to names. -/
structure Agrees (c d : Catalogue) : Prop where
  units : d.units = c.units
  prefixes : d.prefixes = c.prefixes
  plurals : d.plurals = c.plurals

namespace Agrees

variable {c d e : Catalogue}

theorem refl (c : Catalogue) : c.Agrees c := ⟨rfl, rfl, rfl⟩

theorem symm (h : c.Agrees d) : d.Agrees c := ⟨h.units.symm, h.prefixes.symm, h.plurals.symm⟩

theorem trans (h : c.Agrees d) (h' : d.Agrees e) : c.Agrees e :=
  ⟨h'.units.trans h.units, h'.prefixes.trans h.prefixes, h'.plurals.trans h.plurals⟩

/-- Kept units and names of quantities take no part in what is composed. -/
theorem compose (h : c.Agrees d) (name : String) : d.compose name = c.compose name := by
  obtain ⟨units, factors, quantities, composed, plurals⟩ := c
  obtain ⟨units', factors', quantities', composed', plurals'⟩ := d
  obtain ⟨rfl, rfl, rfl⟩ := h
  rfl

theorem find (h : c.Agrees d) (name : String) : d.find name = c.find name := by
  unfold Catalogue.find
  rw [h.units, h.compose name]

theorem resolve (h : c.Agrees d) (name : String) : d.resolve name = c.resolve name := by
  unfold Catalogue.resolve
  rw [h.find name, h.prefixes]

end Agrees

/-! ### Kept units -/

/-- Whether every unit that a catalogue keeps is the one that would be composed for its name. -/
def Sound (c : Catalogue) : Prop :=
  ∀ name unit, c.composed.get? name = some unit → c.compose name = .ok unit

theorem sound_of_composed_empty {c : Catalogue} (h : c.composed = .empty) : c.Sound := by
  intro name unit hget
  rw [h, Table.get?_empty] at hget
  cases hget

/-- Where kept units are sound, a look-up gives what the tables say. -/
theorem lookup_eq_find {j : Journal} (h : j.catalogue.Sound) (name : String) :
    (lookup name j).1 = j.catalogue.find name := by
  cases hunit : j.catalogue.units.get? name with
  | some unit => simp only [lookup, find, hunit]
  | none =>
    cases hkept : j.catalogue.composed.get? name with
    | some unit => simp only [lookup, find, hunit, hkept, h name unit hkept]
    | none =>
      cases hcompose : j.catalogue.compose name <;>
        simp only [lookup, find, hunit, hkept, hcompose]

/-- What a look-up can do: nothing, or keep the unit that it composes for a name of which none was
kept. -/
theorem lookup_cases (name : String) (j : Journal) :
    (lookup name j).2 = j ∨
    ∃ unit, j.catalogue.composed.get? name = none ∧ j.catalogue.compose name = .ok unit ∧
      (lookup name j).2 =
        { catalogue :=
            { j.catalogue with composed := j.catalogue.composed.put name unit }
          events := j.events ++ [.composed name unit.scale] } := by
  cases hunit : j.catalogue.units.get? name with
  | some unit => exact .inl (by simp only [lookup, hunit])
  | none =>
    cases hkept : j.catalogue.composed.get? name with
    | some unit => exact .inl (by simp only [lookup, hunit, hkept])
    | none =>
      cases hcompose : j.catalogue.compose name with
      | ok unit => exact .inr ⟨unit, rfl, rfl, by simp only [lookup, hunit, hkept, hcompose]⟩
      | error e => exact .inl (by simp only [lookup, hunit, hkept, hcompose])

/-- Keeping a unit that was composed keeps the kept units sound. -/
theorem Sound.keep {c : Catalogue} (h : c.Sound) {name : String} {unit : UnitOfMeasure}
    (hunit : c.compose name = .ok unit) :
    Sound { c with composed := c.composed.put name unit } := by
  have hagrees : c.Agrees { c with composed := c.composed.put name unit } := ⟨rfl, rfl, rfl⟩
  intro other unit' hget
  rw [hagrees.compose other]
  change (c.composed.put name unit).get? other = some unit' at hget
  rw [Table.get?_put] at hget
  by_cases hname : other = name
  · rw [if_pos hname] at hget
    rw [hname, hunit, Option.some.inj hget]
  · rw [if_neg hname] at hget
    exact h other unit' hget

end Catalogue

/-! ### Reading over time -/

/-- The name for which an event says that a unit was composed. -/
def Event.composedName? : Event → Option String
  | composed name _ => some name
  | _ => none

/-- The names for which units were composed, in order. -/
def Event.composedNames (events : List Event) : List String := events.filterMap composedName?

namespace Journal

open Catalogue

/-- How reading may change a catalogue in use. -/
structure LeadsTo (before after : Journal) : Prop where
  /-- Names keep their meanings. -/
  agrees : before.catalogue.Agrees after.catalogue
  /-- Kept units stay sound. -/
  sound : before.catalogue.Sound → after.catalogue.Sound
  /-- Kept units stay. -/
  retains : ∀ name, before.catalogue.composed.get? name ≠ none →
    after.catalogue.composed.get? name ≠ none
  /-- Units are composed for names of which none was kept, once for each of them. -/
  composes : ∃ later, after.events = before.events ++ later ∧ (Event.composedNames later).Nodup ∧
    ∀ name ∈ Event.composedNames later, before.catalogue.composed.get? name = none ∧
      after.catalogue.composed.get? name ≠ none

namespace LeadsTo

theorem refl (j : Journal) : j.LeadsTo j where
  agrees := .refl _
  sound := id
  retains := fun _ => id
  composes := ⟨[], by simp, by simp [Event.composedNames], by simp [Event.composedNames]⟩

theorem trans {j k l : Journal} (h : j.LeadsTo k) (h' : k.LeadsTo l) : j.LeadsTo l where
  agrees := h.agrees.trans h'.agrees
  sound := fun hj => h'.sound (h.sound hj)
  retains := fun name hj => h'.retains name (h.retains name hj)
  composes := by
    obtain ⟨first, hfirst, hnodup, hkept⟩ := h.composes
    obtain ⟨second, hsecond, hnodup', hkept'⟩ := h'.composes
    refine ⟨first ++ second, by rw [hsecond, hfirst, List.append_assoc], ?_, ?_⟩
    · rw [Event.composedNames, List.filterMap_append, List.nodup_append]
      refine ⟨hnodup, hnodup', ?_⟩
      -- What was composed first is kept, so it is not composed again.
      rintro name hname other hother rfl
      exact (hkept name hname).2 (hkept' name hother).1
    · intro name hname
      rw [Event.composedNames, List.filterMap_append, List.mem_append] at hname
      obtain hname | hname := hname
      · exact ⟨(hkept name hname).1, h'.retains name (hkept name hname).2⟩
      · refine ⟨?_, (hkept' name hname).2⟩
        by_contra hj
        exact h.retains name hj (hkept' name hname).1

end LeadsTo

end Journal

namespace Catalogue

theorem lookup_leadsTo (name : String) (j : Journal) : j.LeadsTo (lookup name j).2 := by
  obtain h | ⟨unit, hkept, hunit, h⟩ := lookup_cases name j
  · rw [h]
    exact .refl j
  · rw [h]
    refine ⟨⟨rfl, rfl, rfl⟩, fun hsound => hsound.keep hunit, ?_, ?_⟩
    · intro other hother
      show (j.catalogue.composed.put name unit).get? other ≠ none
      rw [Table.get?_put]
      split
      · exact Option.some_ne_none unit
      · exact hother
    · refine ⟨[.composed name unit.scale], rfl, List.nodup_singleton name, ?_⟩
      intro other hother
      obtain rfl : other = name := List.mem_singleton.mp hother
      refine ⟨hkept, ?_⟩
      show (j.catalogue.composed.put other unit).get? other ≠ none
      rw [Table.get?_put_self]
      exact Option.some_ne_none unit

end Catalogue

end Metrology
