import Metrology.Calculator.Session
import Metrology.Proofs.Calculator.Formula
import Metrology.Proofs.Calculator.Register
import Metrology.Proofs.Catalogue.Reads

/-!
# Catalogues and their registers in use

Two sessions are alike (`Session.Alike`) if they differ only in what is kept as a catalogue and what
as a register with the definitions of that catalogue.  A step of a calculation is blind
(`Calculation.Blind`) if it does the same in sessions that are alike, and it keeps to some places
(`Calculation.KeepsTo`) if it changes nothing but what is in use there and only adds to the events.

Both are preserved where steps follow one another (`Blind.bind`, `KeepsTo.bind`).  A step that goes
by what is in use at a place is blind if a catalogue and its register give it the same to do
(`blind_holding`), and what is done as a register always is (`blind_onRegister`).
-/

namespace Metrology.Calculator

open Value

namespace Holding

theorem toValue_register (place : Nat) (h : Holding) :
    (register h.toRegister).toValue place = h.toValue place := by
  cases h with
  | catalogue c =>
    rw [toValue, toValue, names, names, prefixCount, prefixCount]
    have hprefixes : (Register.ofCatalogue c).prefixes.length = c.prefixes.size := List.length_map _
    exact congrArg₂ _ (Register.names_ofCatalogue c) hprefixes
  | register r => rfl

end Holding

namespace Session

/-- A session with everything that is in use taken as a register. -/
def asRegisters (s : Session) : Session :=
  { s with holdings := s.holdings.map fun h => .register h.toRegister }

/-- Whether two sessions differ only in what is kept as a catalogue and what as a register. -/
def Alike (s t : Session) : Prop := s.asRegisters = t.asRegisters

/-- What is in use at a place, as it is now. -/
def inUse (s : Session) (place : Nat) : Holding :=
  s.currentHolding (s.holdings.getD place default)

/-- A session after what is in use at a place has been replaced, with further events. -/
def after (s : Session) (place : Nat) (h : Holding) (events : List Event) : Session :=
  { s with holdings := s.holdings.setIfInBounds place h, events := s.events ++ events }

variable {s t u : Session} {place : Nat} {c : Catalogue}

/-! ### Values as they are now -/

-- The induction is on the value.  Only a catalogue looks at what is in use, and there it is enough
-- to know the names and the prefixes, which the register has as well.
mutual

theorem current_asRegisters (s : Session) : ∀ v : Value, s.asRegisters.current v = s.current v
  | .list items => by rw [current, current, currentAll_asRegisters]
  | .tuple items => by rw [current, current, currentAll_asRegisters]
  | .table entries => by rw [current, current, currentEntries_asRegisters]
  | .labelledUnit u label => by rw [current, current, current_asRegisters]
  | .labelledMeasurement m label => by rw [current, current, current_asRegisters]
  | .catalogue place names prefixes => by
    rw [current, current, asRegisters, Array.getElem?_map]
    cases s.holdings[place]? with
    | none => rfl
    | some h => exact h.toValue_register place
  | .primitive p => rfl
  | .nothing | .truth _ | .number _ | .text _ | .dimension _ | .unit _ | .measurement _
  | .labelledPrimitive _ _ | .settings _ | .foreign => rfl

theorem currentAll_asRegisters (s : Session) :
    ∀ vs : List Value, s.asRegisters.currentAll vs = s.currentAll vs
  | [] => rfl
  | v :: rest => by
    rw [currentAll, currentAll, current_asRegisters, currentAll_asRegisters]

theorem currentEntries_asRegisters (s : Session) :
    ∀ entries : List (Value × Value),
      s.asRegisters.currentEntries entries = s.currentEntries entries
  | [] => rfl
  | e :: rest => by
    rw [currentEntries, currentEntries, currentEntry_asRegisters, currentEntries_asRegisters]

theorem currentEntry_asRegisters (s : Session) :
    ∀ e : Value × Value, s.asRegisters.currentEntry e = s.currentEntry e
  | (k, v) => by rw [currentEntry, currentEntry, current_asRegisters, current_asRegisters]

end

theorem currentHolding_asRegisters (s : Session) (h : Holding) :
    s.asRegisters.currentHolding h = s.currentHolding h := by
  cases h with
  | catalogue c => rfl
  | register r =>
    rw [currentHolding, currentHolding, currentEntries_asRegisters, currentEntries_asRegisters,
      currentAll_asRegisters, currentEntries_asRegisters, currentEntries_asRegisters]

theorem currentAll_map {α : Type} (s : Session) {value : α → Value}
    (h : ∀ a, s.current (value a) = value a) (items : List α) :
    s.currentAll (items.map value) = items.map value := by
  induction items with
  | nil => rfl
  | cons a rest ih => rw [List.map_cons, currentAll, h, ih]

theorem currentEntries_entriesOf {κ α : Type} (s : Session) {key : κ → Value} {value : α → Value}
    (hkey : ∀ k, s.current (key k) = key k) (hvalue : ∀ a, s.current (value a) = value a)
    (t : Table κ α) : s.currentEntries (entriesOf key value t) = entriesOf key value t := by
  rw [entriesOf]
  induction t.entries with
  | nil => rfl
  | cons e rest ih => rw [List.map_cons, currentEntries, currentEntry, hkey, hvalue, ih]

/-- Nothing that a catalogue has becomes something else. -/
theorem currentHolding_ofCatalogue (s : Session) (c : Catalogue) :
    s.currentHolding (.register (.ofCatalogue c)) = .register (.ofCatalogue c) := by
  have htext (name : String) : s.current (text name) = text name := rfl
  have hunit (u : UnitOfMeasure) : s.current (unit u) = unit u := rfl
  have hrational (q : Rat) : s.current (rational q) = rational q := rfl
  have hdimension (d : Dimension) : s.current (dimension d) = dimension d := rfl
  have hunits := s.currentEntries_entriesOf htext hunit c.units
  have hprefixes := s.currentEntries_entriesOf htext hrational c.prefixes
  have horder := s.currentAll_map htext c.prefixesByLength
  have hquantities := s.currentEntries_entriesOf hdimension htext c.quantities
  have hcomposed := s.currentEntries_entriesOf htext hunit c.composed
  rw [← Register.units_ofCatalogue] at hunits
  rw [← Register.prefixes_ofCatalogue] at hprefixes
  rw [← Register.quantities_ofCatalogue] at hquantities
  rw [← Register.composed_ofCatalogue] at hcomposed
  change s.currentAll (Register.ofCatalogue c).order = (Register.ofCatalogue c).order at horder
  rw [currentHolding, hunits, hprefixes, horder, hquantities, hcomposed]

/-- What is in use at a place is the same for both of two sessions that are alike, or a catalogue
for the first of which the other has the register. -/
theorem inUse_cases (s : Session) (place : Nat) :
    s.asRegisters.inUse place = s.inUse place ∨
      ∃ c, s.holdings[place]? = some (.catalogue c) ∧
        s.asRegisters.inUse place = .register (.ofCatalogue c) := by
  rw [inUse, inUse, currentHolding_asRegisters, Array.getD_eq_getD_getElem?,
    Array.getD_eq_getD_getElem?, asRegisters, Array.getElem?_map]
  cases s.holdings[place]? with
  | none => exact .inl rfl
  | some h =>
    cases h with
    | catalogue c => exact .inr ⟨c, rfl, s.currentHolding_ofCatalogue c⟩
    | register r => exact .inl rfl

theorem inUse_of_catalogue (h : s.holdings[place]? = some (.catalogue c)) :
    s.inUse place = .catalogue c := by
  rw [inUse, Array.getD_eq_getD_getElem?, h]
  rfl

/-! ### Sessions that are alike -/

theorem alike_asRegisters (s : Session) : s.Alike s.asRegisters := by
  rw [Alike, asRegisters, asRegisters, Array.map_map]
  refine congrArg (fun holdings => { s with holdings := holdings }) ?_
  refine Array.map_congr_left fun h _ => ?_
  cases h <;> rfl

theorem Alike.events (hs : s.Alike t) : s.events = t.events := by
  have h : s.asRegisters.events = t.asRegisters.events :=
    congrArg Session.events (show s.asRegisters = t.asRegisters from hs)
  exact h

theorem Alike.withEvents (hs : s.Alike t) (events : List Event) :
    Alike { s with events := events } { t with events := events } := by
  show { s.asRegisters with events := events } = { t.asRegisters with events := events }
  rw [show s.asRegisters = t.asRegisters from hs]

theorem asRegisters_after (s : Session) (place : Nat) (h : Holding) (events : List Event) :
    (s.after place h events).asRegisters =
      s.asRegisters.after place (.register h.toRegister) events := by
  rw [asRegisters, asRegisters, after, after, Array.map_setIfInBounds]

theorem Alike.after (hs : s.Alike t) {h k : Holding} (hh : h.toRegister = k.toRegister)
    (place : Nat) (events : List Event) :
    (s.after place h events).Alike (t.after place k events) := by
  rw [Alike, asRegisters_after, asRegisters_after, show s.asRegisters = t.asRegisters from hs, hh]

theorem alike_after_catalogue (s : Session) (place : Nat) (c : Catalogue) (events : List Event) :
    (s.after place (.catalogue c) events).Alike
      (s.after place (.register (.ofCatalogue c)) events) :=
  Alike.after (h := .catalogue c) (k := .register (.ofCatalogue c)) rfl rfl place events

/-- Nothing changes where what is in use is replaced by itself. -/
theorem after_self {h : Holding} (hh : s.holdings[place]? = some h) : s.after place h [] = s := by
  have hholdings : s.holdings.setIfInBounds place h = s.holdings := by
    refine Array.ext_getElem? fun q => ?_
    by_cases hq : place = q
    · subst hq
      rw [hh]
      exact Array.getElem?_setIfInBounds_self_of_lt (Array.getElem?_eq_some_iff.mp hh).1
    · exact Array.getElem?_setIfInBounds_ne hq
  rw [after, hholdings, List.append_nil]

theorem getElem?_after (h : place < s.holdings.size) (k : Holding) (events : List Event) :
    (s.after place k events).holdings[place]? = some k :=
  Array.getElem?_setIfInBounds_self_of_lt h

/-- A session is alike to that in which the register of a catalogue stands in its place. -/
theorem alike_register (hc : s.holdings[place]? = some (.catalogue c)) :
    s.Alike (s.after place (.register (.ofCatalogue c)) []) := by
  have h := s.alike_after_catalogue place c []
  rwa [after_self hc] at h

theorem after_after (s : Session) (place : Nat) (h k : Holding) (events later : List Event) :
    (s.after place h events).after place k later = s.after place k (events ++ later) := by
  rw [after, after, after, Array.setIfInBounds_setIfInBounds, List.append_assoc]

theorem toRegister_inUse_asRegisters (s : Session) (place : Nat) :
    (s.asRegisters.inUse place).toRegister = (s.inUse place).toRegister := by
  rcases s.inUse_cases place with h | ⟨c, hc, h⟩
  · rw [h]
  · rw [h, inUse_of_catalogue hc]
    rfl

theorem Alike.toRegister_inUse (hs : s.Alike t) (place : Nat) :
    (s.inUse place).toRegister = (t.inUse place).toRegister := by
  rw [← toRegister_inUse_asRegisters s, ← toRegister_inUse_asRegisters t,
    show s.asRegisters = t.asRegisters from hs]

theorem Alike.current (hs : s.Alike t) (v : Value) : s.current v = t.current v := by
  rw [← current_asRegisters s, ← current_asRegisters t, show s.asRegisters = t.asRegisters from hs]

theorem Alike.currentAll (hs : s.Alike t) (vs : List Value) :
    s.currentAll vs = t.currentAll vs := by
  rw [← currentAll_asRegisters s, ← currentAll_asRegisters t,
    show s.asRegisters = t.asRegisters from hs]

/-! ### Sessions that differ in few places -/

/-- Whether a session is what has become of another by changes to what is in use at some places:
there are the same primitives and as many places, and events have only been added. -/
structure ChangedWithin (places : Set Nat) (s t : Session) : Prop where
  minted : t.minted = s.minted
  labels : t.labels = s.labels
  size : t.holdings.size = s.holdings.size
  elsewhere : ∀ place, place ∉ places → t.holdings[place]? = s.holdings[place]?
  events : ∃ later, t.events = s.events ++ later

namespace ChangedWithin

variable {places more : Set Nat}

theorem refl (s : Session) : s.ChangedWithin places s where
  minted := rfl
  labels := rfl
  size := rfl
  elsewhere := fun _ _ => rfl
  events := ⟨[], (List.append_nil _).symm⟩

theorem trans (h : s.ChangedWithin places t) (h' : t.ChangedWithin places u) :
    s.ChangedWithin places u where
  minted := h'.minted.trans h.minted
  labels := h'.labels.trans h.labels
  size := h'.size.trans h.size
  elsewhere := fun place hplace => (h'.elsewhere place hplace).trans (h.elsewhere place hplace)
  events := by
    obtain ⟨new, hnew⟩ := h.events
    obtain ⟨newer, hnewer⟩ := h'.events
    exact ⟨new ++ newer, by rw [hnewer, hnew, List.append_assoc]⟩

theorem mono (h : s.ChangedWithin places t) (hsub : places ⊆ more) : s.ChangedWithin more t where
  minted := h.minted
  labels := h.labels
  size := h.size
  elsewhere := fun place hplace => h.elsewhere place fun hmem => hplace (hsub hmem)
  events := h.events

end ChangedWithin

theorem changedWithin_after (s : Session) (place : Nat) (h : Holding) (events : List Event) :
    s.ChangedWithin {place} (s.after place h events) where
  minted := rfl
  labels := rfl
  size := Array.size_setIfInBounds
  elsewhere := fun _ hq => Array.getElem?_setIfInBounds_ne (Ne.symm hq)
  events := ⟨events, rfl⟩

end Session

namespace Calculation

open Session

variable {α β : Type} {a : Calculation α} {b : α → Calculation β} {s t : Session} {place : Nat}

/-! ### What steps do -/

theorem holding_apply (place : Nat) (s : Session) :
    holding place s = (.ok (s.inUse place), s) := rfl

theorem bind_holding (place : Nat) (k : Holding → Calculation α) (s : Session) :
    (holding place >>= k) s = k (s.inUse place) s :=
  bind_of_ok (congrArg Prod.fst (holding_apply place s)) k

theorem onCatalogue_apply (place : Nat) (c : Catalogue) (a : Activity α) (s : Session) :
    onCatalogue place c a s =
      ((a c.start).1, s.after place (.catalogue (a c.start).2.catalogue) (a c.start).2.events) := by
  show (MonadExcept.ofExcept (a c.start).1 : Calculation α) _ = _
  rw [ofExcept_apply]
  rfl

theorem onRegister_apply (place : Nat) (change : Register → Outcome α × Register × List Event)
    (s : Session) :
    onRegister place change s =
      ((change (s.inUse place).toRegister).1,
        s.after place (.register (change (s.inUse place).toRegister).2.1)
          (change (s.inUse place).toRegister).2.2) := by
  show (MonadExcept.ofExcept (change (s.inUse place).toRegister).1 : Calculation α) _ = _
  rw [ofExcept_apply]
  rfl

theorem map_apply (f : α → β) (a : Calculation α) (s : Session) :
    (f <$> a) s = (f <$> (a s).1, (a s).2) := by
  cases h : (a s).1 with
  | ok x => exact bind_of_ok h fun x => pure (f x)
  | error e => exact bind_of_error h fun x => pure (f x)

theorem observed_apply (a : Calculation α) (s : Session) :
    observed a s = (.ok ((a { s with events := [] }).1, (a { s with events := [] }).2.events),
      { (a { s with events := [] }).2 with
        events := s.events ++ (a { s with events := [] }).2.events }) := rfl

/-! ### Steps that do not see how catalogues are kept -/

/-- Whether two steps had the same outcome and have left sessions behind that are alike. -/
def SameResult (x y : Outcome α × Session) : Prop := x.1 = y.1 ∧ x.2.Alike y.2

namespace SameResult

variable {x y z : Outcome α × Session}

theorem of_eq (h : x = y) : SameResult x y := h ▸ ⟨rfl, rfl⟩

theorem symm (h : SameResult x y) : SameResult y x := ⟨h.1.symm, Eq.symm h.2⟩

theorem trans (h : SameResult x y) (h' : SameResult y z) : SameResult x z :=
  ⟨h.1.trans h'.1, Eq.trans h.2 h'.2⟩

end SameResult

/-- Whether a step does the same in sessions that are alike. -/
def Blind (a : Calculation α) : Prop := ∀ s t : Session, s.Alike t → SameResult (a s) (a t)

theorem blind_ofExcept (x : Outcome α) : Blind (MonadExcept.ofExcept x) := by
  intro s t h
  rw [ofExcept_apply, ofExcept_apply]
  exact ⟨rfl, h⟩

theorem blind_pure (x : α) : Blind (pure x) := fun _ _ h => ⟨rfl, h⟩

theorem blind_throw (e : Error) : Blind (throw e : Calculation α) := fun _ _ h => ⟨rfl, h⟩

theorem SameResult.bind {a' : Calculation α} (h : SameResult (a s) (a' t)) (hb : ∀ x, Blind (b x)) :
    SameResult ((a >>= b) s) ((a' >>= b) t) := by
  obtain ⟨houtcome, hlater⟩ := h
  cases hs : (a s).1 with
  | ok x =>
    rw [bind_of_ok hs, bind_of_ok (houtcome ▸ hs)]
    exact hb x _ _ hlater
  | error e =>
    rw [bind_of_error hs, bind_of_error (houtcome ▸ hs)]
    exact ⟨rfl, hlater⟩

theorem Blind.bind (ha : Blind a) (hb : ∀ x, Blind (b x)) : Blind (a >>= b) :=
  fun s t h => (ha s t h).bind hb

theorem Blind.map (ha : Blind a) (f : α → β) : Blind (f <$> a) :=
  ha.bind fun x => blind_pure (f x)

theorem Blind.observed (ha : Blind a) : Blind (observed a) := by
  intro s t h
  obtain ⟨houtcome, hlater⟩ := ha _ _ (h.withEvents [])
  rw [observed_apply, observed_apply, houtcome, h.events, hlater.events]
  exact ⟨rfl, hlater.withEvents _⟩

/-- It is enough to compare sessions with those in which everything is a register. -/
theorem blind_of_asRegisters (h : ∀ s : Session, SameResult (a s) (a s.asRegisters)) : Blind a := by
  intro s t hst
  have hs := h s
  rw [show s.asRegisters = t.asRegisters from hst] at hs
  exact hs.trans (h t).symm

/-- A step that goes by what is in use at a place is blind if it is whatever that is, and if it does
with a catalogue what it does with the register of the catalogue. -/
theorem blind_holding {k : Holding → Calculation α} (hk : ∀ h, Blind (k h))
    (hcatalogue : ∀ s c, s.holdings[place]? = some (.catalogue c) →
      SameResult (k (.catalogue c) s) (k (.register (.ofCatalogue c)) s)) :
    Blind (holding place >>= k) := by
  refine blind_of_asRegisters fun s => ?_
  rw [bind_holding, bind_holding]
  rcases s.inUse_cases place with h | ⟨c, hc, h⟩
  · rw [h]
    exact hk _ _ _ s.alike_asRegisters
  · rw [h, inUse_of_catalogue hc]
    exact (hcatalogue s c hc).trans (hk _ _ _ s.alike_asRegisters)

theorem blind_onCatalogue (place : Nat) (c : Catalogue) (a : Activity α) :
    Blind (onCatalogue place c a) := by
  intro s t h
  rw [onCatalogue_apply, onCatalogue_apply]
  exact ⟨rfl, h.after rfl place _⟩

theorem blind_onRegister (place : Nat) (change : Register → Outcome α × Register × List Event) :
    Blind (onRegister place change) := by
  intro s t h
  rw [onRegister_apply, onRegister_apply, h.toRegister_inUse]
  exact ⟨rfl, h.after rfl place _⟩

/-- A change of a register does to the register of a catalogue what an activity does to the
catalogue. -/
theorem sameResult_onRegister {c : Catalogue} {a : Activity α} {f : α → β}
    {change : Register → Outcome β × Register × List Event}
    (hc : s.holdings[place]? = some (.catalogue c))
    (h : change (.ofCatalogue c) =
      (f <$> (a c.start).1, .ofCatalogue (a c.start).2.catalogue, (a c.start).2.events)) :
    SameResult ((f <$> onCatalogue place c a) s) (onRegister place change s) := by
  rw [map_apply, onCatalogue_apply, onRegister_apply, inUse_of_catalogue hc, Holding.toRegister, h]
  exact ⟨rfl, s.alike_after_catalogue place _ _⟩

theorem sameResult_onRegister_of_eq {c : Catalogue} {a : Activity α}
    {change : Register → Outcome α × Register × List Event}
    (hc : s.holdings[place]? = some (.catalogue c))
    (h : change (.ofCatalogue c) =
      ((a c.start).1, .ofCatalogue (a c.start).2.catalogue, (a c.start).2.events)) :
    SameResult (onCatalogue place c a s) (onRegister place change s) := by
  have hresult := sameResult_onRegister (f := id) hc (h.trans (by rw [id_map]))
  rwa [id_map] at hresult

/-! ### Steps that keep to some places -/

/-- Whether a step changes only what is in use at some places. -/
def KeepsTo (places : Set Nat) (a : Calculation α) : Prop :=
  ∀ s : Session, s.ChangedWithin places (a s).2

theorem keepsTo_ofExcept (places : Set Nat) (x : Outcome α) :
    KeepsTo places (MonadExcept.ofExcept x) := by
  intro s
  rw [ofExcept_apply]
  exact .refl s

theorem KeepsTo.bind {places : Set Nat} (ha : KeepsTo places a) (hb : ∀ x, KeepsTo places (b x)) :
    KeepsTo places (a >>= b) := by
  intro s
  cases hs : (a s).1 with
  | ok x =>
    rw [bind_of_ok hs]
    exact (ha s).trans (hb x _)
  | error e =>
    rw [bind_of_error hs]
    exact ha s

theorem KeepsTo.map {places : Set Nat} (ha : KeepsTo places a) (f : α → β) :
    KeepsTo places (f <$> a) :=
  ha.bind fun x => keepsTo_ofExcept places (.ok (f x))

theorem KeepsTo.observed {places : Set Nat} (ha : KeepsTo places a) :
    KeepsTo places (observed a) := by
  intro s
  have h := ha { s with events := [] }
  exact ⟨h.minted, h.labels, h.size, h.elsewhere, _, rfl⟩

theorem keepsTo_holding (places : Set Nat) (place : Nat) : KeepsTo places (holding place) :=
  fun s => .refl s

theorem keepsTo_onCatalogue (place : Nat) (c : Catalogue) (a : Activity α) :
    KeepsTo {place} (onCatalogue place c a) := by
  intro s
  rw [onCatalogue_apply]
  exact s.changedWithin_after place _ _

theorem keepsTo_onRegister (place : Nat)
    (change : Register → Outcome α × Register × List Event) :
    KeepsTo {place} (onRegister place change) := by
  intro s
  rw [onRegister_apply]
  exact s.changedWithin_after place _ _

end Calculation

end Metrology.Calculator
