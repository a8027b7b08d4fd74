import Metrology.Calculator.Register
import Metrology.Database.Reader

/-!
# Calculations in progress

A session keeps what later steps of a calculation may see: how many primitives there are and which
of them have labels, the catalogues in use, and the events so far. A value may hold a catalogue that
has changed since; `Session.current` gives the value as it is now.
-/

namespace Metrology.Calculator

/-- What is in use at a place: a catalogue, or what has become of one. -/
inductive Holding
  | catalogue (c : Catalogue)
  | register (r : Register)

namespace Holding

instance : Inhabited Holding := ⟨catalogue default⟩

/-- What is in use as a register. -/
def toRegister : Holding → Register
  | catalogue c => .ofCatalogue c
  | register r => r

/-- The defined names. -/
def names : Holding → List Value
  | catalogue c => c.units.keys.map .text
  | register r => r.units.map Prod.fst

/-- How many prefixes there are. -/
def prefixCount : Holding → Nat
  | catalogue c => c.prefixes.size
  | register r => r.prefixes.length

/-- What is in use at a place, as a value. -/
def toValue (place : Nat) (h : Holding) : Value := .catalogue place h.names h.prefixCount

end Holding

/-- A calculation in progress. -/
structure Session where
  /-- How many primitives have been minted. -/
  minted : Nat := 0
  /-- The labels of primitives that are called by values that are no texts, by their numbers. -/
  labels : List (Nat × Value) := []
  /-- What is in use, by its place. -/
  holdings : Array Holding := #[]
  /-- What happened. -/
  events : List Event := []

instance : Inhabited Session := ⟨{}⟩

/-- A step of a calculation, which may fail. Whatever it did before it failed remains done. -/
abbrev Calculation := ExceptT Error (StateM Session)

namespace Session

mutual

/-- A value as it is now. -/
def current (s : Session) : Value → Value
  | .list items => .list (currentAll s items)
  | .tuple items => .tuple (currentAll s items)
  | .table entries => .table (currentEntries s entries)
  | .primitive p => (s.labels.lookup p.index).elim (.primitive p) (.labelledPrimitive p)
  | .catalogue place names prefixes =>
    (s.holdings[place]?).elim (.catalogue place names prefixes) (Holding.toValue place)
  | .labelledUnit u label => .labelledUnit u (current s label)
  | .labelledMeasurement m label => .labelledMeasurement m (current s label)
  | v => v

/-- Values as they are now. -/
def currentAll (s : Session) : List Value → List Value
  | [] => []
  | v :: rest => current s v :: currentAll s rest

/-- The entries of a table as they are now. -/
def currentEntries (s : Session) : List (Value × Value) → List (Value × Value)
  | [] => []
  | e :: rest => currentEntry s e :: currentEntries s rest

/-- An entry of a table as it is now. -/
def currentEntry (s : Session) : Value × Value → Value × Value
  | (k, v) => (current s k, current s v)

end

/-- What is in use, with the values in it as they are now. -/
def currentHolding (s : Session) : Holding → Holding
  | .catalogue c => .catalogue c
  | .register r => .register
    { r with
      units := s.currentEntries r.units
      prefixes := s.currentEntries r.prefixes
      order := s.currentAll r.order
      quantities := s.currentEntries r.quantities
      composed := s.currentEntries r.composed }

end Session

namespace Calculation

/-- Mints a primitive that is called by the given value. -/
def mint (name : Value) : Calculation Value := do
  let s ← get
  let p : Primitive := ⟨s.minted, (name.display.toOption).getD ""⟩
  match name with
  | .text _ =>
    set { s with minted := s.minted + 1 }
    return .primitive p
  | _ =>
    set { s with minted := s.minted + 1, labels := (s.minted, name) :: s.labels }
    return .labelledPrimitive p name

/-- Mints a primitive and gives the unit in which it is measured, called by the given symbol or
else by the name of the primitive. -/
def mintUnit (name symbol : Value) : Calculation Value := do
  let p ← mint name
  MonadExcept.ofExcept do
    let d ← p.dimensionOf
    d.newUnit (Value.integer 1) (match symbol with | .nothing => name | _ => symbol)

/-- Takes a catalogue into use. -/
def keep (h : Holding) : Calculation Value := do
  let s ← get
  set { s with holdings := s.holdings.push h }
  return h.toValue s.holdings.size

/-- What is in use at a place. -/
def holding (place : Nat) : Calculation Holding := do
  let s ← get
  return s.currentHolding (s.holdings.getD place default)

/-- Replaces what is in use at a place. -/
def replace (place : Nat) (h : Holding) : Calculation PUnit :=
  modify fun s => { s with holdings := s.holdings.setIfInBounds place h }

/-- Adds events to those so far. -/
def record (events : List Event) : Calculation PUnit :=
  modify fun s => { s with events := s.events ++ events }

/-- Runs an activity on the catalogue in use at a place. -/
def onCatalogue {α : Type} (place : Nat) (c : Catalogue) (a : Activity α) : Calculation α := do
  let (result, journal) := a c.start
  record journal.events
  replace place (.catalogue journal.catalogue)
  MonadExcept.ofExcept result

/-- Reads or changes what is in use at a place as a register. -/
def onRegister {α : Type} (place : Nat)
    (change : Register → Outcome α × Register × List Event) : Calculation α := do
  let (result, r, events) := change (← holding place).toRegister
  record events
  replace place (.register r)
  MonadExcept.ofExcept result

/-- The events of a step, and whether it succeeded. -/
def observed {α : Type} (step : Calculation α) : Calculation (Except Error α × List Event) :=
  fun s =>
    let (result, after) := step { s with events := [] }
    (.ok (result, after.events), { after with events := s.events ++ after.events })

end Calculation

end Metrology.Calculator
