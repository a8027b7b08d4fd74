import Metrology.Calculator.Operation
import Metrology.Event

/-!
# Catalogues of any values

A catalogue gives units to names, factors to prefixes and names to dimensions. A register is what
becomes of one when something else is put into it: a name that is no text, a value that is no unit,
a quantity of what is no dimension, or a definition that broke off in the middle. It is read by the
same rules as a catalogue, so names are composed of a prefix and a defined name or of a plural; but
a value of any kind may be found, and what cannot be compared with a prefix or a plural is refused.
-/

namespace Metrology.Calculator

/-- A catalogue whose names and values may be of any kind. -/
structure Register where
  /-- The defined values. A name may be defined as nothing. -/
  units : List (Value × Value)
  /-- The factors of the prefixes. -/
  prefixes : List (Value × Value)
  /-- The prefixes in the order in which they are tried. -/
  order : List Value
  /-- What has a name as a quantity. -/
  quantities : List (Value × Value)
  /-- The values composed since the last definition. -/
  composed : List (Value × Value)
  /-- Whether a name may be a plural. -/
  plurals : Bool

namespace Register

open Value

instance : Inhabited Register := ⟨⟨[], [], [], [], [], true⟩⟩

/-- Prefixes in the order in which they are tried, the longest first. All have to have a length. -/
def byLength (prefixes : List Value) : Outcome (List Value) := do
  let measured ← prefixes.mapM fun p =>
    match p.size? with
    | some n => pure (n, p)
    | none => throw Error.unsupportedOperands
  return (measured.mergeSort fun a b => decide (b.1 ≤ a.1)).map Prod.snd

/-- The register with the definitions of a catalogue. -/
def ofCatalogue (c : Catalogue) : Register where
  units := c.units.entries.map fun (name, u) => (text name, unit u)
  prefixes := c.prefixes.entries.map fun (name, f) => (text name, rational f)
  order := c.prefixesByLength.map text
  quantities := c.quantities.entries.map fun (d, name) => (dimension d, text name)
  composed := c.composed.entries.map fun (name, u) => (text name, unit u)
  plurals := c.plurals

/-- The catalogue with the definitions of a register, if it has such definitions only as a
catalogue has. -/
def toCatalogue? (units prefixes : List (Value × Value)) (plurals : Bool) : Option Catalogue := do
  let units ← units.mapM fun
    | (text name, unit u) => some (name, u)
    | _ => none
  let factors ← prefixes.mapM fun
    | (text name, number (.rational f)) => some (name, f)
    | _ => none
  return .ofDefinitions units factors plurals

/-! ### What a name means -/

/-- The value that is defined under a name, unless it is nothing. -/
def defined? (r : Register) (name : Value) : Option Value :=
  match valueAt? r.units name with
  | some nothing => none
  | v => v

/-- What is left of a name behind a prefix that it begins with. -/
def restBehind? (p name : Value) : Outcome (Option (List Char)) :=
  match name.size?, p.size? with
  | some n, some k =>
    if n ≤ k then .ok none
    else match name, p with
      | text s, text p => .ok (Text.dropMarker p.toList s.toList)
      | text _, dimension _ | text _, tuple _ =>
        -- Any of several prefixes may be asked for, and here there are none.
        if k = 0 then .ok none else .error .unsupportedOperands
      | text _, _ => .error .unsupportedOperands
      | _, _ => .error .missingAttribute
  | _, _ => .error .unsupportedOperands

/-- What the name stands for of which a text is a plural. -/
def singular? (r : Register) (cs : List Char) : Option Value :=
  Catalogue.singular? (fun cs => r.defined? (text (String.ofList cs))) cs

/-- What the name stands for of which a value is a plural. -/
def singularOf? (r : Register) (name : Value) : Outcome (Option Value) :=
  match name, name.size? with
  | text s, _ => .ok (r.singular? s.toList)
  | _, some n => if 1 < n then .error .missingAttribute else .ok none
  | _, none => .error .unsupportedOperands

/-- The multiple of a value that is a unit. -/
def multiple (name : Value) (factor : Rat) (base : Value) : Outcome Value := do
  match base.unit? with
  | some u => return (← base.scaleUnit u (rational factor)).relabelled name
  | none => throw .missingAttribute

/-- The value composed of the first of `prefixes` behind which `base` knows the rest. -/
def prefixed? (r : Register) (base : List Char → Option Value) (name : Value) :
    List Value → Outcome (Option Value)
  | [] => .ok none
  | p :: rest => do
    match (← restBehind? p name).bind base with
    | some b =>
      match valueAt? r.prefixes p with
      | some (number (.rational f)) => some <$> multiple name f b
      | _ => return none
    | none => prefixed? r base name rest

/-- The value composed for a name that is not defined. -/
def compose? (r : Register) (name : Value) : Outcome (Option Value) := do
  let base (cs : List Char) : Option Value := r.defined? (text (String.ofList cs))
  match ← r.prefixed? base name r.order with
  | some v => return some v
  | none =>
    if r.plurals then
      match ← r.singularOf? name with
      | some v => return some v
      | none => r.prefixed? r.singular? name r.order
    else return none

/-- What becomes of looking up a name: the value, the register with what was composed, and the
events. A composed value is kept even where it has no scale to be told of. -/
def lookup (r : Register) (name : Value) : Outcome Value × Register × List Event :=
  if !name.isKey then (.error .unsupportedOperands, r, [])
  else match r.defined? name with
    | some v => (.ok v, r, [])
    | none =>
      match valueAt? r.composed name with
      | some v => (.ok v, r, [])
      | none =>
        match r.compose? name with
        | .error e => (.error e, r, [])
        | .ok none => (name.display.bind fun shown => .error (.unknownUnit shown), r, [])
        | .ok (some v) =>
          let kept := { r with composed := withEntry r.composed name v }
          match name, v.unit?, v.measurement? with
          | text s, some u, _ => (.ok v, kept, [.composed s u.scale])
          | _, none, none => (.error .missingAttribute, kept, [])
          | _, _, _ => (.ok v, kept, [])

/-- The factor of a prefix. -/
def factor (r : Register) (name : Value) : Outcome Value := do
  if !name.isKey then throw .unsupportedOperands
  match valueAt? r.prefixes name with
  | some f => return f
  | none => throw (.unknownUnit (← name.display))

/-! ### Definitions -/

/-- The event of giving a value to a name that has one. -/
def redefinition (event : String → Event) (entries : List (Value × Value)) : Value → List Event
  | text name => if (valueAt? entries (text name)).isSome then [event name] else []
  | _ => []

/-- Entries after keys have been given a value one after the other, up to the first that may not be
a key, with the events of this, and whether there is such a key. -/
def withEntries (event : String → Event) (entries : List (Value × Value)) (v : Value) :
    List Value → List (Value × Value) × List Event × Bool
  | [] => (entries, [], false)
  | key :: rest =>
    if key.isKey then
      let (later, events, isBroken) := withEntries event (withEntry entries key v) v rest
      (later, redefinition event entries key ++ events, isBroken)
    else (entries, [], true)

/-- Gives a value to names. -/
def define (r : Register) (names : List Value) (v : Value) :
    Outcome PUnit × Register × List Event :=
  match withEntries .redefinedUnit r.units v names with
  | (units, events, false) => (.ok (), { r with units := units, composed := [] }, events)
  | (units, events, true) => (.error .unsupportedOperands, { r with units := units }, events)

/-- Defines a factor for prefixes. The order of the prefixes is found again afterwards. -/
def defineFactor (r : Register) (names : List Value) (f : Rat) :
    Outcome PUnit × Register × List Event :=
  match withEntries .redefinedFactor r.prefixes (rational f) names with
  | (prefixes, events, false) =>
    match byLength (prefixes.map Prod.fst) with
    | .ok order => (.ok (), { r with prefixes := prefixes, order := order, composed := [] }, events)
    | .error e => (.error e, { r with prefixes := prefixes }, events)
  | (prefixes, events, true) =>
    (.error .unsupportedOperands, { r with prefixes := prefixes }, events)

/-- Records the name of a quantity, unless it has one. -/
def nameQuantity (r : Register) (d name : Value) : Outcome PUnit × Register × List Event :=
  if !d.isKey then (.error .unsupportedOperands, r, [])
  else if (valueAt? r.quantities d).isSome then (.ok (), r, [])
  else (.ok (), { r with quantities := withEntry r.quantities d name }, [])

end Register

end Metrology.Calculator
