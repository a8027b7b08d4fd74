import Metrology.Calculator.Comparison
import Metrology.Database.Reader

/-!
# Settings of a dialect

The settings of a dialect come by name and with values of any type. Settings that do not exist are
refused at once, and so are empty texts. A marker that is no text does no harm until it is looked
for: a database without lines, for one, is read without it. Where it is looked for in the middle of
a database, what stands above has been read.
-/

namespace Metrology.Calculator

/-- A dialect as it was asked for. -/
structure Request where
  /-- The dialect, with the standard marker where no text was given. -/
  dialect : Dialect
  /-- The settings of the markers for which something else than a text was given. -/
  unusable : List String
  /-- Whether something was given that is no dialect at all. -/
  isForeign : Bool

namespace Value

/-- The settings of the standard dialect. -/
def standardSettings : List (String × Value) :=
  (Markers.settings {}).map (fun s => (s.1, text s.2)) ++
    Dialect.switches.map fun name => (name, truth true)

/-- All settings in order, with what is given for them or else the standard ones. -/
def filled (given : List (String × Value)) : List (String × Value) :=
  standardSettings.map fun s => (s.1, (given.lookup s.1).getD s.2)

/-- Settings that are given by name. Those that do not exist are refused first, then empty texts in
the order of the settings. -/
def newSettings (given : List (String × Value)) : Outcome Value :=
  if given.any fun s => !Dialect.settingNames.contains s.1 then .error .unknownSetting
  else
    match (filled given).find? fun s => s.2.equal (text "") with
    | some s => .error (.emptyMarker s.1)
    | none => .ok (settings ((filled given).map Prod.snd))

end Value

namespace Request

/-- The standard dialect. -/
def standard : Request := ⟨.standard, [], false⟩

/-- The markers with one of them replaced. -/
def withMarker (m : Markers) (setting marker : String) : Markers :=
  match setting with
  | "comment" => { m with comment := marker }
  | "block_comment_open" => { m with blockOpen := marker }
  | "block_comment_close" => { m with blockClose := marker }
  | "continuation" => { m with continuation := marker }
  | "primitive_marker" => { m with primitive := marker }
  | "derived_marker" => { m with derived := marker }
  | "standalone_prefix_marker" => { m with standalone := marker }
  | "prefix_marker" => { m with factor := marker }
  | "quantity_marker" => { m with quantity := marker }
  | _ => m

/-- The markers with one of them replaced by what is given for it, if this is a text. -/
def fill (m : Markers) (s : String × Value) : Markers :=
  match s.2 with
  | .text marker => withMarker m s.1 marker
  | _ => m

/-- Whether something else than a text is given for a marker. -/
def isUnusable (s : String × Value) : Bool :=
  match s.2 with
  | .text _ => false
  | _ => !Dialect.switches.contains s.1

/-- The dialect that a value stands for: the standard one where nothing is given. -/
def ofValue : Value → Outcome Request
  | .settings values => do
    let given := Dialect.settingNames.zip values
    let switch (name : String) : Bool := ((given.lookup name).getD (.truth true)).isTrue
    return ⟨← Dialect.ofMarkers (given.foldl fill {}) (switch "numeric_definitions")
      (switch "plurals"), (given.filter isUnusable).map Prod.fst, false⟩
  | v => .ok { standard with isForeign := v.isTrue }

/-- Whether one of the given settings cannot be used. -/
def lacks (r : Request) (names : List String) : Bool := names.any r.unusable.contains

/-- The number of lines before the first one on which the end of a block is looked for, given
whether a block is open. A block that nothing follows on its line is not looked through, nor is an
empty line. -/
def linesBeforeClose? (d : Dialect) : Bool → List (List Char) → Option Nat
  | _, [] => none
  | true, line :: rest =>
    if line.isEmpty then (linesBeforeClose? d true rest).map (· + 1) else some 0
  | false, line :: rest =>
    match d.commentStart line with
    | .block _ after =>
      if after.isEmpty then (linesBeforeClose? d true rest).map (· + 1) else some 0
    | _ => (linesBeforeClose? d false rest).map (· + 1)

/-- How many lines can be divided into records before something is looked for that cannot be found,
if there is such a thing. -/
def readable? (r : Request) (lines : List (List Char)) : Option Nat :=
  if lines.isEmpty then none
  else if r.isForeign || r.lacks ["continuation"] then some 0
  else if r.lacks ["comment", "block_comment_open"] then
    lines.findIdx? fun line => !line.isEmpty
  else if r.lacks ["block_comment_close"] then linesBeforeClose? r.dialect false lines
  else none

/-- How reading fails with something that cannot be found. -/
def failure (r : Request) : Error :=
  if r.isForeign then .missingAttribute else .unsupportedOperands

/-- The settings without which no database can be read. -/
def recordMarkers : List String :=
  ["primitive_marker", "derived_marker", "standalone_prefix_marker", "prefix_marker",
    "quantity_marker"]

/-- A database that has been read to its end, or to where reading failed. -/
inductive Source
  | complete (reading : Reading)
  /-- So many primitives had been minted before the failure. -/
  | broken (minted : Nat) (e : Error)

/-- What is read of the database that a value writes; primitives are numbered from `minted` on. -/
def source (r : Request) (v : Value) (minted : Nat) : Outcome Source :=
  match v with
  | .text s =>
    if Text.trim s = "" then .complete <$> Reading.ofText r.dialect minted s
    else if r.isForeign || r.lacks recordMarkers then .error r.failure
    else
      let lines := Text.lines s.toList
      match r.readable? lines with
      | none => .complete <$> Reading.ofText r.dialect minted s
      | some n => do
        let records := Record.ended r.dialect 1 false 0 [] (lines.take n)
        let reader ← records.foldlM (Reader.feed r.dialect) (Reader.start r.dialect minted)
        return .broken reader.minted r.failure
  | _ => .complete <$> Reading.ofText r.dialect minted ""

/-- The records of a text. -/
def records (r : Request) (v : Value) : Outcome (List Record) :=
  match v with
  | .text s =>
    if (r.readable? (Text.lines s.toList)).isSome then .error r.failure
    else .ok (Record.ofText r.dialect s)
  | _ => .error .missingAttribute

end Request

end Metrology.Calculator
