import Metrology.Error

/-!
# Dialects of unit databases

A database is read with the markers of a dialect: what begins a comment, what joins lines, and what
stands between the two sides of each kind of record. No marker of a dialect is empty, so reading
always gets ahead. Two switches say what numbers and plurals are allowed to do.
-/

namespace Metrology

/-- The texts that structure a database. -/
structure Markers where
  /-- Begins a comment that ends with the line. -/
  comment : String := "//"
  /-- Begins a comment that may span lines. -/
  blockOpen : String := "/*"
  /-- Ends a comment that may span lines. -/
  blockClose : String := "*/"
  /-- Ends a line that the next one continues. -/
  continuation : String := "\\"
  /-- Stands between a dimension and the names of its unit. -/
  primitive : String := "=!="
  /-- Stands between the names of a unit and its definition. -/
  derived : String := ":="
  /-- Stands between the names of a prefix that is also a unit and its factor. -/
  standalone : String := "::-"
  /-- Stands between the names of a prefix and its factor. -/
  factor : String := ":-"
  /-- Stands between the name of a quantity and a unit of its dimension. -/
  quantity : String := "|||"
  deriving DecidableEq, Repr, Inhabited

/-- The markers with the names of their settings, in the order in which they are checked. -/
def Markers.settings (m : Markers) : List (String × String) :=
  [("comment", m.comment), ("block_comment_open", m.blockOpen),
    ("block_comment_close", m.blockClose), ("continuation", m.continuation),
    ("primitive_marker", m.primitive), ("derived_marker", m.derived),
    ("standalone_prefix_marker", m.standalone), ("prefix_marker", m.factor),
    ("quantity_marker", m.quantity)]

/-- How a database is written. -/
structure Dialect where
  /-- The texts that structure it. -/
  markers : Markers
  /-- Whether a unit may be defined as a number. -/
  numericDefinitions : Bool
  /-- Whether a name may be a plural. -/
  plurals : Bool
  /-- No marker is empty. -/
  complete : ∀ s ∈ markers.settings, s.2 ≠ ""

namespace Dialect

/-- The dialect that is used where nothing else is said. -/
def standard : Dialect := ⟨{}, true, true, by decide⟩

instance : Inhabited Dialect := ⟨standard⟩

/-- The settings of a dialect that are no markers. -/
def switches : List String := ["numeric_definitions", "plurals"]

/-- The names of the settings of a dialect, in order. -/
def settingNames : List String := (Markers.settings {}).map Prod.fst ++ switches

/-- The dialect with the given markers, refused at the first one that is empty. -/
def ofMarkers (markers : Markers) (numericDefinitions plurals : Bool) : Outcome Dialect :=
  match h : markers.settings.find? (fun s => s.2 = "") with
  | some s => .error (.emptyMarker s.1)
  | none =>
    .ok ⟨markers, numericDefinitions, plurals, by simpa [List.find?_eq_none] using h⟩

theorem toList_ne_nil {s : String} (h : s ≠ "") : s.toList ≠ [] := by
  simpa using h

theorem comment_ne_nil (d : Dialect) : d.markers.comment.toList ≠ [] :=
  toList_ne_nil (d.complete ("comment", _) (by simp [Markers.settings]))

theorem blockOpen_ne_nil (d : Dialect) : d.markers.blockOpen.toList ≠ [] :=
  toList_ne_nil (d.complete ("block_comment_open", _) (by simp [Markers.settings]))

theorem blockClose_ne_nil (d : Dialect) : d.markers.blockClose.toList ≠ [] :=
  toList_ne_nil (d.complete ("block_comment_close", _) (by simp [Markers.settings]))

end Dialect

end Metrology
