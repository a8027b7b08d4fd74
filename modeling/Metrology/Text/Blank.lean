import Metrology.Text.Ranges

/-!
# Blank characters

The characters that separate: the `White_Space` property together with the four information
separators U+001C to U+001F. The zero-width space and the byte-order mark are not blank.
Trimming removes them from the ends of a text, and `dropBlank` from its front.
-/

namespace Metrology.Text

/-- The code points of the blank characters. -/
def blankRanges : List (Nat × Nat) := [
    (0x9, 0xD), (0x1C, 0x20), (0x85, 0x85), (0xA0, 0xA0), (0x1680, 0x1680), (0x2000, 0x200A),
    (0x2028, 0x2029), (0x202F, 0x202F), (0x205F, 0x205F), (0x3000, 0x3000)]

/-- Whether a character separates words. -/
def isBlank (c : Char) : Bool := inRanges blankRanges c.toNat

/-- The text without the blanks in front of it. -/
def dropBlank (cs : List Char) : List Char := cs.dropWhile isBlank

theorem length_dropBlank_le (cs : List Char) : (dropBlank cs).length ≤ cs.length :=
  (List.dropWhile_sublist isBlank).length_le

/-- The text without the blanks in front of it and behind it. -/
def trimBlank (cs : List Char) : List Char :=
  (dropBlank (dropBlank cs).reverse).reverse

/-- A string without the blanks at its ends. -/
def trim (s : String) : String := String.ofList (trimBlank s.toList)

/-- The runs of characters between single blanks, of which some may be empty. -/
def runs (cs : List Char) : List (List Char) :=
  cs.foldr
    (fun c parts =>
      if isBlank c then [] :: parts
      else match parts with
        | [] => [[c]]
        | part :: rest => (c :: part) :: rest)
    []

/-- The maximal runs of characters that are not blank, in order. -/
def words (cs : List Char) : List (List Char) := (runs cs).filter fun part => !part.isEmpty

end Metrology.Text
