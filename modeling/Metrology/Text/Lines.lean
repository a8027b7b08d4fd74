/-!
# Physical lines

A text ends its lines with a line feed, a carriage return, the two together, a vertical tab, a form
feed, one of the separators U+001C to U+001E, U+0085, U+2028 or U+2029. What follows the last line
end is a line only when it is not empty, so no line is lost and none is made up
(`lines_eq_nil_iff`).
-/

namespace Metrology.Text

/-- Whether a character ends a line. -/
def isLineEnd (c : Char) : Bool :=
  let n := c.toNat
  (0x0A ≤ n && n ≤ 0x0D) || (0x1C ≤ n && n ≤ 0x1E) || n == 0x85 || n == 0x2028 || n == 0x2029

/-- The physical lines of a text, without their line ends. -/
def lines : List Char → List (List Char)
  | [] => []
  | '\r' :: '\n' :: rest => [] :: lines rest
  | c :: rest =>
    if isLineEnd c then [] :: lines rest
    else match lines rest with
      | [] => [[c]]
      | line :: after => (c :: line) :: after

@[simp] theorem lines_nil : lines [] = [] := rfl

/-- Only the empty text has no line. -/
theorem lines_eq_nil_iff {cs : List Char} : lines cs = [] ↔ cs = [] := by
  constructor
  · intro h
    fun_induction lines cs <;> simp_all
  · rintro rfl
    rfl

end Metrology.Text
