import Metrology.Text.Digit

/-!
# Unsigned decimal numerals

A numeral has digits before and behind a point and perhaps an exponent: `12`, `1_000.25`, `.5`,
`2.`, `6.02ee23`. Underscores may stand anywhere after the first digit of a row and separate
nothing. An exponent is marked by `e`, `E` or `ee`; a mark without digits behind it is no exponent
but the beginning of what follows the numeral.

`Numeral.scan` takes the longest numeral off the front of a text, `Numeral.text` writes one, and
what is taken off is what is written (`eq_append_of_scan`).
-/

namespace Metrology

/-- The exponent of a numeral: its mark, its sign if one is written, and its digits. -/
structure Exponent where
  mark : List Char
  sign : List Char
  digits : List Char
  deriving DecidableEq, Repr

/-- An unsigned decimal numeral, with its digits and separators as they are written. -/
structure Numeral where
  whole : List Char
  point : Bool
  fraction : List Char
  exponent : Option Exponent
  deriving DecidableEq, Repr

open Text

/-- Whether a character may follow the first digit of a row. -/
def isDigitOrSeparator (c : Char) : Bool := isDigit c || c == '_'

/-- The sign at the front of a text, if it begins with one. -/
def signRow : List Char → List Char × List Char
  | '+' :: rest => (['+'], rest)
  | '-' :: rest => (['-'], rest)
  | cs => ([], cs)

theorem eq_append_of_signRow {cs sign rest : List Char} (h : signRow cs = (sign, rest)) :
    cs = sign ++ rest := by
  unfold signRow at h
  split at h <;>
  · simp only [Prod.mk.injEq] at h
    obtain ⟨rfl, rfl⟩ := h
    simp

/-- The row of digits and separators at the front of a text, empty if no digit begins it. -/
def digitRow : List Char → List Char × List Char
  | [] => ([], [])
  | c :: cs =>
    if isDigit c then (c :: cs.takeWhile isDigitOrSeparator, cs.dropWhile isDigitOrSeparator)
    else ([], c :: cs)

theorem eq_append_of_digitRow {cs row rest : List Char} (h : digitRow cs = (row, rest)) :
    cs = row ++ rest := by
  cases cs with
  | nil =>
    simp only [digitRow, Prod.mk.injEq] at h
    obtain ⟨rfl, rfl⟩ := h
    rfl
  | cons c cs =>
    simp only [digitRow] at h
    split at h <;>
    · simp only [Prod.mk.injEq] at h
      obtain ⟨rfl, rfl⟩ := h
      simp

/-- The number written by a row of digits, whose separators count for nothing. -/
def rowValue (row : List Char) : Nat := positional (row.filter (· != '_'))

/-- How many digits a row has. -/
def rowDigits (row : List Char) : Nat := (row.filter (· != '_')).length

namespace Exponent

/-- The exponent as it is written. -/
def text (e : Exponent) : List Char := e.mark ++ e.sign ++ e.digits

/-- The integer that an exponent writes. -/
def value (e : Exponent) : Int :=
  if e.sign = ['-'] then -(positional e.digits : Int) else positional e.digits

/-- An exponent whose mark has been read: a sign may follow, and digits have to. -/
def afterMark (mark cs : List Char) : Option (Exponent × List Char) :=
  match (signRow cs).2.takeWhile isDigit with
  | [] => none
  | digits => some (⟨mark, (signRow cs).1, digits⟩, (signRow cs).2.dropWhile isDigit)

/-- The exponent at the front of a text. -/
def scan : List Char → Option (Exponent × List Char)
  | 'e' :: 'e' :: cs => afterMark ['e', 'e'] cs
  | 'e' :: cs => afterMark ['e'] cs
  | 'E' :: cs => afterMark ['E'] cs
  | _ => none

theorem eq_append_of_afterMark {mark cs rest : List Char} {e : Exponent}
    (h : afterMark mark cs = some (e, rest)) : mark ++ cs = e.text ++ rest := by
  have hcs : cs = (signRow cs).1 ++ (signRow cs).2 := eq_append_of_signRow rfl
  unfold afterMark at h
  split at h
  · simp at h
  · simp only [Option.some.injEq, Prod.mk.injEq] at h
    obtain ⟨rfl, rfl⟩ := h
    rw [hcs]
    simp [text, ← hcs, List.takeWhile_append_dropWhile]

theorem eq_append_of_scan {cs rest : List Char} {e : Exponent} (h : scan cs = some (e, rest)) :
    cs = e.text ++ rest := by
  unfold scan at h
  split at h
  · simpa using eq_append_of_afterMark h
  · simpa using eq_append_of_afterMark h
  · simpa using eq_append_of_afterMark h
  · simp at h

end Exponent

namespace Numeral

/-- The numeral as it is written. -/
def text (n : Numeral) : List Char :=
  n.whole ++ (if n.point then ['.'] else []) ++ n.fraction ++
    (match n.exponent with
      | none => []
      | some e => e.text)

/-- The digits of a numeral before any exponent: what is before the point, whether there is one,
and what is behind it. At least one digit is needed on one of the two sides. -/
def scanDigits (cs : List Char) : Option (Numeral × List Char) :=
  match digitRow cs with
  | ([], _) =>
    -- Without digits before the point there have to be some behind it.
    match cs with
    | '.' :: after =>
      match digitRow after with
      | ([], _) => none
      | (fraction, rest) => some (⟨[], true, fraction, none⟩, rest)
    | _ => none
  | (whole, '.' :: after) =>
    let (fraction, rest) := digitRow after
    some (⟨whole, true, fraction, none⟩, rest)
  | (whole, rest) => some (⟨whole, false, [], none⟩, rest)

/-- The longest numeral at the front of a text, and what follows it. -/
def scan (cs : List Char) : Option (Numeral × List Char) :=
  (scanDigits cs).map fun (numeral, rest) =>
    -- A mark without digits is left to what follows the numeral.
    match Exponent.scan rest with
    | none => (numeral, rest)
    | some (e, after) => ({ numeral with exponent := some e }, after)

/-- Whether the exponent of a numeral is marked by two letters. -/
def hasDoubleMark (n : Numeral) : Bool := n.exponent.any fun e => 1 < e.mark.length

/-- The power of ten by which the digits of a numeral, read as an integer, are multiplied. -/
def shift (n : Numeral) : Int :=
  (match n.exponent with
    | none => 0
    | some e => e.value) - rowDigits n.fraction

/-- `n` times ten to the `e`. -/
def timesPowerOfTen (n : Nat) : Int → Rat
  | .ofNat e => ((n * Nat.pow 10 e : Nat) : Rat)
  | .negSucc e => mkRat n (Nat.pow 10 (e + 1))

/-- The number that a numeral writes. -/
def value (n : Numeral) : Rat := timesPowerOfTen (rowValue (n.whole ++ n.fraction)) n.shift

theorem exponent_of_scanDigits {cs rest : List Char} {n : Numeral}
    (h : scanDigits cs = some (n, rest)) : n.exponent = none := by
  unfold scanDigits at h
  split at h
  · split at h
    · split at h
      · simp at h
      · simp only [Option.some.injEq, Prod.mk.injEq] at h
        rw [← h.1]
    · simp at h
  · simp only [Option.some.injEq, Prod.mk.injEq] at h
    rw [← h.1]
  · simp only [Option.some.injEq, Prod.mk.injEq] at h
    rw [← h.1]

theorem eq_append_of_scanDigits {cs rest : List Char} {n : Numeral}
    (h : scanDigits cs = some (n, rest)) : cs = n.text ++ rest := by
  unfold scanDigits at h
  split at h
  · split at h
    · rename_i after _
      split at h
      · simp at h
      · rename_i fraction r _ hrow
        simp only [Option.some.injEq, Prod.mk.injEq] at h
        obtain ⟨rfl, rfl⟩ := h
        simp [text, eq_append_of_digitRow hrow]
    · simp at h
  · rename_i whole after _ hrow
    simp only [Option.some.injEq, Prod.mk.injEq] at h
    obtain ⟨rfl, rfl⟩ := h
    have hafter : after = (digitRow after).1 ++ (digitRow after).2 := eq_append_of_digitRow rfl
    rw [eq_append_of_digitRow hrow]
    simp only [text, if_true, List.append_assoc, List.append_nil, List.cons_append,
      List.nil_append]
    rw [← hafter]
  · rename_i whole r _ _ hrow
    simp only [Option.some.injEq, Prod.mk.injEq] at h
    obtain ⟨rfl, rfl⟩ := h
    simp [text, eq_append_of_digitRow hrow]

/-- What is taken off the front of a text is what the numeral writes. -/
theorem eq_append_of_scan {cs rest : List Char} {n : Numeral} (h : scan cs = some (n, rest)) :
    cs = n.text ++ rest := by
  simp only [scan, Option.map_eq_some_iff, Prod.exists] at h
  obtain ⟨m, r, hm, h⟩ := h
  have hcs := eq_append_of_scanDigits hm
  have hnone := exponent_of_scanDigits hm
  split at h
  · simp only [Prod.mk.injEq] at h
    obtain ⟨rfl, rfl⟩ := h
    exact hcs
  · rename_i e after he
    simp only [Prod.mk.injEq] at h
    obtain ⟨rfl, rfl⟩ := h
    have hr := Exponent.eq_append_of_scan he
    rw [hcs, hr]
    simp [text, hnone]

/-- A numeral is not the empty text. -/
theorem text_ne_nil_of_scan {cs rest : List Char} {n : Numeral} (h : scan cs = some (n, rest)) :
    n.text ≠ [] := by
  simp only [scan, Option.map_eq_some_iff, Prod.exists] at h
  obtain ⟨m, r, hm, h⟩ := h
  have hm' : m.whole ≠ [] ∨ m.point = true := by
    unfold scanDigits at hm
    split at hm
    · split at hm
      · split at hm
        · simp at hm
        · simp only [Option.some.injEq, Prod.mk.injEq] at hm
          right
          rw [← hm.1]
      · simp at hm
    · simp only [Option.some.injEq, Prod.mk.injEq] at hm
      right
      rw [← hm.1]
    · rename_i whole _ hne _ _
      simp only [Option.some.injEq, Prod.mk.injEq] at hm
      left
      rw [← hm.1]
      simpa using hne
  have hn : n.whole = m.whole ∧ n.point = m.point := by
    split at h
    · simp only [Prod.mk.injEq] at h
      rw [h.1]
      exact ⟨rfl, rfl⟩
    · simp only [Prod.mk.injEq] at h
      rw [← h.1]
      exact ⟨rfl, rfl⟩
  intro hnil
  simp only [text, List.append_eq_nil_iff] at hnil
  rw [hn.1, hn.2] at hnil
  rcases hm' with h' | h'
  · exact h' hnil.1.1.1
  · simp [h'] at hnil

end Numeral

end Metrology
