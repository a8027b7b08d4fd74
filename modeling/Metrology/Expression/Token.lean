import Metrology.Error
import Metrology.Number.Numeral
import Metrology.Text.Blank
import Metrology.Text.Word

/-!
# Tokens of expressions

An expression is written with unsigned numerals, names and operators, with blanks anywhere between
them. `Lexeme.scan` takes the longest lexeme off the front of a text, `Lexeme.text` writes one, and
what is taken off is what is written (`Lexeme.eq_append_of_scan`). `Token.ofText` gives the tokens
of a text with the positions at which they begin.
-/

namespace Metrology

open Text

/-- The operators and parentheses of expressions. -/
inductive Operator
  | star
  | slash
  | caret
  | doubleStar
  | minus
  | plus
  | opening
  | closing
  deriving DecidableEq, Repr

namespace Operator

/-- An operator as it is written. -/
def text : Operator → List Char
  | star => ['*']
  | slash => ['/']
  | caret => ['^']
  | doubleStar => ['*', '*']
  | minus => ['-']
  | plus => ['+']
  | opening => ['(']
  | closing => [')']

/-- The operator at the front of a text; two stars are one operator. -/
def scan : List Char → Option (Operator × List Char)
  | '*' :: '*' :: rest => some (doubleStar, rest)
  | '*' :: rest => some (star, rest)
  | '/' :: rest => some (slash, rest)
  | '^' :: rest => some (caret, rest)
  | '-' :: rest => some (minus, rest)
  | '+' :: rest => some (plus, rest)
  | '(' :: rest => some (opening, rest)
  | ')' :: rest => some (closing, rest)
  | _ => none

theorem eq_append_of_scan {cs rest : List Char} {o : Operator} (h : scan cs = some (o, rest)) :
    cs = o.text ++ rest := by
  unfold scan at h
  split at h <;> simp_all [text]
  all_goals
    obtain ⟨rfl, rfl⟩ := h
    rfl

theorem text_ne_nil (o : Operator) : o.text ≠ [] := by
  cases o <;> simp [text]

end Operator

/-- What a token is. -/
inductive Lexeme
  | number (numeral : Numeral)
  | name (text : List Char)
  | operator (op : Operator)
  deriving DecidableEq, Repr

namespace Lexeme

/-- A lexeme as it is written. -/
def text : Lexeme → List Char
  | number numeral => numeral.text
  | name text => text
  | operator op => op.text

/-- The longest lexeme at the front of a text, and what follows it. -/
def scan (cs : List Char) : Option (Lexeme × List Char) :=
  match Numeral.scan cs with
  | some (numeral, rest) => some (number numeral, rest)
  | none =>
    match cs with
    | [] => none
    | c :: rest =>
      if isNameStart c then some (name (c :: rest.takeWhile isWord), rest.dropWhile isWord)
      else (Operator.scan (c :: rest)).map fun (op, after) => (operator op, after)

/-- What is taken off the front of a text is what the lexeme writes. -/
theorem eq_append_of_scan {cs rest : List Char} {l : Lexeme} (h : scan cs = some (l, rest)) :
    cs = l.text ++ rest := by
  unfold scan at h
  split at h
  · rename_i numeral r hn
    simp only [Option.some.injEq, Prod.mk.injEq] at h
    obtain ⟨rfl, rfl⟩ := h
    exact Numeral.eq_append_of_scan hn
  · split at h
    · simp at h
    · rename_i c r _
      split at h
      · simp only [Option.some.injEq, Prod.mk.injEq] at h
        obtain ⟨rfl, rfl⟩ := h
        simp [text]
      · simp only [Option.map_eq_some_iff, Prod.mk.injEq, Prod.exists] at h
        obtain ⟨o, r', ho, rfl, rfl⟩ := h
        exact Operator.eq_append_of_scan ho

/-- No lexeme is the empty text. -/
theorem text_ne_nil_of_scan {cs rest : List Char} {l : Lexeme} (h : scan cs = some (l, rest)) :
    l.text ≠ [] := by
  unfold scan at h
  split at h
  · rename_i numeral r hn
    simp only [Option.some.injEq, Prod.mk.injEq] at h
    obtain ⟨rfl, rfl⟩ := h
    exact Numeral.text_ne_nil_of_scan hn
  · split at h
    · simp at h
    · split at h
      · simp only [Option.some.injEq, Prod.mk.injEq] at h
        obtain ⟨rfl, rfl⟩ := h
        simp [text]
      · simp only [Option.map_eq_some_iff, Prod.mk.injEq, Prod.exists] at h
        obtain ⟨o, r', -, rfl, rfl⟩ := h
        exact o.text_ne_nil

/-- What follows a lexeme is shorter than the text. -/
theorem length_lt_of_scan {cs rest : List Char} {l : Lexeme} (h : scan cs = some (l, rest)) :
    rest.length < cs.length := by
  have hlen := congrArg List.length (eq_append_of_scan h)
  have := List.length_pos_iff.mpr (text_ne_nil_of_scan h)
  simp only [List.length_append] at hlen
  omega

end Lexeme

/-- A lexeme and the position of its first character in the text. -/
structure Token where
  lexeme : Lexeme
  position : Nat
  deriving DecidableEq, Repr

namespace Token

/-- How many characters of a text a message quotes. -/
def excerptLength : Nat := 10

/-- The beginning of a text, as a message quotes it. -/
def excerpt (cs : List Char) : String := String.ofList (cs.take excerptLength)

/-- The tokens of a text that begins at the given position. -/
def scanFrom (position : Nat) (cs : List Char) : Outcome (List Token) :=
  let start := position + (cs.takeWhile isBlank).length
  if dropBlank cs = [] then .ok []
  else
    match _h : Lexeme.scan (dropBlank cs) with
    | none => .error (.unexpectedCharacter start (excerpt (dropBlank cs)))
    | some (lexeme, rest) => do
      let tokens ← scanFrom (start + lexeme.text.length) rest
      return ⟨lexeme, start⟩ :: tokens
termination_by cs.length
decreasing_by exact Nat.lt_of_lt_of_le (Lexeme.length_lt_of_scan _h) (length_dropBlank_le cs)

/-- The tokens of a text. -/
def ofText (text : String) : Outcome (List Token) := scanFrom 0 text.toList

end Token

end Metrology
