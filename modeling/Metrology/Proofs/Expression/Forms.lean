import Mathlib.Data.List.Infix
import Metrology.Expression.Parser
import Metrology.Proofs.Number.Literal

/-!
# Forms of tokens

What is scanned has the form of its kind (`Lexeme.wellFormed_of_scan`), and so have all tokens of a
text (`Token.allWellFormed_of_ofText`).  A number that has its form is read as a literal without
fail (`Expression.readAtom_number`).
-/

namespace Metrology

open Text

namespace Lexeme

variable {l : Lexeme} {cs rest : List Char}

/-- Whether a lexeme has the form of its kind. -/
def WellFormed : Lexeme → Prop
  | number numeral => numeral.WellFormed
  | name text => isIdentifier text = true
  | operator _ => True

/-- What is taken off the front of a text has the form of its kind. -/
theorem wellFormed_of_scan (h : scan cs = some (l, rest)) : l.WellFormed := by
  unfold scan at h
  split at h
  · rename_i numeral after hnumeral
    cases h
    exact Numeral.wellFormed_of_scan hnumeral
  · split at h
    · cases h
    · rename_i c after _
      split_ifs at h with hc
      · cases h
        exact isIdentifier_cons hc fun x hx => List.mem_takeWhile_imp hx
      · obtain ⟨⟨o, after'⟩, -, heq⟩ := Option.map_eq_some_iff.mp h
        cases heq
        trivial

end Lexeme

namespace Token

variable {tokens rest : List Token} {ls : List Lexeme}

/-- Whether all tokens of a row have the form of their kinds. -/
def AllWellFormed (tokens : List Token) : Prop := ∀ t ∈ tokens, t.lexeme.WellFormed

theorem AllWellFormed.tail (h : AllWellFormed tokens) : AllWellFormed tokens.tail :=
  fun t ht => h t (List.mem_of_mem_tail ht)

/-- Tokens have their forms if they are lexemes of a row whose tokens have theirs. -/
theorem AllWellFormed.of_map (h : AllWellFormed tokens)
    (hrest : ∀ l ∈ rest.map lexeme, l ∈ tokens.map lexeme) : AllWellFormed rest := by
  intro t ht
  obtain ⟨t', ht', heq⟩ := List.mem_map.mp (hrest _ (List.mem_map_of_mem ht))
  rw [← heq]
  exact h t' ht'

/-- What is left behind some lexemes of a row has its form. -/
theorem AllWellFormed.of_append (h : AllWellFormed tokens)
    (hrest : tokens.map lexeme = ls ++ rest.map lexeme) : AllWellFormed rest :=
  h.of_map fun l hl => by
    rw [hrest]
    exact List.mem_append_right ls hl

theorem allWellFormed_of_scanFrom (position : Nat) (cs : List Char) :
    ∀ tokens, scanFrom position cs = .ok tokens → AllWellFormed tokens := by
  induction position, cs using scanFrom.induct with
  | case1 position cs hblank =>
    intro tokens h
    rw [scanFrom, if_pos hblank] at h
    cases h
    exact List.forall_mem_nil _
  | case2 position cs hblank hnone =>
    intro tokens h
    rw [scanFrom, if_neg hblank] at h
    split at h
    · cases h
    · next hscan => cases hnone.symm.trans hscan
  | case3 position cs start hblank lexeme rest hsome ih =>
    intro tokens h
    rw [scanFrom, if_neg hblank] at h
    split at h
    · next hscan => cases hsome.symm.trans hscan
    · next lexeme' rest' hscan =>
      cases hsome.symm.trans hscan
      obtain ⟨others, hothers, heq⟩ := Outcome.bind_eq_ok_iff.mp h
      cases heq
      exact List.forall_mem_cons.mpr ⟨Lexeme.wellFormed_of_scan hscan, ih others hothers⟩

/-- The tokens of a text have the form of their kinds. -/
theorem allWellFormed_of_ofText {text : String} (h : ofText text = .ok tokens) :
    AllWellFormed tokens :=
  allWellFormed_of_scanFrom 0 text.toList tokens h

end Token

/-- An operand that is a number is read as what its literal is worth. -/
theorem Expression.readAtom_number {n : Numeral} (hn : n.WellFormed) (source : String)
    (depth position : Nat) (rest : List Token) :
    readAtom source (depth + 1) (⟨.number n, position⟩ :: rest) =
      .ok (.number n.value, rest) := by
  rw [readAtom, Literal.read_text hn]
  rfl

end Metrology
