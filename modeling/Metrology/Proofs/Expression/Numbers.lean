import Metrology.Proofs.Expression.Tokens
import Metrology.Proofs.Number.Positional

/-!
# Numbers in expressions

A number in an expression is scanned by one reader and read as a literal by another, and the two
take the same texts for numerals (`Literal.unsigned?_eq_scan`).  So each number that is scanned is
read, as the number that it writes (`Literal.read_numeral`).  Reading the tokens of an expression
then fails only for the grammar's reasons (`Expression.Breaks`), none of which is a number: where a
token is to blame, it is an operator, or one behind the end.  This is an induction on how deeply the
rules nest, one step for each rule (`Expression.orderlyAt`).

The main result is `Expression.numbers_read_as_literals`.
-/

namespace Metrology.Expression

variable {source : String} {depth : Nat} {tokens all : List Token}

/-- Whether a row of tokens breaks the grammar with a failure: the row is empty or ends too early, a
parenthesis is not closed, an operator stands where an operand has to, or an expression ends before
the row does. -/
inductive Breaks (source : String) (tokens : List Token) : Error → Prop
  | empty (h : tokens = []) : Breaks source tokens .emptyExpression
  | early : Breaks source tokens (.unexpectedEnd source)
  | unclosed : Breaks source tokens (.unclosedParenthesis source)
  | operator {op : Operator} {position : Nat} (ht : ⟨.operator op, position⟩ ∈ tokens) :
      Breaks source tokens (.expectedAtom position (String.ofList op.text))
  | trailing {t : Token} (ht : t ∈ tokens) :
      Breaks source tokens
        (.trailingInput t.position (Token.excerpt (source.toList.drop t.position)))

/-! ### Reading tokens -/

/-- Whether reading leaves tokens of a row, or fails because the row breaks the grammar. -/
def Orderly (source : String) (all : List Token) : Outcome (Expression × List Token) → Prop
  | .ok (_, rest) => rest ⊆ all
  | .error err => Breaks source all err

/-- Whether all reading up to a depth is orderly, wherever in the row it begins. -/
structure OrderlyAt (source : String) (all : List Token) (depth : Nat) : Prop where
  product : ∀ tokens ⊆ all, Orderly source all (readProduct source depth tokens)
  factors : ∀ left, ∀ tokens ⊆ all, Orderly source all (readFactors source depth left tokens)
  term : ∀ tokens ⊆ all, Orderly source all (readTerm source depth tokens)
  power : ∀ tokens ⊆ all, Orderly source all (readPower source depth tokens)
  atom : ∀ tokens ⊆ all, Orderly source all (readAtom source depth tokens)

theorem Orderly.bind {x : Outcome (Expression × List Token)}
    {f : Expression × List Token → Outcome (Expression × List Token)} (hx : Orderly source all x)
    (hf : ∀ e, ∀ rest ⊆ all, Orderly source all (f (e, rest))) :
    Orderly source all (x >>= f) := by
  cases x with
  | error err => exact hx
  | ok y => exact hf y.1 y.2 hx

theorem tail_subset_of_subset (h : tokens ⊆ all) : tokens.tail ⊆ all :=
  List.Subset.trans (List.tail_subset tokens) h

namespace OrderlyAt

theorem zero (source : String) (all : List Token) : OrderlyAt source all 0 :=
  ⟨fun _ _ => .early, fun _ _ _ => .early, fun _ _ => .early, fun _ _ => .early,
    fun _ _ => .early⟩

theorem product_succ (h : OrderlyAt source all depth) (htokens : tokens ⊆ all) :
    Orderly source all (readProduct source (depth + 1) tokens) := by
  rw [readProduct]
  refine (h.term tokens htokens).bind fun left rest hrest => ?_
  exact h.factors left rest hrest

theorem factors_succ (h : OrderlyAt source all depth) (left : Expression)
    (htokens : tokens ⊆ all) :
    Orderly source all (readFactors source (depth + 1) left tokens) := by
  -- A factor may stand behind a sign or beside the one before it.
  have hfactor (combine : Expression → Expression) {tokens : List Token} (ht : tokens ⊆ all) :
      Orderly source all (readTerm source depth tokens >>= fun x =>
        readFactors source depth (combine x.1) x.2) := by
    refine (h.term tokens ht).bind fun right rest hrest => ?_
    exact h.factors (combine right) rest hrest
  rw [readFactors]
  split
  · exact hfactor (.mul left) (tail_subset_of_subset htokens)
  split
  · exact hfactor (.div left) (tail_subset_of_subset htokens)
  split
  · exact hfactor (.mul left) htokens
  · exact htokens

theorem term_succ (h : OrderlyAt source all depth) (htokens : tokens ⊆ all) :
    Orderly source all (readTerm source (depth + 1) tokens) := by
  rw [readTerm]
  split
  · refine (h.term tokens.tail (tail_subset_of_subset htokens)).bind fun e rest hrest => ?_
    exact hrest
  · exact h.power tokens htokens

theorem power_succ (h : OrderlyAt source all depth) (htokens : tokens ⊆ all) :
    Orderly source all (readPower source (depth + 1) tokens) := by
  rw [readPower]
  refine (h.atom tokens htokens).bind fun base rest hrest => ?_
  dsimp only
  split
  · refine (h.term rest.tail (tail_subset_of_subset hrest)).bind fun exponent after hafter => ?_
    exact hafter
  · exact hrest

/-- A number that has its form is read and breaks nothing. -/
theorem atom_succ (hall : Token.AllWellFormed all) (h : OrderlyAt source all depth)
    (htokens : tokens ⊆ all) :
    Orderly source all (readAtom source (depth + 1) tokens) := by
  match tokens with
  | [] => exact .early
  | ⟨.number n, position⟩ :: rest =>
    have hn : n.WellFormed := hall _ (List.cons_subset.mp htokens).1
    rw [readAtom_number hn]
    exact (List.cons_subset.mp htokens).2
  | ⟨.name text, position⟩ :: rest => exact (List.cons_subset.mp htokens).2
  | ⟨.operator .opening, position⟩ :: rest =>
    rw [readAtom]
    refine (h.product rest (List.cons_subset.mp htokens).2).bind fun e after hafter => ?_
    dsimp only
    split
    · exact tail_subset_of_subset hafter
    · exact .unclosed
  | ⟨.operator .star, _⟩ :: _ | ⟨.operator .slash, _⟩ :: _ | ⟨.operator .caret, _⟩ :: _
  | ⟨.operator .doubleStar, _⟩ :: _ | ⟨.operator .minus, _⟩ :: _ | ⟨.operator .plus, _⟩ :: _
  | ⟨.operator .closing, _⟩ :: _ => exact .operator (List.cons_subset.mp htokens).1

end OrderlyAt

theorem orderlyAt (source : String) (hall : Token.AllWellFormed all) (depth : Nat) :
    OrderlyAt source all depth := by
  induction depth with
  | zero => exact .zero source all
  | succ depth ih =>
    exact ⟨fun _ => ih.product_succ, fun left _ => ih.factors_succ left, fun _ => ih.term_succ,
      fun _ => ih.power_succ, fun _ => ih.atom_succ hall⟩

/-- Reading tokens that have their forms fails only because they break the grammar. -/
theorem breaks_of_ofTokens {err : Error} (hw : Token.AllWellFormed tokens)
    (h : ofTokens source tokens = .error err) :
    Breaks source tokens err := by
  have horderly : Orderly source tokens (readProduct source (4 * (tokens.length + 1)) tokens) :=
    (orderlyAt source hw _).product tokens (List.Subset.refl tokens)
  rw [ofTokens] at h
  split at h
  · next hempty =>
    cases h
    exact .empty (List.isEmpty_iff.mp hempty)
  · cases hread : readProduct source (4 * (tokens.length + 1)) tokens with
    | error e =>
      rw [hread] at h horderly
      cases h
      exact horderly
    | ok x =>
      obtain ⟨e, rest⟩ := x
      rw [hread] at h horderly
      cases rest with
      | nil => cases h
      | cons t rest =>
        cases h
        exact .trailing (List.cons_subset.mp horderly).1

/-! ### Numbers -/

/-- **Numbers in expressions are literals**: the text of a number that is scanned is read as a
literal, which has the positional value of its digits and is not negative, an operand that is a
number is read as that value without fail, and so the tokens of a text are refused for breaking the
grammar alone. -/
theorem numbers_read_as_literals {text : String} {tokens : List Token}
    (h : Token.ofText text = .ok tokens) :
    (∀ t ∈ tokens, ∀ n, t.lexeme = .number n → n.WellFormed ∧
      Literal.read (String.ofList t.lexeme.text) = .ok n.positionalValue ∧
      0 ≤ n.positionalValue ∧
      ∀ source depth rest, readAtom source (depth + 1) (t :: rest) =
        .ok (.number n.positionalValue, rest)) ∧
    ∀ err, ofText text = .error err → Breaks text tokens err := by
  have hw : Token.AllWellFormed tokens := Token.allWellFormed_of_ofText h
  constructor
  · intro t ht n hn
    obtain ⟨l, position⟩ := t
    obtain rfl : l = .number n := hn
    have hwellFormed : n.WellFormed := hw _ ht
    refine ⟨hwellFormed, Literal.read_numeral hwellFormed, n.positionalValue_nonneg,
      fun source depth rest => ?_⟩
    rw [readAtom_number hwellFormed, hwellFormed.value_eq]
  · intro err herr
    rw [ofText_of_tokens h] at herr
    exact breaks_of_ofTokens hw herr

/-- A numeral is read behind its double mark and its separators; what breaks the grammar is the
plus sign, not the number behind it. -/
theorem numbers_read_as_literals_plus :
    ∃ tokens, Token.ofText "1_2.5_0ee٢ m + .5" = .ok tokens ∧
      Literal.read "1_2.5_0ee٢" = .ok 1250 ∧
      ∃ err, ofText "1_2.5_0ee٢ m + .5" = .error err ∧ Breaks "1_2.5_0ee٢ m + .5" tokens err := by
  let n : Numeral := ⟨['1', '_', '2'], true, ['5', '_', '0'], some ⟨['e', 'e'], [], ['٢']⟩⟩
  have htokens : Token.ofText "1_2.5_0ee٢ m + .5" = .ok
      [⟨.number n, 0⟩, ⟨.name ['m'], 11⟩, ⟨.operator .plus, 13⟩,
        ⟨.number ⟨[], true, ['5'], none⟩, 15⟩] := by decide +kernel
  have herr : ofText "1_2.5_0ee٢ m + .5" = .error (.trailingInput 13 "+ .5") := by decide +kernel
  have hvalue : n.positionalValue = 1250 := by decide +kernel
  obtain ⟨hnumbers, hbreaks⟩ := numbers_read_as_literals htokens
  obtain ⟨-, hread, -, -⟩ := hnumbers ⟨.number n, 0⟩ List.mem_cons_self n rfl
  rw [hvalue] at hread
  exact ⟨_, htokens, hread, _, herr, hbreaks _ herr⟩

end Metrology.Expression
