import Metrology.Expression.Token
import Metrology.Expression.Tree
import Metrology.Number.Literal

/-!
# Reading expressions

The grammar is

    expression := term (('*' | '/' | nothing) term)*
    term       := '-' term | power
    power      := atom [('^' | '**') term]
    atom       := number | name | '(' expression ')'

Products and quotients associate to the left, and two factors side by side are multiplied with the
same precedence as by a star; what stands beside a factor without an operator begins with a number,
a name or a parenthesis, so that a minus sign never begins such a factor. A power binds more
tightly than a minus sign before it, and its exponent may have a minus sign of its own.

There is one function for each rule. Each takes the tokens off the front of a list and gives the
tree with the tokens that follow; the natural number bounds how deeply the rules nest, and four
levels for each token suffice.
-/

namespace Metrology

namespace Token

/-- Whether the first token is the given operator. -/
def startsWith (op : Operator) : List Token → Bool
  | ⟨.operator o, _⟩ :: _ => o = op
  | _ => false

/-- Whether the first token begins an atom. -/
def startsAtom : List Token → Bool
  | ⟨.number _, _⟩ :: _ => true
  | ⟨.name _, _⟩ :: _ => true
  | ⟨.operator .opening, _⟩ :: _ => true
  | _ => false

end Token

namespace Expression

mutual

/-- Reads an expression: a term and the factors that follow it. -/
def readProduct (source : String) : Nat → List Token → Outcome (Expression × List Token)
  | 0, _ => .error (.unexpectedEnd source)
  | depth + 1, tokens => do
    let (left, rest) ← readTerm source depth tokens
    readFactors source depth left rest

/-- Reads the factors that follow `left`, which are multiplied to it or divide it. -/
def readFactors (source : String) :
    Nat → Expression → List Token → Outcome (Expression × List Token)
  | 0, _, _ => .error (.unexpectedEnd source)
  | depth + 1, left, tokens =>
    if Token.startsWith .star tokens then do
      let (right, rest) ← readTerm source depth tokens.tail
      readFactors source depth (.mul left right) rest
    else if Token.startsWith .slash tokens then do
      let (right, rest) ← readTerm source depth tokens.tail
      readFactors source depth (.div left right) rest
    else if Token.startsAtom tokens then do
      -- Two factors side by side.
      let (right, rest) ← readTerm source depth tokens
      readFactors source depth (.mul left right) rest
    else .ok (left, tokens)

/-- Reads a term: a power, perhaps with minus signs before it. -/
def readTerm (source : String) : Nat → List Token → Outcome (Expression × List Token)
  | 0, _ => .error (.unexpectedEnd source)
  | depth + 1, tokens =>
    if Token.startsWith .minus tokens then do
      let (e, rest) ← readTerm source depth tokens.tail
      return (.neg e, rest)
    else readPower source depth tokens

/-- Reads an atom, perhaps with an exponent behind it. -/
def readPower (source : String) : Nat → List Token → Outcome (Expression × List Token)
  | 0, _ => .error (.unexpectedEnd source)
  | depth + 1, tokens => do
    let (base, rest) ← readAtom source depth tokens
    if Token.startsWith .caret rest || Token.startsWith .doubleStar rest then
      let (exponent, after) ← readTerm source depth rest.tail
      return (.pow base exponent, after)
    else return (base, rest)

/-- Reads a number, a name, or an expression in parentheses. -/
def readAtom (source : String) : Nat → List Token → Outcome (Expression × List Token)
  | 0, _ => .error (.unexpectedEnd source)
  | depth + 1, tokens =>
    match tokens with
    | [] => .error (.unexpectedEnd source)
    | ⟨.number numeral, _⟩ :: rest => do
      -- What was scanned as a number is read by itself, as every literal is.
      let q ← Literal.read (String.ofList numeral.text)
      return (.number q, rest)
    | ⟨.name text, _⟩ :: rest => .ok (.name (String.ofList text), rest)
    | ⟨.operator .opening, _⟩ :: rest => do
      let (e, after) ← readProduct source depth rest
      if Token.startsWith .closing after then return (e, after.tail)
      else throw (.unclosedParenthesis source)
    | ⟨.operator op, position⟩ :: _ =>
      .error (.expectedAtom position (String.ofList op.text))

end

/-- The expression that a list of tokens writes, which are those of the text `source`. -/
def ofTokens (source : String) (tokens : List Token) : Outcome Expression :=
  if tokens.isEmpty then .error .emptyExpression
  else do
    let (e, rest) ← readProduct source (4 * (tokens.length + 1)) tokens
    match rest with
    | [] => return e
    | token :: _ =>
      throw (.trailingInput token.position (Token.excerpt (source.toList.drop token.position)))

/-- The expression that a text writes. -/
def ofText (text : String) : Outcome Expression := do
  ofTokens text (← Token.ofText text)

end Expression

end Metrology
