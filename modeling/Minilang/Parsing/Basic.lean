import Minilang.Analysis.Basic
import Minilang.Token.Stream

/-!
# Parsers

A parser consumes tokens and takes the steps of analysis as soon as it has recognized what they are for.
So the first fault in reading order is the one that is reported, be it in the characters, in the grammar
or in the meaning.
-/

namespace Minilang

/-- What a parser works on. -/
structure ParserState where
  /-- The tokens that have not been consumed. -/
  tokens : TokenStream
  /-- How far the analysis has come. -/
  analysis : Analysis
deriving DecidableEq, Repr

/-- A parser either fails or gives a result and the state behind it. -/
abbrev Parser (α : Type) : Type := StateT ParserState (Except Diagnostic) α

namespace Parser

/-- Give up because the fuel has run out. Every round consumes a token, and there is fuel for more
rounds than there are tokens, so this does not happen. -/
def exhausted {α : Type} : Parser α := throw (.internal .nestingTooDeep)

/-- Take a step of analysis. -/
def check {α : Type} (step : Check α) : Parser α := fun ⟨tokens, analysis⟩ =>
  match step.run analysis with
  | (.ok result, analysis) => .ok (result, ⟨tokens, analysis⟩)
  | (.error error, _) => .error error

/-- The token at a distance. -/
def lookahead (distance : Nat) : Parser Token := do
  match (← get).tokens.lookahead distance with
  | .ok token => return token
  | .error error => throw error

/-- The kind of the next token. -/
def peek : Parser TokenKind := return (← lookahead 0).kind

/-- Consume the next token. -/
def next : Parser Token := do
  let token ← lookahead 0
  modify fun state => { state with tokens := state.tokens.rest }
  return token

/-- Consume the next token if its kind is accepted. -/
def consumeIf (accepts : TokenKind → Bool) : Parser (Option Token) := do
  let token ← lookahead 0
  if accepts token.kind then return some (← next) else return none

/-- Consume the next token if it is of a kind. -/
def consume (kind : TokenKind) : Parser Bool := return (← consumeIf (· == kind)).isSome

/-- Fail because the next token does not fit the grammar. -/
def unexpected {α : Type} (expected : Expectation) : Parser α := do
  let found ← lookahead 0
  throw (.unexpected found.location expected found.kind)

/-- Consume a token of a kind. -/
def expect (kind : TokenKind) : Parser Unit := do
  if ← consume kind then return else unexpected (.token kind)

/-- Consume a sign. -/
def expectSign (sign : Punctuation) : Parser Unit := expect (.punctuation sign)

/-- Consume a sign if it is there. -/
def consumeSign (sign : Punctuation) : Parser Bool := consume (.punctuation sign)

/-- Consume a reserved word. -/
def expectWord (word : Keyword) : Parser Unit := expect (.keyword word)

/-- Consume a name. -/
def expectIdentifier : Parser Token := do
  match ← consumeIf fun kind => kind matches .identifier _ with
  | some token => return token
  | none => unexpected .identifier

/-- At least one item, with commas between the items; one item per unit of fuel. -/
def sepByComma {α : Type} (item : Parser α) : (fuel : Nat) → Parser (List α)
  | 0 => exhausted
  | fuel + 1 => do
    let first ← item
    if ← consumeSign .comma then return first :: (← sepByComma item fuel) else return [first]

/-- Any number of items up to a closing sign, which is consumed; one item per unit of fuel. -/
def manyUntil {α : Type} (closing : Punctuation) (item : Parser α) : (fuel : Nat) → Parser (List α)
  | 0 => exhausted
  | fuel + 1 => do
    if ← consumeSign closing then return []
    let first ← item
    return first :: (← manyUntil closing item fuel)

end Parser

end Minilang
