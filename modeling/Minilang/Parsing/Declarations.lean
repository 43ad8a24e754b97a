import Minilang.Analysis.Declaration
import Minilang.Parsing.Expressions

/-!
# Parsing declarations of objects

A variable, constant or value is declared with its name and type before its initializer is parsed.
-/

namespace Minilang

namespace ObjectKind

/-- The word that a declaration of an object starts with. -/
def keyword : ObjectKind → Keyword
  | var => .varWord
  | const => .letWord
  | value => .defWord

end ObjectKind

namespace Parser

/-- An object: word `:` name type `=` expression `;`, with the name in front of the colon. -/
def object (kind : ObjectKind) (fuel : Nat) : Parser DeclId := do
  expectWord kind.keyword
  let name ← expectIdentifier
  expectSign .colon
  let type ← typeWithin fuel
  let declaration ← check (Analysis.declareObject kind name type)
  expectSign .assign
  let initializer ← expressionWithin fuel
  expectSign .semicolon
  check (Analysis.defineObject declaration initializer)

/-- A `def` whose name is followed by none of what may follow it. -/
def misplacedDefinition (expected : Expectation) : Parser DeclId := do
  let _ ← next
  let _ ← expectIdentifier
  unexpected expected

/-- A declaration inside a function. A `def` declares a value here, never a function. -/
def localDeclaration (fuel : Nat) : Parser DeclId := do
  match ← peek with
  | .keyword .varWord => object .var fuel
  | .keyword .letWord => object .const fuel
  | .keyword .defWord =>
    match (← lookahead 2).kind with
    | .punctuation .colon => object .value fuel
    | _ => misplacedDefinition (.token (.punctuation .colon))
  | _ => unexpected .declaration

end Parser

end Minilang
