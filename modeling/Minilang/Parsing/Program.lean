import Minilang.Parsing.Statements

/-!
# Parsing programs

A program is a sequence of declarations. A function is declared behind its parameters and result type and
before its body, so that its body can call it.
-/

namespace Minilang

namespace Parser

/-- A parameter: its name, a colon and its type. -/
def parameter (fuel : Nat) : Parser DeclId := do
  let name ← expectIdentifier
  expectSign .colon
  let type ← typeWithin fuel
  check (Analysis.declareParameter name type)

/-- The parameters of a function, up to the right parenthesis that follows them. -/
def parameters (fuel : Nat) : Parser (List DeclId) := do
  match ← peek with
  | .punctuation .rightParen => return []
  | _ => sepByComma (parameter fuel) fuel

/-- A function: `def`, its name, its parameters in parentheses, `->`, its result type and its body. -/
def function (fuel : Nat) : Parser DeclId := do
  expectWord .defWord
  let name ← expectIdentifier
  expectSign .leftParen
  check Analysis.enterParameterScope
  let parameters ← parameters fuel
  expectSign .rightParen
  expectSign .arrow
  let result ← typeWithin fuel
  check Analysis.leaveScope
  let declaration ← check (Analysis.declareFunction name parameters result)
  let body ← block (statementWithin fuel) fuel
  check (Analysis.defineFunction declaration body)

/-- A declaration at the top of a program. -/
def declaration (fuel : Nat) : Parser DeclId := do
  match ← peek with
  | .keyword .varWord => object .var fuel
  | .keyword .letWord => object .const fuel
  | .keyword .defWord =>
    match (← lookahead 2).kind with
    | .punctuation .colon => object .value fuel
    | .punctuation .leftParen => function fuel
    | _ => misplacedDefinition .colonOrParameters
  | _ => unexpected .declaration

/-- Declarations up to the end of input; one of them per unit of fuel. -/
def declarations (item : Parser DeclId) : (fuel : Nat) → Parser (List DeclId)
  | 0 => exhausted
  | fuel + 1 => do
    match ← peek with
    | .endOfInput => return []
    | _ => do
      let first ← item
      return first :: (← declarations item fuel)

/-- A whole program with a name. -/
def program (name : String) (fuel : Nat) : Parser DeclId := do
  check Analysis.enterGlobalScope
  let declarations ← declarations (declaration fuel) fuel
  check Analysis.leaveScope
  check (Analysis.addProgram name declarations)

end Parser

/-- Parse and analyze the program that a stream spells. There is fuel for more rounds than tokens. -/
def parseStream (name : String) (tokens : TokenStream) : Except Diagnostic Program :=
  match StateT.run (Parser.program name (tokens.length + 1)) ⟨tokens, .initial⟩ with
  | .ok (root, state) => .ok (state.analysis.program root)
  | .error error => .error error

/-- Read, parse and analyze the program in a text. -/
def parse (source : Source) : Except Diagnostic Program :=
  parseStream source.name (.ofSource source)

/-- Parse and analyze the program that the given tokens spell; the last of them is repeated for ever. -/
def parseTokens (name : String) (tokens : List Token) : Except Diagnostic Program :=
  parseStream name (.ofTokens tokens)

end Minilang
