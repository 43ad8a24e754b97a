import Minilang.Token.Lexeme

/-!
# Scanning

A scanner reads the tokens of a text one after another. It goes on after an error from where reading
stopped, and at the end of the text it gives the end of input again and again.
-/

namespace Minilang

/-- A text with a name. -/
structure Source where
  /-- The name used in locations. -/
  name : String
  /-- The characters of the text. -/
  text : String
deriving DecidableEq, Repr

/-- What is left of a text, and the place where it starts. -/
structure Scanner where
  /-- The name used in locations. -/
  file : String
  /-- The characters that have not been read. -/
  rest : List Char
  /-- The place of the first of them. -/
  position : Position
deriving DecidableEq, Repr

namespace Scanner

/-- The scanner at the start of a text. -/
def ofSource (source : Source) : Scanner := ⟨source.name, source.text.toList, .start⟩

/-- The location of the next character. -/
def location (scanner : Scanner) : Location := .inFile scanner.file scanner.position

/-- Move over a number of characters. -/
def advance (scanner : Scanner) (count : Nat) : Scanner where
  file := scanner.file
  rest := scanner.rest.drop count
  position := scanner.position.afterText (scanner.rest.take count)

/-- Move to the next lexeme. -/
def skipGap (scanner : Scanner) : Scanner :=
  scanner.advance (Lexeme.gapLength false scanner.rest)

/-- Read one token. A token and an error alike are located where their lexeme starts. -/
def scan (scanner : Scanner) : Except Diagnostic Token × Scanner :=
  let start := scanner.skipGap
  let reading := Lexeme.read start.rest
  let outcome := match reading.outcome with
    | .ok kind => .ok ⟨kind, start.location⟩
    | .error error => .error (.lexical start.location error)
  (outcome, start.advance reading.length)

/-- Read tokens up to the end of input or the first error. -/
def tokensWithin : Nat → Scanner → Except Diagnostic (List Token)
  | 0, _ => .error (.internal .nestingTooDeep)
  | fuel + 1, scanner =>
    match scanner.scan with
    | (.error error, _) => .error error
    | (.ok token, rest) =>
      if token.kind = .endOfInput then .ok [token]
      else (tokensWithin fuel rest).map (token :: ·)

/-- All tokens of what is left, the end of input last. Every other token takes a character at least,
so the characters bound the number of tokens. -/
def tokens (scanner : Scanner) : Except Diagnostic (List Token) :=
  tokensWithin (scanner.rest.length + 1) scanner

end Scanner

/-- All tokens of a text, the end of input last, or the first error. -/
def tokenize (source : Source) : Except Diagnostic (List Token) :=
  (Scanner.ofSource source).tokens

end Minilang
