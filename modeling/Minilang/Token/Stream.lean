import Minilang.Token.Scanner

/-!
# Token streams

What can be read from a text: tokens, and then either the end of input for ever or an error. The error
shows only to those who look that far ahead.
-/

namespace Minilang

/-- Tokens up to the end of a text, or up to where it cannot be read. -/
inductive TokenStream where
  /-- A token, and what follows it. -/
  | token (first : Token) (rest : TokenStream)
  /-- The end of input, from here on again and again. -/
  | finished (last : Token)
  /-- No more tokens can be read. -/
  | failed (error : Diagnostic)
deriving DecidableEq, Repr

namespace TokenStream

/-- What the scanner reads, one token per unit of fuel. -/
def readWithin : Nat → Scanner → TokenStream
  | 0, _ => failed (.internal .nestingTooDeep)
  | fuel + 1, scanner =>
    match scanner.scan with
    | (.error error, _) => failed error
    | (.ok read, rest) =>
      if read.kind = .endOfInput then finished read else token read (readWithin fuel rest)

/-- What can be read from a text. -/
def ofSource (source : Source) : TokenStream :=
  let scanner := Scanner.ofSource source
  readWithin (scanner.rest.length + 1) scanner

/-- The stream of given tokens, the last of which is repeated for ever. -/
def ofTokens : List Token → TokenStream
  | [] => finished ⟨.endOfInput, .unknown⟩
  | [last] => finished last
  | first :: rest => token first (ofTokens rest)

/-- The number of tokens before the end. -/
def length : TokenStream → Nat
  | token _ rest => rest.length + 1
  | finished _ | failed _ => 0

/-- The token at a distance, or the error that stands before it. -/
def lookahead : TokenStream → Nat → Except Diagnostic Token
  | token first _, 0 => .ok first
  | token _ rest, distance + 1 => rest.lookahead distance
  | finished last, _ => .ok last
  | failed error, _ => .error error

/-- What follows the first token. -/
def rest : TokenStream → TokenStream
  | token _ rest => rest
  | finished last => finished last
  | failed error => failed error

end TokenStream

end Minilang
