import Minilang.Parsing.Basic

/-!
# Parsing types

A type is a type word, a pointer `*T`, or a function type `(T, …) -> T`. References cannot be written.
-/

namespace Minilang.Parser

/-- A type behind a left parenthesis: a function type, over the parser of the types inside it. -/
def functionType (nested : Parser Ty) (fuel : Nat) : Parser Ty := do
  let parameters ←
    if ← consumeSign .rightParen then pure []
    else do
      let parameters ← sepByComma nested fuel
      expectSign .rightParen
      pure parameters
  expectSign .arrow
  let result ← nested
  return .function result parameters

/-- A type. Types inside it get less fuel. -/
def typeWithin : (fuel : Nat) → Parser Ty
  | 0 => exhausted
  | fuel + 1 => do
    match ← peek with
    | .basicType type => do
      let _ ← next
      return Ty.ofBasic type
    | .arithmetic .mul => do
      let _ ← next
      return .pointer (← typeWithin fuel)
    | .punctuation .leftParen => do
      let _ ← next
      functionType (typeWithin fuel) fuel
    | _ => unexpected .type

end Minilang.Parser
