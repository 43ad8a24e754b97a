import Minilang.Binary64.Basic
import Minilang.Location

/-!
# Tokens

A token is a kind, with its value where the kind has one, and the location of its first character.
Names and strings are carried as their own texts.
-/

namespace Minilang

/-- Comparisons of two values. -/
inductive RelationalOperator where
  | eq | ne | lt | gt | le | ge
deriving DecidableEq, Repr

/-- Operators of arithmetic. -/
inductive ArithmeticOperator where
  | add | sub | mul | div | mod
deriving DecidableEq, Repr

/-- Operators on the bits of an integer. -/
inductive BitwiseOperator where
  | and | or | xor | shl | shr | not
deriving DecidableEq, Repr

/-- Operators on truth values. -/
inductive LogicalOperator where
  | and | or | not
deriving DecidableEq, Repr

/-- Types that have a word of their own. -/
inductive BasicType where
  | bool | char | int | float
deriving DecidableEq, Repr

/-- Bases in which integers are written. -/
inductive Radix where
  | binary | decimal | hexadecimal
deriving DecidableEq, Repr

namespace Radix

/-- The number of digits of a base. -/
def base : Radix → Nat
  | binary => 2
  | decimal => 10
  | hexadecimal => 16

/-- What an integer in this base starts with. -/
def marker : Radix → String
  | binary => "0b"
  | decimal => ""
  | hexadecimal => "0x"

end Radix

/-- Reserved words that are neither types nor truth values. -/
inductive Keyword where
  | defWord | ifWord | elseWord | varWord | letWord | asWord
  | breakWord | continueWord | returnWord | whileWord | whenWord
deriving DecidableEq, Repr

namespace Keyword

/-- How a reserved word is spelled. -/
def spelling : Keyword → String
  | defWord => "def"
  | ifWord => "if"
  | elseWord => "else"
  | varWord => "var"
  | letWord => "let"
  | asWord => "as"
  | breakWord => "break"
  | continueWord => "continue"
  | returnWord => "return"
  | whileWord => "while"
  | whenWord => "when"

end Keyword

/-- Tokens that stand for nothing but themselves and are written without letters. -/
inductive Punctuation where
  | leftBrace | rightBrace | leftParen | rightParen | leftBracket | rightBracket
  | comma | semicolon | colon | question | assign | arrow
deriving DecidableEq, Repr

namespace Punctuation

/-- How a punctuation token is spelled. -/
def spelling : Punctuation → String
  | leftBrace => "\x7b"
  | rightBrace => "\x7d"
  | leftParen => "("
  | rightParen => ")"
  | leftBracket => "["
  | rightBracket => "]"
  | comma => ","
  | semicolon => ";"
  | colon => ":"
  | question => "?"
  | assign => "="
  | arrow => "->"

end Punctuation

/-- What a token is, together with the value it carries. -/
inductive TokenKind where
  /-- The end of the text. -/
  | endOfInput
  /-- A bracket, separator or other sign without a value. -/
  | punctuation (sign : Punctuation)
  /-- A comparison. -/
  | relational (operator : RelationalOperator)
  /-- An arithmetic operator. -/
  | arithmetic (operator : ArithmeticOperator)
  /-- An operator on bits. -/
  | bitwise (operator : BitwiseOperator)
  /-- An operator on truth values. -/
  | logical (operator : LogicalOperator)
  /-- A reserved word. -/
  | keyword (word : Keyword)
  /-- The word of a type. -/
  | basicType (type : BasicType)
  /-- A name. -/
  | identifier (name : String)
  /-- An integer and the base it was written in. -/
  | integer (value : Int64) (radix : Radix)
  /-- A floating-point number. -/
  | float (value : Binary64)
  /-- A truth value. -/
  | boolean (value : Bool)
  /-- A character. -/
  | character (value : Char)
  /-- A string. -/
  | string (value : String)
deriving DecidableEq, Repr

/-- A token at its place. -/
structure Token where
  /-- What the token is. -/
  kind : TokenKind
  /-- Where its first character stands. -/
  location : Location
deriving DecidableEq, Repr

end Minilang
