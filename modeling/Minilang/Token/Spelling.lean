import Minilang.Binary64.Text
import Minilang.Text.Quoted
import Minilang.Token.Basic

/-!
# Spellings of tokens

Every token whose kind fixes its text has one spelling. Reading words and operators is looking up that
spelling, so the tables of reserved words and operators cannot disagree with how tokens are shown.
-/

namespace Minilang

namespace RelationalOperator

/-- How a comparison is spelled. -/
def spelling : RelationalOperator → String
  | eq => "=="
  | ne => "!="
  | lt => "<"
  | gt => ">"
  | le => "<="
  | ge => ">="

end RelationalOperator

namespace ArithmeticOperator

/-- How an arithmetic operator is spelled. -/
def spelling : ArithmeticOperator → String
  | add => "+"
  | sub => "-"
  | mul => "*"
  | div => "/"
  | mod => "%"

end ArithmeticOperator

namespace BitwiseOperator

/-- How an operator on bits is spelled. -/
def spelling : BitwiseOperator → String
  | and => "&"
  | or => "|"
  | xor => "^"
  | shl => "<<"
  | shr => ">>"
  | not => "~"

end BitwiseOperator

namespace LogicalOperator

/-- How an operator on truth values is spelled. -/
def spelling : LogicalOperator → String
  | and => "&&"
  | or => "||"
  | not => "!"

end LogicalOperator

namespace BasicType

/-- The word of a type. -/
def spelling : BasicType → String
  | bool => "bool"
  | char => "char"
  | int => "int"
  | float => "float"

end BasicType

namespace Text

/-- The digits of a number with letters in upper case. -/
def digitsIn (radix : Radix) (value : Nat) : String :=
  String.ofList ((Nat.toDigits radix.base value).map Char.toUpper)

/-- An integer as it is written in a base. Outside base ten a negative integer is shown by its 64
bits. -/
def integerText (value : Int64) (radix : Radix) : String :=
  match radix with
  | .decimal => toString value.toInt
  | radix => radix.marker ++ digitsIn radix value.toUInt64.toNat

end Text

namespace TokenKind

/-- The spelling of a kind that has exactly one. -/
def spelling? : TokenKind → Option String
  | punctuation sign => some sign.spelling
  | relational operator => some operator.spelling
  | arithmetic operator => some operator.spelling
  | bitwise operator => some operator.spelling
  | logical operator => some operator.spelling
  | keyword word => some word.spelling
  | basicType type => some type.spelling
  | boolean value => some (if value then "true" else "false")
  | _ => none

/-- A text between backquotes, as messages quote program text. -/
def inBackquotes (text : String) : String := s!"`{text}`"

/-- A kind as messages name it. Names and strings are named by their kind alone. -/
def description (kind : TokenKind) : String :=
  match kind with
  | endOfInput => "end of input"
  | identifier _ => "identifier"
  | string _ => "string literal"
  | integer value radix => "integer " ++ inBackquotes (Text.integerText value radix)
  | float value => "float " ++ inBackquotes (value.text .plain)
  | character value => "character " ++ Text.quoted '\'' [value]
  | kind => inBackquotes (kind.spelling?.getD "")

/-- The reserved words. -/
def reservedWords : List TokenKind :=
  [keyword .defWord, keyword .ifWord, keyword .elseWord, keyword .varWord, keyword .letWord,
    boolean true, boolean false, basicType .char, basicType .int, basicType .bool,
    basicType .float, keyword .asWord, keyword .breakWord, keyword .continueWord,
    keyword .returnWord, keyword .whileWord, keyword .whenWord]

/-- The operators of two characters. -/
def longOperators : List TokenKind :=
  [bitwise .shl, relational .le, bitwise .shr, relational .ge, relational .eq, relational .ne,
    logical .and, logical .or, punctuation .arrow]

/-- The operators and punctuation of one character. -/
def shortOperators : List TokenKind :=
  [punctuation .leftBrace, punctuation .rightBrace, punctuation .leftParen,
    punctuation .rightParen, punctuation .leftBracket, punctuation .rightBracket,
    punctuation .comma, punctuation .semicolon, punctuation .colon, relational .lt,
    relational .gt, punctuation .assign, arithmetic .add, arithmetic .sub, arithmetic .mul,
    arithmetic .div, arithmetic .mod, bitwise .and, bitwise .or, bitwise .xor, bitwise .not,
    logical .not, punctuation .question]

/-- The kind among the given ones that is spelled by the given text. -/
def spelledBy? (kinds : List TokenKind) (text : List Char) : Option TokenKind :=
  kinds.find? fun kind => kind.spelling? == some (String.ofList text)

end TokenKind

end Minilang
