import Minilang.Diagnostic.Basic
import Minilang.Token.Spelling

/-!
# Lexemes

Reading one lexeme from the front of a text gives a kind or an error, and the number of characters
that were read. What was read before an error stays read.
-/

namespace Minilang

/-- The outcome of reading from the front of a text. -/
structure Reading (α : Type) where
  /-- What was read, or why reading failed. -/
  outcome : Except LexicalError α
  /-- The number of characters that were read. -/
  length : Nat

namespace Lexeme

/-- Whether a word can start with a character. -/
def isWordStart (character : Char) : Bool := character.isAlpha || character == '_'

/-- Whether a word can go on with a character. -/
def isWordPart (character : Char) : Bool := character.isAlphanum || character == '_'

/-- Whether a character is a digit of a base. -/
def isDigitOf (radix : Radix) (character : Char) : Bool :=
  match radix with
  | .binary => character == '0' || character == '1'
  | .decimal => character.isDigit
  | .hexadecimal =>
    character.isDigit || ('a' ≤ character && character ≤ 'f') ||
      ('A' ≤ character && character ≤ 'F')

/-- The number that a digit stands for. -/
def digitValue (digit : Char) : Nat :=
  if digit.isDigit then digit.toNat - '0'.toNat
  else if 'a' ≤ digit then digit.toNat - 'a'.toNat + 10
  else digit.toNat - 'A'.toNat + 10

/-- The number that a run of digits stands for. -/
def digitsValue (radix : Radix) (digits : List Char) : Nat :=
  digits.foldl (fun value digit => radix.base * value + digitValue digit) 0

/-- The integer that a run of digits denotes, if it fits into 63 bits. -/
def integerOf (radix : Radix) (digits : List Char) : Except LexicalError TokenKind :=
  let value := digitsValue radix digits
  if (value : Int) ≤ Int64.maxValue.toInt then .ok (.integer (Int64.ofNat value) radix)
  else .error (.integerOverflow (radix.marker ++ String.ofList digits))

/-- The character that a backslash makes of the one behind it. -/
def escaped? : Char → Option Char
  | 'a' => some '\x07'
  | 'b' => some '\x08'
  | 'f' => some '\x0c'
  | 'n' => some '\n'
  | 'r' => some '\r'
  | 't' => some '\t'
  | 'v' => some '\x0b'
  | '\'' => some '\''
  | '"' => some '"'
  | '\\' => some '\\'
  | _ => none

/-- Why a backslash cannot stand before a character. -/
def escapeError (character : Char) : LexicalError :=
  if character = '\n' then .newlineInLiteral else .invalidEscape character

/-- A reserved word or a name. -/
def word (text : List Char) : Reading TokenKind :=
  let letters := text.takeWhile isWordPart
  let kind := (TokenKind.spelledBy? TokenKind.reservedWords letters).getD
    (.identifier (String.ofList letters))
  ⟨.ok kind, letters.length⟩

/-- An integer behind the marker of its base; the text starts behind the marker. -/
def marked (radix : Radix) (text : List Char) : Reading TokenKind :=
  let digits := text.takeWhile (isDigitOf radix)
  if digits.isEmpty then ⟨.error (.missingDigits radix), 2⟩
  else ⟨integerOf radix digits, 2 + digits.length⟩

/-- A decimal integer, or a floating-point number if a point and a digit follow. -/
def decimal (text : List Char) : Reading TokenKind :=
  let digits := text.takeWhile Char.isDigit
  let fraction := match text.drop digits.length with
    | '.' :: rest => rest.takeWhile Char.isDigit
    | _ => []
  if fraction.isEmpty then ⟨integerOf .decimal digits, digits.length⟩
  else ⟨.ok (.float (Binary64.ofDigits false digits fraction)), digits.length + 1 + fraction.length⟩

/-- A number. -/
def number : List Char → Reading TokenKind
  | '0' :: 'b' :: rest | '0' :: 'B' :: rest => marked .binary rest
  | '0' :: 'x' :: rest | '0' :: 'X' :: rest => marked .hexadecimal rest
  | text => decimal text

/-- One character inside a literal, a backslash and the character behind it counting as one. -/
def literalCharacter : List Char → Reading Char
  | [] => ⟨.error .unterminatedCharacter, 0⟩
  | ['\\'] => ⟨.error .unterminatedEscape, 1⟩
  | '\\' :: behind :: _ =>
    match escaped? behind with
    | some character => ⟨.ok character, 2⟩
    | none => ⟨.error (escapeError behind), 2⟩
  | character :: _ => ⟨.ok character, 1⟩

/-- What ends a character literal behind its one character. -/
def characterEnd (character : Char) (length : Nat) : List Char → Reading TokenKind
  | '\'' :: _ => ⟨.ok (.character character), length + 1⟩
  | [] => ⟨.error .unterminatedCharacter, length⟩
  | '\n' :: _ => ⟨.error .newlineInLiteral, length⟩
  | _ => ⟨.error .multipleCharacters, length⟩

/-- A character literal; the text starts behind the opening quote. -/
def characterLiteral : List Char → Reading TokenKind
  | [] => ⟨.error .unterminatedCharacter, 0⟩
  | '\'' :: _ => ⟨.error .emptyCharacter, 0⟩
  | '\n' :: _ => ⟨.error .newlineInLiteral, 0⟩
  | text =>
    let reading := literalCharacter text
    match reading.outcome with
    | .ok character => characterEnd character reading.length (text.drop reading.length)
    | .error error => ⟨.error error, reading.length⟩

/-- Put a character, read from a number of characters of the text, in front of a string. -/
def consCharacter (character : Char) (length : Nat) (string : Reading (List Char)) :
    Reading (List Char) :=
  ⟨string.outcome.map (character :: ·), length + string.length⟩

/-- The characters of a string literal; the text starts behind the opening quote. -/
def stringCharacters : List Char → Reading (List Char)
  | [] => ⟨.error .unterminatedString, 0⟩
  | '"' :: _ => ⟨.ok [], 1⟩
  | '\n' :: _ => ⟨.error .newlineInLiteral, 0⟩
  | ['\\'] => ⟨.error .unterminatedEscape, 1⟩
  | '\\' :: behind :: rest =>
    match escaped? behind with
    | some character => consCharacter character 2 (stringCharacters rest)
    | none => ⟨.error (escapeError behind), 2⟩
  | character :: rest => consCharacter character 1 (stringCharacters rest)

/-- A string literal; the text starts behind the opening quote. -/
def stringLiteral (text : List Char) : Reading TokenKind :=
  let reading := stringCharacters text
  ⟨reading.outcome.map fun characters => .string (String.ofList characters), reading.length⟩

/-- An operator or punctuation, the longer one if two fit. -/
def sign (first : Char) (rest : List Char) : Reading TokenKind :=
  match TokenKind.spelledBy? TokenKind.longOperators (first :: rest.take 1) with
  | some kind => ⟨.ok kind, 2⟩
  | none =>
    match TokenKind.spelledBy? TokenKind.shortOperators [first] with
    | some kind => ⟨.ok kind, 1⟩
    | none => ⟨.error (.invalidCharacter first), 0⟩

/-- Read behind an opening quote that counts as one character. -/
def behindQuote (reading : Reading TokenKind) : Reading TokenKind :=
  ⟨reading.outcome, reading.length + 1⟩

/-- The lexeme at the front of a text that starts with no blank. -/
def read : List Char → Reading TokenKind
  | [] => ⟨.ok .endOfInput, 0⟩
  | first :: rest =>
    if first.isDigit then number (first :: rest)
    else if isWordStart first then word (first :: rest)
    else if first = '\'' then behindQuote (characterLiteral rest)
    else if first = '"' then behindQuote (stringLiteral rest)
    else sign first rest

/-- Whether a character separates lexemes. -/
def isBlank (character : Char) : Bool :=
  character == ' ' || character == '\t' || character == '\r' || character == '\n'

/-- The number of characters before the next lexeme: blanks, and comments from a `#` up to the end of
the line. The flag tells whether the text starts inside a comment. -/
def gapLength : (inComment : Bool) → List Char → Nat
  | _, [] => 0
  | true, character :: rest => 1 + gapLength (character != '\n') rest
  | false, character :: rest =>
    if isBlank character then 1 + gapLength false rest
    else if character = '#' then 1 + gapLength true rest
    else 0

end Lexeme

end Minilang
