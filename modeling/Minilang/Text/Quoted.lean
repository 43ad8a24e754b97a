import Minilang.Text.GraphemeExtend
import Minilang.Text.Invisible

/-!
# Quoted characters and strings

A quoted text shows a character as itself, if it has a form of its own, and as an escape sequence
otherwise. Only the enclosing quote is escaped, and the backslash.
-/

namespace Minilang.Text

/-- The digits of a number in base sixteen, in lower case and without leading zeros. -/
def hexText (value : Nat) : List Char := Nat.toDigits 16 value

/-- The escape sequence for any character: its code point in braces. -/
def codePointEscape (character : Char) : List Char :=
  ['\\', 'u', '\x7b'] ++ hexText character.toNat ++ ['\x7d']

/-- Whether a character can only be shown together with the one before it. -/
def isAttached (character : Char) : Bool :=
  CodePointSet.graphemeExtend.contains character && !CodePointSet.halfwidthSoundMark.contains character

/-- Whether nothing is to be seen of a character. -/
def isInvisible (character : Char) : Bool :=
  CodePointSet.invisible.contains character || CodePointSet.filler.contains character

/-- Whether a character is shown as itself inside quotes. -/
def isShown (character : Char) : Bool :=
  if character.toNat < 0x7F then decide (0x20 ≤ character.toNat)
  else !isAttached character && !isInvisible character

/-- One character inside the given quotes. -/
def quotedChar (quote character : Char) : List Char :=
  if character = '\x00' then ['\\', '0']
  else if character = '\t' then ['\\', 't']
  else if character = '\r' then ['\\', 'r']
  else if character = '\n' then ['\\', 'n']
  else if character = '\\' ∨ character = quote then ['\\', character]
  else if isShown character then [character]
  else codePointEscape character

/-- A text between the given quotes. -/
def quoted (quote : Char) (text : List Char) : String :=
  String.ofList (quote :: text.flatMap (quotedChar quote) ++ [quote])

end Minilang.Text
