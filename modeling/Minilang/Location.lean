/-!
# Source locations

Positions are counted in lines and columns from one, every character takes one column, and only a
newline starts a line. A location is a position in a named file, or the unknown location of what the
compiler makes up itself.
-/

namespace Minilang

/-- A place in a text, counted from line one and column one. -/
structure Position where
  /-- Number of the line. -/
  line : Nat
  /-- Number of the character within its line. -/
  column : Nat
deriving DecidableEq, Repr

namespace Position

/-- The place of the first character of a text. -/
def start : Position := ⟨1, 1⟩

/-- The place just behind a character that stands here. -/
def after (position : Position) (character : Char) : Position :=
  if character = '\n' then ⟨position.line + 1, 1⟩ else ⟨position.line, position.column + 1⟩

/-- The place just behind a whole run of characters that starts here. -/
def afterText (position : Position) (text : List Char) : Position :=
  text.foldl after position

@[simp]
theorem afterText_nil (position : Position) : position.afterText [] = position := rfl

@[simp]
theorem afterText_cons (position : Position) (character : Char) (text : List Char) :
    position.afterText (character :: text) = (position.after character).afterText text := rfl

theorem afterText_append (position : Position) (left right : List Char) :
    position.afterText (left ++ right) = (position.afterText left).afterText right := by
  simp [afterText]

end Position

/-- Where a token, a node or an error belongs. -/
inductive Location where
  /-- The location of what no source text spells out. -/
  | unknown
  /-- A position in the file of the given name. -/
  | inFile (file : String) (position : Position)
deriving DecidableEq, Repr

namespace Location

/-- A location as it is shown to users: `file:line:column`. -/
def text : Location → String
  | unknown => "<unknown>"
  | inFile file position => s!"{file}:{position.line}:{position.column}"

end Location

end Minilang
