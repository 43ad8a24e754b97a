import Minilang.Text.CodePointSet

/-!
# Blank characters

The code points with the Unicode property `White_Space`, and texts without blanks at their end.
-/

namespace Minilang

/-- The characters that count as blank. -/
def CodePointSet.blank : CodePointSet := ⟨
  [(0x9, 0xD), (0x20, 0x20), (0x85, 0x85), (0xA0, 0xA0), (0x1680, 0x1680), (0x2000, 0x200A),
    (0x2028, 0x2029), (0x202F, 0x202F), (0x205F, 0x205F), (0x3000, 0x3000)]⟩

namespace Text

/-- A text without the blank characters at its end. -/
def trimEnd (text : List Char) : List Char :=
  (text.reverse.dropWhile CodePointSet.blank.contains).reverse

end Text

end Minilang
