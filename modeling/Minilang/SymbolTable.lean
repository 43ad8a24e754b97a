/-!
# Symbol tables

A symbol table gives every distinct text one symbol, in the order in which the texts first come in.
-/

namespace Minilang

/-- What stands for a text: its place in the table. -/
structure Symbol where
  /-- The number of texts that came in before. -/
  index : Nat
deriving DecidableEq, Repr

/-- The texts that have a symbol, in the order of their symbols. -/
structure SymbolTable where
  /-- The texts, each of them once. -/
  texts : Array String
deriving DecidableEq, Repr

namespace SymbolTable

/-- The table without any text. -/
def empty : SymbolTable := ⟨#[]⟩

/-- The number of texts with a symbol. -/
def size (table : SymbolTable) : Nat := table.texts.size

/-- Whether no text has a symbol. -/
def isEmpty (table : SymbolTable) : Bool := table.texts.isEmpty

/-- The symbol of a text that has one. -/
def find? (table : SymbolTable) (text : String) : Option Symbol :=
  (table.texts.toList.findIdx? (· == text)).map Symbol.mk

/-- The symbol of a text, a new one if it had none. -/
def intern (table : SymbolTable) (text : String) : Symbol × SymbolTable :=
  match table.find? text with
  | some symbol => (symbol, table)
  | none => (⟨table.size⟩, ⟨table.texts.push text⟩)

/-- The text that a symbol stands for. -/
def text? (table : SymbolTable) (symbol : Symbol) : Option String := table.texts[symbol.index]?

/-- The symbol of a text stands for that text. -/
theorem text?_of_find? {table : SymbolTable} {text : String} {symbol : Symbol}
    (found : table.find? text = some symbol) : table.text? symbol = some text := by
  obtain ⟨index, position, rfl⟩ := Option.map_eq_some_iff.1 found
  obtain ⟨bound, same, _⟩ := List.findIdx?_eq_some_iff_getElem.1 position
  simp only [beq_iff_eq, Array.getElem_toList] at same
  simp only [Array.length_toList] at bound
  simp [text?, bound, same]

/-- The symbol that a text is given stands for that text. -/
theorem text?_intern (table : SymbolTable) (text : String) :
    (table.intern text).2.text? (table.intern text).1 = some text := by
  unfold intern
  split
  · next symbol found => exact text?_of_find? found
  · simp [text?, size]

end SymbolTable

end Minilang
