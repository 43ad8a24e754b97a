import Minilang.Proofs.Token.LongestMatch

/-!
# Texts between quotes

Behind an opening quote stand characters and escapes, up to a closing quote or up to where the text breaks
off. Which of these comes first is said here without reading: every text comes to exactly one outcome, and
this is what is found at the quote (`scan_quoted`). Of a second character between single quotes only the
start is looked at, be it a backslash.
-/

namespace Minilang

namespace Lexeme

variable {body rest : List Char}

/-- What the text behind an opening double quote comes to: the characters that are spelled up to a closing
quote, or the fault at which it breaks off before. -/
inductive StringBody : List Char → Except LexicalError (List Char) → Prop
  | closed {text rest value : List Char} (spells : SpellsAll '"' text value) :
      StringBody (text ++ '"' :: rest) (.ok value)
  | broken {text rest value : List Char} {error : LexicalError} (spells : SpellsAll '"' text value)
      (breaks : BreaksOff .unterminatedString rest error) : StringBody (text ++ rest) (.error error)

/-- What the text behind an opening single quote comes to: the one character that is spelled in front of a
closing quote, or the fault that is met before. -/
inductive CharacterBody : List Char → Except LexicalError Char → Prop
  | closed {text rest : List Char} {value : Char} (spells : Spells '\'' text value) :
      CharacterBody (text ++ '\'' :: rest) (.ok value)
  | empty {rest : List Char} : CharacterBody ('\'' :: rest) (.error .emptyCharacter)
  | broken {rest : List Char} {error : LexicalError}
      (breaks : BreaksOff .unterminatedCharacter rest error) : CharacterBody rest (.error error)
  | unclosed {text : List Char} {value : Char} (spells : Spells '\'' text value) :
      CharacterBody text (.error .unterminatedCharacter)
  | newline {text rest : List Char} {value : Char} (spells : Spells '\'' text value) :
      CharacterBody (text ++ '\n' :: rest) (.error .newlineInLiteral)
  | second {text rest : List Char} {value next : Char} (spells : Spells '\'' text value)
      (unquoted : next ≠ '\'') (inline : next ≠ '\n') :
      CharacterBody (text ++ next :: rest) (.error .multipleCharacters)

/-! ## Strings -/

theorem BreaksOff.stringCharacters_eq {error : LexicalError}
    (breaks : BreaksOff .unterminatedString rest error) :
    (stringCharacters rest).outcome = .error error := by
  cases breaks with
  | newline | escapedNewline | unterminatedEscape | endOfText => rfl
  | invalidEscape unescaped inline => simp [stringCharacters, unescaped, escapeError, inline]

/-- What a text comes to is what is read of it. -/
theorem StringBody.outcome_eq {outcome : Except LexicalError (List Char)}
    (comes_to : StringBody body outcome) : (stringCharacters body).outcome = outcome := by
  cases comes_to with
  | closed spells => rw [stringCharacters_eq spells]
  | broken spells breaks =>
      rw [stringCharacters_append spells]
      dsimp only
      rw [breaks.stringCharacters_eq]
      rfl

/-- Every text behind a double quote comes to one outcome. -/
theorem existsUnique_stringBody (body : List Char) : ∃! outcome, StringBody body outcome := by
  obtain ⟨spelling, rest, value, rfl, spells, -⟩ |
    ⟨spelling, rest, value, error, rfl, spells, breaks, -⟩ := stringCharacters_ends body
  · have comes_to : StringBody (spelling ++ '"' :: rest) (.ok value) := .closed spells
    exact ⟨_, comes_to, fun _ other => other.outcome_eq.symm.trans comes_to.outcome_eq⟩
  · have comes_to : StringBody (spelling ++ rest) (.error error) := .broken spells breaks
    exact ⟨_, comes_to, fun _ other => other.outcome_eq.symm.trans comes_to.outcome_eq⟩

/-! ## Characters -/

theorem BreaksOff.characterLiteral_eq {error : LexicalError}
    (breaks : BreaksOff .unterminatedCharacter rest error) :
    (characterLiteral rest).outcome = .error error := by
  cases breaks with
  | newline | escapedNewline | unterminatedEscape | endOfText => rfl
  | invalidEscape unescaped inline =>
      simp [characterLiteral, literalCharacter, unescaped, escapeError, inline]

/-- What a text comes to is what is read of it. -/
theorem CharacterBody.outcome_eq {outcome : Except LexicalError Char}
    (comes_to : CharacterBody body outcome) :
    (characterLiteral body).outcome = outcome.map .character := by
  cases comes_to with
  | closed spells =>
      rw [spells.characterLiteral_eq]
      rfl
  | empty => rfl
  | broken breaks => exact breaks.characterLiteral_eq
  | unclosed spells =>
      rw [← List.append_nil body, spells.characterLiteral_eq]
      rfl
  | newline spells =>
      rw [spells.characterLiteral_eq]
      rfl
  | second spells unquoted inline =>
      rw [spells.characterLiteral_eq]
      simp [characterEnd, unquoted, inline, Except.map]

theorem map_character_inj {left right : Except LexicalError Char}
    (same : left.map TokenKind.character = right.map .character) : left = right := by
  cases left <;> cases right <;> simp_all [Except.map]

/-- Every text behind a single quote comes to something. -/
theorem exists_characterBody (body : List Char) : ∃ outcome, CharacterBody body outcome := by
  -- The quote and the newline are looked for before a character is read.
  by_cases quoted : body.head? = some '\''
  · obtain ⟨rest, rfl⟩ := List.head?_eq_some_iff.1 quoted
    exact ⟨_, .empty⟩
  by_cases newline : body.head? = some '\n'
  · obtain ⟨rest, rfl⟩ := List.head?_eq_some_iff.1 newline
    exact ⟨_, .broken .newline⟩
  obtain ⟨spelling, rest, value, rfl, spells, -⟩ | ⟨error, -, -, breaks⟩ :=
    literalCharacter_ends quoted newline
  · match rest with
    | [] =>
        rw [List.append_nil]
        exact ⟨_, .unclosed spells⟩
    | next :: rest =>
        by_cases closes : next = '\''
        · subst closes
          exact ⟨_, .closed spells⟩
        by_cases ends : next = '\n'
        · subst ends
          exact ⟨_, .newline spells⟩
        exact ⟨_, .second spells closes ends⟩
  · exact ⟨_, .broken breaks⟩

/-- Every text behind a single quote comes to one outcome. -/
theorem existsUnique_characterBody (body : List Char) : ∃! outcome, CharacterBody body outcome := by
  obtain ⟨outcome, comes_to⟩ := exists_characterBody body
  exact ⟨outcome, comes_to, fun other other_comes_to =>
    map_character_inj (other_comes_to.outcome_eq.symm.trans comes_to.outcome_eq)⟩

end Lexeme

open Lexeme

/-- The text behind an opening quote comes to one outcome, a value or a fault, and this is what is found at
the quote and located there. -/
theorem scan_quoted (file : String) (position : Position) (body : List Char) :
    ((∃! outcome, StringBody body outcome) ∧ ∀ outcome, StringBody body outcome →
      (Scanner.mk file ('"' :: body) position).scan.1 = located (.inFile file position)
        (outcome.map fun value => .string (String.ofList value))) ∧
    (∃! outcome, CharacterBody body outcome) ∧ ∀ outcome, CharacterBody body outcome →
      (Scanner.mk file ('\'' :: body) position).scan.1 = located (.inFile file position)
        (outcome.map .character) := by
  have found {quote : Char} (solid : isBlank quote = false ∧ quote ≠ '#') :
      (Scanner.mk file (quote :: body) position).scan.1 =
        located (.inFile file position) (read (quote :: body)).outcome := by
    have solid_text : Solid (quote :: body) := by
      rintro character ⟨⟩
      exact solid
    rw [Scanner.scan_eq_of_gap rfl .nil solid_text]
    rfl
  refine ⟨⟨existsUnique_stringBody body, fun outcome comes_to => ?_⟩,
    existsUnique_characterBody body, fun outcome comes_to => ?_⟩
  · rw [found (by decide), ← comes_to.outcome_eq]
    rfl
  · rw [found (by decide), ← comes_to.outcome_eq]
    rfl

/-- An escaped quote and what breaks off the literal before the closing quote. -/
def escapedQuote : List Char := "\\\"a\\\n\"".toList

/-- An escaped quote closes no string, and a newline behind a backslash is met before the quote that does. A
backslash behind a character starts another one. -/
theorem scan_quoted_of_escapedQuote :
    StringBody escapedQuote (.error .newlineInLiteral) ∧
      (Scanner.mk "t" ('"' :: escapedQuote) .start).scan.1 =
        .error (.lexical (.inFile "t" ⟨1, 1⟩) .newlineInLiteral) ∧
      CharacterBody escapedQuote (.error .multipleCharacters) ∧
      (Scanner.mk "t" ('\'' :: escapedQuote) .start).scan.1 =
        .error (.lexical (.inFile "t" ⟨1, 1⟩) .multipleCharacters) := by
  have broken : StringBody escapedQuote (.error .newlineInLiteral) :=
    have plain : Spells '"' ['a'] 'a' := .plain (by decide) (by decide) (by decide)
    show StringBody (['\\', '"', 'a'] ++ ['\\', '\n', '"']) _ from
      .broken (.cons (.escape rfl) (.cons plain .nil)) .escapedNewline
  have second : CharacterBody escapedQuote (.error .multipleCharacters) :=
    show CharacterBody (['\\', '"'] ++ ['a', '\\', '\n', '"']) _ from
      .second (.escape rfl) (by decide) (by decide)
  obtain ⟨⟨-, strings⟩, -, characters⟩ := scan_quoted "t" .start escapedQuote
  exact ⟨broken, strings _ broken, second, characters _ second⟩

end Minilang
