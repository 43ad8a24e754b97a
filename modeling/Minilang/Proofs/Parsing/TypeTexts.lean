import Minilang.Proofs.Parsing.PrintedTokens
import Minilang.Proofs.Parsing.Streams
import Minilang.Proofs.Token.Writing

/-!
# Texts of types

Types are written with no parentheses but those of parameters. A text of a type is still read as this type
alone: a star and an arrow take all that follows, so that a pointer to a function and a function that returns
a pointer stay apart.
-/

namespace Minilang

open Lexeme

/-! ## Lexemes of types -/

namespace Lexeme.MadeUp

variable {kinds : List TokenKind} {rest : List Char}

/-- A sign that no longer operator begins with is a lexeme of its own. -/
theorem sign (others : MadeUp kinds rest) (first : Char) (kind : TokenKind)
    (member : kind ∈ TokenKind.shortOperators) (spelled : kind.spelling? = some (String.ofList [first]))
    (apart : ∀ other ∈ TokenKind.longOperators,
      other.spelling?.all (·.toList.head? ≠ some first) = true) :
    MadeUp (kind :: kinds) (first :: rest) :=
  others.cons (List.cons_ne_nil first []) (read_short_of_apart member spelled apart rest)

theorem arrow (others : MadeUp kinds rest) :
    MadeUp (.punctuation .arrow :: kinds) ('-' :: '>' :: rest) :=
  have read_eq : read (['-', '>'] ++ rest) = ⟨.ok (.punctuation .arrow), 2⟩ :=
    read_long (by decide) rfl rest
  others.cons (List.cons_ne_nil _ _) read_eq

/-- A reserved word is a lexeme of its own where no letter follows. -/
theorem word (others : MadeUp kinds rest) {text : List Char} {kind : TokenKind}
    (member : kind ∈ TokenKind.reservedWords) (spelled : kind.spelling? = some (String.ofList text))
    (no_letters : rest.takeWhile isWordPart = []) : MadeUp (kind :: kinds) (text ++ rest) := by
  have is_word := isWord_of_reserved member spelled
  have read_eq := read_word_alone is_word no_letters
  rw [wordKind_of_reserved member spelled] at read_eq
  refine others.cons ?_ read_eq
  rintro rfl
  cases is_word

end Lexeme.MadeUp

namespace Ty

mutual

/-- The lexemes of a type as text are those of the type as printed, where no letter follows. -/
theorem madeUp_text (type : Ty) (plain : type.isPlain = true) {kinds : List TokenKind} {rest : List Char}
    (others : MadeUp kinds rest) (no_letters : rest.takeWhile isWordPart = []) :
    MadeUp (type.pieces.map Piece.tokenKind ++ kinds) (type.text.toList ++ rest) := by
  cases type with
  | bool | char | int | float => exact others.word (by decide) rfl no_letters
  | pointer target =>
      have target_read := madeUp_text target plain others no_letters
      rw [text, String.toList_append]
      exact target_read.sign '*' (.arithmetic .mul) (by decide) rfl (by decide)
  | reference object => rw [isPlain] at plain; cases plain
  | function result parameters =>
      obtain ⟨result_plain, parameters_plain⟩ := Bool.and_eq_true_iff.1 plain
      -- The text is put together from its end, since a word depends on what follows it.
      have result_read := (madeUp_text result result_plain others no_letters).space.arrow
      have closed := result_read.space.sign ')' (.punctuation .rightParen) (by decide) rfl (by decide)
      have parameters_read := madeUp_listText parameters parameters_plain closed rfl
      have opened := parameters_read.sign '(' (.punctuation .leftParen) (by decide) rfl (by decide)
      simpa [text, pieces, Piece.tokenKind, Piece.sign] using opened

/-- The lexemes of types as text are those of the types as printed, with commas between them. -/
theorem madeUp_listText (types : List Ty) (plain : arePlain types = true) {kinds : List TokenKind}
    {rest : List Char} (others : MadeUp kinds rest) (no_letters : rest.takeWhile isWordPart = []) :
    MadeUp ((Piece.separated (allPieces types)).map Piece.tokenKind ++ kinds)
      ((listText types).toList ++ rest) := by
  match types with
  | [] => exact others
  | [type] => exact madeUp_text type (Bool.and_eq_true_iff.1 plain).1 others no_letters
  | type :: next :: types =>
      obtain ⟨type_plain, next_plain⟩ := Bool.and_eq_true_iff.1 plain
      have next_read := madeUp_listText (next :: types) next_plain others no_letters
      have separated := next_read.space.sign ',' (.punctuation .comma) (by decide) rfl (by decide)
      have read := madeUp_text type type_plain separated rfl
      simpa [listText, allPieces, Piece.separated, Piece.tokenKind, Piece.sign] using read

end

/-! ## Tokens of types -/

mutual

/-- Of the tokens of a type only the kinds are given. -/
theorem eq_ofKind_of_mem_pieces (type : Ty) : ∀ piece ∈ type.pieces, piece = .ofKind piece.tokenKind := by
  cases type with
  | bool | char | int | float => exact List.forall_mem_singleton.2 rfl
  | pointer target => exact List.forall_mem_cons.2 ⟨rfl, eq_ofKind_of_mem_pieces target⟩
  | reference object => exact eq_ofKind_of_mem_pieces object
  | function result parameters =>
      have of_result := eq_ofKind_of_mem_pieces result
      have of_parameters := eq_ofKind_of_mem_separated parameters
      rw [pieces, List.forall_mem_cons, List.forall_mem_append, List.forall_mem_cons, List.forall_mem_cons]
      exact ⟨rfl, of_parameters, rfl, rfl, of_result⟩

theorem eq_ofKind_of_mem_separated (types : List Ty) :
    ∀ piece ∈ Piece.separated (allPieces types), piece = .ofKind piece.tokenKind := by
  match types with
  | [] => exact List.forall_mem_nil _
  | [type] => exact eq_ofKind_of_mem_pieces type
  | type :: next :: types =>
      have of_next := eq_ofKind_of_mem_separated (next :: types)
      exact List.forall_mem_append.2
        ⟨eq_ofKind_of_mem_pieces type, List.forall_mem_cons.2 ⟨rfl, of_next⟩⟩

end

end Ty

/-- Where only kinds are given, tokens of these kinds are as printed. -/
theorem TokenStream.shows_ofTokens {pieces : List Piece} {tokens : List Token} (last : Token)
    (bare : ∀ piece ∈ pieces, piece = .ofKind piece.tokenKind)
    (kinds_eq : tokens.map Token.kind = pieces.map Piece.tokenKind) :
    (ofTokens (tokens ++ [last])).Shows pieces (.finished last) := by
  induction pieces generalizing tokens with
  | nil =>
      obtain rfl := List.map_eq_nil_iff.1 kinds_eq
      rfl
  | cons piece pieces induction =>
      obtain ⟨piece_eq, others_bare⟩ := List.forall_mem_cons.1 bare
      cases tokens with
      | nil => cases kinds_eq
      | cons token tokens =>
          obtain ⟨kind_eq, others_eq⟩ := List.cons_eq_cons.1 kinds_eq
          rw [List.cons_append, ofTokens_cons (by simp)]
          refine ⟨token, rfl, ?_, induction others_bare others_eq⟩
          rw [piece_eq]
          exact kind_eq

/-- The text of a type without references is read to its end, and its tokens are read as this type alone. -/
theorem typeWithin_text (name : String) (type : Ty) (plain : type.isPlain = true) :
    ∃ front last, tokenize ⟨name, type.text⟩ = .ok (front ++ [last]) ∧ last.kind = .endOfInput ∧
      ∀ analysis fuel, front.length ≤ fuel →
        (Parser.typeWithin fuel).run ⟨.ofTokens (front ++ [last]), analysis⟩ =
          .ok (type, ⟨.finished last, analysis⟩) := by
  have made_up := type.madeUp_text plain .nil rfl
  rw [List.append_nil, List.append_nil] at made_up
  obtain ⟨front, last, read, front_eq, end_reached⟩ := made_up.exists_tokens name
  refine ⟨front, last, read, end_reached, fun analysis fuel enough => ?_⟩
  have shows := TokenStream.shows_ofTokens last type.eq_ofKind_of_mem_pieces front_eq
  refine type.acts_typeWithin plain shows (le_of_eq_of_le ?_ enough) analysis
  rw [← List.length_map Piece.tokenKind, ← front_eq, List.length_map]

/-- A function that returns a pointer to a function, with such types for parameters. -/
def nestedType : Ty :=
  .function (.pointer (.function .int [.float]))
    [.pointer (.function .int []), .function (.pointer .char) [.bool, .int]]

theorem typeWithin_text_of_nestedType : ∃ front last,
    nestedType.text = "(*() -> int, (bool, int) -> *char) -> *(float) -> int" ∧
      tokenize ⟨"t", nestedType.text⟩ = .ok (front ++ [last]) ∧ last.kind = .endOfInput ∧
      ∀ analysis fuel, front.length ≤ fuel →
        (Parser.typeWithin fuel).run ⟨.ofTokens (front ++ [last]), analysis⟩ =
          .ok (nestedType, ⟨.finished last, analysis⟩) := by
  obtain ⟨front, last, read⟩ := typeWithin_text "t" nestedType (by decide)
  exact ⟨front, last, by decide +kernel, read⟩

end Minilang
