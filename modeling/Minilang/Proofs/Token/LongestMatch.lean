import Mathlib.Data.Set.Subsingleton
import Minilang.Proofs.Token.Lexemes

/-!
# Longest matches

A text that can be read is gaps and lexemes in turn, where each lexeme is the longest one that the rest of
the text begins with. There is one such decomposition at most, and the tokens are what its lexemes denote.
-/

namespace Minilang

namespace Lexeme

/-! ## Gaps -/

/-- Whether a text is blanks and comments in front of another text. A comment runs up to a newline or up
to the end of all. -/
inductive IsGap : List Char → List Char → Prop
  | nil {rest : List Char} : IsGap [] rest
  | blank {first : Char} {gap rest : List Char} (is_blank : isBlank first = true)
      (others : IsGap gap rest) : IsGap (first :: gap) rest
  | comment {body gap rest : List Char} (inline : ∀ character ∈ body, character ≠ '\n')
      (stopped : ∀ character ∈ (gap ++ rest).head?, character = '\n') (others : IsGap gap rest) :
      IsGap ('#' :: (body ++ gap)) rest

/-- Whether no gap starts at the start of a text. -/
def Solid (text : List Char) : Prop :=
  ∀ character ∈ text.head?, isBlank character = false ∧ character ≠ '#'

theorem gapLength_comment {body : List Char} (inline : ∀ character ∈ body, character ≠ '\n')
    {rest : List Char} (stopped : ∀ character ∈ rest.head?, character = '\n') :
    gapLength true (body ++ rest) = body.length + gapLength false rest := by
  induction body with
  | nil =>
      cases rest with
      | nil => rfl
      | cons first others =>
          obtain rfl := stopped first rfl
          simp [gapLength, isBlank]
  | cons first body induction =>
      obtain ⟨first_inline, body_inline⟩ := List.forall_mem_cons.1 inline
      have goes_on : (first != '\n') = true := bne_iff_ne.2 first_inline
      rw [List.cons_append, gapLength, goes_on, induction body_inline, List.length_cons]
      omega

/-- A gap is skipped as a whole. -/
theorem IsGap.gapLength_eq {gap rest : List Char} (is_gap : IsGap gap rest) (solid : Solid rest) :
    gapLength false (gap ++ rest) = gap.length := by
  induction is_gap with
  | @nil rest =>
      cases rest with
      | nil => rfl
      | cons first others =>
          obtain ⟨no_blank, no_comment⟩ := solid first rfl
          simp [gapLength, no_blank, no_comment]
  | @blank first gap rest is_blank _ induction =>
      rw [List.cons_append, gapLength, if_pos is_blank, induction solid, List.length_cons, Nat.add_comm]
  | @comment body gap rest inline stopped _ induction =>
      have no_blank : isBlank '#' ≠ true := by decide
      rw [List.cons_append, List.append_assoc, gapLength, if_neg no_blank, if_pos rfl,
        gapLength_comment inline stopped, induction solid, List.length_cons, List.length_append]
      omega

/-- A text is a gap and what is behind it; inside a comment, the rest of the comment comes first. -/
theorem exists_gap (inComment : Bool) (text : List Char) :
    ∃ body gap rest, text = body ++ (gap ++ rest) ∧ (inComment = false → body = []) ∧
      (∀ character ∈ body, character ≠ '\n') ∧
      (inComment = true → ∀ character ∈ (gap ++ rest).head?, character = '\n') ∧
      IsGap gap rest ∧ Solid rest := by
  induction text generalizing inComment with
  | nil => exact ⟨[], [], [], rfl, fun _ => rfl, by simp, by simp, .nil, by simp [Solid]⟩
  | cons first text induction =>
      cases inComment with
      | true =>
          by_cases ends : first = '\n'
          · obtain ⟨_, gap, rest, rfl, body_eq, -, -, is_gap, solid⟩ := induction false
            rw [body_eq rfl]
            exact ⟨[], first :: gap, rest, rfl, fun _ => rfl, by simp, by simp [ends],
              .blank (by rw [ends]; rfl) is_gap, solid⟩
          · obtain ⟨body, gap, rest, rfl, -, inline, stopped, is_gap, solid⟩ := induction true
            exact ⟨first :: body, gap, rest, rfl, nofun, List.forall_mem_cons.2 ⟨ends, inline⟩, stopped,
              is_gap, solid⟩
      | false =>
          by_cases is_blank : isBlank first = true
          · obtain ⟨_, gap, rest, rfl, body_eq, -, -, is_gap, solid⟩ := induction false
            rw [body_eq rfl]
            exact ⟨[], first :: gap, rest, rfl, fun _ => rfl, by simp, nofun, .blank is_blank is_gap,
              solid⟩
          by_cases starts : first = '#'
          · obtain ⟨body, gap, rest, rfl, -, inline, stopped, is_gap, solid⟩ := induction true
            refine ⟨[], first :: (body ++ gap), rest, by simp, fun _ => rfl, by simp, nofun, ?_, solid⟩
            rw [starts]
            exact .comment inline (stopped rfl) is_gap
          · refine ⟨[], [], first :: text, rfl, fun _ => rfl, by simp, nofun, .nil, ?_⟩
            rintro character ⟨⟩
            exact ⟨Bool.eq_false_iff.2 is_blank, starts⟩

theorem exists_gap_solid (text : List Char) :
    ∃ gap rest, text = gap ++ rest ∧ IsGap gap rest ∧ Solid rest := by
  obtain ⟨body, gap, rest, text_eq, body_eq, -, -, is_gap, solid⟩ := exists_gap false text
  rw [body_eq rfl] at text_eq
  exact ⟨gap, rest, text_eq, is_gap, solid⟩

/-! ## Lexemes behind gaps -/

/-- No lexeme starts as a gap does. -/
theorem Denotes.exists_first {lexeme : List Char} {meaning : Option TokenKind}
    (denotes : Denotes lexeme meaning) :
    ∃ first others, lexeme = first :: others ∧ isBlank first = false ∧ first ≠ '#' := by
  have of_class (accepts : Char → Bool) {text : List Char}
      (rejects : [' ', '\t', '\r', '\n', '#'].any accepts = false)
      (accepted : text.head?.any accepts = true) :
      ∃ first others, text = first :: others ∧ isBlank first = false ∧ first ≠ '#' := by
    cases text with
    | nil => cases accepted
    | cons first others =>
        have first_accepted : accepts first = true := accepted
        have rejected (gap : Char) (member : gap ∈ [' ', '\t', '\r', '\n', '#']) : first ≠ gap := by
          rintro rfl
          exact List.any_eq_false.1 rejects first member first_accepted
        refine ⟨first, others, rfl, ?_, rejected '#' (by simp)⟩
        simp [isBlank, rejected ' ', rejected '\t', rejected '\r', rejected '\n']
  have digits_first {digits : List Char} (solid : digits ≠ [])
      (all_digits : ∀ digit ∈ digits, digit.isDigit = true) (rest : List Char) :
      (digits ++ rest).head?.any Char.isDigit = true := by
    cases digits with
    | nil => exact absurd rfl solid
    | cons first others => exact all_digits first List.mem_cons_self
  cases denotes with
  | @reserved text kind member spelled =>
      have is_word := isWord_of_reserved member spelled
      refine of_class isWordStart rfl ?_
      cases lexeme with
      | nil => cases is_word
      | cons first others => exact ((Bool.and_eq_true _ _).mp is_word).1
  | name start => exact of_class isWordStart rfl start
  | decimal solid all_digits =>
      have first := digits_first solid all_digits []
      rw [List.append_nil] at first
      exact of_class Char.isDigit rfl first
  | marked => exact ⟨'0', _, rfl, by decide, by decide⟩
  | float whole_solid _ whole_digits =>
      exact of_class Char.isDigit rfl (digits_first whole_solid whole_digits _)
  | character => exact ⟨'\'', _, rfl, by decide, by decide⟩
  | string => exact ⟨'"', _, rfl, by decide, by decide⟩
  | operator member spelled =>
      refine of_class isSignStart rfl ?_
      obtain long | short := List.mem_append.1 member
      · obtain ⟨first, second, rfl, start⟩ := long_of_spelled long spelled
        exact start
      · obtain ⟨first, rfl, start⟩ := short_of_spelled short spelled
        exact start

theorem Denotes.solid {lexeme : List Char} {meaning : Option TokenKind}
    (denotes : Denotes lexeme meaning) (rest : List Char) : Solid (lexeme ++ rest) := by
  obtain ⟨first, others, rfl, no_blank, no_comment⟩ := denotes.exists_first
  rintro character ⟨⟩
  exact ⟨no_blank, no_comment⟩

/-- No lexeme denotes the end of input. -/
theorem Denotes.ne_endOfInput {lexeme : List Char} {kind : TokenKind}
    (denotes : Denotes lexeme (some kind)) : kind ≠ .endOfInput := by
  rintro rfl
  generalize meaning_eq : some TokenKind.endOfInput = meaning at denotes
  have no_integer (radix : Radix) (digits : List Char) :
      some TokenKind.endOfInput ≠ integer? radix digits := by
    rw [integer?]
    split <;> simp
  cases denotes with
  | reserved member _ => cases meaning_eq; exact absurd member (by decide)
  | operator member _ => cases meaning_eq; exact absurd member (by decide)
  | decimal => exact no_integer _ _ meaning_eq
  | marked => exact no_integer _ _ meaning_eq
  | name | float | character | string => cases meaning_eq

/-- Whether no longer lexeme starts at the start of a text. -/
def Longest (lexeme text : List Char) : Prop :=
  ∀ longer meaning, Denotes longer meaning → longer <+: text → longer.length ≤ lexeme.length

/-- A longest lexeme is what is read, where no marker is bare. -/
theorem read_of_longest {lexeme rest : List Char} {kind : TokenKind}
    (denotes : Denotes lexeme (some kind)) (longest : Longest lexeme (lexeme ++ rest))
    (unbare : ¬ BareMarker (lexeme ++ rest)) :
    read (lexeme ++ rest) = ⟨.ok kind, lexeme.length⟩ := by
  obtain ⟨found, yields, le, same⟩ := denotes.covers rest unbare
  obtain ⟨first, others, rfl, -⟩ := denotes.exists_first
  obtain ⟨⟨longer, after, text_eq, length_eq, longer_denotes⟩, -⟩ := read_ends yields
  have longer_le := longest longer found longer_denotes ⟨after, text_eq.symm⟩
  have length_read : (read (first :: (others ++ rest))).length = (first :: others).length :=
    le_antisymm (length_eq.trans_le longer_le) le
  obtain rfl := same length_read
  rw [List.cons_append] at yields ⊢
  generalize read (first :: (others ++ rest)) = reading at yields length_read
  obtain ⟨outcome, length⟩ := reading
  obtain rfl : outcome = .ok kind := yields
  obtain rfl : length = (first :: others).length := length_read
  rfl

/-- What is read is a longest lexeme, and no marker is bare. -/
theorem longest_of_read {text : List Char} {kind : TokenKind} (solid : text ≠ [])
    (read_ok : (read text).outcome = .ok kind) :
    ∃ lexeme rest, text = lexeme ++ rest ∧ (read text).length = lexeme.length ∧
      Denotes lexeme (some kind) ∧ Longest lexeme text ∧ ¬ BareMarker text := by
  cases text with
  | nil => exact absurd rfl solid
  | cons first others =>
      have yields : Yields (read (first :: others)) (some kind) := read_ok
      obtain ⟨⟨lexeme, rest, text_eq, length_eq, denotes⟩, unbare⟩ := read_ends yields
      refine ⟨lexeme, rest, text_eq, length_eq, denotes, ?_, unbare⟩
      rintro longer meaning longer_denotes ⟨after, begins⟩
      obtain ⟨-, -, le, -⟩ := longer_denotes.covers after (by rwa [begins])
      rw [begins, length_eq] at le
      exact le

/-- Whether a text starts with a token. -/
def StartsToken (text : List Char) : Prop :=
  ∃ lexeme rest kind, text = lexeme ++ rest ∧ Denotes lexeme (some kind) ∧ Longest lexeme text ∧
    ¬ BareMarker text

/-- A text that starts with a token can be read. -/
theorem StartsToken.read_ok {text : List Char} (starts : StartsToken text) :
    ∃ kind, (read text).outcome = .ok kind := by
  obtain ⟨lexeme, rest, kind, rfl, denotes, longest, unbare⟩ := starts
  exact ⟨kind, by rw [read_of_longest denotes longest unbare]⟩

/-! ## Decompositions -/

/-- A lexeme with the gap in front of it. -/
structure Piece where
  /-- The blanks and comments in front. -/
  gap : List Char
  /-- The text of the lexeme. -/
  lexeme : List Char
  /-- What the lexeme denotes. -/
  kind : TokenKind

/-- Gaps and lexemes in turn. -/
structure Decomposition where
  /-- The lexemes, each with the gap in front of it. -/
  pieces : List Piece
  /-- The gap behind the last lexeme. -/
  last : List Char

namespace Decomposition

/-- The kinds that the lexemes denote. -/
def kinds (decomposition : Decomposition) : List TokenKind := decomposition.pieces.map Piece.kind

/-- Put a piece in front. -/
def cons (piece : Piece) (others : Decomposition) : Decomposition :=
  ⟨piece :: others.pieces, others.last⟩

/-- Gaps and lexemes make up a text, where each lexeme is the longest one at its place and no marker of a
base stands there without a digit of the base. -/
inductive Of : Decomposition → List Char → Prop
  | last {gap : List Char} (is_gap : IsGap gap []) : Of ⟨[], gap⟩ gap
  | piece {piece : Piece} {others : Decomposition} {rest : List Char}
      (is_gap : IsGap piece.gap (piece.lexeme ++ rest))
      (denotes : Denotes piece.lexeme (some piece.kind))
      (longest : Longest piece.lexeme (piece.lexeme ++ rest))
      (unbare : ¬ BareMarker (piece.lexeme ++ rest)) (others_of : others.Of rest) :
      Of (cons piece others) (piece.gap ++ (piece.lexeme ++ rest))

/-- Gaps in front of lexemes are told by the text. -/
theorem gap_unique {left right left_rest right_rest : List Char} (left_is : IsGap left left_rest)
    (right_is : IsGap right right_rest) (left_solid : Solid left_rest)
    (right_solid : Solid right_rest) (same : left ++ left_rest = right ++ right_rest) :
    left = right ∧ left_rest = right_rest := by
  refine List.append_inj same ?_
  rw [← left_is.gapLength_eq left_solid, ← right_is.gapLength_eq right_solid, same]

/-- A text has one decomposition at most. -/
theorem Of.unique {text : List Char} {left right : Decomposition} (left_of : left.Of text)
    (right_of : right.Of text) : left = right := by
  have nil_solid : Solid [] := by simp [Solid]
  induction left_of generalizing right with
  | @last gap is_gap =>
      generalize text_eq : gap = text at right_of
      cases right_of with
      | last => rfl
      | @piece piece others rest piece_gap denotes =>
          obtain ⟨-, ended⟩ := gap_unique is_gap piece_gap nil_solid (denotes.solid rest)
            (by rw [List.append_nil, text_eq])
          obtain ⟨first, tail, lexeme_eq, -⟩ := denotes.exists_first
          rw [lexeme_eq] at ended
          cases ended
  | @piece piece others rest is_gap denotes longest unbare _ induction =>
      generalize text_eq : piece.gap ++ (piece.lexeme ++ rest) = text at right_of
      cases right_of with
      | last end_gap =>
          obtain ⟨-, ended⟩ := gap_unique end_gap is_gap nil_solid (denotes.solid rest)
            (by rw [List.append_nil, text_eq])
          obtain ⟨first, tail, lexeme_eq, -⟩ := denotes.exists_first
          rw [lexeme_eq] at ended
          cases ended
      | @piece piece' others' rest' is_gap' denotes' longest' unbare' others_of' =>
          obtain ⟨gap_eq, behind_eq⟩ := gap_unique is_gap is_gap' (denotes.solid rest)
            (denotes'.solid rest') text_eq
          have read_eq := read_of_longest denotes longest unbare
          rw [behind_eq, read_of_longest denotes' longest' unbare', Reading.mk.injEq,
            Except.ok.injEq] at read_eq
          obtain ⟨kind_eq, length_eq⟩ := read_eq
          obtain ⟨lexeme_eq, rest_eq⟩ := List.append_inj behind_eq length_eq.symm
          subst rest_eq
          obtain rfl := induction others_of'
          obtain ⟨gap, lexeme, kind⟩ := piece
          obtain ⟨gap', lexeme', kind'⟩ := piece'
          cases gap_eq
          cases lexeme_eq
          cases kind_eq
          rfl

end Decomposition

end Lexeme

/-- An outcome of reading with the place where its lexeme starts. -/
def located (location : Location) : Except LexicalError TokenKind → Except Diagnostic Token
  | .ok kind => .ok ⟨kind, location⟩
  | .error error => .error (.lexical location error)

namespace Scanner

open Lexeme

/-- What a scan finds where a rest of its text starts with no gap: the end of input at the end of the text, a
token where one starts, and otherwise a fault. Behind a token the scanner stands behind its lexeme. -/
inductive Finds (location : Location) (rest : List Char) :
    Except Diagnostic Token × Scanner → Prop
  | endOfInput {after : Scanner} (ended : rest = []) :
      Finds location rest (.ok ⟨.endOfInput, location⟩, after)
  | token {lexeme : List Char} {kind : TokenKind} {after : Scanner} (text_eq : rest = lexeme ++ after.rest)
      (denotes : Denotes lexeme (some kind)) (longest : Longest lexeme rest)
      (unbare : ¬ BareMarker rest) : Finds location rest (.ok ⟨kind, location⟩, after)
  | fault {error : LexicalError} {after : Scanner} (solid : rest ≠ []) (unread : ¬ StartsToken rest) :
      Finds location rest (.error (.lexical location error), after)

/-- A scan finds something behind the next gap. -/
theorem scan_finds (scanner : Scanner) :
    ∃ gap, scanner.rest = gap ++ scanner.skipGap.rest ∧ IsGap gap scanner.skipGap.rest ∧
      Solid scanner.skipGap.rest ∧
      scanner.skipGap.position = scanner.position.afterText gap ∧
      Finds scanner.skipGap.location scanner.skipGap.rest scanner.scan := by
  obtain ⟨gap, rest, text_eq, is_gap, solid⟩ := exists_gap_solid scanner.rest
  have start_eq : scanner.skipGap = ⟨scanner.file, rest, scanner.position.afterText gap⟩ := by
    rw [skipGap, advance, text_eq, is_gap.gapLength_eq solid, List.drop_left, List.take_left]
  rw [scan, start_eq]
  refine ⟨gap, text_eq, is_gap, solid, rfl, ?_⟩
  cases read_eq : (read rest).outcome with
  | error fault =>
      refine .fault ?_ fun starts => ?_
      · rintro rfl
        cases read_eq
      · obtain ⟨kind, read_ok⟩ := starts.read_ok
        rw [read_eq] at read_ok
        cases read_ok
  | ok kind =>
      by_cases ended : rest = []
      · subst ended
        cases read_eq
        exact .endOfInput rfl
      · obtain ⟨lexeme, behind, rest_eq, length_eq, denotes, longest, unbare⟩ :=
          longest_of_read ended read_eq
        refine .token ?_ denotes longest unbare
        rw [length_eq, advance, rest_eq, List.drop_left]

/-- A scanner skips a gap and reads what is behind it. -/
theorem scan_eq_of_gap {scanner : Scanner} {gap rest : List Char} (text_eq : scanner.rest = gap ++ rest)
    (is_gap : IsGap gap rest) (solid : Solid rest) :
    scanner.scan =
      (located (.inFile scanner.file (scanner.position.afterText gap)) (read rest).outcome,
        ⟨scanner.file, rest.drop (read rest).length,
          scanner.position.afterText (gap ++ rest.take (read rest).length)⟩) := by
  have start_eq : scanner.skipGap = ⟨scanner.file, rest, scanner.position.afterText gap⟩ := by
    rw [skipGap, advance, text_eq, is_gap.gapLength_eq solid, List.drop_left, List.take_left]
  rw [scan, start_eq, advance, Position.afterText_append]
  cases (read rest).outcome <;> rfl

/-- A scanner skips a gap and reads a longest lexeme. -/
theorem scan_eq_of_longest {scanner : Scanner} {gap lexeme rest : List Char} {kind : TokenKind}
    (text_eq : scanner.rest = gap ++ (lexeme ++ rest)) (is_gap : IsGap gap (lexeme ++ rest))
    (denotes : Denotes lexeme (some kind)) (longest : Longest lexeme (lexeme ++ rest))
    (unbare : ¬ BareMarker (lexeme ++ rest)) :
    scanner.scan = (.ok ⟨kind, .inFile scanner.file (scanner.position.afterText gap)⟩,
      ⟨scanner.file, rest, scanner.position.afterText (gap ++ lexeme)⟩) := by
  rw [scan_eq_of_gap text_eq is_gap (denotes.solid rest), read_of_longest denotes longest unbare,
    List.drop_left, List.take_left]
  rfl

theorem scan_of_longest {scanner : Scanner} {gap lexeme rest : List Char} {kind : TokenKind}
    (text_eq : scanner.rest = gap ++ (lexeme ++ rest)) (is_gap : IsGap gap (lexeme ++ rest))
    (denotes : Denotes lexeme (some kind)) (longest : Longest lexeme (lexeme ++ rest))
    (unbare : ¬ BareMarker (lexeme ++ rest)) :
    ∃ location after, scanner.scan = (.ok ⟨kind, location⟩, after) ∧ after.rest = rest :=
  ⟨_, _, scan_eq_of_longest text_eq is_gap denotes longest unbare, rfl⟩

/-- Nothing is left behind the last gap. -/
theorem rest_skipGap_of_gap {scanner : Scanner} (is_gap : IsGap scanner.rest []) :
    scanner.skipGap.rest = [] := by
  have length_eq := is_gap.gapLength_eq (by simp [Solid])
  rw [List.append_nil] at length_eq
  rw [skipGap, advance, length_eq, List.drop_length]

/-- A scanner finds the end of input behind the last gap. -/
theorem scan_of_gap {scanner : Scanner} (is_gap : IsGap scanner.rest []) :
    ∃ location after, scanner.scan = (.ok ⟨.endOfInput, location⟩, after) := by
  refine ⟨scanner.skipGap.location, scanner.skipGap.advance 0, ?_⟩
  rw [scan, rest_skipGap_of_gap is_gap]
  rfl

/-- The text in front of a token is a gap and a longest lexeme, or a gap at the end. -/
theorem exists_of_scan {scanner after : Scanner} {token : Token}
    (scanned : scanner.scan = (.ok token, after)) :
    (token.kind = .endOfInput ∧ IsGap scanner.rest []) ∨
    ∃ gap lexeme, scanner.rest = gap ++ (lexeme ++ after.rest) ∧ IsGap gap (lexeme ++ after.rest) ∧
      Denotes lexeme (some token.kind) ∧ Longest lexeme (lexeme ++ after.rest) ∧
      ¬ BareMarker (lexeme ++ after.rest) := by
  obtain ⟨gap, text_eq, is_gap, -, -, finds⟩ := scanner.scan_finds
  rw [scanned] at finds
  cases finds with
  | endOfInput ended =>
      rw [ended] at text_eq is_gap
      rw [text_eq, List.append_nil]
      exact .inl ⟨rfl, is_gap⟩
  | token rest_eq denotes longest unbare =>
      rw [rest_eq] at text_eq is_gap longest unbare
      exact .inr ⟨gap, _, text_eq, is_gap, denotes, longest, unbare⟩

/-- A text with a decomposition is read, and the tokens are what the lexemes denote. -/
theorem tokensWithin_of_decomposition {decomposition : Decomposition} {text : List Char}
    (decomposes : decomposition.Of text) {scanner : Scanner} (text_eq : scanner.rest = text)
    {fuel : Nat} (enough : text.length < fuel) :
    ∃ tokens, scanner.tokensWithin fuel = .ok tokens ∧
      tokens.map Token.kind = decomposition.kinds ++ [.endOfInput] := by
  induction decomposes generalizing scanner fuel with
  | last is_gap =>
      obtain ⟨fuel, rfl⟩ := Nat.exists_eq_add_of_lt enough
      obtain ⟨location, after, scanned⟩ := scan_of_gap (text_eq ▸ is_gap)
      rw [tokensWithin, scanned]
      exact ⟨[⟨.endOfInput, location⟩], rfl, rfl⟩
  | @piece piece others rest is_gap denotes longest unbare _ induction =>
      obtain ⟨fuel, rfl⟩ := Nat.exists_eq_add_of_lt enough
      obtain ⟨location, after, scanned, after_eq⟩ :=
        scan_of_longest text_eq is_gap denotes longest unbare
      obtain ⟨first, tail, lexeme_eq, -⟩ := denotes.exists_first
      have shorter : rest.length < (piece.gap ++ (piece.lexeme ++ rest)).length + fuel := by
        rw [lexeme_eq]
        simp only [List.length_append, List.length_cons]
        omega
      obtain ⟨tokens, read, kinds_eq⟩ := induction after_eq shorter
      refine ⟨⟨piece.kind, location⟩ :: tokens, ?_, ?_⟩
      · rw [tokensWithin, scanned]
        dsimp only
        rw [if_neg denotes.ne_endOfInput, read]
        rfl
      · rw [List.map_cons, kinds_eq]
        rfl

/-- What is read has a decomposition. -/
theorem exists_decomposition {fuel : Nat} {scanner : Scanner} {tokens : List Token}
    (read : scanner.tokensWithin fuel = .ok tokens) :
    ∃ decomposition : Decomposition, decomposition.Of scanner.rest := by
  induction fuel generalizing scanner tokens with
  | zero => cases read
  | succ fuel induction =>
      rw [tokensWithin] at read
      cases scanned : scanner.scan with
      | mk outcome after =>
          rw [scanned] at read
          cases outcome with
          | error error => cases read
          | ok token =>
              dsimp only at read
              obtain ⟨ended, is_gap⟩ | ⟨gap, lexeme, text_eq, is_gap, denotes, longest, unbare⟩ :=
                exists_of_scan scanned
              · exact ⟨⟨[], scanner.rest⟩, .last is_gap⟩
              · rw [if_neg denotes.ne_endOfInput] at read
                cases others : after.tokensWithin fuel with
                | error error =>
                    rw [others] at read
                    cases read
                | ok following =>
                    obtain ⟨decomposition, decomposes⟩ := induction others
                    rw [text_eq]
                    exact ⟨.cons ⟨gap, lexeme, token.kind⟩ decomposition,
                      .piece is_gap denotes longest unbare decomposes⟩

end Scanner

open Lexeme

/-- Reading is taking the longest lexeme again and again. A text has one decomposition at most, it is read
if and only if it has one, and then the tokens are what the lexemes denote, with the end of input behind
them. -/
theorem tokenize_longest_match (source : Source) :
    {decomposition : Decomposition | decomposition.Of source.text.toList}.Subsingleton ∧
      match tokenize source with
      | .ok tokens => ∃ decomposition : Decomposition, decomposition.Of source.text.toList ∧
          tokens.map Token.kind = decomposition.kinds ++ [.endOfInput]
      | .error _ => ¬ ∃ decomposition : Decomposition, decomposition.Of source.text.toList := by
  have read_of {decomposition : Decomposition} (decomposes : decomposition.Of source.text.toList) :
      ∃ tokens, tokenize source = .ok tokens ∧
        tokens.map Token.kind = decomposition.kinds ++ [.endOfInput] :=
    Scanner.tokensWithin_of_decomposition decomposes rfl (Nat.lt_succ_self _)
  refine ⟨fun left left_of right right_of => left_of.unique right_of, ?_⟩
  split
  · next tokens read =>
    obtain ⟨decomposition, decomposes⟩ := Scanner.exists_decomposition read
    obtain ⟨tokens', read', kinds_eq⟩ := read_of decomposes
    cases read.symm.trans read'
    exact ⟨decomposition, decomposes, kinds_eq⟩
  · next error failed =>
    rintro ⟨decomposition, decomposes⟩
    obtain ⟨tokens, read, -⟩ := read_of decomposes
    cases failed.symm.trans read

end Minilang
