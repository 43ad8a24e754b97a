import Minilang.Proofs.Token.LongestMatch

/-!
# Places of lexemes

A place in a text is told by what stands in front of it. Reading a text leads over gaps and longest lexemes to
where tokens start, and to where the first lexeme starts that cannot be read.
-/

namespace Minilang

namespace Lexeme

/-- Whether a text is gaps and longest lexemes in turn, up to where another text starts with no gap. -/
inductive LeadsTo : List Char → List Char → Prop
  | gap {gap rest : List Char} (is_gap : IsGap gap rest) (solid : Solid rest) : LeadsTo gap rest
  | lexeme {gap lexeme between rest : List Char} {kind : TokenKind}
      (is_gap : IsGap gap (lexeme ++ (between ++ rest))) (denotes : Denotes lexeme (some kind))
      (longest : Longest lexeme (lexeme ++ (between ++ rest)))
      (unbare : ¬ BareMarker (lexeme ++ (between ++ rest))) (others : LeadsTo between rest) :
      LeadsTo (gap ++ (lexeme ++ between)) rest

end Lexeme

namespace Scanner

open Lexeme

/-- Whether a location is where a scanner comes to the given rest of its text, with no gap in front. -/
def Reaches (scanner : Scanner) (location : Location) (rest : List Char) : Prop :=
  ∃ before, scanner.rest = before ++ rest ∧ LeadsTo before rest ∧
    location = .inFile scanner.file (scanner.position.afterText before)

variable {scanner after : Scanner}

/-- A scanner comes to the lexeme behind the next gap. -/
theorem reaches_skipGap (scanner : Scanner) :
    scanner.Reaches scanner.skipGap.location scanner.skipGap.rest := by
  obtain ⟨gap, text_eq, is_gap, solid, position_eq, -⟩ := scanner.scan_finds
  exact ⟨gap, text_eq, .gap is_gap solid, congrArg (Location.inFile scanner.file) position_eq⟩

/-- A token is located where it starts, and the end of input behind the last gap. -/
theorem reaches_of_scan_ok {token : Token} (scanned : scanner.scan = (.ok token, after)) :
    ∃ rest, scanner.Reaches token.location rest ∧ (StartsToken rest ∨ rest = []) := by
  obtain ⟨-, -, -, -, -, finds⟩ := scanner.scan_finds
  rw [scanned] at finds
  refine ⟨scanner.skipGap.rest, ?_⟩
  cases finds with
  | endOfInput ended => exact ⟨scanner.reaches_skipGap, .inr ended⟩
  | token text_eq denotes longest unbare =>
      exact ⟨scanner.reaches_skipGap, .inl ⟨_, _, _, text_eq, denotes, longest, unbare⟩⟩

/-- A text that cannot be read is rejected where the lexeme starts that is none. -/
theorem reaches_of_scan_error {error : Diagnostic} (scanned : scanner.scan = (.error error, after)) :
    ∃ location fault rest, error = .lexical location fault ∧ scanner.Reaches location rest ∧
      rest ≠ [] ∧ ¬ StartsToken rest := by
  obtain ⟨-, -, -, -, -, finds⟩ := scanner.scan_finds
  rw [scanned] at finds
  cases finds with
  | fault solid unread => exact ⟨_, _, _, rfl, scanner.reaches_skipGap, solid, unread⟩

/-- What is reached behind a token is reached from in front of it. -/
theorem Reaches.of_scan {token : Token} {location : Location} {rest : List Char}
    (reaches : after.Reaches location rest) (scanned : scanner.scan = (.ok token, after))
    (more : token.kind ≠ .endOfInput) : scanner.Reaches location rest := by
  obtain ⟨ended, -⟩ | ⟨gap, lexeme, text_eq, is_gap, denotes, longest, unbare⟩ :=
    exists_of_scan scanned
  · exact absurd ended more
  · have scan_eq := scan_eq_of_longest text_eq is_gap denotes longest unbare
    rw [scanned, Prod.mk.injEq] at scan_eq
    obtain ⟨-, after_eq⟩ := scan_eq
    obtain ⟨between, between_eq, leads, rfl⟩ := reaches
    rw [between_eq] at text_eq is_gap longest unbare
    refine ⟨gap ++ (lexeme ++ between), ?_, .lexeme is_gap denotes longest unbare leads, ?_⟩
    · rw [text_eq, List.append_assoc, List.append_assoc]
    · rw [after_eq, ← Position.afterText_append, List.append_assoc]

end Scanner

end Minilang
