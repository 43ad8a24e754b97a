import Minilang.Proofs.Parsing.JoinedTexts
import Minilang.Proofs.Parsing.LazyReading

/-!
# Joined token lists

A text that can be read to its end is read alike with a newline and another text behind it: its tokens come
first, without the end of input, and then the tokens of the other text or its fault, further down.
-/

namespace Minilang

namespace Scanner

open TokenStream (ReadBy readBy_readWithin)

variable {scanner after : Scanner} {token : Token} {tokens : List Token} {error : Diagnostic}

/-- More fuel than there are characters changes nothing. -/
theorem tokensWithin_congr {fuel other : Nat} (enough : scanner.rest.length < fuel)
    (otherEnough : scanner.rest.length < other) :
    scanner.tokensWithin fuel = scanner.tokensWithin other := by
  induction fuel generalizing scanner other with
  | zero => exact absurd enough (Nat.not_lt_zero _)
  | succ fuel induction =>
      obtain ⟨other, rfl⟩ := Nat.exists_eq_succ_of_ne_zero (Nat.ne_zero_of_lt otherEnough)
      rw [tokensWithin, tokensWithin]
      split
      · rfl
      · next token after scanned =>
        split
        · rfl
        · next more =>
          have shorter := length_rest_scan_lt scanned more
          exact congrArg _ (induction (by omega) (by omega))

/-- A fault is all that there is to be read. -/
theorem tokens_of_error (scanned : scanner.scan = (.error error, after)) :
    scanner.tokens = .error error := by
  rw [tokens, tokensWithin, scanned]

/-- At the end of a text there is the end of input. -/
theorem tokens_of_endOfInput (scanned : scanner.scan = (.ok token, after))
    (end_reached : token.kind = .endOfInput) : scanner.tokens = .ok [token] := by
  rw [tokens, tokensWithin, scanned]
  exact if_pos end_reached

/-- Behind any other token there are the tokens of what is left. -/
theorem tokens_of_token (scanned : scanner.scan = (.ok token, after))
    (more : token.kind ≠ .endOfInput) :
    scanner.tokens = after.tokens.map (token :: ·) := by
  have shorter := length_rest_scan_lt scanned more
  rw [tokens, tokensWithin, scanned]
  dsimp only
  rw [if_neg more, tokens, tokensWithin_congr shorter (Nat.lt_succ_self _)]

/-- Scanners that skip to the same place read the same tokens. -/
theorem tokens_eq_of_skipGap_eq {other : Scanner} (same : other.skipGap = scanner.skipGap) :
    other.tokens = scanner.tokens := by
  have scan_eq : other.scan = scanner.scan := by rw [scan, scan, same]
  cases scanned : scanner.scan with
  | mk outcome after =>
      have other_scanned := scan_eq.trans scanned
      cases outcome with
      | error error => rw [tokens_of_error scanned, tokens_of_error other_scanned]
      | ok token =>
          by_cases end_reached : token.kind = .endOfInput
          · rw [tokens_of_endOfInput scanned end_reached,
              tokens_of_endOfInput other_scanned end_reached]
          · rw [tokens_of_token scanned end_reached, tokens_of_token other_scanned end_reached]

/-- The tokens of the same text further down are the same, further down. -/
theorem tokens_down (lines : Nat) (scanner : Scanner) :
    (scanner.down lines).tokens =
      (scanner.tokens.map (List.map (Token.down lines))).mapError (Diagnostic.down lines) := by
  have readBy := readBy_readWithin (Nat.lt_succ_self scanner.rest.length)
  generalize TokenStream.readWithin _ scanner = stream at readBy
  induction readBy with
  | token scanned more _ induction =>
      rw [tokens_of_token (scan_down lines scanned) more, tokens_of_token scanned more, induction]
      generalize Scanner.tokens _ = others
      cases others <;> rfl
  | finished scanned end_reached =>
      rw [tokens_of_endOfInput (scan_down lines scanned) end_reached,
        tokens_of_endOfInput scanned end_reached]
      rfl
  | @failed scanner after error scanned =>
      have down_scanned := scan_down_eq lines scanner
      rw [scanned] at down_scanned
      rw [tokens_of_error down_scanned, tokens_of_error scanned]
      rfl

/-- A text is read alike when a newline and more follow, up to its end. -/
theorem tokens_followedBy (more : List Char) (read : scanner.tokens = .ok tokens) :
    ∃ front last, tokens = front ++ [last] ∧ last.kind = .endOfInput ∧
      (scanner.followedBy more).tokens = (scanner.atNewline more).tokens.map (front ++ ·) := by
  have readBy := readBy_readWithin (Nat.lt_succ_self scanner.rest.length)
  generalize TokenStream.readWithin _ scanner = stream at readBy
  induction readBy generalizing tokens with
  | @token scanner after first rest scanned more_left _ induction =>
      rw [tokens_of_token scanned more_left] at read
      cases following_eq : after.tokens with
      | error error =>
          rw [following_eq] at read
          cases read
      | ok following =>
          rw [following_eq] at read
          cases read
          obtain ⟨front, last, rfl, end_reached, others_eq⟩ := induction following_eq
          obtain ⟨joined, same⟩ := scan_followedBy more scanned more_left
          refine ⟨first :: front, last, rfl, end_reached, ?_⟩
          rw [tokens_of_token joined more_left, others_eq, same]
          cases (scanner.atNewline more).tokens <;> rfl
  | @finished scanner after last scanned end_reached =>
      rw [tokens_of_endOfInput scanned end_reached] at read
      cases read
      refine ⟨[], last, rfl, end_reached, ?_⟩
      obtain ⟨-, is_gap⟩ | ⟨gap, lexeme, -, -, denotes, -⟩ := exists_of_scan scanned
      · rw [tokens_eq_of_skipGap_eq (skipGap_followedBy more is_gap)]
        cases (scanner.atNewline more).tokens <;> rfl
      · exact absurd end_reached denotes.ne_endOfInput
  | failed scanned =>
      rw [tokens_of_error scanned] at read
      cases read

end Scanner

/-- A text that cannot be read to its end has a lexical fault. -/
theorem exists_lexical_of_tokenize {source : Source} {error : Diagnostic}
    (failed : tokenize source = .error error) :
    ∃ location fault, error = .lexical location fault := by
  obtain ⟨position, fault, error_eq, -⟩ := (TokenStream.readBy_ofSource source).before_fault
    (Scanner.fault?_of_tokensWithin failed)
  exact ⟨_, fault, error_eq⟩

/-- A text that can be read to its end may be followed by a newline and another text: its tokens come first,
without the end of input. If the other text can be read, its tokens follow, in the same columns and as many
lines further down as there are newlines in front of them, and otherwise its fault is found there. -/
theorem tokenize_append {name first : String} {tokens : List Token}
    (read : tokenize ⟨name, first⟩ = .ok tokens) (second : String) :
    ∃ front last, tokens = front ++ [last] ∧ last.kind = .endOfInput ∧
      match tokenize ⟨name, second⟩ with
      | .ok others => tokenize ⟨name, first ++ "\n" ++ second⟩ =
          .ok (front ++ others.map (Token.down (first.toList.count '\n' + 1)))
      | .error error => ∃ location fault, error = .lexical location fault ∧
          tokenize ⟨name, first ++ "\n" ++ second⟩ =
            .error (.lexical (location.down (first.toList.count '\n' + 1)) fault) := by
  obtain ⟨front, last, tokens_eq, end_reached, joined_eq⟩ :=
    Scanner.tokens_followedBy second.toList read
  refine ⟨front, last, tokens_eq, end_reached, ?_⟩
  rw [Scanner.followedBy_ofSource, Scanner.tokens_eq_of_skipGap_eq
    (Scanner.skipGap_atNewline_ofSource name first second), Scanner.tokens_down] at joined_eq
  change tokenize _ = Except.map _ (Except.mapError _ (Except.map _ (tokenize _))) at joined_eq
  cases behind : tokenize ⟨name, second⟩ with
  | ok others =>
      rw [behind] at joined_eq
      exact joined_eq
  | error error =>
      obtain ⟨location, fault, rfl⟩ := exists_lexical_of_tokenize behind
      rw [behind] at joined_eq
      exact ⟨location, fault, rfl, joined_eq⟩

/-- A comparison with a comment behind it. -/
def cutComparison : String := "a\n  < # or not"

/-- An equals sign on the next line makes no other operator of a comparison. -/
theorem tokenize_append_of_cutComparison :
    tokenize ⟨"t", cutComparison⟩ = .ok [⟨.identifier "a", .inFile "t" ⟨1, 1⟩⟩,
      ⟨.relational .lt, .inFile "t" ⟨2, 3⟩⟩, ⟨.endOfInput, .inFile "t" ⟨2, 13⟩⟩] ∧
    tokenize ⟨"t", cutComparison ++ "\n" ++ "= 1"⟩ = .ok [⟨.identifier "a", .inFile "t" ⟨1, 1⟩⟩,
      ⟨.relational .lt, .inFile "t" ⟨2, 3⟩⟩, ⟨.punctuation .assign, .inFile "t" ⟨3, 1⟩⟩,
      ⟨.integer 1 .decimal, .inFile "t" ⟨3, 3⟩⟩, ⟨.endOfInput, .inFile "t" ⟨3, 4⟩⟩] ∧
    tokenize ⟨"t", cutComparison ++ "\n" ++ "= '\n"⟩ =
      .error (.lexical (.inFile "t" ⟨3, 3⟩) .newlineInLiteral) := by
  have read : tokenize ⟨"t", cutComparison⟩ = .ok [⟨.identifier "a", .inFile "t" ⟨1, 1⟩⟩,
      ⟨.relational .lt, .inFile "t" ⟨2, 3⟩⟩, ⟨.endOfInput, .inFile "t" ⟨2, 13⟩⟩] := by
    decide +kernel
  have behind : tokenize ⟨"t", "= 1"⟩ = .ok [⟨.punctuation .assign, .inFile "t" ⟨1, 1⟩⟩,
      ⟨.integer 1 .decimal, .inFile "t" ⟨1, 3⟩⟩, ⟨.endOfInput, .inFile "t" ⟨1, 4⟩⟩] := by
    decide +kernel
  have failed : tokenize ⟨"t", "= '\n"⟩ =
      .error (.lexical (.inFile "t" ⟨1, 3⟩) .newlineInLiteral) := by
    decide +kernel
  have lines : cutComparison.toList.count '\n' = 1 := by decide +kernel
  refine ⟨read, ?_, ?_⟩
  · obtain ⟨front, last, tokens_eq, -, joined_eq⟩ := tokenize_append read "= 1"
    have front_eq := congrArg List.dropLast tokens_eq
    rw [List.dropLast_concat] at front_eq
    rw [behind, lines, ← front_eq] at joined_eq
    exact joined_eq
  · obtain ⟨front, last, -, -, joined_eq⟩ := tokenize_append read "= '\n"
    rw [failed, lines] at joined_eq
    obtain ⟨location, fault, same, joined_eq⟩ := joined_eq
    cases same
    exact joined_eq

end Minilang
