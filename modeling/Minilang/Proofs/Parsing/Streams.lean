import Minilang.Proofs.Parsing.Recognition

/-!
# Streams of whole texts

A text that can be read to its end is the stream of its tokens, the last of which is the end of input and
the only one.
-/

namespace Minilang

namespace TokenStream

/-- Whether the end of input stands behind other tokens, and nowhere else. -/
inductive Ended : List Token → Prop
  | last {last : Token} (end_reached : last.kind = .endOfInput) : Ended [last]
  | more {first : Token} {rest : List Token} (more : first.kind ≠ .endOfInput)
      (ended : Ended rest) : Ended (first :: rest)

theorem ofTokens_cons {first : Token} {rest : List Token} (more : rest ≠ []) :
    ofTokens (first :: rest) = token first (ofTokens rest) := by
  cases rest with
  | nil => exact absurd rfl more
  | cons second others => rfl

namespace Ended

variable {tokens : List Token}

theorem ne_nil (ended : Ended tokens) : tokens ≠ [] := by
  cases ended <;> exact List.cons_ne_nil _ _

theorem complete (ended : Ended tokens) : (ofTokens tokens).Complete := by
  induction ended with
  | last => trivial
  | more _ ended induction =>
      rw [ofTokens_cons ended.ne_nil]
      exact induction

/-- The next token is the first one. -/
theorem head?_eq (ended : Ended tokens) {token : Token}
    (found : (ofTokens tokens).lookahead 0 = .ok token) : tokens.head? = some token := by
  cases ended with
  | last =>
      cases found
      rfl
  | more _ ended =>
      rw [ofTokens_cons ended.ne_nil] at found
      cases found
      rfl

/-- What is left behind tokens before the end of input. -/
theorem reads (ended : Ended tokens) {seen : List TokenKind} {after : TokenStream}
    (reads : Reads (ofTokens tokens) seen after) (part : TokenKind.endOfInput ∉ seen) :
    seen = (tokens.take seen.length).map Token.kind ∧
      after = ofTokens (tokens.drop seen.length) ∧ Ended (tokens.drop seen.length) := by
  induction seen generalizing tokens with
  | nil =>
      cases reads
      exact ⟨rfl, rfl, ended⟩
  | cons kind seen induction =>
      have part_rest := List.not_mem_of_not_mem_cons part
      cases reads with
      | @token _ _ head _ found others =>
          cases ended with
          | last end_reached =>
              cases found
              exact absurd (end_reached ▸ List.mem_cons_self) part
          | more _ ended =>
              rw [ofTokens_cons ended.ne_nil] at found others
              cases found
              obtain ⟨seen_eq, after_eq, rest_ended⟩ := induction ended others part_rest
              exact ⟨congrArg (_ :: ·) seen_eq, after_eq, rest_ended⟩

end Ended

/-- What the scanner reads as a list of tokens is the same as a stream. -/
theorem readWithin_eq_ofTokens {fuel : Nat} {scanner : Scanner} {tokens : List Token}
    (read : scanner.tokensWithin fuel = .ok tokens) :
    readWithin fuel scanner = ofTokens tokens ∧ Ended tokens := by
  induction fuel generalizing scanner tokens with
  | zero => cases read
  | succ fuel induction =>
      rw [Scanner.tokensWithin] at read
      rw [readWithin]
      generalize scanner.scan = scanned at read ⊢
      obtain ⟨outcome, rest⟩ := scanned
      cases outcome with
      | error error => cases read
      | ok token =>
          dsimp only at read ⊢
          by_cases end_reached : token.kind = .endOfInput
          · rw [if_pos end_reached] at read ⊢
            cases read
            exact ⟨rfl, .last end_reached⟩
          · rw [if_neg end_reached] at read ⊢
            cases others : rest.tokensWithin fuel with
            | error error =>
                rw [others] at read
                cases read
            | ok following =>
                rw [others] at read
                cases read
                obtain ⟨same, ended⟩ := induction others
                rw [same, ofTokens_cons ended.ne_nil]
                exact ⟨rfl, .more end_reached ended⟩

/-- A text that can be read is the stream of its tokens. -/
theorem ofSource_eq_ofTokens {source : Source} {tokens : List Token}
    (tokenized : tokenize source = .ok tokens) :
    ofSource source = ofTokens tokens ∧ Ended tokens :=
  readWithin_eq_ofTokens tokenized

end TokenStream

end Minilang
