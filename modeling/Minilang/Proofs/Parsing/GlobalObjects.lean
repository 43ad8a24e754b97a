import Minilang.Proofs.Parsing.JoinedPrograms
import Minilang.Proofs.Parsing.PlainTypes

/-!
# Objects at the top

The declarations of a text are parsed one after another. A text is rejected where an object at the top is,
and an object has been declared and its initializer parsed when the initializer is accepted or rejected.
-/

namespace Minilang

namespace Parser

variable {before after : ParserState} {fuel : Nat} {token : Token}

/-! ## Forms of declarations -/

/-- A token that is expected is there where this succeeds. -/
theorem expect_found {kind : TokenKind} (run : (expect kind).run before = .ok ((), after)) :
    ∃ token, before.tokens.lookahead 0 = .ok token ∧ token.kind = kind := by
  obtain ⟨fits, middle, consumed, concluded⟩ := run_bind_ok run
  obtain ⟨found, _, consumed, same⟩ := run_bind_ok consumed
  obtain ⟨token, token_eq, outcome⟩ := consumeIf_ok consumed
  refine ⟨token, token_eq, ?_⟩
  by_cases accepted : (token.kind == kind) = true
  · exact eq_of_beq accepted
  · obtain ⟨rfl, rfl⟩ := same
    rw [if_neg accepted, Prod.mk.injEq] at outcome
    obtain ⟨rfl, rfl⟩ := outcome
    exact absurd (concluded.symm.trans (run_unexpected token_eq _)) (by simp)

/-- A name takes up one token. -/
theorem expectIdentifier_advances (run : expectIdentifier.run before = .ok (token, after)) :
    after = before.advanced := by
  obtain ⟨found, _, consumed, concluded⟩ := run_bind_ok run
  obtain ⟨next, next_eq, outcome⟩ := consumeIf_ok consumed
  split at outcome
  · obtain ⟨rfl, rfl⟩ := Prod.mk.inj outcome
    obtain ⟨-, rfl⟩ := concluded
    rfl
  · obtain ⟨rfl, rfl⟩ := Prod.mk.inj outcome
    exact absurd (concluded.symm.trans (run_unexpected next_eq _)) (by simp)

/-- An object starts with its word and goes on with its name and a colon. -/
theorem openObject_tokens {kind : ObjectKind} {opened : DeclId × ExprId}
    (run : (openObject kind fuel).run before = .ok (opened, after)) :
    (∃ token, before.tokens.lookahead 0 = .ok token ∧ token.kind = .keyword kind.keyword) ∧
      ∃ token, before.tokens.lookahead 2 = .ok token ∧ token.kind = .punctuation .colon := by
  obtain ⟨_, _, worded, run⟩ := run_bind_ok run
  obtain ⟨_, _, named, run⟩ := run_bind_ok run
  obtain ⟨_, _, signed, -⟩ := run_bind_ok run
  obtain ⟨colon, found, spelled⟩ := expect_found signed
  rw [expectIdentifier_advances named, expect_ok worded, ParserState.advanced,
    TokenStream.lookahead_rest, ParserState.advanced, TokenStream.lookahead_rest] at found
  exact ⟨expect_found worded, colon, found, spelled⟩

/-- Where an object has been opened, the declaration is that object. -/
theorem declaration_eq_object {kind : ObjectKind} {opened : DeclId × ExprId}
    (run : (openObject kind fuel).run before = .ok (opened, after)) :
    (declaration fuel).run before = (check (Analysis.defineObject opened.1 opened.2)).run after := by
  obtain ⟨⟨first, found, spelled⟩, third, found_third, spelled_third⟩ := openObject_tokens run
  have peeked : peek.run before = .ok (.keyword kind.keyword, before) := by
    rw [peek, run_bind_of_ok (run_lookahead found), spelled]
    rfl
  have isObject : (declaration fuel).run before = (object kind fuel).run before := by
    rw [declaration, run_bind_of_ok peeked]
    cases kind with
    | var | const => rfl
    | value =>
        rw [ObjectKind.keyword]
        dsimp only
        rw [run_bind_of_ok (run_lookahead found_third), spelled_third]
  rw [isObject, object_eq_openObject, run_bind_of_ok run]

theorem StaysPlain.openObject (kind : ObjectKind) (fuel : Nat) :
    StaysPlain (fun _ => True) (openObject kind fuel) :=
  (expect _).bind fun _ _ => expectIdentifier.bind fun _ _ => (expectSign _).bind fun _ _ =>
    (typeWithin fuel).bind fun _ plain => (check (.declareObject _ _ plain)).bind fun _ _ =>
      (expectSign _).bind fun _ _ => (expressionWithin fuel).bind fun _ _ =>
        (expectSign _).bind fun _ _ => .pure trivial

/-! ## Declarations one after another -/

/-- The states in front of declarations at the top of a text, and the declarations before them. -/
inductive ComesTo (source : Source) : List DeclId → ParserState → Prop
  /-- Nothing has been declared yet. -/
  | start : ComesTo source [] ⟨.ofSource source, .opened⟩
  /-- One more declaration has been accepted. -/
  | next {ids : List DeclId} {before after : ParserState} {id : DeclId} :
      ComesTo source ids before →
      (declaration ((TokenStream.ofSource source).length + 1)).run before = .ok (id, after) →
      ComesTo source (ids ++ [id]) after

namespace ComesTo

variable {source : Source} {ids : List DeclId} {error : Diagnostic}

/-- The declarations that have been accepted are complete, and a fault in the declarations behind them is a
fault of the text. -/
theorem rejects (comesTo : ComesTo source ids before) :
    Analysis.AtTop ids before.analysis ∧ before.analysis.ast.DeclaresPlain ∧
      ∃ rounds ≤ (TokenStream.ofSource source).length + 1, before.Within rounds ∧
        ∀ error, (declarations (declaration ((TokenStream.ofSource source).length + 1)) rounds).run
          before = .error error → parse source = .error error := by
  induction comesTo with
  | start =>
      exact ⟨⟨.empty, rfl, rfl, List.nodup_nil, by simp⟩, .empty, _, le_rfl,
        ⟨TokenStream.ofSource_clean source, Nat.lt_succ_self _⟩, fun _ => parse_of_declarations_error⟩
  | @next ids before after id _ run induction =>
      obtain ⟨atTop, plain, rounds, rounds_le, within, rejects⟩ := induction
      have parses := declaration_parses (within.mono rounds_le) atTop
      rw [Parses, run] at parses
      obtain ⟨behind, atTop⟩ := parses
      have stays := StaysPlain.declaration ((TokenStream.ofSource source).length + 1) before plain
      rw [run] at stays
      obtain ⟨rounds, rfl⟩ := Nat.exists_eq_succ_of_ne_zero (Nat.ne_zero_of_lt within.2)
      refine ⟨atTop, stays.2, rounds, Nat.le_of_succ_le rounds_le, behind.within within, ?_⟩
      intro error failed
      refine rejects error ?_
      obtain ⟨kind, _, peeked, decided⟩ := run_bind_ok run
      obtain rfl := peek_ok peeked
      have more : kind ≠ .endOfInput := by
        rintro rfl
        exact absurd decided (unexpected_fails _ _ _ _)
      rw [run_declarations_of_more peeked more, run_bind_of_ok run, run_bind, failed]

/-- A text is rejected where one of its declarations is. -/
theorem parse_eq_error (comesTo : ComesTo source ids before)
    (found : before.tokens.lookahead 0 = .ok token) (more : token.kind ≠ .endOfInput)
    (failed : (declaration ((TokenStream.ofSource source).length + 1)).run before = .error error) :
    parse source = .error error := by
  obtain ⟨-, -, rounds, -, within, rejects⟩ := comesTo.rejects
  obtain ⟨rounds, rfl⟩ := Nat.exists_eq_succ_of_ne_zero (Nat.ne_zero_of_lt within.2)
  have peeked : peek.run before = .ok (token.kind, before) := by
    rw [peek, run_bind_of_ok (run_lookahead found)]
    rfl
  refine rejects error ?_
  rw [run_declarations_of_more peeked more, run_bind, failed]

end ComesTo

end Parser

end Minilang
