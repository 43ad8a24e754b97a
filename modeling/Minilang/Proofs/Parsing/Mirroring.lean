import Minilang.Parsing.Types
import Minilang.Proofs.Analysis.MirroredSteps
import Minilang.Proofs.Parsing.Recognition

/-!
# Mirrored parsers

Two parsers that read tokens which belong together take the same steps of analysis, so they come to programs
that correspond. A parser looks at the kinds of tokens only, and no name is a kind of its own.
-/

namespace Minilang

/-- Whether two streams have tokens that belong together, up to the end of input or to a fault. -/
inductive Correspondence.Streams (correspondence : Correspondence) : TokenStream → TokenStream → Prop
  | token {first other : Token} {rest otherRest : TokenStream} :
      correspondence.Tokens first other → first.kind ≠ .endOfInput →
      Streams correspondence rest otherRest →
      Streams correspondence (.token first rest) (.token other otherRest)
  | finished {last other : Token} :
      correspondence.fault? = none → correspondence.Tokens last other →
      Streams correspondence (.finished last) (.finished other)
  | failed {error other : Diagnostic} :
      correspondence.fault? = some (error, other) →
      Streams correspondence (.failed error) (.failed other)

/-- Whether two states of parsers belong together, in the given number of scopes. -/
structure Correspondence.States (correspondence : Correspondence) (depth : Nat)
    (state other : ParserState) : Prop where
  /-- The tokens that have not been consumed belong together. -/
  streams : correspondence.Streams state.tokens other.tokens
  /-- The analyses belong together. -/
  analyses : correspondence.Analyses depth state.analysis other.analysis

namespace Correspondence

variable {correspondence : Correspondence} {kind other : TokenKind}

/-- A test that accepts every name or none accepts both of two tokens that belong together, or none. -/
theorem Kinds.accepts_eq (kinds : correspondence.Kinds kind other) {accepts : TokenKind → Bool}
    (blind : ∀ name otherName, accepts (.identifier name) = accepts (.identifier otherName)) :
    accepts other = accepts kind := by
  rw [kinds.2]
  cases kind with
  | identifier name => exact blind _ _
  | _ => rfl

end Correspondence

namespace Parser

/-- Whether a parser is mirrored by another one: from states that belong together they come to states that
belong together, with results that belong together, and if nothing was there before they fail alike. -/
def Mirrors {α β : Type} (correspondence : Correspondence) (depth later : Nat) (parser : Parser α)
    (other : Parser β) (before : ParserState) (gives : Analysis → α → β → Prop) : Prop :=
  ∀ otherBefore, correspondence.States depth before otherBefore →
    match parser.run before with
    | .ok (result, after) => ∃ otherResult otherAfter,
        other.run otherBefore = .ok (otherResult, otherAfter) ∧
          before.analysis.Precedes after.analysis ∧ correspondence.States later after otherAfter ∧
          gives after.analysis result otherResult
    | .error error => correspondence.Exact → ∃ otherError,
        other.run otherBefore = .error otherError ∧ correspondence.Diagnostics error otherError

namespace Mirrors

variable {α β γ δ : Type} {correspondence : Correspondence} {depth middleDepth later : Nat}
  {before : ParserState}

theorem mono {parser : Parser α} {other : Parser β} {gives weaker : Analysis → α → β → Prop}
    (mirrors : Mirrors correspondence depth later parser other before gives)
    (imp : ∀ after result otherResult, before.analysis.Precedes after →
      gives after result otherResult → weaker after result otherResult) :
    Mirrors correspondence depth later parser other before weaker := by
  intro otherBefore states
  have outcome := mirrors otherBefore states
  split at outcome
  · obtain ⟨otherResult, otherAfter, run, precedes, states, given⟩ := outcome
    exact ⟨otherResult, otherAfter, run, precedes, states, imp _ _ _ precedes given⟩
  · exact outcome

theorem pure {result : α} {otherResult : β} {gives : Analysis → α → β → Prop}
    (given : gives before.analysis result otherResult) :
    Mirrors correspondence depth depth (pure result) (pure otherResult) before gives :=
  fun otherBefore states => ⟨otherResult, otherBefore, rfl, .refl _, states, given⟩

/-- What follows may depend on how the first parser has come there. -/
theorem bind_run {parser : Parser α} {other : Parser β} {next : α → Parser γ}
    {otherNext : β → Parser δ} {gives : Analysis → α → β → Prop}
    {givesNext : Analysis → γ → δ → Prop}
    (mirrors : Mirrors correspondence depth middleDepth parser other before gives)
    (mirrorsNext : ∀ middle result otherResult, parser.run before = .ok (result, middle) →
      before.analysis.Precedes middle.analysis → gives middle.analysis result otherResult →
      Mirrors correspondence middleDepth later (next result) (otherNext otherResult) middle
        givesNext) :
    Mirrors correspondence depth later (parser >>= next) (other >>= otherNext) before
      givesNext := by
  intro otherBefore states
  have outcome := mirrors otherBefore states
  cases run : parser.run before with
  | ok outcome' =>
      obtain ⟨result, middle⟩ := outcome'
      rw [run] at outcome
      obtain ⟨otherResult, otherMiddle, otherRun, precedes, states, given⟩ := outcome
      have rest := mirrorsNext middle result otherResult run precedes given otherMiddle states
      rw [run_bind_of_ok run, run_bind_of_ok otherRun]
      split at rest
      · obtain ⟨otherLast, otherAfter, otherRunNext, precedesNext, states, given⟩ := rest
        exact ⟨otherLast, otherAfter, otherRunNext, precedes.trans precedesNext, states, given⟩
      · exact rest
  | error error =>
      rw [run] at outcome
      rw [run_bind, run]
      intro exact'
      obtain ⟨otherError, otherRun, diagnostics⟩ := outcome exact'
      exact ⟨otherError, by rw [run_bind, otherRun], diagnostics⟩

theorem bind {parser : Parser α} {other : Parser β} {next : α → Parser γ}
    {otherNext : β → Parser δ} {gives : Analysis → α → β → Prop}
    {givesNext : Analysis → γ → δ → Prop}
    (mirrors : Mirrors correspondence depth middleDepth parser other before gives)
    (mirrorsNext : ∀ middle result otherResult, before.analysis.Precedes middle.analysis →
      gives middle.analysis result otherResult →
      Mirrors correspondence middleDepth later (next result) (otherNext otherResult) middle
        givesNext) :
    Mirrors correspondence depth later (parser >>= next) (other >>= otherNext) before
      givesNext :=
  mirrors.bind_run fun middle result otherResult _ => mirrorsNext middle result otherResult

/-- A step of analysis is taken on both sides. -/
theorem check {step : Check α} {otherStep : Check β} {gives : Analysis → α → β → Prop}
    (mirrors :
      Analysis.Mirrors correspondence depth later step otherStep before.analysis gives) :
    Mirrors correspondence depth later (check step) (Parser.check otherStep) before gives := by
  intro otherBefore states
  have ensures := mirrors otherBefore.analysis states.analyses
  unfold Analysis.Ensures at ensures
  cases run : step.run before.analysis with
  | mk outcome after =>
      rw [run] at ensures
      cases otherRun : otherStep.run otherBefore.analysis with
      | mk otherOutcome otherAfter =>
          rw [otherRun] at ensures
          cases outcome with
          | ok result =>
              cases otherOutcome with
              | ok otherResult =>
                  obtain ⟨precedes, analyses, given⟩ := ensures
                  rw [run_check_of_ok run]
                  exact ⟨otherResult, ⟨otherBefore.tokens, otherAfter⟩, run_check_of_ok otherRun, precedes,
                    ⟨states.streams, analyses⟩, given⟩
              | error otherError => exact ensures.elim
          | error error =>
              rw [run_check_of_error run]
              intro exact'
              have fail := ensures exact'
              cases otherOutcome with
              | ok otherResult => exact fail.elim
              | error otherError => exact ⟨otherError, run_check_of_error otherRun, fail⟩

theorem exhausted {gives : Analysis → α → β → Prop} :
    Mirrors correspondence depth later (exhausted : Parser α) (Parser.exhausted : Parser β) before
      gives :=
  fun _ _ _ => ⟨_, rfl, .internal _ _⟩

/-- Both parsers decide alike. -/
theorem ite {condition otherCondition : Prop} [Decidable condition] [Decidable otherCondition]
    {first second : Parser α} {otherFirst otherSecond : Parser β}
    {gives : Analysis → α → β → Prop} (iff : otherCondition ↔ condition)
    (whenTrue : condition → Mirrors correspondence depth later first otherFirst before gives)
    (whenFalse : ¬condition → Mirrors correspondence depth later second otherSecond before gives) :
    Mirrors correspondence depth later (if condition then first else second)
      (if otherCondition then otherFirst else otherSecond) before gives := by
  by_cases holds : condition
  · rw [if_pos holds, if_pos (iff.2 holds)]
    exact whenTrue holds
  · rw [if_neg holds, if_neg (mt iff.1 holds)]
    exact whenFalse holds

end Mirrors

section Tokens

variable {correspondence : Correspondence} {depth later : Nat} {before : ParserState}
  {α β : Type}

theorem lookahead_mirrors (distance : Nat) :
    Mirrors correspondence depth depth (lookahead distance) (lookahead distance) before
      fun _ token other => correspondence.Tokens token other := by
  rintro ⟨otherTokens, otherAnalysis⟩ states
  obtain ⟨tokens, analysis⟩ := before
  have runs (state : ParserState) :
      (lookahead distance).run state = (state.tokens.lookahead distance).map (·, state) := by
    simp only [lookahead, StateT.run_bind, StateT.run_get, pure_bind]
    cases state.tokens.lookahead distance <;> rfl
  have found : (∃ token other, tokens.lookahead distance = .ok token ∧
      otherTokens.lookahead distance = .ok other ∧ correspondence.Tokens token other) ∨
      ∃ error other, tokens.lookahead distance = .error error ∧
        otherTokens.lookahead distance = .error other ∧
        correspondence.fault? = some (error, other) := by
    have streams : correspondence.Streams tokens otherTokens := states.streams
    clear states runs
    induction streams generalizing distance with
    | token tokens _ _ induction =>
        cases distance with
        | zero => exact .inl ⟨_, _, rfl, rfl, tokens⟩
        | succ distance => exact induction distance
    | finished _ tokens => exact .inl ⟨_, _, rfl, rfl, tokens⟩
    | failed fault => exact .inr ⟨_, _, rfl, rfl, fault⟩
  rw [runs]
  obtain ⟨token, other, found, otherFound, belong⟩ | ⟨error, other, failed, otherFailed, fault⟩ :=
    found
  · rw [found]
    refine ⟨other, ⟨otherTokens, otherAnalysis⟩, ?_, .refl _, states, belong⟩
    rw [runs, otherFound]
    rfl
  · rw [failed]
    refine fun _ => ⟨other, ?_, .fault fault⟩
    rw [runs, otherFailed]
    rfl

theorem peek_mirrors :
    Mirrors correspondence depth depth peek peek before
      fun _ kind other => correspondence.Kinds kind other :=
  (lookahead_mirrors 0).bind fun _ _ _ _ tokens => .pure tokens.kinds

theorem next_mirrors :
    Mirrors correspondence depth depth next next before
      fun _ token other => correspondence.Tokens token other := by
  refine (lookahead_mirrors 0).bind fun middle token other _ tokens otherBefore states => ?_
  refine ⟨other, { otherBefore with tokens := otherBefore.tokens.rest }, rfl, .refl _,
    ⟨?_, states.analyses⟩, tokens⟩
  obtain ⟨stream, analysis⟩ := middle
  obtain ⟨otherStream, otherAnalysis⟩ := otherBefore
  cases states.streams with
  | token _ _ rest => exact rest
  | finished complete last => exact .finished complete last
  | failed fault => exact .failed fault

theorem consumeIf_mirrors {accepts : TokenKind → Bool}
    (blind : ∀ name otherName, accepts (.identifier name) = accepts (.identifier otherName)) :
    Mirrors correspondence depth depth (consumeIf accepts) (consumeIf accepts) before
      fun _ found other => Option.Rel correspondence.Tokens found other := by
  refine (lookahead_mirrors 0).bind fun middle token other _ tokens => ?_
  rw [tokens.kinds.accepts_eq blind]
  exact .ite Iff.rfl (fun _ => next_mirrors.bind fun _ _ _ _ tokens => .pure (.some tokens))
    fun _ => .pure .none

theorem consume_mirrors {kind : TokenKind} (nameless : ∀ name, kind ≠ .identifier name) :
    Mirrors correspondence depth depth (consume kind) (consume kind) before
      fun _ found other => other = found := by
  have blind (name otherName : String) :
      (TokenKind.identifier name == kind) = (TokenKind.identifier otherName == kind) := by
    rw [beq_eq_false_iff_ne.2 (nameless name).symm, beq_eq_false_iff_ne.2 (nameless otherName).symm]
  refine (consumeIf_mirrors blind).bind fun _ found other _ both => .pure ?_
  cases both <;> rfl

theorem consumeSign_mirrors (sign : Punctuation) :
    Mirrors correspondence depth depth (consumeSign sign) (consumeSign sign) before
      fun _ found other => other = found :=
  consume_mirrors (by simp)

theorem unexpected_mirrors (expected : Expectation) {gives : Analysis → α → β → Prop} :
    Mirrors correspondence depth later (unexpected expected) (unexpected expected) before gives :=
  (lookahead_mirrors 0).bind fun _ _ _ _ tokens _ _ _ =>
    ⟨_, rfl, .unexpected tokens.places tokens.kinds⟩

theorem expect_mirrors {kind : TokenKind} (nameless : ∀ name, kind ≠ .identifier name) :
    Mirrors correspondence depth depth (expect kind) (expect kind) before fun _ _ _ => True := by
  refine (consume_mirrors nameless).bind ?_
  rintro middle found _ - rfl
  exact .ite Iff.rfl (fun _ => .pure trivial) fun _ => unexpected_mirrors _

theorem expectSign_mirrors (sign : Punctuation) :
    Mirrors correspondence depth depth (expectSign sign) (expectSign sign) before
      fun _ _ _ => True :=
  expect_mirrors (by simp)

theorem expectWord_mirrors (word : Keyword) :
    Mirrors correspondence depth depth (expectWord word) (expectWord word) before
      fun _ _ _ => True :=
  expect_mirrors (by simp)

theorem expectIdentifier_mirrors :
    Mirrors correspondence depth depth expectIdentifier expectIdentifier before
      fun _ token other => correspondence.Tokens token other := by
  refine (consumeIf_mirrors fun _ _ => rfl).bind fun _ found other _ both => ?_
  cases both with
  | some tokens => exact .pure tokens
  | none => exact unexpected_mirrors _

end Tokens

section Repetition

variable {correspondence : Correspondence} {depth : Nat} {before : ParserState} {α β : Type}
  {item : Parser α} {otherItem : Parser β} {gives : Analysis → α → β → Prop}
  (mono : ∀ before after result other, before.Precedes after → gives before result other →
    gives after result other)
  (items : ∀ state, Mirrors correspondence depth depth item otherItem state gives)

include mono items

theorem sepByComma_mirrors (fuel : Nat) :
    Mirrors correspondence depth depth (sepByComma item fuel) (sepByComma otherItem fuel) before
      fun after results others => List.Forall₂ (gives after) results others := by
  induction fuel generalizing before with
  | zero => exact .exhausted
  | succ fuel induction =>
      refine (items before).bind fun middle first otherFirst _ given => ?_
      refine (consumeSign_mirrors .comma).bind ?_
      rintro state found _ precedes rfl
      refine .ite Iff.rfl (fun _ => ?_) fun _ =>
        .pure (.cons (mono _ _ _ _ precedes given) .nil)
      refine induction.bind fun after rest others later all => ?_
      exact .pure (.cons (mono _ _ _ _ (precedes.trans later) given) all)

theorem manyUntil_mirrors (closing : Punctuation) (fuel : Nat) :
    Mirrors correspondence depth depth (manyUntil closing item fuel)
      (manyUntil closing otherItem fuel) before
      fun after results others => List.Forall₂ (gives after) results others := by
  induction fuel generalizing before with
  | zero => exact .exhausted
  | succ fuel induction =>
      refine (consumeSign_mirrors closing).bind ?_
      rintro state found _ - rfl
      refine .ite Iff.rfl (fun _ => .pure .nil) fun _ => ?_
      refine (items state).bind fun middle first otherFirst _ given => ?_
      refine induction.bind fun after rest others later all => ?_
      exact .pure (.cons (mono _ _ _ _ later given) all)

end Repetition

section Types

variable {correspondence : Correspondence} {depth : Nat} {before : ParserState}

/-- Lists of results that are the same are the same list. -/
theorem eq_of_forall₂_eq {α : Type} {results others : List α}
    (all : List.Forall₂ (fun result other => other = result) results others) :
    others = results := by
  induction all with
  | nil => rfl
  | cons same _ induction => rw [same, induction]

theorem functionType_mirrors {nested : Parser Ty}
    (types : ∀ state, Mirrors correspondence depth depth nested nested state
      fun _ type other => other = type) (fuel : Nat) :
    Mirrors correspondence depth depth (functionType nested fuel) (functionType nested fuel) before
      fun _ type other => other = type := by
  have result (parameters : List Ty) {state : ParserState} : Mirrors correspondence depth depth (do
        expectSign .arrow
        let result ← nested
        return Ty.function result parameters)
      (do
        expectSign .arrow
        let result ← nested
        return Ty.function result parameters) state fun _ type other => other = type := by
    refine (expectSign_mirrors .arrow).bind fun _ _ _ _ _ => (types _).bind ?_
    rintro after type _ - rfl
    exact .pure rfl
  refine (consumeSign_mirrors .rightParen).bind ?_
  rintro middle found _ - rfl
  refine .ite Iff.rfl (fun _ => result []) fun _ => ?_
  refine (sepByComma_mirrors (fun _ _ _ _ _ => id) types fuel).bind ?_
  intro after parameters others _ all
  rw [eq_of_forall₂_eq all]
  exact (expectSign_mirrors .rightParen).bind fun _ _ _ _ _ => result parameters

theorem typeWithin_mirrors (fuel : Nat) :
    Mirrors correspondence depth depth (typeWithin fuel) (typeWithin fuel) before
      fun _ type other => other = type := by
  induction fuel generalizing before with
  | zero => exact .exhausted
  | succ fuel induction =>
      refine peek_mirrors.bind ?_
      rintro middle kind _ - ⟨-, rfl⟩
      cases kind with
      | basicType type => exact next_mirrors.bind fun _ _ _ _ _ => .pure rfl
      | arithmetic operator =>
          cases operator with
          | mul =>
              refine next_mirrors.bind fun _ _ _ _ _ => induction.bind ?_
              rintro after type _ - rfl
              exact .pure rfl
          | _ => exact unexpected_mirrors _
      | punctuation sign =>
          cases sign with
          | leftParen =>
              exact next_mirrors.bind fun _ _ _ _ _ =>
                functionType_mirrors (fun _ => induction) fuel
          | _ => exact unexpected_mirrors _
      | _ => exact unexpected_mirrors _

end Types

end Parser

end Minilang
