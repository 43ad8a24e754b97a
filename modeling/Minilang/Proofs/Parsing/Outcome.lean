import Minilang.Parsing.Basic
import Minilang.Proofs.Analysis.Outcome
import Minilang.Proofs.Parsing.Tokens

/-!
# Outcomes of parsers

`Parses parser before onResult` says what holds of the result of a parser and of the state behind it, and
that the parser fails for no other reason than a fault of the program. Tokens that have been consumed are
counted, so that fuel can be compared with what is left.
-/

namespace Minilang

open Analysis (Ensures)

namespace ParserState

/-- Whether fewer tokens than a limit are left, and the stream ends as it should. -/
def Within (limit : Nat) (state : ParserState) : Prop :=
  state.tokens.Clean ∧ state.tokens.length < limit

/-- Whether no tokens have come back since another state. -/
abbrev NotBefore (before after : ParserState) : Prop := after.Within (before.tokens.length + 1)

/-- Whether a token at least has been consumed since another state. -/
abbrev Behind (before after : ParserState) : Prop := after.Within before.tokens.length

theorem Within.mono {limit larger : Nat} {state : ParserState} (within : state.Within limit)
    (limit_le : limit ≤ larger) : state.Within larger :=
  ⟨within.1, within.2.trans_le limit_le⟩

theorem Within.notBefore {limit : Nat} {state : ParserState} (within : state.Within limit) :
    state.NotBefore state :=
  ⟨within.1, Nat.lt_succ_self _⟩

variable {before middle after : ParserState}

theorem NotBefore.within {limit : Nat} (later : before.NotBefore after)
    (within : before.Within limit) : after.Within limit :=
  ⟨later.1, (Nat.le_of_lt_succ later.2).trans_lt within.2⟩

theorem NotBefore.trans (first : before.NotBefore middle) (second : middle.NotBefore after) :
    before.NotBefore after :=
  ⟨second.1, by have := first.2; have := second.2; omega⟩

theorem Behind.trans_notBefore (first : before.Behind middle) (second : middle.NotBefore after) :
    before.Behind after :=
  ⟨second.1, by have := first.2; have := second.2; omega⟩

theorem NotBefore.trans_behind (first : before.NotBefore middle) (second : middle.Behind after) :
    before.Behind after :=
  ⟨second.1, by have := first.2; have := second.2; omega⟩

theorem Behind.notBefore (later : before.Behind after) : before.NotBefore after :=
  later.mono (Nat.le_succ _)

theorem Behind.trans (first : before.Behind middle) (second : middle.Behind after) :
    before.Behind after :=
  first.trans_notBefore second.notBefore

/-- Consuming a token brings a state below a limit that was one higher. -/
theorem Behind.within {limit : Nat} (later : before.Behind after)
    (within : before.Within (limit + 1)) : after.Within limit :=
  later.mono (Nat.le_of_lt_succ within.2)

/-- The state in which analysis has come to another place. -/
def withAnalysis (state : ParserState) (analysis : Analysis) : ParserState :=
  { state with analysis }

end ParserState

namespace Parser

/-- What holds behind a parser that gives a result; otherwise the program is at fault. -/
def Parses {α : Type} (parser : Parser α) (before : ParserState)
    (onResult : α → ParserState → Prop) : Prop :=
  match parser.run before with
  | .ok (result, after) => onResult result after
  | .error error => error.isFault = true

variable {α β : Type} {before : ParserState}

/-- A weaker condition holds behind the same parser. -/
theorem Parses.mono {parser : Parser α} {onResult weaker : α → ParserState → Prop}
    (parses : Parses parser before onResult)
    (result_imp : ∀ result after, onResult result after → weaker result after) :
    Parses parser before weaker := by
  unfold Parses at *
  split at parses
  · exact result_imp _ _ parses
  · exact parses

section Laws

variable {onResult : α → ParserState → Prop}

@[simp] theorem parses_pure (result : α) :
    Parses (pure result) before onResult ↔ onResult result before := Iff.rfl

@[simp] theorem parses_bind (first : Parser β) (next : β → Parser α) :
    Parses (first >>= next) before onResult ↔
      Parses first before fun result after => Parses (next result) after onResult := by
  unfold Parses
  simp only [StateT.run, bind, StateT.bind]
  cases run : first before with
  | ok outcome => rfl
  | error error => rfl

@[simp] theorem parses_throw (error : Diagnostic) :
    Parses (throw error : Parser α) before onResult ↔ error.isFault = true := Iff.rfl

@[simp] theorem parses_check (step : Check α) :
    Parses (check step) before onResult ↔
      Ensures step before.analysis
        (fun result analysis => onResult result (before.withAnalysis analysis))
        (fun error _ => error.isFault = true) := by
  unfold Parses Ensures
  simp only [StateT.run, check]
  split
  · next outcome run => split at run <;> simp_all [ParserState.withAnalysis]
  · next error run => split at run <;> simp_all

end Laws

@[simp] theorem parses_get {onResult : ParserState → ParserState → Prop} :
    Parses get before onResult ↔ onResult before before := Iff.rfl

@[simp] theorem parses_modify (change : ParserState → ParserState)
    {onResult : PUnit → ParserState → Prop} :
    Parses (modify change) before onResult ↔ onResult ⟨⟩ (change before) := Iff.rfl

section Tokens

theorem lookahead_external {tokens : TokenStream} (clean : tokens.Clean) {distance : Nat}
    {error : Diagnostic} (failed : tokens.lookahead distance = .error error) :
    error.isFault = true := by
  induction tokens generalizing distance with
  | token first rest induction =>
      cases distance with
      | zero => cases failed
      | succ distance => exact induction clean failed
  | finished last => simp [TokenStream.lookahead] at failed
  | failed cause =>
      simp only [TokenStream.lookahead, Except.error.injEq] at failed
      exact failed ▸ clean

variable {limit : Nat}

theorem lookahead_parses (within : before.Within limit) (distance : Nat) :
    Parses (lookahead distance) before fun token after =>
      before.tokens.lookahead distance = .ok token ∧ after = before := by
  rw [lookahead, parses_bind, parses_get]
  split
  · next token found => exact ⟨found, rfl⟩
  · next error failed => exact lookahead_external within.1 failed

theorem peek_parses (within : before.Within limit) :
    Parses peek before fun kind after =>
      (∃ token, before.tokens.lookahead 0 = .ok token ∧ token.kind = kind) ∧ after = before := by
  rw [peek, parses_bind]
  refine (lookahead_parses within 0).mono ?_
  rintro token _ ⟨found, rfl⟩
  exact ⟨⟨token, found, rfl⟩, rfl⟩

/-- Consuming anything but the end of input takes a token off a stream. -/
theorem rest_behind (within : before.Within limit) {token : Token}
    (found : before.tokens.lookahead 0 = .ok token) (more : token.kind ≠ .endOfInput) :
    before.Behind { before with tokens := before.tokens.rest } := by
  obtain ⟨clean, -⟩ := within
  obtain ⟨tokens, analysis⟩ := before
  cases tokens with
  | token first rest => exact ⟨clean, Nat.lt_succ_self _⟩
  | finished last =>
      simp only [TokenStream.lookahead, Except.ok.injEq] at found
      exact absurd (found ▸ clean) more
  | failed error => simp [TokenStream.lookahead] at found

/-- The next token is consumed, whatever it is. -/
theorem next_parses (within : before.Within limit) {token : Token}
    (found : before.tokens.lookahead 0 = .ok token) (more : token.kind ≠ .endOfInput) :
    Parses next before fun consumed after =>
      consumed = token ∧ before.Behind after ∧ after.analysis = before.analysis := by
  rw [next, parses_bind]
  refine (lookahead_parses within 0).mono ?_
  rintro other _ ⟨found', rfl⟩
  cases found.symm.trans found'
  rw [parses_bind, parses_modify, parses_pure]
  exact ⟨rfl, rest_behind within found more, rfl⟩

/-- A token is consumed if it is accepted, and otherwise nothing happens. -/
theorem consumeIf_parses (within : before.Within limit) {accepts : TokenKind → Bool}
    (endRejected : accepts .endOfInput = false) :
    Parses (consumeIf accepts) before fun result after =>
      (∃ token, result = some token ∧ accepts token.kind = true ∧ before.Behind after ∧
        after.analysis = before.analysis) ∨ (result = none ∧ after = before) := by
  rw [consumeIf, parses_bind]
  refine (lookahead_parses within 0).mono ?_
  rintro token _ ⟨found, rfl⟩
  split
  · next accepted =>
    have more : token.kind ≠ .endOfInput := by
      intro ended
      rw [ended, endRejected] at accepted
      cases accepted
    rw [parses_bind]
    refine (next_parses within found more).mono ?_
    rintro _ after ⟨rfl, behind, same⟩
    exact .inl ⟨_, rfl, accepted, behind, same⟩
  · exact .inr ⟨rfl, rfl⟩

theorem consume_parses (within : before.Within limit) {kind : TokenKind}
    (more : kind ≠ .endOfInput) :
    Parses (consume kind) before fun result after =>
      (result = true ∧ before.Behind after ∧ after.analysis = before.analysis) ∨
        (result = false ∧ after = before) := by
  rw [consume, parses_bind]
  have endRejected : (fun found => found == kind) TokenKind.endOfInput = false :=
    beq_eq_false_iff_ne.2 more.symm
  refine (consumeIf_parses within endRejected).mono ?_
  rintro _ after (⟨token, rfl, -, behind, same⟩ | ⟨rfl, rfl⟩)
  · exact .inl ⟨rfl, behind, same⟩
  · exact .inr ⟨rfl, rfl⟩

theorem unexpected_parses (within : before.Within limit) (expected : Expectation)
    {onResult : α → ParserState → Prop} : Parses (unexpected expected) before onResult := by
  rw [unexpected, parses_bind]
  refine (lookahead_parses within 0).mono ?_
  rintro token _ -
  exact rfl

/-- What is expected is consumed. -/
theorem expect_parses (within : before.Within limit) {kind : TokenKind}
    (more : kind ≠ .endOfInput) :
    Parses (expect kind) before fun _ after =>
      before.Behind after ∧ after.analysis = before.analysis := by
  rw [expect, parses_bind]
  refine (consume_parses within more).mono ?_
  rintro _ after (⟨rfl, behind, same⟩ | ⟨rfl, rfl⟩)
  · exact ⟨behind, same⟩
  · exact unexpected_parses within _

theorem expectSign_parses (within : before.Within limit) (sign : Punctuation) :
    Parses (expectSign sign) before fun _ after =>
      before.Behind after ∧ after.analysis = before.analysis :=
  expect_parses within (by simp)

theorem consumeSign_parses (within : before.Within limit) (sign : Punctuation) :
    Parses (consumeSign sign) before fun result after =>
      (result = true ∧ before.Behind after ∧ after.analysis = before.analysis) ∨
        (result = false ∧ after = before) :=
  consume_parses within (by simp)

theorem expectWord_parses (within : before.Within limit) (word : Keyword) :
    Parses (expectWord word) before fun _ after =>
      before.Behind after ∧ after.analysis = before.analysis :=
  expect_parses within (by simp)

/-- An expected name is a token that spells one. -/
theorem expectIdentifier_parses (within : before.Within limit) :
    Parses expectIdentifier before fun token after =>
      (∃ name, token.kind = .identifier name) ∧ before.Behind after ∧
        after.analysis = before.analysis := by
  rw [expectIdentifier, parses_bind]
  refine (consumeIf_parses within rfl).mono ?_
  rintro _ after (⟨token, rfl, accepted, behind, same⟩ | ⟨rfl, rfl⟩)
  · refine ⟨?_, behind, same⟩
    cases spelled : token.kind with
    | identifier name => exact ⟨name, rfl⟩
    | _ => simp [spelled] at accepted
  · exact unexpected_parses within _

end Tokens

section Repetition

variable {limit fuel : Nat} {item : Parser α}

/-- What every item keeps is kept by items with commas between them. -/
theorem sepByComma_parses (holds : List α → Analysis → Prop) (done : List α) (fuel_le : fuel ≤ limit)
    (step : ∀ done state, state.Within limit → holds done state.analysis →
      Parses item state fun result after =>
        state.NotBefore after ∧ holds (done ++ [result]) after.analysis)
    (within : before.Within fuel) (held : holds done before.analysis) :
    Parses (sepByComma item fuel) before fun results after =>
      before.NotBefore after ∧ holds (done ++ results) after.analysis := by
  induction fuel generalizing before done with
  | zero => exact absurd within.2 (Nat.not_lt_zero _)
  | succ fuel induction =>
      rw [sepByComma, parses_bind]
      refine (step done before (within.mono fuel_le) held).mono ?_
      rintro result middle ⟨later, held⟩
      rw [parses_bind]
      refine (consumeSign_parses (later.within within) .comma).mono ?_
      rintro _ after (⟨rfl, behind, same⟩ | ⟨rfl, rfl⟩)
      · rw [if_pos rfl, parses_bind]
        rw [← same] at held
        refine (induction _ (Nat.le_of_succ_le fuel_le)
          ((later.trans_behind behind).within within) held).mono ?_
        rintro results last ⟨last_later, held⟩
        rw [List.append_assoc] at held
        exact ⟨(later.trans behind.notBefore).trans last_later, held⟩
      · exact ⟨later, held⟩

/-- What every item keeps is kept by items up to a closing sign. -/
theorem manyUntil_parses (holds : List α → Analysis → Prop) (done : List α)
    (closing : Punctuation) (fuel_le : fuel ≤ limit)
    (step : ∀ done state, state.Within limit → holds done state.analysis →
      Parses item state fun result after =>
        state.Behind after ∧ holds (done ++ [result]) after.analysis)
    (within : before.Within fuel) (held : holds done before.analysis) :
    Parses (manyUntil closing item fuel) before fun results after =>
      before.Behind after ∧ holds (done ++ results) after.analysis := by
  induction fuel generalizing before done with
  | zero => exact absurd within.2 (Nat.not_lt_zero _)
  | succ fuel induction =>
      rw [manyUntil, parses_bind]
      refine (consumeSign_parses within closing).mono ?_
      rintro _ after (⟨rfl, behind, same⟩ | ⟨rfl, rfl⟩)
      · refine ⟨behind, ?_⟩
        rw [same, List.append_nil]
        exact held
      · rw [if_neg Bool.false_ne_true, parses_bind]
        refine (step done after (within.mono fuel_le) held).mono ?_
        rintro result middle ⟨behind, held⟩
        rw [parses_bind]
        refine (induction _ (Nat.le_of_succ_le fuel_le) (behind.within within) held).mono ?_
        rintro results last ⟨last_behind, held⟩
        rw [List.append_assoc] at held
        exact ⟨behind.trans last_behind, held⟩

end Repetition

end Parser

end Minilang
