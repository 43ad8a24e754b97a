import Minilang.Parsing.Types
import Minilang.Proofs.Parsing.Recognition

/-!
# Parsing a text that goes on

Other tokens may stand behind the tokens of a text, and there may be fuel for more rounds. A parser that
succeeds without them does the same with them, unless it has come to the end of its text. One that ends with a
sign it asks for cannot have come there before, so it does not even look at what stands behind.
-/

namespace Minilang

namespace TokenStream

/-- Whether the end of input stands at the end of a stream and nowhere else. -/
def Proper : TokenStream → Prop
  | token first rest => first.kind ≠ .endOfInput ∧ rest.Proper
  | finished last => last.kind = .endOfInput
  | failed _ => True

/-- A stream behind which other tokens stand, if any are given. -/
def followedBy (more : Option TokenStream) : TokenStream → TokenStream
  | token first rest => token first (rest.followedBy more)
  | finished last => more.getD (finished last)
  | failed error => failed error

/-- Whether nothing is left of a stream behind which other tokens stand. -/
inductive AtSeam : Option TokenStream → TokenStream → Prop
  | intro (more : TokenStream) (last : Token) : AtSeam (some more) (finished last)

variable {more : Option TokenStream} {tokens : TokenStream}

@[simp] theorem followedBy_none (tokens : TokenStream) : tokens.followedBy none = tokens := by
  induction tokens with
  | token first rest induction => rw [followedBy, induction]
  | finished | failed => rfl

theorem AtSeam.rest (atSeam : AtSeam more tokens) : AtSeam more tokens.rest := by
  cases atSeam
  exact .intro _ _

/-- Nothing but the end is left there. -/
theorem AtSeam.endOfInput (atSeam : AtSeam more tokens) (proper : tokens.Proper) {last : Token}
    (found : tokens.lookahead 0 = .ok last) : last.kind = .endOfInput := by
  cases atSeam
  cases found
  exact proper

/-- Nothing stands behind a stream that nothing follows. -/
theorem not_atSeam_none : ¬AtSeam none tokens := fun atSeam => by cases atSeam

/-- The next token is the same when others stand behind. -/
theorem lookahead_followedBy (inside : ¬AtSeam more tokens) :
    (tokens.followedBy more).lookahead 0 = tokens.lookahead 0 := by
  cases tokens with
  | token | failed => rfl
  | finished last =>
      cases more with
      | none => rfl
      | some more => exact absurd (.intro more last) inside

theorem rest_followedBy (inside : ¬AtSeam more tokens) :
    (tokens.followedBy more).rest = tokens.rest.followedBy more := by
  cases tokens with
  | token | failed => rfl
  | finished last =>
      cases more with
      | none => rfl
      | some more => exact absurd (.intro more last) inside

/-- A token in front of the end is the same when others stand behind. -/
theorem Proper.lookahead_followedBy (proper : tokens.Proper) {distance : Nat} {token : Token}
    (found : tokens.lookahead distance = .ok token) (more_left : token.kind ≠ .endOfInput) :
    (tokens.followedBy more).lookahead distance = .ok token := by
  induction tokens generalizing distance with
  | token first rest induction =>
      cases distance with
      | zero => exact found
      | succ distance => exact induction proper.2 found
  | finished last =>
      rw [lookahead, Except.ok.injEq] at found
      exact absurd (found ▸ proper) more_left
  | failed error => cases found

theorem Proper.rest (proper : tokens.Proper) : tokens.rest.Proper := by
  cases tokens with
  | token first rest => exact proper.2
  | finished | failed => exact proper

/-- Where the end of input is found, nothing is left in front of what stands behind. -/
theorem Proper.atSeam (proper : tokens.Proper) {last : Token}
    (found : tokens.lookahead 0 = .ok last) (end_reached : last.kind = .endOfInput)
    (more : TokenStream) : AtSeam (some more) tokens := by
  cases tokens with
  | token first rest =>
      cases found
      exact absurd end_reached proper.1
  | finished last => exact .intro more last
  | failed error => cases found

end TokenStream

namespace ParserState

/-- A state in which other tokens stand behind those that have not been consumed. -/
def followedBy (more : Option TokenStream) (state : ParserState) : ParserState :=
  { state with tokens := state.tokens.followedBy more }

/-- Whether all tokens have been consumed in front of others. -/
abbrev AtSeam (more : Option TokenStream) (state : ParserState) : Prop :=
  TokenStream.AtSeam more state.tokens

end ParserState

namespace Parser

/-- Whether a parser, where it succeeds, comes to the end of its text, or does what another one does when
other tokens stand behind. -/
def Continues {α : Type} (more : Option TokenStream) (parser other : Parser α) : Prop :=
  ∀ before result after, before.tokens.Proper → parser.run before = .ok (result, after) →
    after.tokens.Proper ∧ (before.AtSeam more → after.AtSeam more) ∧
      (¬after.AtSeam more → other.run (before.followedBy more) = .ok (result, after.followedBy more))

/-- Whether a parser, where it succeeds, does what another one does when other tokens stand behind, and
cannot start at the end of its text. -/
def Closes {α : Type} (more : Option TokenStream) (parser other : Parser α) : Prop :=
  ∀ before result after, before.tokens.Proper → parser.run before = .ok (result, after) →
    after.tokens.Proper ∧ ¬before.AtSeam more ∧
      other.run (before.followedBy more) = .ok (result, after.followedBy more)

/-- Whether a parser asks for no tokens. -/
def Blind {α : Type} (parser : Parser α) : Prop :=
  ∀ before result after, parser.run before = .ok (result, after) → after.tokens = before.tokens ∧
    ∀ others, parser.run ⟨others, before.analysis⟩ = .ok (result, ⟨others, after.analysis⟩)

/-- Whether a parser never succeeds. -/
def Fails {α : Type} (parser : Parser α) : Prop :=
  ∀ before result after, parser.run before ≠ .ok (result, after)

variable {α β : Type} {more : Option TokenStream}

namespace Fails

theorem throw (error : Diagnostic) : Fails (throw error : Parser α) :=
  fun _ _ _ run => by cases run

theorem bind {parser : Parser α} {next : α → Parser β} (fails : ∀ result, Fails (next result)) :
    Fails (parser >>= next) := by
  intro before result after run
  obtain ⟨first, middle, -, run⟩ := run_bind_ok run
  exact fails first middle result after run

theorem continues {parser other : Parser α} (fails : Fails parser) :
    Continues more parser other :=
  fun before result after _ run => absurd run (fails before result after)

theorem closes {parser other : Parser α} (fails : Fails parser) : Closes more parser other :=
  fun before result after _ run => absurd run (fails before result after)

end Fails

theorem Closes.continues {parser other : Parser α} (closes : Closes more parser other) :
    Continues more parser other := by
  intro before result after proper run
  obtain ⟨proper, inside, otherRun⟩ := closes before result after proper run
  exact ⟨proper, fun atSeam => absurd atSeam inside, fun _ => otherRun⟩

namespace Blind

theorem pure (result : α) : Blind (pure result) := by
  rintro before _ _ ⟨rfl⟩
  exact ⟨rfl, fun _ => rfl⟩

theorem check (step : Check α) : Blind (check step) := by
  rintro ⟨tokens, analysis⟩ result after run
  simp only [StateT.run, Parser.check] at run ⊢
  split at run
  · cases run
    exact ⟨rfl, fun _ => rfl⟩
  · cases run

theorem bind {parser : Parser α} {next : α → Parser β} (blind : Blind parser)
    (blindNext : ∀ result, Blind (next result)) : Blind (parser >>= next) := by
  intro before result after run
  obtain ⟨first, middle, run, runNext⟩ := run_bind_ok run
  obtain ⟨same, otherRun⟩ := blind _ _ _ run
  obtain ⟨sameNext, otherRunNext⟩ := blindNext first _ _ _ runNext
  exact ⟨sameNext.trans same,
    fun others => (run_bind_of_ok (otherRun others)).trans (otherRunNext others)⟩

theorem continues {parser : Parser α} (blind : Blind parser) : Continues more parser parser := by
  intro before result after proper run
  obtain ⟨same, otherRun⟩ := blind _ _ _ run
  rw [ParserState.AtSeam, ParserState.AtSeam, ParserState.followedBy, ParserState.followedBy, same]
  exact ⟨proper, id, fun _ => otherRun _⟩

end Blind

namespace Continues

theorem pure (result : α) : Continues more (pure result) (pure result) :=
  (Blind.pure result).continues

theorem check (step : Check α) : Continues more (check step) (Parser.check step) :=
  (Blind.check step).continues

theorem bind {parser other : Parser α} {next otherNext : α → Parser β}
    (continues : Continues more parser other)
    (nexts : ∀ result, Continues more (next result) (otherNext result)) :
    Continues more (parser >>= next) (other >>= otherNext) := by
  intro before result after proper run
  obtain ⟨first, middle, run, runNext⟩ := run_bind_ok run
  obtain ⟨proper, seam, otherRun⟩ := continues _ _ _ proper run
  obtain ⟨proper, seamNext, otherRunNext⟩ := nexts first _ _ _ proper runNext
  refine ⟨proper, seamNext ∘ seam, fun inside => ?_⟩
  rw [run_bind_of_ok (otherRun (mt seamNext inside)), otherRunNext inside]

theorem ite {condition : Prop} [Decidable condition] {first second otherFirst otherSecond : Parser α}
    (whenTrue : Continues more first otherFirst) (whenFalse : Continues more second otherSecond) :
    Continues more (if condition then first else second)
      (if condition then otherFirst else otherSecond) := by
  split
  · exact whenTrue
  · exact whenFalse

end Continues

namespace Closes

theorem bind {parser other : Parser α} {next otherNext : α → Parser β}
    (continues : Continues more parser other)
    (closes : ∀ result, Closes more (next result) (otherNext result)) :
    Closes more (parser >>= next) (other >>= otherNext) := by
  intro before result after proper run
  obtain ⟨first, middle, run, runNext⟩ := run_bind_ok run
  obtain ⟨proper, seam, otherRun⟩ := continues _ _ _ proper run
  obtain ⟨proper, inside, otherRunNext⟩ := closes first _ _ _ proper runNext
  exact ⟨proper, mt seam inside, (run_bind_of_ok (otherRun inside)).trans otherRunNext⟩

/-- What asks for no tokens may follow. -/
theorem blind {parser other : Parser α} {next : α → Parser β} (closes : Closes more parser other)
    (blind : ∀ result, Blind (next result)) : Closes more (parser >>= next) (other >>= next) := by
  intro before result after proper run
  obtain ⟨first, middle, run, runNext⟩ := run_bind_ok run
  obtain ⟨proper, inside, otherRun⟩ := closes _ _ _ proper run
  obtain ⟨same, otherRunNext⟩ := blind first _ _ _ runNext
  refine ⟨same ▸ proper, inside, (run_bind_of_ok otherRun).trans ?_⟩
  rw [ParserState.followedBy, ParserState.followedBy, same]
  exact otherRunNext _

end Closes

section Tokens

/-- What a token decides at once is decided alike wherever the same token is found. -/
theorem lookahead_decides {distance : Nat} {next : Token → Parser α}
    (decides : ∀ token, ∃ verdict, next token = pure verdict) {before after other : ParserState}
    (same : other.tokens.lookahead distance = before.tokens.lookahead distance) {verdict : α}
    (run : (lookahead distance >>= next).run before = .ok (verdict, after)) :
    before = after ∧ (lookahead distance >>= next).run other = .ok (verdict, other) := by
  obtain ⟨token, _, looked, run⟩ := run_bind_ok run
  obtain ⟨found, rfl⟩ := lookahead_ok looked
  rw [run_bind_of_ok (run_lookahead (same.trans found))]
  obtain ⟨decided, decided_eq⟩ := decides token
  rw [decided_eq] at run ⊢
  obtain ⟨rfl, rfl⟩ := run
  exact ⟨rfl, rfl⟩

theorem lookahead_continues : Continues more (lookahead 0) (lookahead 0) := by
  intro before result after proper run
  obtain ⟨found, rfl⟩ := lookahead_ok run
  refine ⟨proper, id, fun inside => run_lookahead ?_⟩
  exact (TokenStream.lookahead_followedBy inside).trans found

/-- A parser may look further ahead if it fails where it finds the end. -/
theorem lookahead_bind_closes (distance : Nat) {next otherNext : Token → Parser α}
    (atEnd : ∀ token, token.kind = .endOfInput → Fails (next token))
    (nexts : ∀ token, Closes more (next token) (otherNext token)) :
    Closes more (lookahead distance >>= next) (lookahead distance >>= otherNext) := by
  intro before result after proper run
  obtain ⟨token, _, run, runNext⟩ := run_bind_ok run
  obtain ⟨found, rfl⟩ := lookahead_ok run
  by_cases end_reached : token.kind = .endOfInput
  · exact absurd runNext (atEnd token end_reached _ _ _)
  obtain ⟨proper_after, inside, otherRun⟩ := nexts token _ _ _ proper runNext
  refine ⟨proper_after, inside, ?_⟩
  rw [run_bind_of_ok (run_lookahead (proper.lookahead_followedBy found end_reached))]
  exact otherRun

theorem peek_continues : Continues more peek peek :=
  lookahead_continues.bind fun _ => .pure _

theorem next_continues : Continues more next next := by
  refine lookahead_continues.bind fun token => ?_
  rintro before _ _ proper ⟨rfl⟩
  refine ⟨proper.rest, .rest, fun inside => ?_⟩
  have started : ¬before.AtSeam more := mt TokenStream.AtSeam.rest inside
  have rest_eq := TokenStream.rest_followedBy started
  exact congrArg (fun rest => Except.ok (token, ParserState.mk rest before.analysis)) rest_eq

theorem consumeIf_continues (accepts : TokenKind → Bool) :
    Continues more (consumeIf accepts) (consumeIf accepts) :=
  lookahead_continues.bind fun _ => .ite (next_continues.bind fun _ => .pure _) (.pure none)

theorem consume_continues (kind : TokenKind) : Continues more (consume kind) (consume kind) :=
  (consumeIf_continues _).bind fun _ => .pure _

theorem consumeSign_continues (sign : Punctuation) :
    Continues more (consumeSign sign) (consumeSign sign) :=
  consume_continues _

theorem unexpected_fails (expected : Expectation) : Fails (unexpected expected : Parser α) :=
  .bind fun _ => .throw _

theorem expect_continues (kind : TokenKind) : Continues more (expect kind) (expect kind) :=
  (consume_continues kind).bind fun _ => .ite (.pure _) (unexpected_fails _).continues

theorem expectSign_continues (sign : Punctuation) :
    Continues more (expectSign sign) (expectSign sign) :=
  expect_continues _

theorem expectWord_continues (word : Keyword) :
    Continues more (expectWord word) (expectWord word) :=
  expect_continues _

theorem expectIdentifier_continues : Continues more expectIdentifier expectIdentifier := by
  refine (consumeIf_continues _).bind fun found => ?_
  cases found with
  | some token => exact .pure token
  | none => exact (unexpected_fails _).continues

/-- Where something other than the end is consumed, the end has not been reached before. -/
theorem consume_found {kind : TokenKind} (more_left : kind ≠ .endOfInput)
    {before after : ParserState} (proper : before.tokens.Proper)
    (run : (consume kind).run before = .ok (true, after)) :
    after.tokens.Proper ∧ ¬before.AtSeam more ∧
      (consume kind).run (before.followedBy more) = .ok (true, after.followedBy more) := by
  obtain ⟨found, _, consumed, same⟩ := run_bind_ok run
  obtain ⟨token, token_eq, outcome⟩ := consumeIf_ok consumed
  by_cases fits : (token.kind == kind) = true
  · rw [if_pos fits, Prod.mk.injEq] at outcome
    obtain ⟨rfl, rfl⟩ := outcome
    obtain ⟨-, rfl⟩ := same
    have inside : ¬before.AtSeam more := fun atSeam =>
      more_left ((beq_iff_eq.1 fits).symm.trans (atSeam.endOfInput proper token_eq))
    refine ⟨proper.rest, inside, ?_⟩
    have other_eq := (TokenStream.lookahead_followedBy inside).trans token_eq
    have otherRun : (consumeIf (· == kind)).run (before.followedBy more) = _ :=
      run_consumeIf other_eq _
    rw [if_pos fits] at otherRun
    rw [consume, run_bind_of_ok otherRun]
    have rest_eq := TokenStream.rest_followedBy inside
    exact congrArg (fun rest => Except.ok (true, ParserState.mk rest before.analysis)) rest_eq
  · rw [if_neg fits, Prod.mk.injEq] at outcome
    obtain ⟨rfl, rfl⟩ := outcome
    cases same

/-- A parser closes if it does so where a sign is missing, and asks for no more where it is found. -/
theorem consumeSign_bind_closes (sign : Punctuation) {next otherNext : Bool → Parser α}
    (same : otherNext true = next true) (blind : Blind (next true))
    (closes : Closes more (next false) (otherNext false)) :
    Closes more (consumeSign sign >>= next) (consumeSign sign >>= otherNext) := by
  intro before result after proper run
  obtain ⟨found, middle, run, runNext⟩ := run_bind_ok run
  cases found with
  | true =>
      obtain ⟨proper, inside, otherRun⟩ := consume_found (by simp) proper run
      obtain ⟨same_tokens, otherRunNext⟩ := blind _ _ _ runNext
      refine ⟨same_tokens ▸ proper, inside, (run_bind_of_ok otherRun).trans ?_⟩
      rw [same, ParserState.followedBy, ParserState.followedBy, same_tokens]
      exact otherRunNext _
  | false =>
      obtain ⟨proper, seam, otherRun⟩ := consumeSign_continues sign _ _ _ proper run
      obtain ⟨proper, inside, otherRunNext⟩ := closes _ _ _ proper runNext
      exact ⟨proper, mt seam inside, (run_bind_of_ok (otherRun inside)).trans otherRunNext⟩

theorem expectSign_closes (sign : Punctuation) :
    Closes more (expectSign sign) (expectSign sign) :=
  consumeSign_bind_closes sign rfl (.pure _) (unexpected_fails _).closes

end Tokens

section Repetition

variable {item otherItem : Parser α} (items : Continues more item otherItem)

include items

theorem sepByComma_continues {fuel otherFuel : Nat} (fuel_le : fuel ≤ otherFuel) :
    Continues more (sepByComma item fuel) (sepByComma otherItem otherFuel) := by
  induction fuel generalizing otherFuel with
  | zero => exact (Fails.throw _).continues
  | succ fuel induction =>
      obtain ⟨otherFuel, rfl⟩ := Nat.exists_eq_add_of_le' fuel_le
      refine items.bind fun _ => (consumeSign_continues .comma).bind fun _ => .ite ?_ (.pure _)
      exact (induction (Nat.le_add_left _ _)).bind fun _ => .pure _

theorem manyUntil_closes (closing : Punctuation) {fuel otherFuel : Nat} (fuel_le : fuel ≤ otherFuel) :
    Closes more (manyUntil closing item fuel) (manyUntil closing otherItem otherFuel) := by
  induction fuel generalizing otherFuel with
  | zero => exact (Fails.throw _).closes
  | succ fuel induction =>
      obtain ⟨otherFuel, rfl⟩ := Nat.exists_eq_add_of_le' fuel_le
      refine consumeSign_bind_closes closing rfl (.pure _) (.bind items fun _ => ?_)
      exact (induction (Nat.le_add_left _ _)).blind fun _ => .pure _

end Repetition

section Types

theorem functionType_continues {nested other : Parser Ty} (types : Continues more nested other)
    {fuel otherFuel : Nat} (fuel_le : fuel ≤ otherFuel) :
    Continues more (functionType nested fuel) (functionType other otherFuel) := by
  have result (parameters : List Ty) : Continues more
      (do
        expectSign .arrow
        let result ← nested
        return Ty.function result parameters)
      (do
        expectSign .arrow
        let result ← other
        return Ty.function result parameters) :=
    (expectSign_continues .arrow).bind fun _ => types.bind fun _ => .pure _
  refine (consumeSign_continues .rightParen).bind fun _ => .ite (result []) ?_
  refine (sepByComma_continues types fuel_le).bind fun parameters => ?_
  exact (expectSign_continues .rightParen).bind fun _ => result parameters

theorem typeWithin_continues {fuel otherFuel : Nat} (fuel_le : fuel ≤ otherFuel) :
    Continues more (typeWithin fuel) (typeWithin otherFuel) := by
  induction fuel generalizing otherFuel with
  | zero => exact (Fails.throw _).continues
  | succ fuel induction =>
      obtain ⟨otherFuel, rfl⟩ := Nat.exists_eq_add_of_le' fuel_le
      have types := induction (Nat.le_add_left fuel otherFuel)
      refine peek_continues.bind fun kind => ?_
      cases kind with
      | basicType type => exact next_continues.bind fun _ => .pure _
      | arithmetic operator =>
          cases operator with
          | mul => exact next_continues.bind fun _ => types.bind fun _ => .pure _
          | _ => exact (unexpected_fails _).continues
      | punctuation sign =>
          cases sign with
          | leftParen =>
              exact next_continues.bind fun _ =>
                functionType_continues types (Nat.le_add_left _ _)
          | _ => exact (unexpected_fails _).continues
      | _ => exact (unexpected_fails _).continues

end Types

end Parser

end Minilang
