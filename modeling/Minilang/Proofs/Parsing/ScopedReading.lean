import Minilang.Parsing.Types
import Minilang.Proofs.Analysis.LexicalScopes
import Minilang.Proofs.Parsing.Continuations

/-!
# Parsers read scopes

A parser consumes tokens, and reading these tokens leads from the scopes in front of them to those behind
them. `Parser.Tracks` follows both. What a parser has consumed may be read a little later, because the
analysis takes a token into account only after the parser has consumed it. Where a parser fails for a
name, the next token cannot be read.
-/

namespace Minilang

open Analysis (Ensures SparesScopes)

namespace TokenStream

/-- Tokens in front of a stream. -/
def behind (tokens : List Token) (rest : TokenStream) : TokenStream := tokens.foldr token rest

variable {first second : List Token} {rest : TokenStream}

theorem behind_append : rest.behind (first ++ second) = (rest.behind second).behind first :=
  List.foldr_append

theorem Proper.of_behind (proper : (rest.behind first).Proper) : rest.Proper := by
  induction first with
  | nil => exact proper
  | cons token tokens induction => exact induction proper.2

/-- A token in front of the end of input is followed by the rest. -/
theorem Proper.eq_token {stream : TokenStream} (proper : stream.Proper) {token : Token}
    (found : stream.lookahead 0 = .ok token) (more : token.kind ≠ .endOfInput) :
    stream = .token token stream.rest := by
  cases stream with
  | token first rest =>
      cases found
      rfl
  | finished last =>
      cases found
      exact absurd proper more
  | failed error => cases found

/-- Where there is nothing to look at, the text has a fault. -/
theorem eq_failed {stream : TokenStream} {error : Diagnostic}
    (failed : stream.lookahead 0 = .error error) : stream = .failed error := by
  cases stream <;> cases failed
  rfl

end TokenStream

namespace LexicalScopes

variable {scopes middle later : LexicalScopes} {stream between rest : TokenStream}

/-- Whether reading the tokens between two places of a stream leads from scopes to others. -/
def Advances (scopes : LexicalScopes) (stream : TokenStream) (later : LexicalScopes)
    (rest : TokenStream) : Prop :=
  ∃ tokens, stream = rest.behind tokens ∧ scopes.readAll tokens = .ok later

namespace Advances

theorem refl (scopes : LexicalScopes) (stream : TokenStream) : scopes.Advances stream scopes stream :=
  ⟨[], rfl, rfl⟩

theorem trans (first : scopes.Advances stream middle between)
    (second : middle.Advances between later rest) : scopes.Advances stream later rest := by
  obtain ⟨tokens, rfl, read⟩ := first
  obtain ⟨more, rfl, readMore⟩ := second
  refine ⟨tokens ++ more, TokenStream.behind_append.symm, ?_⟩
  rw [readAll_append, read]
  exact readMore

theorem proper (advances : scopes.Advances stream later rest) (proper : stream.Proper) :
    rest.Proper := by
  obtain ⟨tokens, rfl, -⟩ := advances
  exact proper.of_behind

/-- One token is read. -/
theorem token {token : Token} (read : scopes.read token = .ok later) (rest : TokenStream) :
    scopes.Advances (.token token rest) later rest :=
  ⟨[token], rfl, by rw [readAll_cons, read]; rfl⟩

end Advances

/-- The failures that reading a stream leaves room for: for a fault in its characters, where all tokens in
front of that have been read, for a token that cannot be read, and for what has nothing to do with either.
-/
inductive Faults (scopes : LexicalScopes) (stream : TokenStream) : Diagnostic → Prop
  | other {error : Diagnostic} : error.IsOther → Faults scopes stream error
  | characters {error : Diagnostic} {later : LexicalScopes} :
      scopes.Advances stream later (.failed error) → Faults scopes stream error
  | scoping {error : Diagnostic} {later : LexicalScopes} {token : Token} {rest : TokenStream} :
      scopes.Advances stream later (.token token rest) → later.read token = .error error →
      Faults scopes stream error

/-- A token that cannot be read is a fault. -/
theorem Faults.next {error : Diagnostic} {token : Token} (proper : stream.Proper)
    (found : stream.lookahead 0 = .ok token) (more : token.kind ≠ .endOfInput)
    (failed : scopes.read token = .error error) : scopes.Faults stream error := by
  rw [proper.eq_token found more]
  exact .scoping (.refl scopes _) failed

/-- What goes wrong further on goes wrong. -/
theorem Faults.behind {error : Diagnostic} (advances : scopes.Advances stream later rest)
    (faults : later.Faults rest error) : scopes.Faults stream error := by
  cases faults with
  | other other => exact .other other
  | characters further => exact .characters (advances.trans further)
  | scoping further failed => exact .scoping (advances.trans further) failed

/-- Whether reading a type counts the parentheses that are open, and changes nothing else. -/
structure Nests (levels : Nat → LexicalScopes) : Prop where
  /-- A parenthesis is opened. -/
  opens (depth : Nat) (token : Token) : token.kind = .punctuation .leftParen →
    (levels depth).read token = .ok (levels (depth + 1))
  /-- A parenthesis is closed. -/
  closes (depth : Nat) (token : Token) : token.kind = .punctuation .rightParen →
    (levels (depth + 1)).read token = .ok (levels depth)
  /-- Other signs in a type change nothing. -/
  keeps (depth : Nat) (token : Token) :
    token.kind = .punctuation .comma ∨ token.kind = .punctuation .arrow ∨ token.kind = .arithmetic .mul →
    (levels depth).read token = .ok (levels depth)
  /-- Within parentheses a type word changes nothing. -/
  inside (depth : Nat) (token : Token) (type : BasicType) : token.kind = .basicType type →
    (levels (depth + 1)).read token = .ok (levels (depth + 1))

end LexicalScopes

namespace Parser

open LexicalScopes (Advances Faults)

/-- A condition on the result of a parser, on scopes, on the state behind the parser, and on what has not
been read. -/
abbrev ScopedCondition (α : Type) : Type :=
  α → LexicalScopes → ParserState → TokenStream → Prop

/-- What holds of the result of a parser, of the scopes behind tokens that have been read, of what has not
been read, and of the state that the parser leaves; or else why it fails. -/
def Tracks {α : Type} (parser : Parser α) (scopes : LexicalScopes) (before : ParserState)
    (unread : TokenStream) (onResult : ScopedCondition α) : Prop :=
  unread.Proper →
    match parser.run before with
    | .ok (result, after) => ∃ later rest, scopes.Advances unread later rest ∧
        onResult result later after rest
    | .error error => scopes.Faults unread error

namespace Tracks

variable {α β : Type} {scopes later : LexicalScopes} {unread : TokenStream} {before : ParserState}
  {onResult : ScopedCondition α}

theorem mono {parser : Parser α} {weaker : ScopedCondition α}
    (tracks : Tracks parser scopes before unread onResult)
    (imp : ∀ result later after rest, onResult result later after rest →
      weaker result later after rest) : Tracks parser scopes before unread weaker := by
  intro proper
  have outcome := tracks proper
  cases run : parser.run before with
  | ok reached =>
      rw [run] at outcome
      obtain ⟨later, rest, advances, holds⟩ := outcome
      exact ⟨later, rest, advances, imp _ _ _ _ holds⟩
  | error error =>
      rw [run] at outcome
      exact outcome

theorem pure {result : α} (holds : onResult result scopes before unread) :
    Tracks (pure result) scopes before unread onResult :=
  fun _ => ⟨scopes, unread, .refl scopes unread, holds⟩

theorem throw {error : Diagnostic} (other : error.IsOther) :
    Tracks (throw error : Parser α) scopes before unread onResult :=
  fun _ => .other other

theorem exhausted : Tracks (exhausted : Parser α) scopes before unread onResult := throw ⟨rfl, rfl⟩

theorem bind {first : Parser β} {next : β → Parser α}
    (tracks : Tracks first scopes before unread fun result later after rest =>
      Tracks (next result) later after rest onResult) :
    Tracks (first >>= next) scopes before unread onResult := by
  intro proper
  have outcome := tracks proper
  rw [run_bind]
  cases run : first.run before with
  | error error =>
      rw [run] at outcome
      exact outcome
  | ok reached =>
      obtain ⟨result, middle⟩ := reached
      rw [run] at outcome
      obtain ⟨later, rest, advances, tracksNext⟩ := outcome
      have outcomeNext := tracksNext (advances.proper proper)
      dsimp only
      cases runNext : (next result).run middle with
      | ok last =>
          rw [runNext] at outcomeNext
          obtain ⟨last, behind, further, holds⟩ := outcomeNext
          exact ⟨last, behind, advances.trans further, holds⟩
      | error error =>
          rw [runNext] at outcomeNext
          exact outcomeNext.behind advances

/-- A token that has been consumed is read. -/
theorem read {parser : Parser α} {token : Token} (found : unread.lookahead 0 = .ok token)
    (more : token.kind ≠ .endOfInput) (read : scopes.read token = .ok later)
    (tracks : Tracks parser later before unread.rest onResult) :
    Tracks parser scopes before unread onResult := by
  intro proper
  have advances : scopes.Advances unread later unread.rest := by
    conv => arg 2; rw [proper.eq_token found more]
    exact .token read _
  have outcome := tracks (advances.proper proper)
  cases run : parser.run before with
  | ok reached =>
      rw [run] at outcome
      obtain ⟨last, behind, further, holds⟩ := outcome
      exact ⟨last, behind, advances.trans further, holds⟩
  | error error =>
      rw [run] at outcome
      exact outcome.behind advances

/-- A token that has just been consumed is read. -/
theorem step {parser : Parser α} {token : Token} (found : before.tokens.lookahead 0 = .ok token)
    (more : token.kind ≠ .endOfInput) (read : scopes.read token = .ok later)
    (tracks : Tracks parser later before.advanced before.advanced.tokens onResult) :
    Tracks parser scopes before.advanced before.tokens onResult :=
  .read found more read tracks

/-- A step of analysis is taken. -/
theorem check {step : Check α}
    (ensures : unread.Proper → Ensures step before.analysis
      (fun result analysis => onResult result scopes ⟨before.tokens, analysis⟩ unread)
      (fun error _ => scopes.Faults unread error)) :
    Tracks (check step) scopes before unread onResult := by
  intro proper
  replace ensures := ensures proper
  rw [Ensures] at ensures
  split at ensures
  · next run =>
    rw [run_check_of_ok run]
    exact ⟨scopes, unread, .refl scopes unread, ensures⟩
  · next run =>
    rw [run_check_of_error run]
    exact ensures

/-! ## Tokens -/

/-- Where the next token cannot be seen, none behind it can. -/
theorem lookahead_failed {onResult : ScopedCondition Token} (distance : Nat) {error : Diagnostic}
    (failed : before.tokens.lookahead 0 = .error error) :
    Tracks (Parser.lookahead distance) scopes before before.tokens onResult := by
  intro _
  have tokens_eq := TokenStream.eq_failed failed
  have seen : before.tokens.lookahead distance = .error error := by rw [tokens_eq]; rfl
  rw [run_lookahead_of_error seen, tokens_eq]
  exact .characters (.refl scopes _)

theorem lookahead {onResult : ScopedCondition Token}
    (holds : ∀ token, before.tokens.lookahead 0 = .ok token →
      onResult token scopes before before.tokens) :
    Tracks (lookahead 0) scopes before before.tokens onResult := by
  cases found : before.tokens.lookahead 0 with
  | ok token =>
      intro _
      rw [run_lookahead found]
      exact ⟨scopes, before.tokens, .refl scopes _, holds token found⟩
  | error error => exact lookahead_failed 0 found

/-- A parser may look further ahead if the next token can be read, and what follows has no other fault
than one in its characters. -/
theorem lookahead_succ {onResult : ScopedCondition Token} {distance : Nat} {first : Token}
    (found : before.tokens.lookahead 0 = .ok first) (more : first.kind ≠ .endOfInput)
    (read : scopes.read first = .ok later)
    (further : ∀ error, before.tokens.rest.lookahead distance = .error error →
      later.Faults before.tokens.rest error)
    (holds : ∀ token, onResult token scopes before before.tokens) :
    Tracks (Parser.lookahead (distance + 1)) scopes before before.tokens onResult := by
  intro proper
  have tokens_eq := proper.eq_token found more
  cases seen : before.tokens.lookahead (distance + 1) with
  | ok token =>
      rw [run_lookahead seen]
      exact ⟨scopes, before.tokens, .refl scopes _, holds token⟩
  | error error =>
      rw [run_lookahead_of_error seen]
      rw [← TokenStream.lookahead_rest] at seen
      refine (further error seen).behind ?_
      conv => arg 2; rw [tokens_eq]
      exact .token read _

theorem peek {onResult : ScopedCondition TokenKind}
    (holds : ∀ token, before.tokens.lookahead 0 = .ok token →
      onResult token.kind scopes before before.tokens) :
    Tracks peek scopes before before.tokens onResult :=
  .bind (.lookahead fun token found => .pure (holds token found))

theorem next {onResult : ScopedCondition Token}
    (holds : ∀ token, before.tokens.lookahead 0 = .ok token →
      onResult token scopes before.advanced before.tokens) :
    Tracks next scopes before before.tokens onResult :=
  .bind (.lookahead fun token found => .bind fun _ => ⟨scopes, _, .refl scopes _, fun _ =>
    ⟨scopes, _, .refl scopes _, holds token found⟩⟩)

theorem consumeIf {accepts : TokenKind → Bool} {onResult : ScopedCondition (Option Token)}
    (taken : ∀ token, before.tokens.lookahead 0 = .ok token → accepts token.kind = true →
      onResult (some token) scopes before.advanced before.tokens)
    (left : onResult none scopes before before.tokens) :
    Tracks (consumeIf accepts) scopes before before.tokens onResult := by
  refine .bind (.lookahead fun token found => ?_)
  split
  · next accepted =>
    refine .bind (.next fun other found' => ?_)
    cases found.symm.trans found'
    exact .pure (taken token found accepted)
  · exact .pure left

theorem consume {kind : TokenKind} {onResult : ScopedCondition Bool}
    (taken : ∀ token, before.tokens.lookahead 0 = .ok token → token.kind = kind →
      onResult true scopes before.advanced before.tokens)
    (left : onResult false scopes before before.tokens) :
    Tracks (consume kind) scopes before before.tokens onResult :=
  .bind (.consumeIf (fun token found accepted => .pure (taken token found (eq_of_beq accepted)))
    (.pure left))

theorem unexpected (expected : Expectation) :
    Tracks (unexpected expected : Parser α) scopes before before.tokens onResult :=
  .bind (.lookahead fun _ _ => .throw ⟨rfl, rfl⟩)

theorem expect {kind : TokenKind} {onResult : ScopedCondition Unit}
    (taken : ∀ token, before.tokens.lookahead 0 = .ok token → token.kind = kind →
      onResult () scopes before.advanced before.tokens) :
    Tracks (expect kind) scopes before before.tokens onResult :=
  .bind (.consume (fun token found kind_eq => .pure (taken token found kind_eq)) (.unexpected _))

theorem expectIdentifier {onResult : ScopedCondition Token}
    (taken : ∀ token name, before.tokens.lookahead 0 = .ok token → token.kind = .identifier name →
      onResult token scopes before.advanced before.tokens) :
    Tracks expectIdentifier scopes before before.tokens onResult := by
  refine .bind (.consumeIf (fun token found accepted => .pure ?_) (.unexpected _))
  split at accepted
  · next name spelled => exact taken token name found spelled
  · cases accepted

/-! ## Types -/

section Types

variable {levels : Nat → LexicalScopes} (nests : LexicalScopes.Nests levels)

/-- Whether a type has been parsed, the last word of which has not been read. -/
def ParsedType (scopes : LexicalScopes) (before : ParserState) : ScopedCondition Ty :=
  fun _ later after rest => later = scopes ∧ after.analysis = before.analysis ∧
    ∃ last type, rest.lookahead 0 = .ok last ∧ last.kind = .basicType type ∧
      rest.rest = after.tokens

include nests

theorem sepByComma_types {nested : Parser Ty}
    (types : ∀ depth before,
      Tracks nested (levels depth) before before.tokens (ParsedType (levels depth) before))
    (fuel depth : Nat) (before : ParserState) :
    Tracks (sepByComma nested fuel) (levels (depth + 1)) before before.tokens
      fun _ later after rest => later = levels (depth + 1) ∧ rest = after.tokens ∧
        after.analysis = before.analysis := by
  induction fuel generalizing before with
  | zero => exact .exhausted
  | succ fuel induction =>
      refine .bind ((types (depth + 1) before).mono ?_)
      rintro _ _ after rest ⟨rfl, analysis_eq, last, type, found, kind_eq, rest_eq⟩
      refine .read found (by simp [kind_eq]) (nests.inside depth last type kind_eq) ?_
      rw [rest_eq]
      refine .bind (.consume (fun token found kind_eq => ?_) (.pure ⟨rfl, rfl, analysis_eq⟩))
      refine .read found (by simp [kind_eq]) (nests.keeps _ token (.inl kind_eq)) ?_
      refine .bind ((induction after.advanced).mono ?_)
      rintro _ _ last _ ⟨rfl, rfl, same⟩
      exact .pure ⟨rfl, rfl, same.trans analysis_eq⟩

theorem functionType {nested : Parser Ty}
    (types : ∀ depth before,
      Tracks nested (levels depth) before before.tokens (ParsedType (levels depth) before))
    (fuel depth : Nat) (before : ParserState) :
    Tracks (functionType nested fuel) (levels (depth + 1)) before before.tokens
      (ParsedType (levels depth) before) := by
  have result (parameters : List Ty) (middle : ParserState)
      (analysis_eq : middle.analysis = before.analysis) :
      Tracks (do
        Parser.expectSign .arrow
        let result ← nested
        return Ty.function result parameters) (levels depth) middle middle.tokens
        (ParsedType (levels depth) before) := by
    refine .bind (.expect fun token found kind_eq => ?_)
    refine .read found (by simp [kind_eq]) (nests.keeps _ token (.inr (.inl kind_eq))) ?_
    refine .bind ((types depth middle.advanced).mono ?_)
    rintro _ _ after rest ⟨rfl, same, last, type, parsed⟩
    exact .pure ⟨rfl, same.trans analysis_eq, last, type, parsed⟩
  refine .bind (.consume (fun token found kind_eq => ?_) ?_)
  · refine .read found (by simp [kind_eq]) (nests.closes _ token kind_eq) ?_
    exact result [] before.advanced rfl
  · refine .bind ((sepByComma_types nests types fuel depth before).mono ?_)
    rintro parameters _ after _ ⟨rfl, rfl, analysis_eq⟩
    refine .bind (.expect fun token found kind_eq => ?_)
    refine .read found (by simp [kind_eq]) (nests.closes _ token kind_eq) ?_
    exact result parameters after.advanced analysis_eq

theorem typeWithin (fuel depth : Nat) (before : ParserState) :
    Tracks (typeWithin fuel) (levels depth) before before.tokens
      (ParsedType (levels depth) before) := by
  induction fuel generalizing depth before with
  | zero => exact .exhausted
  | succ fuel induction =>
      refine .bind (.peek fun token found => ?_)
      split
      · next type kind_eq =>
        refine .bind (.next fun other found' => ?_)
        cases found.symm.trans found'
        exact .pure ⟨rfl, rfl, token, type, found, kind_eq, rfl⟩
      · next kind_eq =>
        refine .bind (.next fun other found' => ?_)
        cases found.symm.trans found'
        refine .read found (by simp [kind_eq]) (nests.keeps _ token (.inr (.inr kind_eq))) ?_
        refine .bind ((induction depth before.advanced).mono ?_)
        rintro _ _ after rest ⟨rfl, analysis_eq, last, type, parsed⟩
        exact .pure ⟨rfl, analysis_eq, last, type, parsed⟩
      · next kind_eq =>
        refine .bind (.next fun other found' => ?_)
        cases found.symm.trans found'
        refine .read found (by simp [kind_eq]) (nests.opens _ token kind_eq) ?_
        exact functionType nests induction fuel depth before.advanced
      · exact .unexpected _

end Types

end Tracks

end Parser

end Minilang
