import Minilang.Parsing.Expressions
import Minilang.Proofs.Parsing.ScopedReading

/-!
# Expressions in lexical scopes

The tokens of an expression leave the frames alone. A name among them is used as it is read, and all other
tokens change nothing.
-/

namespace Minilang

open Analysis (Ensures SparesScopes OperatorLevel)

/-- Whether a token changes nothing outside of what introduces a declaration. -/
def TokenKind.isIdle : TokenKind → Bool
  | identifier _ | endOfInput => false
  | keyword .varWord | keyword .letWord | keyword .defWord => false
  | punctuation .leftBrace | punctuation .rightBrace | punctuation .semicolon => false
  | _ => true

theorem TokenKind.ne_endOfInput {kind : TokenKind} (idle : kind.isIdle = true) : kind ≠ .endOfInput := by
  rintro rfl
  cases idle

namespace LexicalScopes

/-- Whether an analysis has come to a token outside of what introduces a declaration, in a number of
frames and in the initializer of a constant or in none. -/
structure Within (depth : Nat) (own : Option DeclId) (scopes : LexicalScopes) (analysis : Analysis) :
    Prop where
  /-- The token stands where names are used. -/
  place_eq : scopes.place = .code
  /-- It stands in this initializer. -/
  own_eq : scopes.own = own
  /-- It stands in these frames. -/
  depth_eq : scopes.frames.length = depth
  /-- The analysis has come there. -/
  describes : scopes.Describes analysis

variable {depth : Nat} {own : Option DeclId} {scopes : LexicalScopes} {before after : Analysis}

theorem Within.of_spares (within : scopes.Within depth own before) (spares : before.Spares after) :
    scopes.Within depth own after :=
  ⟨within.place_eq, within.own_eq, within.depth_eq, within.describes.of_spares spares⟩

theorem read_idle (place_eq : scopes.place = .code) {token : Token}
    (idle : token.kind.isIdle = true) : scopes.read token = .ok scopes := by
  rw [read, place_eq]
  dsimp only
  rw [readCode]
  split <;> simp_all [TokenKind.isIdle]

/-- Types outside of declarations change nothing. -/
theorem nests_idle (place_eq : scopes.place = .code) : Nests fun _ => scopes where
  opens _ token kind_eq := read_idle place_eq (by rw [kind_eq]; rfl)
  closes _ token kind_eq := read_idle place_eq (by rw [kind_eq]; rfl)
  keeps _ token kind_eq := read_idle place_eq (by rcases kind_eq with h | h | h <;> rw [h] <;> rfl)
  inside _ token type kind_eq := read_idle place_eq (by rw [kind_eq]; rfl)

end LexicalScopes

namespace Parser

open LexicalScopes (Within)

/-- Whether a parser, where the next token fits, goes from one place outside of what introduces a
declaration to another one, in as many frames and in the same initializer. -/
def Keeps {α : Type} (depth : Nat) (own : Option DeclId) (fits : TokenKind → Prop)
    (parser : Parser α) : Prop :=
  ∀ scopes before, scopes.Within depth own before.analysis →
    (∀ token, before.tokens.lookahead 0 = .ok token → fits token.kind) →
    Tracks parser scopes before before.tokens fun _ later after rest =>
      rest = after.tokens ∧ later.Within depth own after.analysis

namespace Keeps

variable {α β : Type} {depth : Nat} {own : Option DeclId} {fits : TokenKind → Prop}

theorem always {parser : Parser α} (keeps : Keeps depth own (fun _ => True) parser) :
    Keeps depth own fits parser :=
  fun scopes before within _ => keeps scopes before within fun _ _ => trivial

theorem pure (result : α) : Keeps depth own fits (pure result) :=
  fun _ _ within _ => .pure ⟨rfl, within⟩

theorem exhausted : Keeps depth own fits (exhausted : Parser α) := fun _ _ _ _ => .exhausted

theorem bind {first : Parser β} {next : β → Parser α} (keeps : Keeps depth own fits first)
    (keepsNext : ∀ result, Keeps depth own (fun _ => True) (next result)) :
    Keeps depth own fits (first >>= next) := by
  intro scopes before within fitting
  refine .bind ((keeps scopes before within fitting).mono ?_)
  rintro result later after _ ⟨rfl, within⟩
  exact keepsNext result later after within fun _ _ => trivial

theorem ite {condition : Prop} [Decidable condition] {first second : Parser α}
    (whenTrue : Keeps depth own fits first) (whenFalse : Keeps depth own fits second) :
    Keeps depth own fits (if condition then first else second) := by
  split
  · exact whenTrue
  · exact whenFalse

/-- A step that leaves scopes alone is taken. -/
theorem check {step : Check α} (spares : SparesScopes step) : Keeps depth own fits (check step) := by
  intro scopes before within _
  refine .check fun _ => (spares.ensures before.analysis).mono ?_ fun _ _ => .other
  exact fun result after spared => ⟨rfl, within.of_spares spared⟩

/-! ## Tokens -/

/-- What follows a look at the next token may depend on it. -/
theorem peek_bind {next : TokenKind → Parser α}
    (keepsNext : ∀ kind, Keeps depth own (· = kind) (next kind)) :
    Keeps depth own fits (peek >>= next) := by
  intro scopes before within _
  refine .bind (.peek fun token found => keepsNext _ scopes before within fun other found' => ?_)
  cases found.symm.trans found'
  rfl

/-- A token that changes nothing is consumed. -/
theorem next_bind {next : Token → Parser α} (idle : ∀ kind, fits kind → kind.isIdle = true)
    (keepsNext : ∀ token, Keeps depth own (fun _ => True) (next token)) :
    Keeps depth own fits (Parser.next >>= next) := by
  intro scopes before within fitting
  refine .bind (.next fun token found => ?_)
  have token_idle := idle _ (fitting token found)
  refine .read found (TokenKind.ne_endOfInput token_idle)
    (LexicalScopes.read_idle within.place_eq token_idle) ?_
  exact keepsNext token scopes before.advanced within fun _ _ => trivial

theorem consumeIf {accepts : TokenKind → Bool} (idle : ∀ kind, accepts kind = true → kind.isIdle = true) :
    Keeps depth own fits (consumeIf accepts) := by
  intro scopes before within _
  rw [← bind_pure (Parser.consumeIf accepts)]
  refine .bind (.consumeIf (fun token found accepted => ?_) (.pure ⟨rfl, within⟩))
  have token_idle := idle _ accepted
  exact .read found (TokenKind.ne_endOfInput token_idle)
    (LexicalScopes.read_idle within.place_eq token_idle) (.pure ⟨rfl, within⟩)

theorem consume {kind : TokenKind} (idle : kind.isIdle = true) :
    Keeps depth own fits (consume kind) :=
  (consumeIf fun other (same : (other == kind) = true) => eq_of_beq same ▸ idle).bind fun _ => .pure _

theorem unexpected (expected : Expectation) :
    Keeps depth own fits (unexpected expected : Parser α) :=
  fun _ _ _ _ => .unexpected expected

theorem expect {kind : TokenKind} (idle : kind.isIdle = true) : Keeps depth own fits (expect kind) :=
  (consume idle).bind fun _ => .ite (.pure _) (.unexpected _)

/-- A name is used. -/
theorem name {spelled : TokenKind} (isName : ∃ name, spelled = .identifier name) :
    Keeps depth own (· = spelled) (Parser.next >>= fun token => Parser.check (Analysis.name token)) := by
  obtain ⟨name, rfl⟩ := isName
  intro scopes before within fitting
  refine .bind (.next fun token found => ?_)
  have kind_eq : token.kind = .identifier name := fitting token found
  have read_eq : scopes.read token = scopes.use token := by
    rw [LexicalScopes.read, within.place_eq]
    dsimp only
    rw [LexicalScopes.readCode, kind_eq]
  rw [← bind_pure (Parser.check _)]
  have more : token.kind ≠ .endOfInput := by simp [kind_eq]
  refine .bind (.check fun proper => (within.describes.name_ensures token).mono ?_ ?_)
  · rintro result after ⟨uses, used, describes⟩
    exact .read found more (read_eq.trans used)
      (.pure ⟨rfl, within.place_eq, within.own_eq, within.depth_eq, describes⟩)
  · rintro error _ (other | failed)
    · exact .other other
    · exact .next proper found more (read_eq.trans failed)

theorem sepByComma {item : Parser α} (keeps : Keeps depth own (fun _ => True) item) (fuel : Nat) :
    Keeps depth own (fun _ => True) (sepByComma item fuel) := by
  induction fuel with
  | zero => exact .exhausted
  | succ fuel induction =>
      refine keeps.bind fun _ => (consume rfl).bind fun _ => .ite ?_ (.pure _)
      exact induction.bind fun _ => .pure _

/-- A type is parsed. -/
theorem typeWithin (fuel : Nat) : Keeps depth own fits (typeWithin fuel) := by
  intro scopes before within _
  rw [← bind_pure (Parser.typeWithin fuel)]
  refine .bind ((Tracks.typeWithin (LexicalScopes.nests_idle within.place_eq) fuel 0 before).mono ?_)
  rintro type _ after rest ⟨rfl, analysis_eq, last, word, found, kind_eq, rest_eq⟩
  have idle : last.kind.isIdle = true := by rw [kind_eq]; rfl
  refine .read found (TokenKind.ne_endOfInput idle)
    (LexicalScopes.read_idle within.place_eq idle) (.pure ⟨rest_eq, ?_⟩)
  rw [analysis_eq]
  exact within

/-! ## Expressions -/

section Expressions

variable {nested : ExpressionParsers}
  (expressions : ∀ form, Keeps depth own (fun _ => True) (nested form))

include expressions

theorem primary : Keeps depth own (fun _ => True) (primary nested) := by
  refine .peek_bind fun kind => ?_
  have literal {kind : TokenKind} {combine : Token → Check ExprId} (idle : kind.isIdle = true)
      (spares : ∀ token, SparesScopes (combine token)) :
      Keeps depth own (· = kind) (Parser.next >>= fun token => Parser.check (combine token)) :=
    .next_bind (fun _ same => same ▸ idle) fun token => check (spares token)
  cases kind with
  | integer => exact literal rfl .integerLiteral
  | float => exact literal rfl .floatLiteral
  | boolean => exact literal rfl .booleanLiteral
  | character => exact literal rfl .characterLiteral
  | string => exact literal rfl .stringLiteral
  | identifier text => exact name ⟨text, rfl⟩
  | punctuation sign =>
      cases sign with
      | leftParen =>
          exact .next_bind (fun _ same => same ▸ rfl) fun _ => (expressions .expression).bind fun _ =>
            (expect rfl).bind fun _ => .pure _
      | _ => exact .unexpected _
  | _ => exact .unexpected _

theorem arguments {closing : Punctuation} (idle : (TokenKind.punctuation closing).isIdle = true)
    (fuel : Nat) : Keeps depth own (fun _ => True) (arguments nested closing fuel) := by
  refine (consume idle).bind fun _ => .ite (.pure _) ?_
  exact (sepByComma (expressions .expression) fuel).bind fun _ => (expect idle).bind fun _ => .pure _

theorem postfixTail (fuel : Nat) (callee : ExprId) :
    Keeps depth own (fun _ => True) (postfixTail nested fuel callee) := by
  induction fuel generalizing callee with
  | zero => exact .exhausted
  | succ fuel induction =>
      refine (consume rfl).bind fun _ => .ite ?_ ?_
      · exact (arguments expressions rfl fuel).bind fun _ => (check (.call _ _)).bind fun call =>
          induction call
      refine (consume rfl).bind fun _ => .ite ?_ (.pure _)
      exact (arguments expressions rfl fuel).bind fun _ => (check (.index _ _)).bind fun call =>
        induction call

omit expressions in
/-- Only a literal is negated, and nothing is consumed to find out. -/
theorem negatesLiteral {scopes : LexicalScopes} {before : ParserState}
    (within : scopes.Within depth own before.analysis) (operator : Token) :
    Tracks (negatesLiteral operator) scopes before before.tokens fun negates later after rest =>
      later = scopes ∧ rest = before.tokens ∧ after = before ∧
        (negates = true → ∀ token, before.tokens.lookahead 0 = .ok token → token.kind.isIdle = true) := by
  have otherwise : Tracks (Pure.pure false : Parser Bool) scopes before before.tokens
      fun negates later after rest => later = scopes ∧ rest = before.tokens ∧ after = before ∧
        (negates = true → ∀ token, before.tokens.lookahead 0 = .ok token →
          token.kind.isIdle = true) :=
    .pure ⟨rfl, rfl, rfl, fun negates => by cases negates⟩
  rw [Parser.negatesLiteral]
  split
  · exact otherwise
  refine .bind (.peek fun token found => ?_)
  split
  · next value radix kind_eq =>
    have idle : token.kind.isIdle = true := by rw [kind_eq]; rfl
    refine .bind (.lookahead_succ found (TokenKind.ne_endOfInput idle)
      (LexicalScopes.read_idle within.place_eq idle) (fun error failed => ?_) fun second => ?_)
    · rw [TokenStream.eq_failed failed]
      exact .characters (.refl scopes _)
    · split
      · exact otherwise
      · exact otherwise
      · refine .pure ⟨rfl, rfl, rfl, fun _ other found' => ?_⟩
        cases found.symm.trans found'
        exact idle
  · exact otherwise

theorem unaryExpression (fuel : Nat) :
    Keeps depth own (fun _ => True) (unaryExpression nested fuel) := by
  have idle (kind : TokenKind) (operates : isUnaryOperator kind = true) : kind.isIdle = true := by
    unfold isUnaryOperator at operates
    split at operates <;> first | rfl | cases operates
  refine (consumeIf idle).bind fun found => ?_
  cases found with
  | none => exact (primary expressions).bind fun callee => postfixTail expressions fuel callee
  | some operator =>
      intro scopes before within fitting
      refine .bind ((negatesLiteral within operator).mono ?_)
      rintro negates _ _ _ ⟨rfl, rfl, rfl, literal⟩
      split
      · next negated =>
        have keeps : Keeps depth own (·.isIdle = true)
            (Parser.next >>= fun token => Parser.check (Analysis.negatedIntegerLiteral operator token)) :=
          .next_bind (fun _ => id) fun token => check (.negatedIntegerLiteral operator token)
        exact keeps _ _ within (literal negated)
      · have keeps : Keeps depth own (fun _ => True)
            (nested .unary >>= fun operand => Parser.check (Analysis.unary operator operand)) :=
          (expressions .unary).bind fun operand => check (.unary operator operand)
        exact keeps _ _ within fitting

omit expressions in
theorem castTail (fuel : Nat) (operand : ExprId) :
    Keeps depth own (fun _ => True) (castTail fuel operand) := by
  induction fuel generalizing operand with
  | zero => exact .exhausted
  | succ fuel induction =>
      refine (consume rfl).bind fun _ => .ite ?_ (.pure _)
      exact (typeWithin fuel).bind fun _ => (check (.cast _ _)).bind fun cast => induction cast

omit expressions in
theorem binaryTail (level : OperatorLevel) {operand : Parser ExprId}
    (keeps : Keeps depth own (fun _ => True) operand) (fuel : Nat) (left : ExprId) :
    Keeps depth own (fun _ => True) (binaryTail level operand fuel left) := by
  have idle (kind : TokenKind) (operates : level.accepts kind = true) : kind.isIdle = true := by
    unfold OperatorLevel.accepts at operates
    split at operates <;> first | rfl | cases operates
  induction fuel generalizing left with
  | zero => exact .exhausted
  | succ fuel induction =>
      refine (consumeIf idle).bind fun found => ?_
      cases found with
      | none => exact .pure left
      | some operator =>
          exact keeps.bind fun right => (check (.combine level operator left right)).bind fun combined =>
            induction combined

theorem binaryExpression (fuel : Nat) (levels : List OperatorLevel) :
    Keeps depth own (fun _ => True) (binaryExpression nested fuel levels) := by
  induction levels with
  | nil => exact (unaryExpression expressions fuel).bind fun operand => castTail fuel operand
  | cons level tighter induction =>
      exact induction.bind fun left => binaryTail level induction fuel left

theorem conditionalExpression (fuel : Nat) :
    Keeps depth own (fun _ => True) (conditionalExpression nested fuel) := by
  refine (binaryExpression expressions fuel _).bind fun guard =>
    (consume rfl).bind fun _ => .ite ?_ (.pure guard)
  exact (expressions .expression).bind fun _ => (expect rfl).bind fun _ =>
    (expressions .conditional).bind fun _ => check (.conditional _ _ _)

theorem assignmentExpression (fuel : Nat) :
    Keeps depth own (fun _ => True) (assignmentExpression nested fuel) := by
  refine (conditionalExpression expressions fuel).bind fun target =>
    (consume rfl).bind fun _ => .ite ?_ (.pure target)
  exact (expressions .expression).bind fun _ => check (.assignment _ _)

end Expressions

theorem expressionsWithin (fuel : Nat) (form : ExpressionForm) :
    Keeps depth own (fun _ => True) (expressionsWithin fuel form) := by
  induction fuel generalizing form with
  | zero => exact .exhausted
  | succ fuel induction =>
      cases form with
      | expression => exact assignmentExpression induction _
      | conditional => exact conditionalExpression induction _
      | unary => exact unaryExpression induction _

theorem expressionWithin (fuel : Nat) : Keeps depth own (fun _ => True) (expressionWithin fuel) :=
  expressionsWithin fuel .expression

end Keeps

end Parser

end Minilang
