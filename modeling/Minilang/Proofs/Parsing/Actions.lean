import Minilang.Analysis.Action
import Minilang.Parsing.Program
import Minilang.Proofs.Analysis.Outcome

/-!
# Parsing takes actions

Whatever a parser does to the analysis it does by actions that succeed, and the tokens that it gives to them
are tokens of its text. So what every action keeps is kept by parsing.
-/

namespace Minilang

namespace Analysis

/-- The tokens that an action is given. -/
def Action.tokens : Action → List Token
  | binary _ token _ _ | unary token _ | integerLiteral token | booleanLiteral token
  | floatLiteral token | characterLiteral token | stringLiteral token | name token | breakLoop token
  | continueLoop token | declareObject _ token _ | declareParameter token _
  | declareFunction token _ _ => [token]
  | negatedIntegerLiteral sign token => [sign, token]
  | _ => []

/-- Whether actions that all succeed lead from one state to another one, when they are given certain tokens
only. -/
inductive Performed (among : Token → Prop) : Analysis → Analysis → Prop
  | refl (analysis : Analysis) : Performed among analysis analysis
  | action {before middle after : Analysis} {action : Action} {answer : Answer} :
      Performed among before middle → action.run middle = (.ok answer, after) →
      (∀ token ∈ action.tokens, among token) → Performed among before after

namespace Performed

variable {among : Token → Prop} {before middle after : Analysis}

theorem trans (first : Performed among before middle) (second : Performed among middle after) :
    Performed among before after := by
  induction second with
  | refl => exact first
  | action _ run given induction => exact .action induction run given

/-- What every action keeps is kept. -/
theorem keeps (performed : Performed among before after) {keeps : Analysis → Prop}
    (steps : ∀ (action : Action) (before : Analysis), (∀ token ∈ action.tokens, among token) →
      keeps before → Ensures action.perform before (fun _ after => keeps after) fun _ _ => True)
    (kept : keeps before) : keeps after := by
  induction performed with
  | refl => exact kept
  | action _ run given induction => exact (steps _ _ given induction).result run

end Performed

/-- Whether a step is an action that is given certain tokens only. -/
def Acts {α : Type} (among : Token → Prop) (step : Check α) : Prop :=
  ∃ (action : Action) (answer : α → Answer), action.perform = answer <$> step ∧
    ∀ token ∈ action.tokens, among token

theorem Acts.performed {α : Type} {among : Token → Prop} {step : Check α} (acts : Acts among step)
    {before after : Analysis} {result : α} (run : step.run before = (.ok result, after)) :
    Performed among before after := by
  obtain ⟨action, answer, perform_eq, given⟩ := acts
  have answered : action.run before = (.ok (answer result), after) := by
    rw [Action.run, perform_eq, ExceptT.run_map]
    change (Except.map answer (step.run before).1, (step.run before).2) = _
    rw [run]
    rfl
  exact .action (.refl before) answered given

/-- An action of one token is given nothing else. -/
theorem Acts.on {α : Type} {among : Token → Prop} {step : Check α} {token : Token}
    (held : among token) (action : Action) (answer : α → Answer)
    (perform_eq : action.perform = answer <$> step) (tokens_eq : action.tokens = [token]) :
    Acts among step :=
  ⟨action, answer, perform_eq, fun _ member =>
    List.mem_singleton.1 (tokens_eq ▸ member) ▸ held⟩

end Analysis

namespace TokenStream

/-- Whether all tokens that can be seen in a stream are of a kind. -/
def Holds (among : Token → Prop) (stream : TokenStream) : Prop :=
  ∀ distance token, stream.lookahead distance = .ok token → among token

theorem Holds.rest {among : Token → Prop} {stream : TokenStream} (holds : stream.Holds among) :
    stream.rest.Holds among := by
  intro distance token found
  cases stream with
  | token first rest => exact holds (distance + 1) token found
  | finished last => exact holds distance token found
  | failed error => cases found

end TokenStream

namespace Parser

open Analysis (Acts Performed OperatorLevel)

/-- Whether a parser takes actions that are given certain tokens only, as long as it finds no others. -/
def Performs {α : Type} (among : Token → Prop) (gives : α → Prop) (parser : Parser α) : Prop :=
  ∀ before, before.tokens.Holds among →
    match parser.run before with
    | .ok (result, after) => gives result ∧ after.tokens.Holds among ∧
        Performed among before.analysis after.analysis
    | .error _ => True

namespace Performs

variable {α β : Type} {among : Token → Prop} {gives : α → Prop} {given : β → Prop}

theorem pure {result : α} (gives_result : gives result) : Performs among gives (pure result) :=
  fun before holds => ⟨gives_result, holds, .refl before.analysis⟩

theorem throw (error : Diagnostic) : Performs among gives (throw error : Parser α) :=
  fun _ _ => trivial

theorem bind {first : Parser β} {next : β → Parser α} (first_performs : Performs among given first)
    (next_performs : ∀ result, given result → Performs among gives (next result)) :
    Performs among gives (first >>= next) := by
  intro before holds
  have performs := first_performs before holds
  simp only [StateT.run, Bind.bind, StateT.bind, Except.bind] at performs ⊢
  cases run : first before with
  | error error => trivial
  | ok outcome =>
      rw [run] at performs
      obtain ⟨gives_first, first_holds, performed⟩ := performs
      have rest := next_performs outcome.1 gives_first outcome.2 first_holds
      simp only [StateT.run] at rest
      change match next outcome.1 outcome.2 with
        | .ok (result, after) => gives result ∧ after.tokens.Holds among ∧
            Performed among before.analysis after.analysis
        | .error _ => True
      cases run_next : next outcome.1 outcome.2 with
      | error error => trivial
      | ok last =>
          rw [run_next] at rest
          exact ⟨rest.1, rest.2.1, performed.trans rest.2.2⟩

theorem check {step : Check α} (acts : Acts among step) :
    Performs among (fun _ => True) (check step) := by
  intro before holds
  simp only [StateT.run, Parser.check]
  cases run : ExceptT.run step before.analysis with
  | mk outcome after =>
      cases outcome with
      | ok result => exact ⟨trivial, holds, acts.performed run⟩
      | error error => trivial

theorem get : Performs among (fun state : ParserState => state.tokens.Holds among) get :=
  fun before holds => ⟨holds, holds, .refl before.analysis⟩

section Tokens

theorem lookahead (distance : Nat) : Performs among among (lookahead distance) := by
  refine get.bind fun state holds => ?_
  split
  · next token found => exact .pure (holds distance token found)
  · exact .throw _

theorem peek : Performs among (fun _ => True) peek := (lookahead 0).bind fun _ _ => .pure trivial

theorem next : Performs among among next :=
  (lookahead 0).bind fun _ held before holds => ⟨held, holds.rest, .refl before.analysis⟩

theorem consumeIf (accepts : TokenKind → Bool) :
    Performs among (fun found => ∀ token ∈ found, among token) (consumeIf accepts) := by
  refine (lookahead 0).bind fun token _ => ?_
  split
  · exact next.bind fun _ held => .pure fun _ same => Option.some.inj same ▸ held
  · exact .pure nofun

theorem consume (kind : TokenKind) : Performs among (fun _ => True) (consume kind) :=
  (consumeIf _).bind fun _ _ => .pure trivial

theorem consumeSign (sign : Punctuation) : Performs among (fun _ => True) (consumeSign sign) :=
  consume _

theorem unexpected (expected : Expectation) : Performs among gives (unexpected expected) :=
  (lookahead 0).bind fun _ _ => .throw _

theorem expect (kind : TokenKind) : Performs among (fun _ => True) (expect kind) := by
  refine (consume kind).bind fun found _ => ?_
  split
  · exact .pure trivial
  · exact unexpected _

theorem expectSign (sign : Punctuation) : Performs among (fun _ => True) (expectSign sign) :=
  expect _

theorem expectIdentifier : Performs among among expectIdentifier := by
  refine (consumeIf _).bind fun found held => ?_
  split
  · exact .pure (held _ rfl)
  · exact unexpected _

end Tokens

section Repetition

variable {item : Parser α} (item_performs : Performs among gives item)

include item_performs

theorem sepByComma (fuel : Nat) : Performs among (fun _ => True) (sepByComma item fuel) := by
  induction fuel with
  | zero => exact .throw _
  | succ fuel induction =>
      refine item_performs.bind fun _ _ => (consumeSign .comma).bind fun more _ => ?_
      split
      · exact induction.bind fun _ _ => .pure trivial
      · exact .pure trivial

theorem manyUntil (closing : Punctuation) (fuel : Nat) :
    Performs among (fun _ => True) (manyUntil closing item fuel) := by
  induction fuel with
  | zero => exact .throw _
  | succ fuel induction =>
      refine (consumeSign closing).bind fun closed _ => ?_
      split
      · exact .pure trivial
      · exact item_performs.bind fun _ _ => induction.bind fun _ _ => .pure trivial

end Repetition

/-! ## Types -/

theorem functionType {nested : Parser Ty} (nested_performs : Performs among (fun _ => True) nested)
    (fuel : Nat) : Performs among (fun _ => True) (functionType nested fuel) := by
  have behind (parameters : List Ty) : Performs among (fun _ => True) (do
      Parser.expectSign .arrow
      let result ← nested
      return Ty.function result parameters) :=
    (expectSign .arrow).bind fun _ _ => nested_performs.bind fun _ _ => .pure trivial
  refine (consumeSign .rightParen).bind fun empty _ => ?_
  split
  · exact behind []
  · exact (sepByComma nested_performs fuel).bind fun _ _ => (expectSign .rightParen).bind fun _ _ =>
      behind _

theorem typeWithin (fuel : Nat) : Performs among (fun _ => True) (typeWithin fuel) := by
  induction fuel with
  | zero => exact .throw _
  | succ fuel induction =>
      refine peek.bind fun kind _ => ?_
      split
      · exact next.bind fun _ _ => .pure trivial
      · exact next.bind fun _ _ => induction.bind fun _ _ => .pure trivial
      · exact next.bind fun _ _ => functionType induction fuel
      · exact unexpected _

/-! ## Expressions -/

section Expressions

variable {nested : ExpressionParsers}
  (nested_performs : ∀ form, Performs among (fun _ => True) (nested form))

include nested_performs

theorem primary : Performs among (fun _ => True) (primary nested) := by
  refine peek.bind fun kind _ => ?_
  cases kind with
  | integer => exact next.bind fun _ held => check (.on held (.integerLiteral _) .expr rfl rfl)
  | float => exact next.bind fun _ held => check (.on held (.floatLiteral _) .expr rfl rfl)
  | boolean => exact next.bind fun _ held => check (.on held (.booleanLiteral _) .expr rfl rfl)
  | character =>
      exact next.bind fun _ held => check (.on held (.characterLiteral _) .expr rfl rfl)
  | string => exact next.bind fun _ held => check (.on held (.stringLiteral _) .expr rfl rfl)
  | identifier => exact next.bind fun _ held => check (.on held (.name _) .expr rfl rfl)
  | punctuation sign =>
      cases sign with
      | leftParen =>
          exact next.bind fun _ _ => (nested_performs _).bind fun _ _ =>
            (expectSign .rightParen).bind fun _ _ => .pure trivial
      | _ => exact unexpected _
  | _ => exact unexpected _

theorem arguments (closing : Punctuation) (fuel : Nat) :
    Performs among (fun _ => True) (arguments nested closing fuel) := by
  refine (consumeSign closing).bind fun empty _ => ?_
  split
  · exact .pure trivial
  · exact (sepByComma (nested_performs _) fuel).bind fun _ _ => (expectSign closing).bind fun _ _ =>
      .pure trivial

theorem postfixTail (fuel : Nat) (callee : ExprId) :
    Performs among (fun _ => True) (postfixTail nested fuel callee) := by
  induction fuel generalizing callee with
  | zero => exact .throw _
  | succ fuel induction =>
      refine (consumeSign .leftParen).bind fun called _ => ?_
      split
      · exact (arguments nested_performs _ _).bind fun _ _ =>
          (check ⟨.call _ _, .expr, rfl, nofun⟩).bind fun _ _ => induction _
      · refine (consumeSign .leftBracket).bind fun indexed _ => ?_
        split
        · exact (arguments nested_performs _ _).bind fun _ _ =>
            (check ⟨.index _ _, .expr, rfl, nofun⟩).bind fun _ _ => induction _
        · exact .pure trivial

theorem unaryExpression (fuel : Nat) :
    Performs among (fun _ => True) (unaryExpression nested fuel) := by
  have negates (operator : Token) : Performs among (fun _ => True) (negatesLiteral operator) := by
    unfold negatesLiteral
    split
    · exact .pure trivial
    · refine peek.bind fun kind _ => ?_
      split
      · refine (lookahead 1).bind fun token _ => ?_
        split <;> exact .pure trivial
      · exact .pure trivial
  refine (consumeIf _).bind fun found held => ?_
  split
  · exact (primary nested_performs).bind fun _ _ => postfixTail nested_performs _ _
  · next operator =>
    have operator_held : among operator := held operator rfl
    refine (negates _).bind fun literal _ => ?_
    split
    · exact next.bind fun token token_held =>
        check ⟨.negatedIntegerLiteral operator token, .expr, rfl,
          List.forall_mem_cons.2 ⟨operator_held, List.forall_mem_singleton.2 token_held⟩⟩
    · exact (nested_performs _).bind fun _ _ => check (.on operator_held (.unary operator _) .expr rfl rfl)

omit nested_performs in
theorem castTail (fuel : Nat) (operand : ExprId) :
    Performs among (fun _ => True) (castTail fuel operand) := by
  induction fuel generalizing operand with
  | zero => exact .throw _
  | succ fuel induction =>
      refine (consume _).bind fun found _ => ?_
      split
      · exact (typeWithin fuel).bind fun _ _ =>
          (check ⟨.cast _ _, .expr, rfl, nofun⟩).bind fun _ _ => induction _
      · exact .pure trivial

omit nested_performs in
theorem binaryTail {operand : Parser ExprId}
    (operand_performs : Performs among (fun _ => True) operand) (level : OperatorLevel) (fuel : Nat)
    (left : ExprId) : Performs among (fun _ => True) (binaryTail level operand fuel left) := by
  induction fuel generalizing left with
  | zero => exact .throw _
  | succ fuel induction =>
      refine (consumeIf _).bind fun found held => ?_
      split
      · exact .pure trivial
      · next operator =>
        have operator_held : among operator := held operator rfl
        exact operand_performs.bind fun _ _ =>
          (check (.on operator_held (.binary level operator _ _) .expr rfl rfl)).bind fun _ _ => induction _

theorem binaryExpression (fuel : Nat) (levels : List OperatorLevel) :
    Performs among (fun _ => True) (binaryExpression nested fuel levels) := by
  induction levels with
  | nil => exact (unaryExpression nested_performs fuel).bind fun _ _ => castTail fuel _
  | cons level tighter induction => exact induction.bind fun _ _ => binaryTail induction level fuel _

theorem conditionalExpression (fuel : Nat) :
    Performs among (fun _ => True) (conditionalExpression nested fuel) := by
  refine (binaryExpression nested_performs fuel _).bind fun guard _ =>
    (consumeSign .question).bind fun found _ => ?_
  split
  · exact (nested_performs _).bind fun _ _ => (expectSign .colon).bind fun _ _ =>
      (nested_performs _).bind fun _ _ => check ⟨.conditional _ _ _, .expr, rfl, nofun⟩
  · exact .pure trivial

theorem assignmentExpression (fuel : Nat) :
    Performs among (fun _ => True) (assignmentExpression nested fuel) := by
  refine (conditionalExpression nested_performs fuel).bind fun target _ =>
    (consumeSign .assign).bind fun found _ => ?_
  split
  · exact (nested_performs _).bind fun _ _ => check ⟨.assignment _ _, .expr, rfl, nofun⟩
  · exact .pure trivial

end Expressions

theorem expressionsWithin (fuel : Nat) (form : ExpressionForm) :
    Performs among (fun _ => True) (expressionsWithin fuel form) := by
  induction fuel generalizing form with
  | zero => exact .throw _
  | succ fuel induction =>
      cases form with
      | expression => exact assignmentExpression induction _
      | conditional => exact conditionalExpression induction _
      | unary => exact unaryExpression induction _

theorem expressionWithin (fuel : Nat) : Performs among (fun _ => True) (expressionWithin fuel) :=
  expressionsWithin fuel _

/-! ## Statements and declarations -/

theorem object (kind : ObjectKind) (fuel : Nat) :
    Performs among (fun _ => True) (object kind fuel) :=
  (expect _).bind fun _ _ => expectIdentifier.bind fun name held => (expectSign .colon).bind fun _ _ =>
    (typeWithin fuel).bind fun type _ =>
      (check (.on held (.declareObject kind name type) .decl rfl rfl)).bind fun _ _ =>
        (expectSign .assign).bind fun _ _ => (expressionWithin fuel).bind fun _ _ =>
          (expectSign .semicolon).bind fun _ _ => check ⟨.defineObject _ _, .decl, rfl, nofun⟩

theorem misplacedDefinition (expected : Expectation) :
    Performs among (fun _ => True) (misplacedDefinition expected) :=
  next.bind fun _ _ => expectIdentifier.bind fun _ _ => unexpected _

theorem localDeclaration (fuel : Nat) : Performs among (fun _ => True) (localDeclaration fuel) := by
  refine peek.bind fun kind _ => ?_
  split
  · exact object _ _
  · exact object _ _
  · refine (lookahead 2).bind fun token _ => ?_
    split
    · exact object _ _
    · exact misplacedDefinition _
  · exact unexpected _

theorem guard (fuel : Nat) : Performs among (fun _ => True) (guard fuel) :=
  (expectSign .leftParen).bind fun _ _ => (expressionWithin fuel).bind fun _ _ =>
    (expectSign .rightParen).bind fun _ _ => .pure trivial

section Statements

variable {nested : Parser StmtId} (nested_performs : Performs among (fun _ => True) nested)

include nested_performs

theorem block (fuel : Nat) : Performs among (fun _ => True) (block nested fuel) :=
  (expectSign .leftBrace).bind fun _ _ =>
    (check ⟨.enterBlockScope, fun _ => .done, rfl, nofun⟩).bind fun _ _ =>
      (check ⟨.startBlock, fun _ => .done, rfl, nofun⟩).bind fun _ _ =>
        (manyUntil nested_performs .rightBrace fuel).bind fun _ _ =>
          (check ⟨.leaveScope, fun _ => .done, rfl, nofun⟩).bind fun _ _ =>
            check ⟨.block _, .stmt, rfl, nofun⟩

theorem ifElse (fuel : Nat) : Performs among (fun _ => True) (ifElse nested fuel) :=
  (guard fuel).bind fun _ _ => nested_performs.bind fun _ _ => (expect _).bind fun _ _ =>
    nested_performs.bind fun _ _ => check ⟨.ifElse _ _ _, .stmt, rfl, nofun⟩

theorem guarded {combine : ExprId → StmtId → Check StmtId}
    (acts : ∀ guard body, Acts among (combine guard body)) (fuel : Nat) :
    Performs among (fun _ => True) (guarded combine nested fuel) :=
  (guard fuel).bind fun _ _ => nested_performs.bind fun _ _ => check (acts _ _)

end Statements

theorem jump {combine : Token → Check StmtId}
    (acts : ∀ token, among token → Acts among (combine token)) :
    Performs among (fun _ => True) (jump combine) :=
  next.bind fun token held => (expectSign .semicolon).bind fun _ _ => check (acts token held)

theorem terminated {combine : ExprId → Check StmtId} (acts : ∀ value, Acts among (combine value))
    (fuel : Nat) : Performs among (fun _ => True) (terminated combine fuel) :=
  (expressionWithin fuel).bind fun _ _ => (expectSign .semicolon).bind fun _ _ => check (acts _)

theorem statementWithin (fuel : Nat) : Performs among (fun _ => True) (statementWithin fuel) := by
  induction fuel with
  | zero => exact .throw _
  | succ fuel induction =>
      have declares : Performs among (fun _ => True) (do
          let declaration ← Parser.localDeclaration (fuel + 1)
          Parser.check (Analysis.declarationStatement declaration)) :=
        (localDeclaration _).bind fun _ _ => check ⟨.declarationStatement _, .stmt, rfl, nofun⟩
      refine peek.bind fun kind _ => ?_
      split
      · exact block induction fuel
      · exact next.bind fun _ _ => ifElse induction fuel
      · exact next.bind fun _ _ =>
          guarded induction (fun guard body => ⟨.whenTrue guard body, .stmt, rfl, nofun⟩) fuel
      · exact next.bind fun _ _ =>
          guarded induction (fun guard body => ⟨.whileTrue guard body, .stmt, rfl, nofun⟩) fuel
      · exact jump fun _ held => .on held (.breakLoop _) .stmt rfl rfl
      · exact jump fun _ held => .on held (.continueLoop _) .stmt rfl rfl
      · exact next.bind fun _ _ =>
          terminated (fun value => ⟨.returnValue value, .stmt, rfl, nofun⟩) fuel
      · exact declares
      · exact declares
      · exact declares
      · exact terminated (fun value => ⟨.expressionStatement value, .stmt, rfl, nofun⟩) _

/-! ## Programs -/

theorem parameter (fuel : Nat) : Performs among (fun _ => True) (parameter fuel) :=
  expectIdentifier.bind fun name held => (expectSign .colon).bind fun _ _ =>
    (typeWithin fuel).bind fun type _ => check (.on held (.declareParameter name type) .decl rfl rfl)

theorem parameters (fuel : Nat) : Performs among (fun _ => True) (parameters fuel) := by
  refine peek.bind fun kind _ => ?_
  split
  · exact .pure trivial
  · exact sepByComma (parameter fuel) fuel

theorem function (fuel : Nat) : Performs among (fun _ => True) (function fuel) :=
  (expect _).bind fun _ _ => expectIdentifier.bind fun name held =>
    (expectSign .leftParen).bind fun _ _ =>
      (check ⟨.enterParameterScope, fun _ => .done, rfl, nofun⟩).bind fun _ _ =>
        (parameters fuel).bind fun _ _ => (expectSign .rightParen).bind fun _ _ =>
          (expectSign .arrow).bind fun _ _ => (typeWithin fuel).bind fun _ _ =>
            (check ⟨.leaveScope, fun _ => .done, rfl, nofun⟩).bind fun _ _ =>
              (check (.on held (.declareFunction name _ _) .decl rfl rfl)).bind fun _ _ =>
                (block (statementWithin fuel) fuel).bind fun _ _ =>
                  check ⟨.defineFunction _ _, .decl, rfl, nofun⟩

theorem declaration (fuel : Nat) : Performs among (fun _ => True) (declaration fuel) := by
  refine peek.bind fun kind _ => ?_
  split
  · exact object _ _
  · exact object _ _
  · refine (lookahead 2).bind fun token _ => ?_
    split
    · exact object _ _
    · exact function _
    · exact misplacedDefinition _
  · exact unexpected _

theorem declarations {item : Parser DeclId} (item_performs : Performs among (fun _ => True) item)
    (fuel : Nat) : Performs among (fun _ => True) (declarations item fuel) := by
  induction fuel with
  | zero => exact .throw _
  | succ fuel induction =>
      refine peek.bind fun kind _ => ?_
      split
      · exact .pure trivial
      · exact item_performs.bind fun _ _ => induction.bind fun _ _ => .pure trivial

theorem program (name : String) (fuel : Nat) : Performs among (fun _ => True) (program name fuel) :=
  (check ⟨.enterGlobalScope, fun _ => .done, rfl, nofun⟩).bind fun _ _ =>
    (declarations (declaration fuel) fuel).bind fun _ _ =>
      (check ⟨.leaveScope, fun _ => .done, rfl, nofun⟩).bind fun _ _ =>
        check ⟨.addProgram _ _, .decl, rfl, nofun⟩

end Performs

end Parser

/-- A program that is parsed is what actions have made, which are given tokens of the text only. -/
theorem parse_performed {source : Source} {program : Program} (parsed : parse source = .ok program)
    {among : Token → Prop} (holds : (TokenStream.ofSource source).Holds among) :
    ∃ analysis, Analysis.Performed among .initial analysis ∧ program.ast = analysis.ast := by
  have performs := @Parser.Performs.program among source.name
    ((TokenStream.ofSource source).length + 1) ⟨.ofSource source, .initial⟩ holds
  rw [parse, parseStream] at parsed
  split at parsed
  · next root after run =>
    rw [run] at performs
    cases parsed
    exact ⟨after.analysis, performs.2.2, rfl⟩
  · cases parsed

end Minilang
