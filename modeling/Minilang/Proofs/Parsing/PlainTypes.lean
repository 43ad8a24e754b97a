import Minilang.Parsing.Program
import Minilang.Proofs.Analysis.PlainTypes

/-!
# Parsing plain types

A type that is written down is plain, and so all types are that a parsed program declares.
-/

namespace Minilang

namespace Parser

open Analysis (LeavesDecls KeepsPlain OperatorLevel)

/-- Whether a parser that gives a result gives one of a kind and keeps all declared types plain. -/
def StaysPlain {α : Type} (holds : α → Prop) (parser : Parser α) : Prop :=
  ∀ before, before.analysis.ast.DeclaresPlain →
    match parser.run before with
    | .ok (result, after) => holds result ∧ after.analysis.ast.DeclaresPlain
    | .error _ => True

namespace StaysPlain

variable {α β : Type} {holds : α → Prop} {first_holds : β → Prop}

theorem pure {result : α} (held : holds result) : StaysPlain holds (pure result) :=
  fun _ plain => ⟨held, plain⟩

theorem throw (error : Diagnostic) : StaysPlain holds (throw error : Parser α) :=
  fun _ _ => trivial

theorem bind {first : Parser β} {next : β → Parser α} (first_stays : StaysPlain first_holds first)
    (next_stays : ∀ result, first_holds result → StaysPlain holds (next result)) :
    StaysPlain holds (first >>= next) := by
  intro before plain
  have stays := first_stays before plain
  simp only [StateT.run, Bind.bind, StateT.bind, Except.bind] at stays ⊢
  cases run : first before with
  | error error => trivial
  | ok outcome =>
      rw [run] at stays
      exact next_stays outcome.1 stays.1 outcome.2 stays.2

theorem weaken {weaker : α → Prop} {parser : Parser α} (stays : StaysPlain holds parser)
    (imp : ∀ result, holds result → weaker result) : StaysPlain weaker parser := by
  intro before plain
  have kept := stays before plain
  split at kept
  · exact ⟨imp _ kept.1, kept.2⟩
  · trivial

theorem check {step : Check α} (keeps : KeepsPlain step) :
    StaysPlain (fun _ => True) (check step) := by
  intro before plain
  have ensures := keeps before.analysis plain
  simp only [StateT.run, Parser.check]
  rw [Analysis.Ensures] at ensures
  generalize step.run before.analysis = outcome at ensures ⊢
  obtain ⟨result | result, after⟩ := outcome
  · trivial
  · exact ⟨trivial, ensures⟩

/-- A step that declares nothing keeps all declared types plain. -/
theorem check_leaves {step : Check α} (leaves : LeavesDecls step) :
    StaysPlain (fun _ => True) (Parser.check step) :=
  check (.of_leavesDecls leaves)

theorem get : StaysPlain (fun _ => True) get := fun _ plain => ⟨trivial, plain⟩

section Tokens

theorem lookahead (distance : Nat) : StaysPlain (fun _ => True) (lookahead distance) := by
  refine get.bind fun state _ => ?_
  split
  · exact .pure trivial
  · exact .throw _

theorem peek : StaysPlain (fun _ => True) peek := (lookahead 0).bind fun _ _ => .pure trivial

theorem next : StaysPlain (fun _ => True) next :=
  (lookahead 0).bind fun _ _ _ plain => ⟨trivial, plain⟩

theorem consumeIf (accepts : TokenKind → Bool) : StaysPlain (fun _ => True) (consumeIf accepts) := by
  refine (lookahead 0).bind fun token _ => ?_
  split
  · exact next.bind fun _ _ => .pure trivial
  · exact .pure trivial

theorem consume (kind : TokenKind) : StaysPlain (fun _ => True) (consume kind) :=
  (consumeIf _).bind fun _ _ => .pure trivial

theorem consumeSign (sign : Punctuation) : StaysPlain (fun _ => True) (consumeSign sign) :=
  consume _

theorem unexpected (expected : Expectation) : StaysPlain holds (unexpected expected) :=
  (lookahead 0).bind fun _ _ => .throw _

theorem expect (kind : TokenKind) : StaysPlain (fun _ => True) (expect kind) := by
  refine (consume kind).bind fun found _ => ?_
  split
  · exact .pure trivial
  · exact unexpected _

theorem expectSign (sign : Punctuation) : StaysPlain (fun _ => True) (expectSign sign) := expect _

theorem expectIdentifier : StaysPlain (fun _ => True) expectIdentifier := by
  refine (consumeIf _).bind fun found _ => ?_
  split
  · exact .pure trivial
  · exact unexpected _

end Tokens

section Repetition

variable {item : Parser α} (item_stays : StaysPlain holds item)

include item_stays

theorem sepByComma (fuel : Nat) :
    StaysPlain (fun results => ∀ result ∈ results, holds result) (sepByComma item fuel) := by
  induction fuel with
  | zero => exact .throw _
  | succ fuel induction =>
      refine item_stays.bind fun first held => (consumeSign .comma).bind fun more _ => ?_
      split
      · exact induction.bind fun _ others => .pure (List.forall_mem_cons.2 ⟨held, others⟩)
      · exact .pure (List.forall_mem_singleton.2 held)

theorem manyUntil (closing : Punctuation) (fuel : Nat) :
    StaysPlain (fun _ => True) (manyUntil closing item fuel) := by
  induction fuel with
  | zero => exact .throw _
  | succ fuel induction =>
      refine (consumeSign closing).bind fun closed _ => ?_
      split
      · exact .pure trivial
      · exact item_stays.bind fun _ _ => induction.bind fun _ _ => .pure trivial

end Repetition

/-! ## Types -/

theorem functionType {nested : Parser Ty}
    (nested_stays : StaysPlain (fun type => type.isPlain = true) nested) (fuel : Nat) :
    StaysPlain (fun type => type.isPlain = true) (functionType nested fuel) := by
  have behind {parameters : List Ty} (plain : ∀ type ∈ parameters, Ty.isPlain type = true) :
      StaysPlain (fun type => Ty.isPlain type = true) (do
        Parser.expectSign .arrow
        let result ← nested
        return Ty.function result parameters) :=
    (expectSign .arrow).bind fun _ _ => nested_stays.bind fun _ result =>
      .pure (Ty.isPlain_function.2 ⟨result, plain⟩)
  refine (consumeSign .rightParen).bind fun empty _ => ?_
  split
  · exact behind (by simp)
  · exact (sepByComma nested_stays fuel).bind fun _ plain => (expectSign .rightParen).bind fun _ _ =>
      behind plain

/-- A type that is written down is plain. -/
theorem typeWithin (fuel : Nat) : StaysPlain (fun type => type.isPlain = true) (typeWithin fuel) := by
  induction fuel with
  | zero => exact .throw _
  | succ fuel induction =>
      refine peek.bind fun kind _ => ?_
      split
      · exact next.bind fun _ _ => .pure (Ty.isPlain_ofBasic _)
      · exact next.bind fun _ _ => induction.bind fun _ plain => .pure plain
      · exact next.bind fun _ _ => functionType induction fuel
      · exact unexpected _

/-! ## Expressions -/

section Expressions

variable {nested : ExpressionParsers} (nested_stays : ∀ form, StaysPlain (fun _ => True) (nested form))

include nested_stays

theorem primary : StaysPlain (fun _ => True) (primary nested) := by
  refine peek.bind fun kind _ => ?_
  cases kind with
  | integer => exact next.bind fun _ _ => check_leaves (.integerLiteral _)
  | float => exact next.bind fun _ _ => check_leaves (.floatLiteral _)
  | boolean => exact next.bind fun _ _ => check_leaves (.booleanLiteral _)
  | character => exact next.bind fun _ _ => check_leaves (.characterLiteral _)
  | string => exact next.bind fun _ _ => check_leaves (.stringLiteral _)
  | identifier => exact next.bind fun _ _ => check_leaves (.name _)
  | punctuation sign =>
      cases sign with
      | leftParen =>
          exact next.bind fun _ _ => (nested_stays _).bind fun _ _ =>
            (expectSign .rightParen).bind fun _ _ => .pure trivial
      | _ => exact unexpected _
  | _ => exact unexpected _

theorem arguments (closing : Punctuation) (fuel : Nat) :
    StaysPlain (fun _ => True) (arguments nested closing fuel) := by
  refine (consumeSign closing).bind fun empty _ => ?_
  split
  · exact .pure trivial
  · exact (sepByComma (nested_stays _) fuel).bind fun _ _ => (expectSign closing).bind fun _ _ =>
      .pure trivial

theorem postfixTail (fuel : Nat) (callee : ExprId) :
    StaysPlain (fun _ => True) (postfixTail nested fuel callee) := by
  induction fuel generalizing callee with
  | zero => exact .throw _
  | succ fuel induction =>
      refine (consumeSign .leftParen).bind fun called _ => ?_
      split
      · exact (arguments nested_stays _ _).bind fun _ _ => (check_leaves (.call _ _)).bind fun _ _ =>
          induction _
      · refine (consumeSign .leftBracket).bind fun indexed _ => ?_
        split
        · exact (arguments nested_stays _ _).bind fun _ _ =>
            (check_leaves (.index _ _)).bind fun _ _ => induction _
        · exact .pure trivial

theorem unaryExpression (fuel : Nat) :
    StaysPlain (fun _ => True) (unaryExpression nested fuel) := by
  have negates (operator : Token) : StaysPlain (fun _ => True) (negatesLiteral operator) := by
    unfold negatesLiteral
    split
    · exact .pure trivial
    · refine peek.bind fun kind _ => ?_
      split
      · refine (lookahead 1).bind fun token _ => ?_
        split <;> exact .pure trivial
      · exact .pure trivial
  refine (consumeIf _).bind fun found _ => ?_
  split
  · exact (primary nested_stays).bind fun _ _ => postfixTail nested_stays _ _
  · refine (negates _).bind fun literal _ => ?_
    split
    · exact next.bind fun _ _ => check_leaves (.negatedIntegerLiteral _ _)
    · exact (nested_stays _).bind fun _ _ => check_leaves (.unary _ _)

omit nested_stays in
theorem castTail (fuel : Nat) (operand : ExprId) :
    StaysPlain (fun _ => True) (castTail fuel operand) := by
  induction fuel generalizing operand with
  | zero => exact .throw _
  | succ fuel induction =>
      refine (consume _).bind fun found _ => ?_
      split
      · exact (typeWithin fuel).bind fun _ _ => (check_leaves (.cast _ _)).bind fun _ _ => induction _
      · exact .pure trivial

omit nested_stays in
theorem binaryTail {operand : Parser ExprId} (operand_stays : StaysPlain (fun _ => True) operand)
    (level : OperatorLevel) (fuel : Nat) (left : ExprId) :
    StaysPlain (fun _ => True) (binaryTail level operand fuel left) := by
  induction fuel generalizing left with
  | zero => exact .throw _
  | succ fuel induction =>
      refine (consumeIf _).bind fun found _ => ?_
      split
      · exact .pure trivial
      · exact operand_stays.bind fun _ _ => (check_leaves (.combine _ _ _ _)).bind fun _ _ =>
          induction _

theorem binaryExpression (fuel : Nat) (levels : List OperatorLevel) :
    StaysPlain (fun _ => True) (binaryExpression nested fuel levels) := by
  induction levels with
  | nil => exact (unaryExpression nested_stays fuel).bind fun _ _ => castTail fuel _
  | cons level tighter induction => exact induction.bind fun _ _ => binaryTail induction level fuel _

theorem conditionalExpression (fuel : Nat) :
    StaysPlain (fun _ => True) (conditionalExpression nested fuel) := by
  refine (binaryExpression nested_stays fuel _).bind fun guard _ =>
    (consumeSign .question).bind fun found _ => ?_
  split
  · exact (nested_stays _).bind fun _ _ => (expectSign .colon).bind fun _ _ =>
      (nested_stays _).bind fun _ _ => check_leaves (.conditional _ _ _)
  · exact .pure trivial

theorem assignmentExpression (fuel : Nat) :
    StaysPlain (fun _ => True) (assignmentExpression nested fuel) := by
  refine (conditionalExpression nested_stays fuel).bind fun target _ =>
    (consumeSign .assign).bind fun found _ => ?_
  split
  · exact (nested_stays _).bind fun _ _ => check_leaves (.assignment _ _)
  · exact .pure trivial

end Expressions

theorem expressionsWithin (fuel : Nat) (form : ExpressionForm) :
    StaysPlain (fun _ => True) (expressionsWithin fuel form) := by
  induction fuel generalizing form with
  | zero => exact .throw _
  | succ fuel induction =>
      cases form with
      | expression => exact assignmentExpression induction _
      | conditional => exact conditionalExpression induction _
      | unary => exact unaryExpression induction _

theorem expressionWithin (fuel : Nat) : StaysPlain (fun _ => True) (expressionWithin fuel) :=
  expressionsWithin fuel _

/-! ## Statements and declarations -/

theorem object (kind : ObjectKind) (fuel : Nat) : StaysPlain (fun _ => True) (object kind fuel) :=
  (expect _).bind fun _ _ => expectIdentifier.bind fun _ _ => (expectSign .colon).bind fun _ _ =>
    (typeWithin fuel).bind fun _ plain => (check (.declareObject _ _ plain)).bind fun _ _ =>
      (expectSign .assign).bind fun _ _ => (expressionWithin fuel).bind fun _ _ =>
        (expectSign .semicolon).bind fun _ _ => check (.defineObject _ _)

theorem misplacedDefinition (expected : Expectation) :
    StaysPlain (fun _ => True) (misplacedDefinition expected) :=
  next.bind fun _ _ => expectIdentifier.bind fun _ _ => unexpected _

theorem localDeclaration (fuel : Nat) : StaysPlain (fun _ => True) (localDeclaration fuel) := by
  refine peek.bind fun kind _ => ?_
  split
  · exact object _ _
  · exact object _ _
  · refine (lookahead 2).bind fun token _ => ?_
    split
    · exact object _ _
    · exact misplacedDefinition _
  · exact unexpected _

theorem guard (fuel : Nat) : StaysPlain (fun _ => True) (guard fuel) :=
  (expectSign .leftParen).bind fun _ _ => (expressionWithin fuel).bind fun _ _ =>
    (expectSign .rightParen).bind fun _ _ => .pure trivial

section Statements

variable {nested : Parser StmtId} (nested_stays : StaysPlain (fun _ => True) nested)

include nested_stays

theorem block (fuel : Nat) : StaysPlain (fun _ => True) (block nested fuel) :=
  (expectSign .leftBrace).bind fun _ _ => (check_leaves .enterBlockScope).bind fun _ _ =>
    (check_leaves .startBlock).bind fun _ _ => (manyUntil nested_stays .rightBrace fuel).bind fun _ _ =>
      (check_leaves .leaveScope).bind fun _ _ => check_leaves (.addStmt _)

theorem ifElse (fuel : Nat) : StaysPlain (fun _ => True) (ifElse nested fuel) :=
  (guard fuel).bind fun _ _ => nested_stays.bind fun _ _ => (expect _).bind fun _ _ =>
    nested_stays.bind fun _ _ => check_leaves (.ifElse _ _ _)

theorem guarded {combine : ExprId → StmtId → Check StmtId}
    (leaves : ∀ guard body, LeavesDecls (combine guard body)) (fuel : Nat) :
    StaysPlain (fun _ => True) (guarded combine nested fuel) :=
  (guard fuel).bind fun _ _ => nested_stays.bind fun _ _ => check_leaves (leaves _ _)

end Statements

theorem jump {combine : Token → Check StmtId} (leaves : ∀ token, LeavesDecls (combine token)) :
    StaysPlain (fun _ => True) (jump combine) :=
  next.bind fun _ _ => (expectSign .semicolon).bind fun _ _ => check_leaves (leaves _)

theorem terminated {combine : ExprId → Check StmtId} (leaves : ∀ value, LeavesDecls (combine value))
    (fuel : Nat) : StaysPlain (fun _ => True) (terminated combine fuel) :=
  (expressionWithin fuel).bind fun _ _ => (expectSign .semicolon).bind fun _ _ =>
    check_leaves (leaves _)

theorem statementWithin (fuel : Nat) : StaysPlain (fun _ => True) (statementWithin fuel) := by
  induction fuel with
  | zero => exact .throw _
  | succ fuel induction =>
      have declares : StaysPlain (fun _ => True) (do
          let declaration ← Parser.localDeclaration (fuel + 1)
          Parser.check (Analysis.declarationStatement declaration)) :=
        (localDeclaration _).bind fun _ _ => check_leaves (.addStmt _)
      refine peek.bind fun kind _ => ?_
      split
      · exact block induction fuel
      · exact next.bind fun _ _ => ifElse induction fuel
      · exact next.bind fun _ _ => guarded induction LeavesDecls.whenTrue fuel
      · exact next.bind fun _ _ => guarded induction LeavesDecls.whileTrue fuel
      · exact jump fun _ => .addStmt _
      · exact jump fun _ => .addStmt _
      · exact next.bind fun _ _ => terminated LeavesDecls.returnValue fuel
      · exact declares
      · exact declares
      · exact declares
      · exact terminated (fun _ => .addStmt _) _

/-! ## Programs -/

theorem parameter (fuel : Nat) : StaysPlain (fun _ => True) (parameter fuel) :=
  expectIdentifier.bind fun _ _ => (expectSign .colon).bind fun _ _ =>
    (typeWithin fuel).bind fun _ plain => check (.declareParameter _ plain)

theorem parameters (fuel : Nat) : StaysPlain (fun _ => True) (parameters fuel) := by
  refine peek.bind fun kind _ => ?_
  split
  · exact .pure trivial
  · exact (sepByComma (parameter fuel) fuel).weaken fun _ _ => trivial

theorem function (fuel : Nat) : StaysPlain (fun _ => True) (function fuel) :=
  (expect _).bind fun _ _ => expectIdentifier.bind fun _ _ => (expectSign .leftParen).bind fun _ _ =>
    (check_leaves .enterParameterScope).bind fun _ _ => (parameters fuel).bind fun _ _ =>
      (expectSign .rightParen).bind fun _ _ => (expectSign .arrow).bind fun _ _ =>
        (typeWithin fuel).bind fun _ plain => (check_leaves .leaveScope).bind fun _ _ =>
          (check (.declareFunction _ _ plain)).bind fun _ _ =>
            (block (statementWithin fuel) fuel).bind fun _ _ => check (.defineFunction _ _)

theorem declaration (fuel : Nat) : StaysPlain (fun _ => True) (declaration fuel) := by
  refine peek.bind fun kind _ => ?_
  split
  · exact object _ _
  · exact object _ _
  · refine (lookahead 2).bind fun token _ => ?_
    split
    · exact object _ _
    · exact function _
    · exact misplacedDefinition _
  · exact unexpected _

theorem declarations {item : Parser DeclId} (item_stays : StaysPlain (fun _ => True) item)
    (fuel : Nat) : StaysPlain (fun _ => True) (declarations item fuel) := by
  induction fuel with
  | zero => exact .throw _
  | succ fuel induction =>
      refine peek.bind fun kind _ => ?_
      split
      · exact .pure trivial
      · exact item_stays.bind fun _ _ => induction.bind fun _ _ => .pure trivial

theorem program (name : String) (fuel : Nat) : StaysPlain (fun _ => True) (program name fuel) :=
  (check_leaves .enterGlobalScope).bind fun _ _ => (declarations (declaration fuel) fuel).bind
    fun _ _ => (check_leaves .leaveScope).bind fun _ _ => check (.addProgram _ _)

end StaysPlain

end Parser

/-- All types that a parsed program declares are plain. -/
theorem parse_declaresPlain {source : Source} {program : Program}
    (parsed : parse source = .ok program) : program.ast.DeclaresPlain := by
  have stays := Parser.StaysPlain.program source.name ((TokenStream.ofSource source).length + 1)
    ⟨.ofSource source, .initial⟩ .empty
  rw [parse, parseStream] at parsed
  split at parsed
  · next run =>
    rw [run] at stays
    cases parsed
    exact stays.2
  · cases parsed

end Minilang
