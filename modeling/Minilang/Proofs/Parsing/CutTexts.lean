import Minilang.Parsing.Program
import Minilang.Proofs.Parsing.Recognition

/-!
# Texts that are cut off

A parser asks for one token after the other. Where a text is cut off, with a fault in place of what
follows, it does the same as with the whole text until it comes to that fault. So whatever else it reports
there is reported of every text that starts alike.
-/

namespace Minilang

namespace TokenStream

/-- Whether a stream is what is left of another one that is cut off, with a fault behind it. -/
inductive CutFrom (fault : Diagnostic) : TokenStream → TokenStream → Prop
  | token {short whole : TokenStream} (first : Token) :
      CutFrom fault short whole → CutFrom fault (.token first short) (.token first whole)
  | failed (whole : TokenStream) : CutFrom fault (.failed fault) whole

namespace CutFrom

variable {fault : Diagnostic} {short whole : TokenStream}

theorem rest (cut : short.CutFrom fault whole) : short.rest.CutFrom fault whole.rest := by
  cases cut with
  | token first cut => exact cut
  | failed => exact .failed _

/-- What is found in front of the fault is found in the whole stream. -/
theorem lookahead (cut : short.CutFrom fault whole) (distance : Nat) :
    short.lookahead distance = .error fault ∨
      whole.lookahead distance = short.lookahead distance := by
  induction cut generalizing distance with
  | token first _ induction =>
      cases distance with
      | zero => exact .inr rfl
      | succ distance => exact induction distance
  | failed => exact .inl rfl

end CutFrom

end TokenStream

namespace Parser

open Analysis (OperatorLevel)

/-- Whether a parser, as long as a text is not cut off where it reads, does what another one does with the
whole text. It may have less fuel. -/
def Foretells {α : Type} (fault : Diagnostic) (parser other : Parser α) : Prop :=
  ∀ before whole, before.tokens.CutFrom fault whole →
    match parser.run before with
    | .ok (result, after) => ∃ rest,
        other.run ⟨whole, before.analysis⟩ = .ok (result, ⟨rest, after.analysis⟩) ∧
          after.tokens.CutFrom fault rest
    | .error error => error = fault ∨ error = .internal .nestingTooDeep ∨
        other.run ⟨whole, before.analysis⟩ = .error error

namespace Foretells

variable {α β : Type} {fault : Diagnostic}

theorem pure (result : α) : Foretells fault (pure result) (pure result) :=
  fun _ whole cut => ⟨whole, rfl, cut⟩

theorem throw (error : Diagnostic) : Foretells fault (throw error : Parser α) (throw error) :=
  fun _ _ _ => .inr (.inr rfl)

/-- Where fuel runs out, nothing is told. -/
theorem exhausted (other : Parser α) : Foretells fault exhausted other :=
  fun _ _ _ => .inr (.inl rfl)

theorem bind {first otherFirst : Parser β} {next otherNext : β → Parser α}
    (foretells : Foretells fault first otherFirst)
    (nexts : ∀ result, Foretells fault (next result) (otherNext result)) :
    Foretells fault (first >>= next) (otherFirst >>= otherNext) := by
  intro before whole cut
  have outcome := foretells before whole cut
  rw [run_bind]
  cases run : first.run before with
  | ok reached =>
      obtain ⟨result, middle⟩ := reached
      rw [run] at outcome
      obtain ⟨rest, otherRun, cut_rest⟩ := outcome
      rw [run_bind_of_ok otherRun]
      exact nexts result middle rest cut_rest
  | error error =>
      rw [run] at outcome
      refine outcome.imp_right (Or.imp_right fun otherRun => ?_)
      rw [run_bind, otherRun]

theorem check (step : Check α) : Foretells fault (check step) (check step) := by
  intro before whole cut
  cases run : step.run before.analysis with
  | mk outcome after =>
      cases outcome with
      | ok result =>
          rw [run_check_of_ok run]
          exact ⟨whole, run_check_of_ok run, cut⟩
      | error error =>
          rw [run_check_of_error run]
          exact .inr (.inr (run_check_of_error run))

theorem ite {condition : Prop} [Decidable condition] {first second otherFirst otherSecond : Parser α}
    (whenTrue : Foretells fault first otherFirst) (whenFalse : Foretells fault second otherSecond) :
    Foretells fault (if condition then first else second)
      (if condition then otherFirst else otherSecond) := by
  split
  · exact whenTrue
  · exact whenFalse

/-! ## Tokens -/

theorem lookahead (distance : Nat) : Foretells fault (lookahead distance) (lookahead distance) := by
  intro before whole cut
  obtain failed | same := cut.lookahead distance
  · rw [run_lookahead_of_error failed]
    exact .inl rfl
  · cases seen : before.tokens.lookahead distance with
    | ok token =>
        rw [run_lookahead seen]
        exact ⟨whole, run_lookahead (same.trans seen), cut⟩
    | error error =>
        rw [run_lookahead_of_error seen]
        exact .inr (.inr (run_lookahead_of_error (same.trans seen)))

theorem peek : Foretells fault peek peek := (lookahead 0).bind fun _ => .pure _

theorem next : Foretells fault next next :=
  (lookahead 0).bind fun _ _ whole cut => ⟨whole.rest, rfl, cut.rest⟩

theorem consumeIf (accepts : TokenKind → Bool) :
    Foretells fault (consumeIf accepts) (consumeIf accepts) :=
  (lookahead 0).bind fun _ => .ite (next.bind fun _ => .pure _) (.pure none)

theorem consume (kind : TokenKind) : Foretells fault (consume kind) (consume kind) :=
  (consumeIf _).bind fun _ => .pure _

theorem consumeSign (sign : Punctuation) : Foretells fault (consumeSign sign) (consumeSign sign) :=
  consume _

theorem unexpected (expected : Expectation) :
    Foretells fault (unexpected expected : Parser α) (unexpected expected) :=
  (lookahead 0).bind fun _ => .throw _

theorem expect (kind : TokenKind) : Foretells fault (expect kind) (expect kind) :=
  (consume kind).bind fun _ => .ite (.pure _) (unexpected _)

theorem expectSign (sign : Punctuation) : Foretells fault (expectSign sign) (expectSign sign) :=
  expect _

theorem expectIdentifier : Foretells fault expectIdentifier expectIdentifier := by
  refine (consumeIf _).bind fun found => ?_
  cases found with
  | some token => exact .pure token
  | none => exact unexpected _

section Repetition

variable {item other : Parser α} (items : Foretells fault item other) {fuel otherFuel : Nat}
  (fuel_le : fuel ≤ otherFuel)

include items fuel_le

theorem sepByComma : Foretells fault (sepByComma item fuel) (sepByComma other otherFuel) := by
  induction fuel generalizing otherFuel with
  | zero => exact exhausted _
  | succ fuel induction =>
      obtain ⟨otherFuel, rfl⟩ := Nat.exists_eq_add_of_le' fuel_le
      refine items.bind fun _ => (consumeSign .comma).bind fun _ => .ite ?_ (.pure _)
      exact (induction (Nat.le_add_left _ _)).bind fun _ => .pure _

theorem manyUntil (closing : Punctuation) :
    Foretells fault (manyUntil closing item fuel) (manyUntil closing other otherFuel) := by
  induction fuel generalizing otherFuel with
  | zero => exact exhausted _
  | succ fuel induction =>
      obtain ⟨otherFuel, rfl⟩ := Nat.exists_eq_add_of_le' fuel_le
      refine (consumeSign closing).bind fun _ => .ite (.pure _) (items.bind fun _ => ?_)
      exact (induction (Nat.le_add_left _ _)).bind fun _ => .pure _

end Repetition

/-! ## Types -/

theorem functionType {nested other : Parser Ty} (types : Foretells fault nested other)
    {fuel otherFuel : Nat} (fuel_le : fuel ≤ otherFuel) :
    Foretells fault (functionType nested fuel) (functionType other otherFuel) := by
  have result (parameters : List Ty) : Foretells fault
      (do
        Parser.expectSign .arrow
        let result ← nested
        return Ty.function result parameters)
      (do
        Parser.expectSign .arrow
        let result ← other
        return Ty.function result parameters) :=
    (expectSign .arrow).bind fun _ => types.bind fun _ => .pure _
  refine (consumeSign .rightParen).bind fun _ => .ite (result []) ?_
  refine (sepByComma types fuel_le).bind fun parameters => ?_
  exact (expectSign .rightParen).bind fun _ => result parameters

section Fuel

variable {fuel otherFuel : Nat} (fuel_le : fuel ≤ otherFuel)

include fuel_le

theorem typeWithin : Foretells fault (typeWithin fuel) (typeWithin otherFuel) := by
  induction fuel generalizing otherFuel with
  | zero => exact exhausted _
  | succ fuel induction =>
      obtain ⟨otherFuel, rfl⟩ := Nat.exists_eq_add_of_le' fuel_le
      have types := induction (Nat.le_add_left fuel otherFuel)
      refine peek.bind fun kind => ?_
      cases kind with
      | basicType type => exact next.bind fun _ => .pure _
      | arithmetic operator =>
          cases operator with
          | mul => exact next.bind fun _ => types.bind fun _ => .pure _
          | _ => exact unexpected _
      | punctuation sign =>
          cases sign with
          | leftParen => exact next.bind fun _ => functionType types (Nat.le_add_left _ _)
          | _ => exact unexpected _
      | _ => exact unexpected _

/-! ## Expressions -/

section Expressions

variable {nested other : ExpressionParsers}
  (expressions : ∀ form, Foretells fault (nested form) (other form))

include expressions

omit fuel_le in
theorem primary : Foretells fault (primary nested) (primary other) := by
  refine peek.bind fun kind => ?_
  cases kind with
  | integer | float | boolean | character | string | identifier =>
      exact next.bind fun _ => check _
  | punctuation sign =>
      cases sign with
      | leftParen =>
          exact next.bind fun _ => (expressions .expression).bind fun _ =>
            (expectSign .rightParen).bind fun _ => .pure _
      | _ => exact unexpected _
  | _ => exact unexpected _

theorem arguments (closing : Punctuation) :
    Foretells fault (arguments nested closing fuel) (arguments other closing otherFuel) := by
  refine (consumeSign closing).bind fun _ => .ite (.pure _) ?_
  exact (sepByComma (expressions .expression) fuel_le).bind fun _ =>
    (expectSign closing).bind fun _ => .pure _

theorem postfixTail (callee : ExprId) :
    Foretells fault (postfixTail nested fuel callee) (postfixTail other otherFuel callee) := by
  induction fuel generalizing otherFuel callee with
  | zero => exact exhausted _
  | succ fuel induction =>
      obtain ⟨otherFuel, rfl⟩ := Nat.exists_eq_add_of_le' fuel_le
      have le : fuel ≤ otherFuel + fuel := Nat.le_add_left _ _
      refine (consumeSign .leftParen).bind fun _ => .ite ?_ ?_
      · exact (arguments le expressions .rightParen).bind fun _ => (check _).bind fun call =>
          induction le call
      refine (consumeSign .leftBracket).bind fun _ => .ite ?_ (.pure _)
      exact (arguments le expressions .rightBracket).bind fun _ => (check _).bind fun call =>
        induction le call

theorem unaryExpression :
    Foretells fault (unaryExpression nested fuel) (unaryExpression other otherFuel) := by
  have negates (operator : Token) :
      Foretells fault (negatesLiteral operator) (negatesLiteral operator) := by
    refine .ite (.pure _) (peek.bind fun kind => ?_)
    cases kind with
    | integer =>
        refine (lookahead 1).bind fun token => ?_
        split <;> exact .pure _
    | _ => exact .pure _
  refine (consumeIf _).bind fun found => ?_
  cases found with
  | none => exact (primary expressions).bind fun callee => postfixTail fuel_le expressions callee
  | some operator =>
      exact (negates operator).bind fun _ => .ite (next.bind fun _ => check _)
        ((expressions .unary).bind fun _ => check _)

omit expressions in
theorem castTail (operand : ExprId) :
    Foretells fault (castTail fuel operand) (castTail otherFuel operand) := by
  induction fuel generalizing otherFuel operand with
  | zero => exact exhausted _
  | succ fuel induction =>
      obtain ⟨otherFuel, rfl⟩ := Nat.exists_eq_add_of_le' fuel_le
      have le : fuel ≤ otherFuel + fuel := Nat.le_add_left _ _
      refine (consume _).bind fun _ => .ite ?_ (.pure _)
      exact (typeWithin le).bind fun _ => (check _).bind fun cast => induction le cast

omit expressions in
theorem binaryTail (level : OperatorLevel) {operand otherOperand : Parser ExprId}
    (operands : Foretells fault operand otherOperand) (left : ExprId) :
    Foretells fault (binaryTail level operand fuel left)
      (binaryTail level otherOperand otherFuel left) := by
  induction fuel generalizing otherFuel left with
  | zero => exact exhausted _
  | succ fuel induction =>
      obtain ⟨otherFuel, rfl⟩ := Nat.exists_eq_add_of_le' fuel_le
      refine (consumeIf _).bind fun found => ?_
      cases found with
      | none => exact .pure left
      | some operator =>
          exact operands.bind fun _ => (check _).bind fun combined =>
            induction (Nat.le_add_left _ _) combined

theorem binaryExpression (levels : List OperatorLevel) :
    Foretells fault (binaryExpression nested fuel levels)
      (binaryExpression other otherFuel levels) := by
  induction levels with
  | nil =>
      exact (unaryExpression fuel_le expressions).bind fun operand => castTail fuel_le operand
  | cons level tighter induction =>
      exact induction.bind fun left => binaryTail fuel_le level induction left

theorem conditionalExpression :
    Foretells fault (conditionalExpression nested fuel) (conditionalExpression other otherFuel) := by
  refine (binaryExpression fuel_le expressions _).bind fun guard =>
    (consumeSign .question).bind fun _ => .ite ?_ (.pure guard)
  exact (expressions .expression).bind fun _ => (expectSign .colon).bind fun _ =>
    (expressions .conditional).bind fun _ => check _

theorem assignmentExpression :
    Foretells fault (assignmentExpression nested fuel) (assignmentExpression other otherFuel) := by
  refine (conditionalExpression fuel_le expressions).bind fun target =>
    (consumeSign .assign).bind fun _ => .ite ?_ (.pure target)
  exact (expressions .expression).bind fun _ => check _

end Expressions

theorem expressionsWithin (form : ExpressionForm) :
    Foretells fault (expressionsWithin fuel form) (expressionsWithin otherFuel form) := by
  induction fuel generalizing otherFuel form with
  | zero => exact exhausted _
  | succ fuel induction =>
      obtain ⟨otherFuel, rfl⟩ := Nat.exists_eq_add_of_le' fuel_le
      have expressions := induction (Nat.le_add_left fuel otherFuel)
      cases form with
      | expression => exact assignmentExpression fuel_le expressions
      | conditional => exact conditionalExpression fuel_le expressions
      | unary => exact unaryExpression fuel_le expressions

theorem expressionWithin : Foretells fault (expressionWithin fuel) (expressionWithin otherFuel) :=
  expressionsWithin fuel_le .expression

/-! ## Statements and declarations -/

theorem object (kind : ObjectKind) : Foretells fault (object kind fuel) (object kind otherFuel) :=
  (expect _).bind fun _ => expectIdentifier.bind fun _ => (expectSign .colon).bind fun _ =>
    (typeWithin fuel_le).bind fun _ => (check _).bind fun _ => (expectSign .assign).bind fun _ =>
      (expressionWithin fuel_le).bind fun _ => (expectSign .semicolon).bind fun _ => check _

omit fuel_le in
theorem misplacedDefinition (expected : Expectation) :
    Foretells fault (misplacedDefinition expected) (misplacedDefinition expected) :=
  next.bind fun _ => expectIdentifier.bind fun _ => unexpected _

theorem localDeclaration :
    Foretells fault (localDeclaration fuel) (localDeclaration otherFuel) := by
  refine peek.bind fun kind => ?_
  cases kind with
  | keyword word =>
      cases word with
      | varWord | letWord => exact object fuel_le _
      | defWord =>
          refine (lookahead 2).bind fun token => ?_
          split
          · exact object fuel_le _
          · exact misplacedDefinition _
      | _ => exact unexpected _
  | _ => exact unexpected _

theorem guard : Foretells fault (guard fuel) (guard otherFuel) :=
  (expectSign .leftParen).bind fun _ => (expressionWithin fuel_le).bind fun _ =>
    (expectSign .rightParen).bind fun _ => .pure _

section Statements

variable {nested other : Parser StmtId} (statements : Foretells fault nested other)

include statements

theorem block : Foretells fault (block nested fuel) (block other otherFuel) :=
  (expectSign .leftBrace).bind fun _ => (check _).bind fun _ => (check _).bind fun _ =>
    (manyUntil statements fuel_le .rightBrace).bind fun _ => (check _).bind fun _ => check _

theorem ifElse : Foretells fault (ifElse nested fuel) (ifElse other otherFuel) :=
  (guard fuel_le).bind fun _ => statements.bind fun _ => (expect _).bind fun _ =>
    statements.bind fun _ => check _

theorem guarded (combine : ExprId → StmtId → Check StmtId) :
    Foretells fault (guarded combine nested fuel) (guarded combine other otherFuel) :=
  (guard fuel_le).bind fun _ => statements.bind fun _ => check _

end Statements

omit fuel_le in
theorem jump (combine : Token → Check StmtId) :
    Foretells fault (jump combine) (jump combine) :=
  next.bind fun _ => (expectSign .semicolon).bind fun _ => check _

theorem terminated (combine : ExprId → Check StmtId) :
    Foretells fault (terminated combine fuel) (terminated combine otherFuel) :=
  (expressionWithin fuel_le).bind fun _ => (expectSign .semicolon).bind fun _ => check _

theorem statementWithin :
    Foretells fault (statementWithin fuel) (statementWithin otherFuel) := by
  induction fuel generalizing otherFuel with
  | zero => exact exhausted _
  | succ fuel induction =>
      obtain ⟨otherFuel, rfl⟩ := Nat.exists_eq_add_of_le' fuel_le
      have le : fuel ≤ otherFuel + fuel := Nat.le_add_left _ _
      have statements := induction le
      refine peek.bind fun kind => ?_
      split
      · exact block le statements
      · exact next.bind fun _ => ifElse le statements
      · exact next.bind fun _ => guarded le statements _
      · exact next.bind fun _ => guarded le statements _
      · exact jump _
      · exact jump _
      · exact next.bind fun _ => terminated le _
      · exact (localDeclaration fuel_le).bind fun _ => check _
      · exact (localDeclaration fuel_le).bind fun _ => check _
      · exact (localDeclaration fuel_le).bind fun _ => check _
      · exact terminated fuel_le _

/-! ## Programs -/

theorem parameter : Foretells fault (parameter fuel) (parameter otherFuel) :=
  expectIdentifier.bind fun _ => (expectSign .colon).bind fun _ =>
    (typeWithin fuel_le).bind fun _ => check _

theorem parameters : Foretells fault (parameters fuel) (parameters otherFuel) := by
  refine peek.bind fun kind => ?_
  split
  · exact .pure _
  · exact sepByComma (parameter fuel_le) fuel_le

theorem function : Foretells fault (function fuel) (function otherFuel) :=
  (expect _).bind fun _ => expectIdentifier.bind fun _ => (expectSign .leftParen).bind fun _ =>
    (check _).bind fun _ => (parameters fuel_le).bind fun _ =>
      (expectSign .rightParen).bind fun _ => (expectSign .arrow).bind fun _ =>
        (typeWithin fuel_le).bind fun _ => (check _).bind fun _ => (check _).bind fun _ =>
          (block fuel_le (statementWithin fuel_le)).bind fun _ => check _

theorem declaration : Foretells fault (declaration fuel) (declaration otherFuel) := by
  refine peek.bind fun kind => ?_
  split
  · exact object fuel_le _
  · exact object fuel_le _
  · refine (lookahead 2).bind fun token => ?_
    split
    · exact object fuel_le _
    · exact function fuel_le
    · exact misplacedDefinition _
  · exact unexpected _

theorem declarations {item other : Parser DeclId} (items : Foretells fault item other) :
    Foretells fault (declarations item fuel) (declarations other otherFuel) := by
  induction fuel generalizing otherFuel with
  | zero => exact exhausted _
  | succ fuel induction =>
      obtain ⟨otherFuel, rfl⟩ := Nat.exists_eq_add_of_le' fuel_le
      refine peek.bind fun kind => ?_
      split
      · exact .pure _
      · exact items.bind fun _ => (induction (Nat.le_add_left _ _)).bind fun _ => .pure _

theorem program (name : String) : Foretells fault (program name fuel) (program name otherFuel) :=
  (check _).bind fun _ => (declarations fuel_le (declaration fuel_le)).bind fun _ =>
    (check _).bind fun _ => check _

end Fuel

end Foretells

end Parser

end Minilang
