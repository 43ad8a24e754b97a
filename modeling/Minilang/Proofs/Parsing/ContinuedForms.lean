import Minilang.Parsing.Program
import Minilang.Proofs.Parsing.Continuations

/-!
# Declarations in a text that goes on

Expressions and statements are parsed alike when other tokens stand behind, as long as the end is not reached.
A declaration at the top ends with a sign, so it is parsed alike in any case, and the next one starts where it
ends.
-/

namespace Minilang

namespace Parser

variable {more : Option TokenStream} {fuel otherFuel : Nat}

section Expressions

variable {nested other : ExpressionParsers}
  (expressions : ∀ form, Continues more (nested form) (other form)) (fuel_le : fuel ≤ otherFuel)

section Operands

include expressions

theorem primary_continues : Continues more (primary nested) (primary other) := by
  refine peek_continues.bind fun kind => ?_
  cases kind with
  | integer | float | boolean | character | string | identifier =>
      exact next_continues.bind fun _ => .check _
  | punctuation sign =>
      cases sign with
      | leftParen =>
          exact next_continues.bind fun _ => (expressions .expression).bind fun _ =>
            (expectSign_continues .rightParen).bind fun _ => .pure _
      | _ => exact (unexpected_fails _).continues
  | _ => exact (unexpected_fails _).continues

include fuel_le

theorem arguments_continues (closing : Punctuation) :
    Continues more (arguments nested closing fuel) (arguments other closing otherFuel) := by
  refine (consumeSign_continues closing).bind fun _ => .ite (.pure _) ?_
  exact (sepByComma_continues (expressions .expression) fuel_le).bind fun _ =>
    (expectSign_continues closing).bind fun _ => .pure _

theorem postfixTail_continues (callee : ExprId) :
    Continues more (postfixTail nested fuel callee) (postfixTail other otherFuel callee) := by
  induction fuel generalizing otherFuel callee with
  | zero => exact (Fails.throw _).continues
  | succ fuel induction =>
      obtain ⟨otherFuel, rfl⟩ := Nat.exists_eq_add_of_le' fuel_le
      have le : fuel ≤ otherFuel + fuel := Nat.le_add_left _ _
      refine (consumeSign_continues .leftParen).bind fun _ => .ite ?_ ?_
      · exact (arguments_continues expressions le .rightParen).bind fun _ =>
          (Continues.check _).bind fun call => induction le call
      refine (consumeSign_continues .leftBracket).bind fun _ => .ite ?_ (.pure _)
      exact (arguments_continues expressions le .rightBracket).bind fun _ =>
        (Continues.check _).bind fun call => induction le call

theorem postfixExpression_continues :
    Continues more (postfixExpression nested fuel) (postfixExpression other otherFuel) :=
  (primary_continues expressions).bind fun callee =>
    postfixTail_continues expressions fuel_le callee

omit expressions fuel_le in
/-- Whether a literal is negated is decided by the token behind it, unless the literal is the last one. -/
theorem negatesLiteral_run (operator : Token) {before after : ParserState} {negates : Bool}
    (proper : before.tokens.Proper)
    (run : (negatesLiteral operator).run before = .ok (negates, after)) :
    after = before ∧ ((negates = true ∧ before.advanced.AtSeam more) ∨
      (¬before.AtSeam more → (negatesLiteral operator).run (before.followedBy more) =
        .ok (negates, before.followedBy more))) := by
  rw [negatesLiteral] at run ⊢
  by_cases minus : operator.kind ≠ .arithmetic .sub
  · rw [if_pos minus] at run ⊢
    obtain ⟨rfl, rfl⟩ := run
    exact ⟨rfl, .inr fun _ => rfl⟩
  rw [if_neg minus] at run ⊢
  obtain ⟨kind, _, peeked, decided⟩ := run_bind_ok run
  obtain rfl := peek_ok peeked
  have otherPeeked (inside : ¬before.AtSeam more) :=
    (peek_continues _ _ _ proper peeked).2.2 inside
  cases kind with
  | integer value radix =>
      by_cases atSeam : before.advanced.AtSeam more
      · obtain ⟨second, _, looked, decided⟩ := run_bind_ok decided
        obtain ⟨found, rfl⟩ := lookahead_ok looked
        rw [← TokenStream.lookahead_rest] at found
        rw [atSeam.endOfInput proper.rest found] at decided
        obtain ⟨rfl, rfl⟩ := decided
        exact ⟨rfl, .inl ⟨rfl, atSeam⟩⟩
      · have same : (before.followedBy more).tokens.lookahead 1 = before.tokens.lookahead 1 := by
          have started : ¬before.AtSeam more := mt TokenStream.AtSeam.rest atSeam
          rw [← TokenStream.lookahead_rest, ← TokenStream.lookahead_rest, ParserState.followedBy,
            TokenStream.rest_followedBy started]
          exact TokenStream.lookahead_followedBy atSeam
        obtain ⟨rfl, otherDecided⟩ := lookahead_decides (fun token => by
          cases token.kind with
          | punctuation sign => cases sign <;> exact ⟨_, rfl⟩
          | _ => exact ⟨_, rfl⟩) same decided
        exact ⟨rfl, .inr fun inside => (run_bind_of_ok (otherPeeked inside)).trans otherDecided⟩
  | _ =>
      obtain ⟨rfl, rfl⟩ := decided
      exact ⟨rfl, .inr fun inside => run_bind_of_ok (otherPeeked inside)⟩

theorem unaryExpression_continues :
    Continues more (unaryExpression nested fuel) (unaryExpression other otherFuel) := by
  refine (consumeIf_continues _).bind fun found => ?_
  cases found with
  | none => exact postfixExpression_continues expressions fuel_le
  | some operator =>
      intro before result after proper run
      obtain ⟨negates, _, run, runNext⟩ := run_bind_ok run
      obtain ⟨rfl, ⟨rfl, atSeam⟩ | otherRun⟩ := negatesLiteral_run operator proper run
      · obtain ⟨literal, middle, consumed, checked⟩ := run_bind_ok runNext
        obtain ⟨token, _, looked, advanced⟩ := run_bind_ok consumed
        obtain ⟨-, rfl⟩ := lookahead_ok looked
        obtain ⟨rfl, rfl⟩ := advanced
        obtain ⟨same, -⟩ := Blind.check _ _ _ _ checked
        have ended : after.AtSeam more := by
          rw [ParserState.AtSeam, same]
          exact atSeam
        refine ⟨?_, fun _ => ended, absurd ended⟩
        rw [same]
        exact proper.rest
      · have rest : Continues more
            (if negates = true then do
                check (Analysis.negatedIntegerLiteral operator (← Parser.next))
              else do check (Analysis.unary operator (← nested .unary)))
            (if negates = true then do
                check (Analysis.negatedIntegerLiteral operator (← Parser.next))
              else do check (Analysis.unary operator (← other .unary))) :=
          .ite (next_continues.bind fun _ => .check _)
            ((expressions .unary).bind fun _ => .check _)
        obtain ⟨proper, seam, otherRunNext⟩ := rest _ _ _ proper runNext
        refine ⟨proper, seam, fun inside => ?_⟩
        exact (run_bind_of_ok (otherRun (mt seam inside))).trans (otherRunNext inside)

omit expressions in
theorem castTail_continues (operand : ExprId) :
    Continues more (castTail fuel operand) (castTail otherFuel operand) := by
  induction fuel generalizing otherFuel operand with
  | zero => exact (Fails.throw _).continues
  | succ fuel induction =>
      obtain ⟨otherFuel, rfl⟩ := Nat.exists_eq_add_of_le' fuel_le
      have le : fuel ≤ otherFuel + fuel := Nat.le_add_left _ _
      refine (consume_continues _).bind fun _ => .ite ?_ (.pure _)
      exact (typeWithin_continues le).bind fun _ => (Continues.check _).bind fun cast =>
        induction le cast

theorem castExpression_continues :
    Continues more (castExpression nested fuel) (castExpression other otherFuel) :=
  (unaryExpression_continues expressions fuel_le).bind fun operand =>
    castTail_continues fuel_le operand

omit expressions in
theorem binaryTail_continues (level : Analysis.OperatorLevel) {operand otherOperand : Parser ExprId}
    (operands : Continues more operand otherOperand) (left : ExprId) :
    Continues more (binaryTail level operand fuel left)
      (binaryTail level otherOperand otherFuel left) := by
  induction fuel generalizing otherFuel left with
  | zero => exact (Fails.throw _).continues
  | succ fuel induction =>
      obtain ⟨otherFuel, rfl⟩ := Nat.exists_eq_add_of_le' fuel_le
      refine (consumeIf_continues _).bind fun found => ?_
      cases found with
      | none => exact .pure left
      | some operator =>
          exact operands.bind fun _ => (Continues.check _).bind fun combined =>
            induction (Nat.le_add_left _ _) combined

theorem binaryExpression_continues (levels : List Analysis.OperatorLevel) :
    Continues more (binaryExpression nested fuel levels)
      (binaryExpression other otherFuel levels) := by
  induction levels with
  | nil => exact castExpression_continues expressions fuel_le
  | cons level tighter induction =>
      exact induction.bind fun left => binaryTail_continues fuel_le level induction left

theorem conditionalExpression_continues :
    Continues more (conditionalExpression nested fuel) (conditionalExpression other otherFuel) := by
  refine (binaryExpression_continues expressions fuel_le _).bind fun guard => ?_
  refine (consumeSign_continues .question).bind fun _ => .ite ?_ (.pure guard)
  exact (expressions .expression).bind fun _ => (expectSign_continues .colon).bind fun _ =>
    (expressions .conditional).bind fun _ => .check _

theorem assignmentExpression_continues :
    Continues more (assignmentExpression nested fuel) (assignmentExpression other otherFuel) := by
  refine (conditionalExpression_continues expressions fuel_le).bind fun target => ?_
  refine (consumeSign_continues .assign).bind fun _ => .ite ?_ (.pure target)
  exact (expressions .expression).bind fun _ => .check _

end Operands

include fuel_le

theorem expressionsWithin_continues (form : ExpressionForm) :
    Continues more (expressionsWithin fuel form) (expressionsWithin otherFuel form) := by
  induction fuel generalizing otherFuel form with
  | zero => exact (Fails.throw _).continues
  | succ fuel induction =>
      obtain ⟨otherFuel, rfl⟩ := Nat.exists_eq_add_of_le' fuel_le
      have expressions := induction (Nat.le_add_left fuel otherFuel)
      cases form with
      | expression => exact assignmentExpression_continues expressions fuel_le
      | conditional => exact conditionalExpression_continues expressions fuel_le
      | unary => exact unaryExpression_continues expressions fuel_le

theorem expressionWithin_continues :
    Continues more (expressionWithin fuel) (expressionWithin otherFuel) :=
  expressionsWithin_continues fuel_le .expression

end Expressions

section Statements

variable (fuel_le : fuel ≤ otherFuel)

include fuel_le

theorem object_closes (kind : ObjectKind) :
    Closes more (object kind fuel) (object kind otherFuel) := by
  refine .bind (expectWord_continues _) fun _ => .bind expectIdentifier_continues fun _ => ?_
  refine .bind (expectSign_continues .colon) fun _ => .bind (typeWithin_continues fuel_le) fun _ => ?_
  refine .bind (.check _) fun _ => .bind (expectSign_continues .assign) fun _ => ?_
  exact .bind (expressionWithin_continues fuel_le) fun _ =>
    (expectSign_closes .semicolon).blind fun _ => .check _

omit fuel_le in
theorem misplacedDefinition_fails (expected : Expectation) : Fails (misplacedDefinition expected) :=
  .bind fun _ => .bind fun _ => unexpected_fails expected

theorem localDeclaration_closes :
    Closes more (localDeclaration fuel) (localDeclaration otherFuel) := by
  refine .bind peek_continues fun kind => ?_
  cases kind with
  | keyword word =>
      cases word with
      | varWord => exact object_closes fuel_le .var
      | letWord => exact object_closes fuel_le .const
      | defWord =>
          refine lookahead_bind_closes 2 (fun token atEnd => ?_) fun token => ?_
          · rw [atEnd]
            exact misplacedDefinition_fails _
          cases token.kind with
          | punctuation sign =>
              cases sign with
              | colon => exact object_closes fuel_le .value
              | _ => exact (misplacedDefinition_fails _).closes
          | _ => exact (misplacedDefinition_fails _).closes
      | _ => exact (unexpected_fails _).closes
  | _ => exact (unexpected_fails _).closes

theorem guard_continues : Continues more (guard fuel) (guard otherFuel) :=
  (expectSign_continues .leftParen).bind fun _ => (expressionWithin_continues fuel_le).bind fun _ =>
    (expectSign_continues .rightParen).bind fun _ => .pure _

section Nested

variable {nested other : Parser StmtId} (statements : Continues more nested other)

include statements

theorem block_closes : Closes more (block nested fuel) (block other otherFuel) := by
  refine .bind (expectSign_continues .leftBrace) fun _ => .bind (.check _) fun _ => ?_
  refine .bind (.check _) fun _ => (manyUntil_closes statements .rightBrace fuel_le).blind fun _ => ?_
  exact (Blind.check _).bind fun _ => .check _

theorem ifElse_continues : Continues more (ifElse nested fuel) (ifElse other otherFuel) :=
  (guard_continues fuel_le).bind fun _ => statements.bind fun _ =>
    (expectWord_continues .elseWord).bind fun _ => statements.bind fun _ => .check _

theorem guarded_continues (combine : ExprId → StmtId → Check StmtId) :
    Continues more (guarded combine nested fuel) (guarded combine other otherFuel) :=
  (guard_continues fuel_le).bind fun _ => statements.bind fun _ => .check _

end Nested

omit fuel_le in
theorem jump_continues (combine : Token → Check StmtId) :
    Continues more (jump combine) (jump combine) :=
  next_continues.bind fun _ => (expectSign_continues .semicolon).bind fun _ => .check _

theorem terminated_continues (combine : ExprId → Check StmtId) :
    Continues more (terminated combine fuel) (terminated combine otherFuel) :=
  (expressionWithin_continues fuel_le).bind fun _ =>
    (expectSign_continues .semicolon).bind fun _ => .check _

theorem statementWithin_continues :
    Continues more (statementWithin fuel) (statementWithin otherFuel) := by
  induction fuel generalizing otherFuel with
  | zero => exact (Fails.throw _).continues
  | succ fuel induction =>
      obtain ⟨otherFuel, rfl⟩ := Nat.exists_eq_add_of_le' fuel_le
      have le : fuel ≤ otherFuel + fuel := Nat.le_add_left _ _
      have statements := induction le
      have evaluated : Continues more (terminated Analysis.expressionStatement (fuel + 1))
          (terminated Analysis.expressionStatement (otherFuel + (fuel + 1))) :=
        terminated_continues fuel_le _
      refine peek_continues.bind fun kind => ?_
      cases kind with
      | punctuation sign =>
          cases sign with
          | leftBrace => exact (block_closes le statements).continues
          | _ => exact evaluated
      | keyword word =>
          cases word with
          | ifWord => exact next_continues.bind fun _ => ifElse_continues le statements
          | whenWord => exact next_continues.bind fun _ => guarded_continues le statements _
          | whileWord => exact next_continues.bind fun _ => guarded_continues le statements _
          | breakWord => exact jump_continues _
          | continueWord => exact jump_continues _
          | returnWord => exact next_continues.bind fun _ => terminated_continues le _
          | varWord | letWord | defWord =>
              exact (localDeclaration_closes fuel_le).continues.bind fun _ => .check _
          | _ => exact evaluated
      | _ => exact evaluated

end Statements

section Functions

variable (fuel_le : fuel ≤ otherFuel)

include fuel_le

theorem parameter_continues : Continues more (parameter fuel) (parameter otherFuel) :=
  expectIdentifier_continues.bind fun _ => (expectSign_continues .colon).bind fun _ =>
    (typeWithin_continues fuel_le).bind fun _ => .check _

theorem parameters_continues : Continues more (parameters fuel) (parameters otherFuel) := by
  have listed : Continues more (sepByComma (parameter fuel) fuel)
      (sepByComma (parameter otherFuel) otherFuel) :=
    sepByComma_continues (parameter_continues fuel_le) fuel_le
  refine peek_continues.bind fun kind => ?_
  cases kind with
  | punctuation sign =>
      cases sign with
      | rightParen => exact .pure []
      | _ => exact listed
  | _ => exact listed

theorem function_closes : Closes more (function fuel) (function otherFuel) := by
  refine .bind (expectWord_continues _) fun _ => .bind expectIdentifier_continues fun _ => ?_
  refine .bind (expectSign_continues .leftParen) fun _ => .bind (.check _) fun _ => ?_
  refine .bind (parameters_continues fuel_le) fun _ => ?_
  refine .bind (expectSign_continues .rightParen) fun _ => .bind (expectSign_continues .arrow) fun _ => ?_
  refine .bind (typeWithin_continues fuel_le) fun _ => .bind (.check _) fun _ => ?_
  refine .bind (.check _) fun _ => ?_
  exact (block_closes fuel_le (statementWithin_continues fuel_le)).blind fun _ => .check _

theorem declaration_closes : Closes more (declaration fuel) (declaration otherFuel) := by
  refine .bind peek_continues fun kind => ?_
  cases kind with
  | keyword word =>
      cases word with
      | varWord => exact object_closes fuel_le .var
      | letWord => exact object_closes fuel_le .const
      | defWord =>
          refine lookahead_bind_closes 2 (fun token atEnd => ?_) fun token => ?_
          · rw [atEnd]
            exact misplacedDefinition_fails _
          cases token.kind with
          | punctuation sign =>
              cases sign with
              | colon => exact object_closes fuel_le .value
              | leftParen => exact function_closes fuel_le
              | _ => exact (misplacedDefinition_fails _).closes
          | _ => exact (misplacedDefinition_fails _).closes
      | _ => exact (unexpected_fails _).closes
  | _ => exact (unexpected_fails _).closes

omit fuel_le in
theorem declarations_continues {item otherItem : Parser DeclId}
    (items : Continues more item otherItem) (fuel_le : fuel ≤ otherFuel) :
    Continues more (declarations item fuel) (declarations otherItem otherFuel) := by
  induction fuel generalizing otherFuel with
  | zero => exact (Fails.throw _).continues
  | succ fuel induction =>
      obtain ⟨otherFuel, rfl⟩ := Nat.exists_eq_add_of_le' fuel_le
      refine peek_continues.bind fun kind => ?_
      cases kind with
      | endOfInput => exact .pure []
      | _ => exact items.bind fun _ => (induction (Nat.le_add_left _ _)).bind fun _ => .pure _

omit fuel_le in
/-- In front of the end of input there is another declaration. -/
theorem run_declarations_of_more {item : Parser DeclId} {before : ParserState} {kind : TokenKind}
    (peeked : peek.run before = .ok (kind, before)) (more_left : kind ≠ .endOfInput) :
    (declarations item (fuel + 1)).run before =
      (do
        let first ← item
        return first :: (← declarations item fuel) : Parser (List DeclId)).run before := by
  rw [declarations, run_bind_of_ok peeked]
  cases kind with
  | endOfInput => exact absurd rfl more_left
  | _ => rfl

omit fuel_le in
/-- Behind the last declaration of a text, parsing goes on with what stands there. -/
theorem declarations_followedBy {item otherItem : Parser DeclId} {behind : TokenStream}
    (closes : Closes (some behind) item otherItem) {before after : ParserState} {ids : List DeclId}
    (proper : before.tokens.Proper) (run : (declarations item fuel).run before = .ok (ids, after)) :
    ids.length < fuel ∧ ∀ otherFuel,
      (declarations otherItem (ids.length + otherFuel)).run (before.followedBy (some behind)) =
        (do
          let rest ← declarations otherItem otherFuel
          return ids ++ rest : Parser (List DeclId)).run ⟨behind, after.analysis⟩ := by
  induction fuel generalizing before ids with
  | zero => cases run
  | succ fuel induction =>
      obtain ⟨kind, _, peeked, decided⟩ := run_bind_ok run
      obtain rfl := peek_ok peeked
      by_cases end_reached : kind = .endOfInput
      · subst end_reached
        obtain ⟨rfl, rfl⟩ := decided
        refine ⟨Nat.succ_pos fuel, fun otherFuel => ?_⟩
        have seam_eq : after.followedBy (some behind) = ⟨behind, after.analysis⟩ := by
          obtain ⟨last, _, looked, same⟩ := run_bind_ok peeked
          obtain ⟨found, rfl⟩ := lookahead_ok looked
          have end_reached : last.kind = .endOfInput := congrArg Prod.fst (Except.ok.inj same)
          obtain ⟨tokens, analysis⟩ := after
          cases proper.atSeam found end_reached behind
          rfl
        rw [List.length_nil, Nat.zero_add, seam_eq]
        exact congrArg (StateT.run · _) (bind_pure _).symm
      · rw [run_declarations_of_more peeked end_reached] at run
        obtain ⟨first, middle, runFirst, run⟩ := run_bind_ok run
        obtain ⟨rest, last, runRest, run⟩ := run_bind_ok run
        obtain ⟨rfl, rfl⟩ := run
        obtain ⟨proper_middle, inside, otherRun⟩ := closes _ _ _ proper runFirst
        obtain ⟨lt, otherRest⟩ := induction proper_middle runRest
        refine ⟨Nat.succ_lt_succ lt, fun otherFuel => ?_⟩
        have otherPeeked := (peek_continues _ _ _ proper peeked).2.2 inside
        rw [List.length_cons, Nat.succ_add, run_declarations_of_more otherPeeked end_reached,
          run_bind_of_ok otherRun, run_bind, otherRest otherFuel, run_bind, run_bind]
        cases (declarations otherItem otherFuel).run ⟨behind, after.analysis⟩ <;> rfl

end Functions

end Parser

end Minilang
