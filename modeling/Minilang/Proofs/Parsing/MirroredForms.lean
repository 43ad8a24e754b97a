import Minilang.Parsing.Program
import Minilang.Proofs.Parsing.Mirroring

/-!
# All parsers are mirrored

Expressions, statements and declarations are parsed alike from tokens that belong together.
-/

namespace Minilang

namespace Correspondence

variable {correspondence : Correspondence}

theorem ExprIds.mono (before after : Analysis) (id other : ExprId) (precedes : before.Precedes after)
    (ids : correspondence.ExprIds before id other) : correspondence.ExprIds after id other :=
  ⟨ids.1.trans_le precedes.exprs_le, ids.2⟩

theorem DeclIds.mono (before after : Analysis) (id other : DeclId) (precedes : before.Precedes after)
    (ids : correspondence.DeclIds before id other) : correspondence.DeclIds after id other :=
  ⟨ids.1.trans_le precedes.decls_le, ids.2⟩

/-- Results that belong together one by one belong together as lists. -/
theorem lists_of_forall₂ {α : Type} {there : α → Prop} {image : α → α} {ids others : List α}
    (all : List.Forall₂ (fun id other => there id ∧ other = image id) ids others) :
    (∀ id ∈ ids, there id) ∧ others = ids.map image := by
  induction all with
  | nil => exact ⟨List.forall_mem_nil _, rfl⟩
  | cons both _ induction =>
      exact ⟨List.forall_mem_cons.2 ⟨both.1, induction.1⟩, by rw [both.2, induction.2, List.map_cons]⟩

end Correspondence

namespace Parser

variable {correspondence : Correspondence} {depth : Nat} {before : ParserState}

section Expressions

variable {nested : ExpressionParsers}
  (expressions : ∀ form state, Mirrors correspondence depth depth (nested form) (nested form) state
    correspondence.ExprIds)

section Operands

include expressions

theorem primary_mirrors (inside : 0 < depth) :
    Mirrors correspondence depth depth (primary nested) (primary nested) before
      correspondence.ExprIds := by
  refine peek_mirrors.bind ?_
  rintro middle kind _ - ⟨-, rfl⟩
  cases kind with
  | integer value radix =>
      exact next_mirrors.bind fun _ _ _ _ tokens => .check (Analysis.integerLiteral_mirrors tokens)
  | float value =>
      exact next_mirrors.bind fun _ _ _ _ tokens => .check (Analysis.floatLiteral_mirrors tokens)
  | boolean value =>
      exact next_mirrors.bind fun _ _ _ _ tokens => .check (Analysis.booleanLiteral_mirrors tokens)
  | character value =>
      exact next_mirrors.bind fun _ _ _ _ tokens =>
        .check (Analysis.characterLiteral_mirrors tokens)
  | string value =>
      exact next_mirrors.bind fun _ _ _ _ tokens => .check (Analysis.stringLiteral_mirrors tokens)
  | identifier name =>
      exact next_mirrors.bind fun _ _ _ _ tokens => .check (Analysis.name_mirrors tokens inside)
  | punctuation sign =>
      cases sign with
      | leftParen =>
          refine next_mirrors.bind fun _ _ _ _ _ => (expressions .expression _).bind ?_
          rintro state inner _ - ids
          exact (expectSign_mirrors .rightParen).bind fun after _ _ precedes _ =>
            .pure (Correspondence.ExprIds.mono _ _ _ _ precedes ids)
      | _ => exact unexpected_mirrors _
  | _ => exact unexpected_mirrors _

theorem arguments_mirrors (closing : Punctuation) (fuel : Nat) :
    Mirrors correspondence depth depth (arguments nested closing fuel)
      (arguments nested closing fuel) before fun after ids others =>
        (∀ id ∈ ids, id.index < after.ast.exprs.size) ∧ others = ids.map correspondence.expr := by
  refine (consumeSign_mirrors closing).bind ?_
  rintro middle found _ - rfl
  refine .ite Iff.rfl (fun _ => .pure ⟨List.forall_mem_nil _, rfl⟩) fun _ => ?_
  refine (sepByComma_mirrors Correspondence.ExprIds.mono (expressions .expression) fuel).bind ?_
  intro state ids others _ all
  obtain ⟨ids_lt, rfl⟩ := Correspondence.lists_of_forall₂ all
  exact (expectSign_mirrors closing).bind fun _ _ _ precedes _ =>
    .pure ⟨fun id member => (ids_lt id member).trans_le precedes.exprs_le, rfl⟩

theorem postfixTail_mirrors (fuel : Nat) {callee : ExprId}
    (callee_lt : callee.index < before.analysis.ast.exprs.size) :
    Mirrors correspondence depth depth (postfixTail nested fuel callee)
      (postfixTail nested fuel (correspondence.expr callee)) before correspondence.ExprIds := by
  induction fuel generalizing before callee with
  | zero => exact .exhausted
  | succ fuel induction =>
      refine (consumeSign_mirrors .leftParen).bind ?_
      rintro middle found _ precedes rfl
      replace callee_lt := callee_lt.trans_le precedes.exprs_le
      refine .ite Iff.rfl (fun _ => ?_) fun _ => ?_
      · refine (arguments_mirrors expressions .rightParen fuel).bind ?_
        rintro state ids _ precedes ⟨ids_lt, rfl⟩
        refine (Mirrors.check (Analysis.call_mirrors (callee_lt.trans_le precedes.exprs_le)
          ids_lt)).bind ?_
        rintro after call _ - ⟨call_lt, rfl⟩
        exact induction call_lt
      refine (consumeSign_mirrors .leftBracket).bind ?_
      rintro other found _ precedes rfl
      replace callee_lt := callee_lt.trans_le precedes.exprs_le
      refine .ite Iff.rfl (fun _ => ?_) fun _ => .pure ⟨callee_lt, rfl⟩
      refine (arguments_mirrors expressions .rightBracket fuel).bind ?_
      rintro state ids _ precedes ⟨ids_lt, rfl⟩
      refine (Mirrors.check (Analysis.index_mirrors (callee_lt.trans_le precedes.exprs_le)
        ids _)).bind ?_
      rintro after call _ - ⟨call_lt, rfl⟩
      exact induction call_lt

theorem postfixExpression_mirrors (inside : 0 < depth) (fuel : Nat) :
    Mirrors correspondence depth depth (postfixExpression nested fuel)
      (postfixExpression nested fuel) before correspondence.ExprIds := by
  refine (primary_mirrors expressions inside).bind ?_
  rintro middle callee _ - ⟨callee_lt, rfl⟩
  exact postfixTail_mirrors expressions fuel callee_lt

omit expressions in
theorem negatesLiteral_mirrors {operator other : Token}
    (tokens : correspondence.Tokens operator other) :
    Mirrors correspondence depth depth (negatesLiteral operator) (negatesLiteral other) before
      fun _ negates otherNegates => otherNegates = negates := by
  have same : other.kind ≠ .arithmetic .sub ↔ operator.kind ≠ .arithmetic .sub := by
    rw [tokens.kinds.2]
    cases operator.kind <;> simp [TokenKind.rename]
  refine .ite same (fun _ => .pure rfl) fun _ => peek_mirrors.bind ?_
  rintro middle kind _ - ⟨-, rfl⟩
  cases kind with
  | integer value radix =>
      refine (lookahead_mirrors 1).bind fun state token other _ tokens => ?_
      rw [tokens.kinds.2]
      cases token.kind with
      | punctuation sign => cases sign <;> exact .pure rfl
      | _ => exact .pure rfl
  | _ => exact .pure rfl

theorem unaryExpression_mirrors (inside : 0 < depth) (fuel : Nat) :
    Mirrors correspondence depth depth (unaryExpression nested fuel)
      (unaryExpression nested fuel) before correspondence.ExprIds := by
  refine (consumeIf_mirrors fun _ _ => rfl).bind fun middle found other _ both => ?_
  cases both with
  | none => exact postfixExpression_mirrors expressions inside fuel
  | @some operator otherOperator tokens =>
      refine (negatesLiteral_mirrors tokens).bind ?_
      rintro state negates _ - rfl
      refine .ite Iff.rfl (fun _ => ?_) fun _ => ?_
      · exact next_mirrors.bind fun _ _ _ _ literals =>
          .check (Analysis.negatedIntegerLiteral_mirrors literals tokens)
      · refine (expressions .unary state).bind ?_
        rintro after operand _ - ⟨operand_lt, rfl⟩
        exact .check (Analysis.unary_mirrors tokens operand_lt)

omit expressions in
theorem castTail_mirrors (fuel : Nat) {operand : ExprId}
    (operand_lt : operand.index < before.analysis.ast.exprs.size) :
    Mirrors correspondence depth depth (castTail fuel operand)
      (castTail fuel (correspondence.expr operand)) before correspondence.ExprIds := by
  induction fuel generalizing before operand with
  | zero => exact .exhausted
  | succ fuel induction =>
      refine (consume_mirrors (by simp)).bind ?_
      rintro middle found _ precedes rfl
      replace operand_lt := operand_lt.trans_le precedes.exprs_le
      refine .ite Iff.rfl (fun _ => ?_) fun _ => .pure ⟨operand_lt, rfl⟩
      refine (typeWithin_mirrors fuel).bind ?_
      rintro state _ type precedes rfl
      refine (Mirrors.check (Analysis.cast_mirrors (operand_lt.trans_le precedes.exprs_le)
        type)).bind ?_
      rintro after cast _ - ⟨cast_lt, rfl⟩
      exact induction cast_lt

theorem castExpression_mirrors (inside : 0 < depth) (fuel : Nat) :
    Mirrors correspondence depth depth (castExpression nested fuel)
      (castExpression nested fuel) before correspondence.ExprIds := by
  refine (unaryExpression_mirrors expressions inside fuel).bind ?_
  rintro middle operand _ - ⟨operand_lt, rfl⟩
  exact castTail_mirrors fuel operand_lt

omit expressions in
theorem binaryTail_mirrors (level : Analysis.OperatorLevel) {operand : Parser ExprId}
    (operands : ∀ state, Mirrors correspondence depth depth operand operand state
      correspondence.ExprIds) (fuel : Nat) {left : ExprId}
    (left_lt : left.index < before.analysis.ast.exprs.size) :
    Mirrors correspondence depth depth (binaryTail level operand fuel left)
      (binaryTail level operand fuel (correspondence.expr left)) before
      correspondence.ExprIds := by
  induction fuel generalizing before left with
  | zero => exact .exhausted
  | succ fuel induction =>
      have blind (name otherName : String) :
          level.accepts (.identifier name) = level.accepts (.identifier otherName) := by
        cases level <;> rfl
      refine (consumeIf_mirrors blind).bind fun middle found other precedes both => ?_
      replace left_lt := left_lt.trans_le precedes.exprs_le
      cases both with
      | none => exact .pure ⟨left_lt, rfl⟩
      | @some operator otherOperator tokens =>
          refine (operands middle).bind ?_
          rintro state right _ precedes ⟨right_lt, rfl⟩
          refine (Mirrors.check (Analysis.combine_mirrors tokens
            (left_lt.trans_le precedes.exprs_le) right_lt level)).bind ?_
          rintro after combined _ - ⟨combined_lt, rfl⟩
          exact induction combined_lt

theorem binaryExpression_mirrors (inside : 0 < depth) (fuel : Nat)
    (levels : List Analysis.OperatorLevel) :
    Mirrors correspondence depth depth (binaryExpression nested fuel levels)
      (binaryExpression nested fuel levels) before correspondence.ExprIds := by
  induction levels generalizing before with
  | nil => exact castExpression_mirrors expressions inside fuel
  | cons level tighter induction =>
      refine induction.bind ?_
      rintro middle left _ - ⟨left_lt, rfl⟩
      exact binaryTail_mirrors level (fun _ => induction) fuel left_lt

theorem conditionalExpression_mirrors (inside : 0 < depth) (fuel : Nat) :
    Mirrors correspondence depth depth (conditionalExpression nested fuel)
      (conditionalExpression nested fuel) before correspondence.ExprIds := by
  refine (binaryExpression_mirrors expressions inside fuel _).bind ?_
  rintro middle guard _ - ⟨guard_lt, rfl⟩
  refine (consumeSign_mirrors .question).bind ?_
  rintro state found _ precedes rfl
  replace guard_lt := guard_lt.trans_le precedes.exprs_le
  refine .ite Iff.rfl (fun _ => ?_) fun _ => .pure ⟨guard_lt, rfl⟩
  refine (expressions .expression state).bind ?_
  rintro state whenTrue _ precedes ⟨true_lt, rfl⟩
  replace guard_lt := guard_lt.trans_le precedes.exprs_le
  refine (expectSign_mirrors .colon).bind fun state _ _ precedes _ => ?_
  replace guard_lt := guard_lt.trans_le precedes.exprs_le
  replace true_lt := true_lt.trans_le precedes.exprs_le
  refine (expressions .conditional state).bind ?_
  rintro state whenFalse _ precedes ⟨false_lt, rfl⟩
  exact .check (Analysis.conditional_mirrors (guard_lt.trans_le precedes.exprs_le)
    (true_lt.trans_le precedes.exprs_le) false_lt)

theorem assignmentExpression_mirrors (inside : 0 < depth) (fuel : Nat) :
    Mirrors correspondence depth depth (assignmentExpression nested fuel)
      (assignmentExpression nested fuel) before correspondence.ExprIds := by
  refine (conditionalExpression_mirrors expressions inside fuel).bind ?_
  rintro middle target _ - ⟨target_lt, rfl⟩
  refine (consumeSign_mirrors .assign).bind ?_
  rintro state found _ precedes rfl
  replace target_lt := target_lt.trans_le precedes.exprs_le
  refine .ite Iff.rfl (fun _ => ?_) fun _ => .pure ⟨target_lt, rfl⟩
  refine (expressions .expression state).bind ?_
  rintro after value _ precedes ⟨value_lt, rfl⟩
  exact .check (Analysis.assignment_mirrors (target_lt.trans_le precedes.exprs_le) value_lt)

end Operands

variable (inside : 0 < depth)

include inside

theorem expressionsWithin_mirrors (fuel : Nat) (form : ExpressionForm) :
    Mirrors correspondence depth depth (expressionsWithin fuel form)
      (expressionsWithin fuel form) before correspondence.ExprIds := by
  induction fuel generalizing before form with
  | zero => exact .exhausted
  | succ fuel induction =>
      have expressions (form : ExpressionForm) (state : ParserState) :
          Mirrors correspondence depth depth (expressionsWithin fuel form)
            (expressionsWithin fuel form) state correspondence.ExprIds := induction form
      cases form with
      | expression => exact assignmentExpression_mirrors expressions inside _
      | conditional => exact conditionalExpression_mirrors expressions inside _
      | unary => exact unaryExpression_mirrors expressions inside _

theorem expressionWithin_mirrors (fuel : Nat) :
    Mirrors correspondence depth depth (expressionWithin fuel) (expressionWithin fuel) before
      correspondence.ExprIds :=
  expressionsWithin_mirrors inside fuel .expression

end Expressions

section Objects

/-- The part of the declaration of an object in front of its initializer: its word, its name and its
type. -/
def objectHead (kind : ObjectKind) (fuel : Nat) : Parser (Token × Ty) := do
  expectWord kind.keyword
  let name ← expectIdentifier
  expectSign .colon
  let type ← typeWithin fuel
  return (name, type)

/-- The part of the declaration of an object behind its type. -/
def objectEnd (declaration : DeclId) (fuel : Nat) : Parser DeclId := do
  expectSign .assign
  let initializer ← expressionWithin fuel
  expectSign .semicolon
  check (Analysis.defineObject declaration initializer)

theorem object_eq_head_end (kind : ObjectKind) (fuel : Nat) :
    object kind fuel = (do
      let head ← objectHead kind fuel
      let declaration ← check (Analysis.declareObject kind head.1 head.2)
      objectEnd declaration fuel) := by
  simp only [object, objectHead, objectEnd, bind_assoc, pure_bind]

theorem objectHead_mirrors (kind : ObjectKind) (fuel : Nat) :
    Mirrors correspondence depth depth (objectHead kind fuel) (objectHead kind fuel) before
      fun _ head other => correspondence.Tokens head.1 other.1 ∧ other.2 = head.2 := by
  refine (expectWord_mirrors _).bind fun _ _ _ _ _ => ?_
  refine expectIdentifier_mirrors.bind fun _ _ _ _ tokens => ?_
  refine (expectSign_mirrors .colon).bind fun _ _ _ _ _ => (typeWithin_mirrors fuel).bind ?_
  exact fun _ _ _ _ same => .pure ⟨tokens, same⟩

variable (inside : 0 < depth)

include inside

theorem objectEnd_mirrors {declaration : DeclId}
    (declared : declaration.index < before.analysis.ast.decls.size) (fuel : Nat) :
    Mirrors correspondence depth depth (objectEnd declaration fuel)
      (objectEnd (correspondence.decl declaration) fuel) before correspondence.DeclIds := by
  refine (expectSign_mirrors .assign).bind fun middle _ _ precedes _ => ?_
  replace declared := declared.trans_le precedes.decls_le
  refine (expressionWithin_mirrors inside fuel).bind ?_
  rintro state initializer _ precedes ⟨initializer_lt, rfl⟩
  replace declared := declared.trans_le precedes.decls_le
  refine (expectSign_mirrors .semicolon).bind fun after _ _ precedes _ => ?_
  exact .check (Analysis.defineObject_mirrors (declared.trans_le precedes.decls_le)
    (initializer_lt.trans_le precedes.exprs_le))

omit inside in
/-- The name of an object stands behind its word. -/
theorem objectHead_name {kind : ObjectKind} {fuel : Nat} {head : Token × Ty} {after : ParserState}
    (run : (objectHead kind fuel).run before = .ok (head, after)) :
    before.tokens.lookahead 1 = .ok head.1 := by
  obtain ⟨_, middle, worded, behindWord⟩ := run_bind_ok run
  obtain ⟨token, _, named, behindName⟩ := run_bind_ok behindWord
  obtain ⟨_, _, -, behindColon⟩ := run_bind_ok behindName
  obtain ⟨type, _, -, concluded⟩ := run_bind_ok behindColon
  obtain ⟨rfl, -⟩ := Prod.mk.inj (Except.ok.inj concluded)
  have found := expectIdentifier_ok named
  rwa [expect_ok worded, ParserState.advanced, TokenStream.lookahead_rest] at found

variable (free : ∀ token, before.tokens.lookahead 1 = .ok token →
  Analysis.Free correspondence depth token)

include free

theorem object_mirrors (kind : ObjectKind) (fuel : Nat) :
    Mirrors correspondence depth depth (object kind fuel) (object kind fuel) before
      correspondence.DeclIds := by
  rw [object_eq_head_end]
  refine (objectHead_mirrors kind fuel).bind_run ?_
  rintro middle ⟨token, type⟩ ⟨other, _⟩ run - ⟨tokens, rfl⟩
  have named := free token (objectHead_name run)
  refine (Mirrors.check (Analysis.declareObject_mirrors tokens named kind _)).bind ?_
  rintro state declaration _ - ⟨declared, rfl⟩
  exact objectEnd_mirrors inside declared fuel

omit inside free in
theorem misplacedDefinition_mirrors (expected : Expectation)
    {gives : Analysis → DeclId → DeclId → Prop} :
    Mirrors correspondence depth depth (misplacedDefinition expected)
      (misplacedDefinition expected) before gives :=
  next_mirrors.bind fun _ _ _ _ _ => expectIdentifier_mirrors.bind fun _ _ _ _ _ =>
    unexpected_mirrors expected

theorem localDeclaration_mirrors (fuel : Nat) :
    Mirrors correspondence depth depth (localDeclaration fuel) (localDeclaration fuel) before
      correspondence.DeclIds := by
  refine peek_mirrors.bind_run ?_
  rintro middle kind _ run - ⟨-, rfl⟩
  obtain rfl := peek_ok run
  cases kind with
  | keyword word =>
      cases word with
      | varWord => exact object_mirrors inside free .var fuel
      | letWord => exact object_mirrors inside free .const fuel
      | defWord =>
          refine (lookahead_mirrors 2).bind_run fun state token other run _ tokens => ?_
          obtain ⟨-, rfl⟩ := lookahead_ok run
          rw [tokens.kinds.2]
          cases token.kind with
          | punctuation sign =>
              cases sign with
              | colon => exact object_mirrors inside free .value fuel
              | _ => exact misplacedDefinition_mirrors _
          | _ => exact misplacedDefinition_mirrors _
      | _ => exact unexpected_mirrors _
  | _ => exact unexpected_mirrors _

end Objects

section Statements

theorem guard_mirrors (inside : 0 < depth) (fuel : Nat) :
    Mirrors correspondence depth depth (guard fuel) (guard fuel) before
      correspondence.ExprIds := by
  refine (expectSign_mirrors .leftParen).bind fun _ _ _ _ _ => ?_
  refine (expressionWithin_mirrors inside fuel).bind fun _ guard _ _ ids => ?_
  exact (expectSign_mirrors .rightParen).bind fun _ _ _ precedes _ =>
    .pure (Correspondence.ExprIds.mono _ _ _ _ precedes ids)

section Nested

variable {nested : Parser StmtId}

theorem block_mirrors (inside : 0 < depth)
    (statements : ∀ state, Mirrors correspondence (depth + 1) (depth + 1) nested nested state
      correspondence.StmtIds) (fuel : Nat) :
    Mirrors correspondence depth depth (block nested fuel) (block nested fuel) before
      correspondence.StmtIds := by
  refine (expectSign_mirrors .leftBrace).bind fun state _ _ _ _ => ?_
  refine (Mirrors.check (Analysis.enterScope_mirrors .block inside)).bind fun _ _ _ _ _ => ?_
  refine (Mirrors.check (Analysis.startBlock_mirrors (Nat.succ_le_succ inside))).bind
    fun _ _ _ _ _ => ?_
  refine (manyUntil_mirrors (fun _ _ _ _ _ => id) statements .rightBrace fuel).bind
    fun _ ids others _ all => ?_
  refine (Mirrors.check Analysis.leaveScope_mirrors).bind fun _ _ _ _ _ => ?_
  have same : others = ids.map correspondence.stmt := by
    induction all with
    | nil => rfl
    | cons both _ induction => rw [both, induction, List.map_cons]
  rw [same]
  exact .check (Analysis.block_mirrors ids)

variable (inside : 0 < depth)
  (statements : ∀ state, Mirrors correspondence depth depth nested nested state
    correspondence.StmtIds)

include inside statements

theorem ifElse_mirrors (fuel : Nat) :
    Mirrors correspondence depth depth (ifElse nested fuel) (ifElse nested fuel) before
      correspondence.StmtIds := by
  refine (guard_mirrors inside fuel).bind ?_
  rintro middle guard _ - ⟨guard_lt, rfl⟩
  refine (statements middle).bind ?_
  rintro state whenTrue _ precedes rfl
  replace guard_lt := guard_lt.trans_le precedes.exprs_le
  refine (expectWord_mirrors .elseWord).bind fun state _ _ precedes _ => ?_
  replace guard_lt := guard_lt.trans_le precedes.exprs_le
  refine (statements state).bind ?_
  rintro after whenFalse _ precedes rfl
  exact .check (Analysis.ifElse_mirrors (guard_lt.trans_le precedes.exprs_le) _ _)

theorem guarded_mirrors {combine : ExprId → StmtId → Check StmtId}
    (combined : ∀ (analysis : Analysis) (guard : ExprId) (body : StmtId),
      guard.index < analysis.ast.exprs.size → Analysis.Mirrors correspondence depth depth
        (combine guard body) (combine (correspondence.expr guard) (correspondence.stmt body))
        analysis correspondence.StmtIds) (fuel : Nat) :
    Mirrors correspondence depth depth (guarded combine nested fuel)
      (guarded combine nested fuel) before correspondence.StmtIds := by
  refine (guard_mirrors inside fuel).bind ?_
  rintro middle guard _ - ⟨guard_lt, rfl⟩
  refine (statements middle).bind ?_
  rintro after body _ precedes rfl
  exact .check (combined _ guard body (guard_lt.trans_le precedes.exprs_le))

end Nested

theorem jump_mirrors {combine : Token → Check StmtId}
    (combined : ∀ (analysis : Analysis) (token other : Token), correspondence.Tokens token other →
      Analysis.Mirrors correspondence depth depth (combine token) (combine other) analysis
        correspondence.StmtIds) :
    Mirrors correspondence depth depth (jump combine) (jump combine) before
      correspondence.StmtIds := by
  refine next_mirrors.bind fun _ token other _ tokens => ?_
  exact (expectSign_mirrors .semicolon).bind fun _ _ _ _ _ => .check (combined _ _ _ tokens)

theorem terminated_mirrors (inside : 0 < depth) {combine : ExprId → Check StmtId}
    (combined : ∀ (analysis : Analysis) (id : ExprId), id.index < analysis.ast.exprs.size →
      Analysis.Mirrors correspondence depth depth (combine id) (combine (correspondence.expr id))
        analysis correspondence.StmtIds) (fuel : Nat) :
    Mirrors correspondence depth depth (terminated combine fuel) (terminated combine fuel) before
      correspondence.StmtIds := by
  refine (expressionWithin_mirrors inside fuel).bind ?_
  rintro middle expression _ - ⟨expression_lt, rfl⟩
  exact (expectSign_mirrors .semicolon).bind fun _ _ _ precedes _ =>
    .check (combined _ _ (expression_lt.trans_le precedes.exprs_le))

theorem statementWithin_mirrors (deep : 2 ≤ depth) (fuel : Nat) :
    Mirrors correspondence depth depth (statementWithin fuel) (statementWithin fuel) before
      correspondence.StmtIds := by
  induction fuel generalizing before depth with
  | zero => exact .exhausted
  | succ fuel induction =>
      have inside : 0 < depth := Nat.zero_lt_of_lt deep
      have free (token : Token) : Analysis.Free correspondence depth token := .inl deep
      have statements (state : ParserState) :
          Mirrors correspondence depth depth (statementWithin fuel) (statementWithin fuel) state
            correspondence.StmtIds := induction deep
      have declared (state : ParserState) : Mirrors correspondence depth depth
          (do
            let declaration ← localDeclaration (fuel + 1)
            check (Analysis.declarationStatement declaration))
          (do
            let declaration ← localDeclaration (fuel + 1)
            check (Analysis.declarationStatement declaration)) state
          correspondence.StmtIds := by
        refine (localDeclaration_mirrors inside (fun token _ => free token) (fuel + 1)).bind ?_
        rintro after declaration _ - ⟨-, rfl⟩
        exact .check (Analysis.declarationStatement_mirrors declaration)
      have evaluated (state : ParserState) : Mirrors correspondence depth depth
          (terminated Analysis.expressionStatement (fuel + 1))
          (terminated Analysis.expressionStatement (fuel + 1)) state correspondence.StmtIds :=
        terminated_mirrors inside (fun _ id _ => Analysis.expressionStatement_mirrors id) _
      refine peek_mirrors.bind ?_
      rintro middle kind _ - ⟨-, rfl⟩
      cases kind with
      | punctuation sign =>
          cases sign with
          | leftBrace => exact block_mirrors inside (fun _ => induction (by omega)) fuel
          | _ => exact evaluated middle
      | keyword word =>
          cases word with
          | ifWord => exact next_mirrors.bind fun _ _ _ _ _ => ifElse_mirrors inside statements fuel
          | whenWord =>
              exact next_mirrors.bind fun _ _ _ _ _ =>
                guarded_mirrors inside statements
                  (fun _ _ body guard_lt => Analysis.whenTrue_mirrors guard_lt body) fuel
          | whileWord =>
              exact next_mirrors.bind fun _ _ _ _ _ =>
                guarded_mirrors inside statements
                  (fun _ _ body guard_lt => Analysis.whileTrue_mirrors guard_lt body) fuel
          | breakWord => exact jump_mirrors fun _ _ _ => Analysis.breakLoop_mirrors
          | continueWord => exact jump_mirrors fun _ _ _ => Analysis.continueLoop_mirrors
          | returnWord =>
              exact next_mirrors.bind fun _ _ _ _ _ =>
                terminated_mirrors inside (fun _ _ => Analysis.returnValue_mirrors) fuel
          | varWord | letWord | defWord => exact declared middle
          | _ => exact evaluated middle
      | _ => exact evaluated middle

end Statements

section Functions

section Parameters

variable (deep : 2 ≤ depth)

include deep

theorem parameter_mirrors (fuel : Nat) :
    Mirrors correspondence depth depth (parameter fuel) (parameter fuel) before
      correspondence.DeclIds := by
  refine expectIdentifier_mirrors.bind fun _ _ _ _ tokens => ?_
  refine (expectSign_mirrors .colon).bind fun _ _ _ _ _ => (typeWithin_mirrors fuel).bind ?_
  rintro after _ type - rfl
  exact .check (Analysis.declareParameter_mirrors tokens (.inl deep) _)

theorem parameters_mirrors (fuel : Nat) :
    Mirrors correspondence depth depth (parameters fuel) (parameters fuel) before
      fun after ids others =>
        (∀ id ∈ ids, id.index < after.ast.decls.size) ∧ others = ids.map correspondence.decl := by
  have listed (state : ParserState) : Mirrors correspondence depth depth
      (sepByComma (parameter fuel) fuel) (sepByComma (parameter fuel) fuel) state
      fun after ids others =>
        (∀ id ∈ ids, id.index < after.ast.decls.size) ∧ others = ids.map correspondence.decl :=
    (sepByComma_mirrors Correspondence.DeclIds.mono (fun _ => parameter_mirrors deep fuel)
      fuel).mono fun _ _ _ _ => Correspondence.lists_of_forall₂
  refine peek_mirrors.bind ?_
  rintro middle kind _ - ⟨-, rfl⟩
  cases kind with
  | punctuation sign =>
      cases sign with
      | rightParen => exact .pure ⟨List.forall_mem_nil _, rfl⟩
      | _ => exact listed middle
  | _ => exact listed middle

end Parameters

/-- The part of a function in front of its body: its word, its name, its parameters and its result
type. -/
def functionHead (fuel : Nat) : Parser (Token × List DeclId × Ty) := do
  expectWord .defWord
  let name ← expectIdentifier
  expectSign .leftParen
  check Analysis.enterParameterScope
  let parameters ← parameters fuel
  expectSign .rightParen
  expectSign .arrow
  let result ← typeWithin fuel
  check Analysis.leaveScope
  return (name, parameters, result)

/-- The body of a function. -/
def functionEnd (declaration : DeclId) (fuel : Nat) : Parser DeclId := do
  let body ← block (statementWithin fuel) fuel
  check (Analysis.defineFunction declaration body)

theorem function_eq_head_end (fuel : Nat) :
    function fuel = (do
      let head ← functionHead fuel
      let declaration ← check (Analysis.declareFunction head.1 head.2.1 head.2.2)
      functionEnd declaration fuel) := by
  simp only [function, functionHead, functionEnd, bind_assoc, pure_bind]

variable (inside : 0 < depth)

include inside

theorem functionHead_mirrors (fuel : Nat) :
    Mirrors correspondence depth depth (functionHead fuel) (functionHead fuel) before
      fun after head other => correspondence.Tokens head.1 other.1 ∧
        (∀ id ∈ head.2.1, id.index < after.ast.decls.size) ∧
        other.2.1 = head.2.1.map correspondence.decl ∧ other.2.2 = head.2.2 := by
  refine (expectWord_mirrors _).bind fun _ _ _ _ _ => ?_
  refine expectIdentifier_mirrors.bind fun _ _ _ _ tokens => ?_
  refine (expectSign_mirrors .leftParen).bind fun _ _ _ _ _ => ?_
  refine (Mirrors.check (Analysis.enterScope_mirrors .parameter inside)).bind
    fun _ _ _ _ _ => ?_
  refine (parameters_mirrors (Nat.succ_le_succ inside) fuel).bind ?_
  rintro state ids others - ⟨ids_lt, same⟩
  have precedes := Analysis.Precedes.refl state.analysis
  refine (expectSign_mirrors .rightParen).bind fun _ _ _ next _ => ?_
  replace precedes := precedes.trans next
  refine (expectSign_mirrors .arrow).bind fun _ _ _ next _ => ?_
  replace precedes := precedes.trans next
  refine (typeWithin_mirrors fuel).bind fun _ _ _ next type_eq => ?_
  replace precedes := precedes.trans next
  refine (Mirrors.check Analysis.leaveScope_mirrors).bind fun _ _ _ next _ => ?_
  replace precedes := precedes.trans next
  exact .pure ⟨tokens, fun id member => (ids_lt id member).trans_le precedes.decls_le, same,
    type_eq⟩

theorem functionEnd_mirrors {declaration : DeclId}
    (declared : declaration.index < before.analysis.ast.decls.size) (fuel : Nat) :
    Mirrors correspondence depth depth (functionEnd declaration fuel)
      (functionEnd (correspondence.decl declaration) fuel) before correspondence.DeclIds := by
  refine (block_mirrors inside
    (fun _ => statementWithin_mirrors (Nat.succ_le_succ inside) fuel) fuel).bind ?_
  rintro after body _ precedes rfl
  exact .check (Analysis.defineFunction_mirrors (declared.trans_le precedes.decls_le) body)

omit inside in
/-- The name of a function stands behind its word. -/
theorem functionHead_name {fuel : Nat} {head : Token × List DeclId × Ty} {after : ParserState}
    (run : (functionHead fuel).run before = .ok (head, after)) :
    before.tokens.lookahead 1 = .ok head.1 := by
  obtain ⟨_, middle, worded, behindWord⟩ := run_bind_ok run
  obtain ⟨token, _, named, behindName⟩ := run_bind_ok behindWord
  have found := expectIdentifier_ok named
  rw [expect_ok worded, ParserState.advanced, TokenStream.lookahead_rest] at found
  obtain ⟨_, _, -, behindParen⟩ := run_bind_ok behindName
  obtain ⟨_, _, -, behindScope⟩ := run_bind_ok behindParen
  obtain ⟨_, _, -, behindParameters⟩ := run_bind_ok behindScope
  obtain ⟨_, _, -, behindClose⟩ := run_bind_ok behindParameters
  obtain ⟨_, _, -, behindArrow⟩ := run_bind_ok behindClose
  obtain ⟨_, _, -, behindType⟩ := run_bind_ok behindArrow
  obtain ⟨_, _, -, concluded⟩ := run_bind_ok behindType
  obtain ⟨rfl, -⟩ := Prod.mk.inj (Except.ok.inj concluded)
  exact found

variable (free : ∀ token, before.tokens.lookahead 1 = .ok token →
  Analysis.Free correspondence depth token)

include free

theorem function_mirrors (fuel : Nat) :
    Mirrors correspondence depth depth (function fuel) (function fuel) before
      correspondence.DeclIds := by
  rw [function_eq_head_end]
  refine (functionHead_mirrors inside fuel).bind_run ?_
  rintro middle ⟨token, ids, type⟩ ⟨other, others, otherType⟩ run -
    ⟨tokens, ids_lt, same, same_type⟩
  have named := free token (functionHead_name run)
  obtain rfl : others = ids.map correspondence.decl := same
  obtain rfl : otherType = type := same_type
  refine (Mirrors.check (Analysis.declareFunction_mirrors tokens named ids_lt _)).bind ?_
  rintro state declaration _ - ⟨declared, rfl⟩
  exact functionEnd_mirrors inside declared fuel

theorem declaration_mirrors (fuel : Nat) :
    Mirrors correspondence depth depth (declaration fuel) (declaration fuel) before
      correspondence.DeclIds := by
  refine peek_mirrors.bind_run ?_
  rintro middle kind _ run - ⟨-, rfl⟩
  obtain rfl := peek_ok run
  cases kind with
  | keyword word =>
      cases word with
      | varWord => exact object_mirrors inside free .var fuel
      | letWord => exact object_mirrors inside free .const fuel
      | defWord =>
          refine (lookahead_mirrors 2).bind_run fun state token other run _ tokens => ?_
          obtain ⟨-, rfl⟩ := lookahead_ok run
          rw [tokens.kinds.2]
          cases token.kind with
          | punctuation sign =>
              cases sign with
              | colon => exact object_mirrors inside free .value fuel
              | leftParen => exact function_mirrors inside free fuel
              | _ => exact misplacedDefinition_mirrors _
          | _ => exact misplacedDefinition_mirrors _
      | _ => exact unexpected_mirrors _
  | _ => exact unexpected_mirrors _

omit inside free in
theorem declarations_mirrors {item : Parser DeclId}
    (items : ∀ state, Mirrors correspondence depth depth item item state correspondence.DeclIds)
    (fuel : Nat) :
    Mirrors correspondence depth depth (declarations item fuel) (declarations item fuel) before
      fun after ids others =>
        (∀ id ∈ ids, id.index < after.ast.decls.size) ∧ others = ids.map correspondence.decl := by
  induction fuel generalizing before with
  | zero => exact .exhausted
  | succ fuel induction =>
      refine peek_mirrors.bind ?_
      rintro middle kind _ - ⟨-, rfl⟩
      have more : Mirrors correspondence depth depth
          (do
            let first ← item
            return first :: (← declarations item fuel))
          (do
            let first ← item
            return first :: (← declarations item fuel)) middle
          fun after ids others =>
            (∀ id ∈ ids, id.index < after.ast.decls.size) ∧
              others = ids.map correspondence.decl := by
        refine (items middle).bind ?_
        rintro state first _ - ⟨first_lt, rfl⟩
        refine induction.bind ?_
        rintro after rest _ precedes ⟨rest_lt, rfl⟩
        exact .pure ⟨List.forall_mem_cons.2 ⟨first_lt.trans_le precedes.decls_le, rest_lt⟩, rfl⟩
      cases kind with
      | endOfInput => exact .pure ⟨List.forall_mem_nil _, rfl⟩
      | _ => exact more

end Functions

end Parser

end Minilang
