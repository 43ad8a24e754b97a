import Minilang.Parsing.Statements
import Minilang.Proofs.Parsing.ExpressionRecognition

/-!
# Recognition of declarations of objects and of statements

A `def` is told from others of its kind by its third token, so what stands behind its name is recognized on
its own. No statement can be extended, as an `if` has an `else` always.
-/

namespace Minilang

open Grammar Form
open Analysis (BlamesMeaning)

namespace Parser

variable {before : ParserState} {barred : List Terminal} {token : Token} {form : Form}

/-! ## Objects -/

/-- What stands behind the name of an object. -/
def objectTail : Form :=
  sequence [sign .colon, Nonterminal.type, sign .assign, Nonterminal.expression, sign .semicolon]

/-- What an object is made of behind its name. -/
def objectBehind (kind : ObjectKind) (fuel : Nat) (name : Token) : Parser DeclId := do
  expectSign .colon
  let type ← typeWithin fuel
  let declaration ← check (Analysis.declareObject kind name type)
  expectSign .assign
  let initializer ← expressionWithin fuel
  expectSign .semicolon
  check (Analysis.defineObject declaration initializer)

theorem object_eq (kind : ObjectKind) (fuel : Nat) : object kind fuel = (do
    expectWord kind.keyword
    let name ← expectIdentifier
    objectBehind kind fuel name) := rfl

theorem objectBehind_recognizes (kind : ObjectKind) (fuel : Nat) (name : Token)
    (before : ParserState) : Recognizes (objectBehind kind fuel name) before objectTail [] := by
  refine .expect_bind (.bind rfl (typeWithin_recognizes fuel _) fun type after => ?_)
  refine .check_bind (.declareObject kind name type) fun declaration after => ?_
  refine .expect_bind (.bind (by decide) (expressionWithin_recognizes fuel _) ?_)
  exact fun initializer after => .expect_bind (.check (.defineObject declaration initializer))

/-- An object is recognized if what stands behind its name is. -/
theorem object_recognizes_of {kind : ObjectKind} {fuel : Nat}
    (behind : ∀ name, Recognizes (objectBehind kind fuel name) before.advanced.advanced form barred) :
    Recognizes (object kind fuel) before
      (.seq (word kind.keyword) (.seq Terminal.identifier form)) barred := by
  rw [object_eq]
  exact .expect_bind (.expectIdentifier_bind behind)

theorem object_recognizes (kind : ObjectKind) (fuel : Nat) (before : ParserState) :
    Recognizes (object kind fuel) before (objectDefinition kind.keyword) [] :=
  object_recognizes_of fun name => objectBehind_recognizes kind fuel name _

/-- A `def` stops behind its name at a token that does not fit there. -/
theorem misplacedDefinition_recognizes {third : Token} (expected : Expectation)
    (found : before.tokens.lookahead 0 = .ok token) (spelled : token.kind = .keyword .defWord)
    (found_third : before.tokens.lookahead 2 = .ok third) (solid : form.nullable = false)
    (unstarted : form.starts third.kind = false) :
    Recognizes (misplacedDefinition expected) before
      (.seq (word .defWord) (.seq Terminal.identifier form)) barred := by
  have found_behind : before.advanced.advanced.tokens.lookahead 0 = .ok third := by
    rw [← found_third, ← TokenStream.lookahead_rest, ← TokenStream.lookahead_rest]
    rfl
  exact .next_bind found (by rw [spelled]; rfl)
    (.expectIdentifier_bind fun name => .unexpected found_behind solid unstarted)

theorem localDeclaration_recognizes (fuel : Nat) (before : ParserState) :
    Recognizes (localDeclaration fuel) before Nonterminal.localDeclaration [] := by
  refine .nonterminal (.peek_bind fun token found => ?_)
  cases spelled : token.kind with
  | keyword word =>
      cases word with
      | varWord =>
          exact .choice 0 rfl found spelled rfl (.nonterminal (object_recognizes .var fuel before))
      | letWord =>
          exact .choice 1 rfl found spelled rfl (.nonterminal (object_recognizes .const fuel before))
      | defWord =>
          refine .choice 2 rfl found spelled rfl (.nonterminal ?_)
          refine .lookahead_bind fun third found_third => ?_
          split
          · exact object_recognizes .value fuel before
          · next other =>
            refine misplacedDefinition_recognizes _ found spelled found_third rfl ?_
            exact Recognizes.starts_seq_token other _
      | _ => exact .unexpected found rfl (by rw [spelled]; rfl)
  | _ => exact .unexpected found rfl (by rw [spelled]; rfl)

/-! ## Statements -/

theorem guard_bind_recognizes {fuel : Nat} {next : ExprId → Parser StmtId}
    (rest : ∀ guard after, Recognizes (next guard) after form []) :
    Recognizes (guard fuel >>= next) before (.seq (sign .leftParen)
      (.seq Nonterminal.expression (.seq (sign .rightParen) form))) [] := by
  rw [guard, bind_assoc]
  refine .expect_bind ?_
  rw [bind_assoc]
  refine .bind rfl (expressionWithin_recognizes fuel _) fun guard after => ?_
  rw [bind_assoc]
  exact .expect_bind (rest guard _)

theorem terminated_recognizes {combine : ExprId → Check StmtId}
    (blames : ∀ expression, BlamesMeaning (combine expression)) (fuel : Nat)
    (before : ParserState) :
    Recognizes (terminated combine fuel) before
      (sequence [Nonterminal.expression, sign .semicolon]) [] :=
  .bind (by decide) (expressionWithin_recognizes fuel before) fun expression after =>
    .expect_bind (.check (blames expression))

/-- A jump is recognized by its word. -/
theorem jump_recognizes {combine : Token → Check StmtId} {keyword : Keyword}
    (blames : ∀ token, BlamesMeaning (combine token))
    (found : before.tokens.lookahead 0 = .ok token) (spelled : token.kind = .keyword keyword) :
    Recognizes (jump combine) before (sequence [word keyword, sign .semicolon]) [] :=
  .next_bind found (by rw [spelled]; simp [Terminal.admits])
    (.expect_bind (.check (blames token)))

section Nested

variable {nested : Parser StmtId}

theorem block_recognizes (fuel : Nat)
    (nested_recognizes : ∀ state, Recognizes nested state Nonterminal.statement [])
    (before : ParserState) :
    Recognizes (block nested fuel) before Nonterminal.blockStatement [] := by
  refine .nonterminal (.expect_bind ?_)
  refine .check_bind .enterBlockScope fun _ _ => .check_bind .startBlock fun _ after => ?_
  have items : Recognizes (manyUntil .rightBrace nested fuel) after
      (sequence [many Nonterminal.statement, sign .rightBrace]) [] :=
    .manyUntil .rightBrace fuel rfl rfl rfl nested_recognizes after
  refine .of_seq_empty (.bind rfl items fun statements after => ?_)
  exact .check_bind .leaveScope fun _ _ => .check (.block statements)

theorem ifElse_recognizes (fuel : Nat)
    (nested_recognizes : ∀ state, Recognizes nested state Nonterminal.statement [])
    (before : ParserState) :
    Recognizes (ifElse nested fuel) before
      (sequence [sign .leftParen, Nonterminal.expression, sign .rightParen, Nonterminal.statement,
        word .elseWord, Nonterminal.statement]) [] := by
  refine guard_bind_recognizes fun guard after => ?_
  refine .bind rfl (nested_recognizes after) fun whenTrue after => .expect_bind ?_
  exact .bind rfl (nested_recognizes _) fun whenFalse after => .check (.ifElse guard whenTrue whenFalse)

theorem guarded_recognizes {combine : ExprId → StmtId → Check StmtId}
    (blames : ∀ guard body, BlamesMeaning (combine guard body)) (fuel : Nat)
    (nested_recognizes : ∀ state, Recognizes nested state Nonterminal.statement [])
    (before : ParserState) :
    Recognizes (guarded combine nested fuel) before
      (sequence [sign .leftParen, Nonterminal.expression, sign .rightParen,
        Nonterminal.statement]) [] := by
  refine guard_bind_recognizes fun guard after => ?_
  exact .bind rfl (nested_recognizes after) fun body after => .check (blames guard body)

end Nested

/-- The parser of statements recognizes the rule of statements. -/
theorem statementWithin_recognizes (fuel : Nat) (before : ParserState) :
    Recognizes (statementWithin fuel) before Nonterminal.statement [] := by
  induction fuel generalizing before with
  | zero => exact .exhausted
  | succ fuel induction =>
      have declares (state : ParserState) : Recognizes (do
          let declaration ← localDeclaration (fuel + 1)
          check (Analysis.declarationStatement declaration)) state
          Nonterminal.localDeclaration [] :=
        .of_seq_empty (.bind rfl (localDeclaration_recognizes (fuel + 1) state)
          fun declaration after => .check (.declarationStatement declaration))
      refine .nonterminal (.peek_bind fun token found => ?_)
      cases spelled : token.kind with
      | punctuation sign =>
          cases sign with
          | leftBrace =>
              exact .choice 0 rfl found spelled rfl (block_recognizes fuel induction before)
          | _ =>
              refine .choice 8 rfl found spelled rfl ?_
              exact terminated_recognizes .expressionStatement (fuel + 1) before
      | keyword word =>
          have admitted : (Terminal.oneOf (.keyword word) []).admits token.kind = true := by
            simp [spelled, Terminal.admits]
          cases word with
          | ifWord =>
              refine .choice 1 rfl found spelled rfl (.next_bind found admitted ?_)
              exact ifElse_recognizes fuel induction _
          | whenWord =>
              refine .choice 2 rfl found spelled rfl (.next_bind found admitted ?_)
              exact guarded_recognizes .whenTrue fuel induction _
          | whileWord =>
              refine .choice 3 rfl found spelled rfl (.next_bind found admitted ?_)
              exact guarded_recognizes .whileTrue fuel induction _
          | breakWord =>
              exact .choice 4 rfl found spelled rfl (jump_recognizes .breakLoop found spelled)
          | continueWord =>
              exact .choice 5 rfl found spelled rfl (jump_recognizes .continueLoop found spelled)
          | returnWord =>
              refine .choice 6 rfl found spelled rfl (.next_bind found admitted ?_)
              exact terminated_recognizes .returnValue fuel _
          | varWord | letWord | defWord =>
              exact .choice 7 rfl found spelled rfl (declares before)
          | _ =>
              refine .choice 8 rfl found spelled rfl ?_
              exact terminated_recognizes .expressionStatement (fuel + 1) before
      | _ =>
          refine .choice 8 rfl found spelled rfl ?_
          exact terminated_recognizes .expressionStatement (fuel + 1) before

end Parser

end Minilang
