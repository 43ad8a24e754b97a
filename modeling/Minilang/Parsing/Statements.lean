import Minilang.Analysis.Statement
import Minilang.Parsing.Declarations

/-!
# Parsing statements

A block opens a scope of its own; every other statement is told by its first token.
-/

namespace Minilang.Parser

/-- A guard in parentheses. -/
def guard (fuel : Nat) : Parser ExprId := do
  expectSign .leftParen
  let guard ← expressionWithin fuel
  expectSign .rightParen
  return guard

/-- Statements in braces, over the parser of the statements inside. -/
def block (nested : Parser StmtId) (fuel : Nat) : Parser StmtId := do
  expectSign .leftBrace
  check Analysis.enterBlockScope
  check Analysis.startBlock
  let statements ← manyUntil .rightBrace nested fuel
  check Analysis.leaveScope
  check (Analysis.block statements)

/-- A choice between two statements, behind its word. -/
def ifElse (nested : Parser StmtId) (fuel : Nat) : Parser StmtId := do
  let guard ← guard fuel
  let whenTrue ← nested
  expectWord .elseWord
  let whenFalse ← nested
  check (Analysis.ifElse guard whenTrue whenFalse)

/-- A statement under a guard, behind its word. -/
def guarded (combine : ExprId → StmtId → Check StmtId) (nested : Parser StmtId) (fuel : Nat) :
    Parser StmtId := do
  let guard ← guard fuel
  let body ← nested
  check (combine guard body)

/-- A word followed by a semicolon. -/
def jump (combine : Token → Check StmtId) : Parser StmtId := do
  let token ← next
  expectSign .semicolon
  check (combine token)

/-- An expression followed by a semicolon. -/
def terminated (combine : ExprId → Check StmtId) (fuel : Nat) : Parser StmtId := do
  let expression ← expressionWithin fuel
  expectSign .semicolon
  check (combine expression)

/-- A statement. Statements inside it get less fuel. -/
def statementWithin : (fuel : Nat) → Parser StmtId
  | 0 => exhausted
  | fuel + 1 => do
    match ← peek with
    | .punctuation .leftBrace => block (statementWithin fuel) fuel
    | .keyword .ifWord => do
      let _ ← next
      ifElse (statementWithin fuel) fuel
    | .keyword .whenWord => do
      let _ ← next
      guarded Analysis.whenTrue (statementWithin fuel) fuel
    | .keyword .whileWord => do
      let _ ← next
      guarded Analysis.whileTrue (statementWithin fuel) fuel
    | .keyword .breakWord => jump Analysis.breakLoop
    | .keyword .continueWord => jump Analysis.continueLoop
    | .keyword .returnWord => do
      let _ ← next
      terminated Analysis.returnValue fuel
    | .keyword .varWord | .keyword .letWord | .keyword .defWord => do
      let declaration ← localDeclaration (fuel + 1)
      check (Analysis.declarationStatement declaration)
    | _ => terminated Analysis.expressionStatement (fuel + 1)

end Minilang.Parser
