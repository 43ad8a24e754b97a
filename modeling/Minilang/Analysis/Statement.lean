import Minilang.Analysis.Declaration

/-!
# Analysis of statements

Guards have to be truth values, and returned values have the result type of the function being defined.
-/

namespace Minilang.Analysis

/-- Bind the parameters of the function being defined, if the innermost scope is that of its body. -/
def startBlock : Check Unit := do
  let analysis ← get
  if analysis.scopes.parentKind? ≠ some .global then return
  match analysis.function with
  | none => return
  | some function => (analysis.ast.decl function).kind.parameters.forM declare

/-- Statements in braces. -/
def block (statements : List StmtId) : Check StmtId := addStmt (.block statements)

/-- A choice between two statements. -/
def ifElse (guard : ExprId) (whenTrue whenFalse : StmtId) : Check StmtId := do
  let guard ← requireCategory .boolean guard
  addStmt (.ifElse guard whenTrue whenFalse)

/-- A statement that runs if a guard holds. -/
def whenTrue (guard : ExprId) (body : StmtId) : Check StmtId := do
  let guard ← requireCategory .boolean guard
  addStmt (.whenTrue guard body)

/-- A loop. -/
def whileTrue (guard : ExprId) (body : StmtId) : Check StmtId := do
  let guard ← requireCategory .boolean guard
  addStmt (.whileTrue guard body)

/-- A `break`. Whether it stands in a loop is not asked here. -/
def breakLoop (token : Token) : Check StmtId := addStmt (.breakLoop token.location)

/-- A `continue`. Whether it stands in a loop is not asked here. -/
def continueLoop (token : Token) : Check StmtId := addStmt (.continueLoop token.location)

/-- A return from the function being defined. -/
def returnValue (value : ExprId) : Check StmtId := do
  let value ← load value
  match (← get).function with
  | none => refuse .returnOutsideFunction
  | some function =>
    match (← decl function).kind.type?.bind Ty.returnType? with
    | none => refuse .missingReturnType
    | some result =>
      requireSame result value
      addStmt (.returnValue value)

/-- A local declaration. -/
def declarationStatement (declaration : DeclId) : Check StmtId :=
  addStmt (.declaration declaration)

/-- An expression whose value is not used. -/
def expressionStatement (expression : ExprId) : Check StmtId :=
  addStmt (.expression expression)

end Minilang.Analysis
