import Minilang.Lowering.Expression

/-!
# Lowering statements

Statements that choose or repeat become blocks. The blocks that a `break` and a `continue` lead to are
those of the innermost loop around them.
-/

namespace Minilang.Lowering

/-- Where the jumps out of the body of a loop lead. -/
structure LoopTargets where
  /-- Where `continue` leads: the block that tests the guard. -/
  continueBlock : Nat
  /-- Where `break` leads: the block behind the loop. -/
  breakBlock : Nat
deriving DecidableEq, Repr

/-- Declare an object within a function. A variable gets storage, and a constant stands for its value. -/
def lowerLocal (program : Program) (id : DeclId) : Build Unit := do
  let decl := program.ast.decl id
  match decl.kind with
  | .object .var type _ =>
    let slot ← allocate (.ofTy type)
    bindLocal id slot
    let value ← lowerExpr program (← initializer decl)
    perform (.store (.ofTy type) value slot)
  | .object _ _ _ => bindLocal id (← lowerExpr program (← initializer decl))
  | _ => refuse .localNotObject

/-- A statement under a guard. -/
def lowerWhen (program : Program) (guard : ExprId) (body : Build Unit) : Build Unit := do
  let condition ← lowerExpr program guard
  let thenBlock ← newBlock .whenThen
  let endBlock ← newBlock .whenEnd
  terminate (.condBranch condition thenBlock endBlock)
  switchTo thenBlock
  body
  branch endBlock
  switchTo endBlock

/-- A choice between two statements. -/
def lowerIf (program : Program) (guard : ExprId) (whenTrue whenFalse : Build Unit) :
    Build Unit := do
  let condition ← lowerExpr program guard
  let thenBlock ← newBlock .ifThen
  let elseBlock ← newBlock .ifElse
  let endBlock ← newBlock .ifEnd
  terminate (.condBranch condition thenBlock elseBlock)
  switchTo thenBlock
  whenTrue
  branch endBlock
  switchTo elseBlock
  whenFalse
  branch endBlock
  switchTo endBlock

/-- A loop; the body is given the targets of its jumps. -/
def lowerWhile (program : Program) (guard : ExprId) (body : LoopTargets → Build Unit) :
    Build Unit := do
  let condBlock ← newBlock .whileCond
  let bodyBlock ← newBlock .whileBody
  let endBlock ← newBlock .whileEnd
  terminate (.branch condBlock)
  switchTo condBlock
  let condition ← lowerExpr program guard
  terminate (.condBranch condition bodyBlock endBlock)
  switchTo bodyBlock
  body ⟨condBlock, endBlock⟩
  branch condBlock
  switchTo endBlock

/-- A jump to a target of the innermost loop, which is an error where there is no loop. -/
def lowerJump (loop : Option LoopTargets) (target : LoopTargets → Nat) (location : Location)
    (error : SemanticError) : Build Unit :=
  match loop with
  | some targets => terminate (.branch (target targets))
  | none => throw (.semantic location error)

/-- Lower statements one after another. -/
def lowerSequence (lowerStmt : StmtId → Build Unit) : List StmtId → Build Unit
  | [] => return
  | statement :: statements => do
    lowerStmt statement
    lowerSequence lowerStmt statements

/-- Lower a statement in a loop; the statements within it are lowered by the given function. -/
def lowerForm (program : Program) (result : Ir.ValueType)
    (lowerStmt : Option LoopTargets → StmtId → Build Unit) (loop : Option LoopTargets) :
    Stmt → Build Unit
  | .block statements => lowerSequence (lowerStmt loop) statements
  | .whenTrue guard body => lowerWhen program guard (lowerStmt loop body)
  | .ifElse guard whenTrue whenFalse =>
    lowerIf program guard (lowerStmt loop whenTrue) (lowerStmt loop whenFalse)
  | .whileTrue guard body =>
    lowerWhile program guard fun targets => lowerStmt (some targets) body
  | .breakLoop location => lowerJump loop LoopTargets.breakBlock location .breakOutsideLoop
  | .continueLoop location =>
    lowerJump loop LoopTargets.continueBlock location .continueOutsideLoop
  | .returnValue value => do
    let value ← lowerExpr program value
    terminate (.ret result value)
  | .declaration declaration => lowerLocal program declaration
  | .expression expression => do
    let _ ← lowerExpr program expression

/-- Lower a statement whose nesting is at most the fuel. -/
def lowerStmtWithin (program : Program) (result : Ir.ValueType) :
    (fuel : Nat) → Option LoopTargets → StmtId → Build Unit
  | 0, _, _ => refuse .nestingTooDeep
  | fuel + 1, loop, id =>
    lowerForm program result (lowerStmtWithin program result fuel) loop (program.ast.stmt id)

/-- Lower a statement outside of every loop. Nesting is at most the number of statements, as statements are
added before the statements they belong to. -/
def lowerStmt (program : Program) (result : Ir.ValueType) (id : StmtId) : Build Unit :=
  lowerStmtWithin program result (program.ast.stmts.size + 1) none id

end Minilang.Lowering
