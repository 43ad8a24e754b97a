import Minilang.Lowering.Program
import Minilang.Proofs.Lowering.Outcome

/-!
# Courses

A function behind a step does not show how the step has come there: a block that is closed twice has one
terminator. A course tells how a step is put together from the smallest ones, and from its course follows what
the step does with blocks, in order. Here are the courses of all steps that lower functions.
-/

namespace Minilang.Lowering

/-- What is done with a block that has been made. -/
inductive BlockStep where
  /-- Building goes on in the block. -/
  | enter (block : Nat)
  /-- An instruction goes to the end of the block. -/
  | extend (block : Nat)
  /-- The block gets its terminator. -/
  | close (block : Nat)
deriving DecidableEq, Repr

namespace BlockStep

/-- The block with which something is done. -/
def block : BlockStep → Nat
  | enter block | extend block | close block => block

/-- Whether one step may stand in front of another one: a block is entered once, and nothing is done with it
when it has been closed. -/
def MayPrecede : BlockStep → BlockStep → Prop
  | enter block, enter other => other ≠ block
  | close block, later => later.block ≠ block
  | _, _ => True

end BlockStep

/-- How a step is put together from the smallest ones. -/
inductive Course : {α : Type} → Build α → Type 1
  /-- A result. -/
  | pure {α : Type} (result : α) : Course (pure result : Build α)
  /-- A failure. -/
  | throw {α : Type} (error : Diagnostic) : Course (throw error : Build α)
  /-- One step behind another one. -/
  | bind {α β : Type} {first : Build α} {next : α → Build β} (start : Course first)
      (rest : ∀ result, Course (next result)) : Course (first >>= next)
  /-- A look at the function as it is. -/
  | get : Course (get : Build Builder)
  /-- A new block. -/
  | newBlock (role : BlockRole) : Course (newBlock role)
  /-- Going on in a block. -/
  | enter (block : Nat) : Course (switchTo block)
  /-- An instruction at the end of a block. -/
  | extend (block : Nat) (instruction : Ir.Instruction) :
      Course (modifyBlock block fun block =>
        { block with instructions := block.instructions.push instruction })
  /-- The terminator of a block. -/
  | close (block : Nat) (terminator : Ir.Terminator) :
      Course (modifyBlock block fun block => { block with terminator := some terminator })
  /-- Going on in no block. -/
  | leave : Course (modify fun builder => { builder with current := none } : Build Unit)
  /-- A temporary. -/
  | newTemporary : Course newTemporary
  /-- Room for an object. -/
  | makeRoom (temporary : Nat) (type : Ir.ValueType) :
      Course (modify fun builder =>
        { builder with allocas := builder.allocas.push ⟨some temporary, .alloca type⟩ } : Build Unit)
  /-- The value of a name. -/
  | bindLocal (declaration : DeclId) (value : Ir.Value) : Course (bindLocal declaration value)

namespace Course

/-- What is done with blocks in the course of a step, up to where it fails. -/
def steps : {α : Type} → {step : Build α} → Course step → Builder → List BlockStep
  | _, _, @bind _ _ first _ start rest, before =>
    start.steps before ++
      match first.run before with
      | .ok (result, middle) => (rest result).steps middle
      | .error _ => []
  | _, _, enter block, _ => [.enter block]
  | _, _, extend block _, _ => [.extend block]
  | _, _, close block _, _ => [.close block]
  | _, _, pure _, _ | _, _, throw _, _ | _, _, get, _ | _, _, newBlock _, _ | _, _, leave, _
  | _, _, newTemporary, _ | _, _, makeRoom _ _, _ | _, _, bindLocal _ _, _ => []

/-- Behind a step that succeeds, the next one does its part. -/
theorem steps_bind {α β : Type} {first : Build α} {next : α → Build β} {start : Course first}
    {rest : ∀ result, Course (next result)} {before middle : Builder} {result : α}
    (run : first.run before = .ok (result, middle)) :
    (bind start rest).steps before = start.steps before ++ (rest result).steps middle := by
  rw [steps, run]

/-! ## Building -/

/-- Finding the current block. -/
def currentBlock : Course currentBlock :=
  .bind .get fun builder =>
    match builder.current with
    | some block => .pure block
    | none => .bind (.newBlock _) fun block => .bind (.enter block) fun _ => .pure block

/-- Closing the current block. -/
def terminate (terminator : Ir.Terminator) : Course (terminate terminator) :=
  .bind currentBlock fun block => .bind (.close block terminator) fun _ => .leave

/-- Going on elsewhere unless the current block is closed. -/
def branch (target : Nat) : Course (branch target) :=
  .bind .get fun builder =>
    match builder.current.isSome with
    | true => terminate _
    | false => .pure ()

/-- Adding an instruction. -/
def append (instruction : Ir.Instruction) : Course (append instruction) :=
  .bind currentBlock fun block => .extend block instruction

/-- Adding an instruction with a result. -/
def emit (operation : Ir.Operation) : Course (emit operation) :=
  .bind .newTemporary fun _ => .bind (append _) fun _ => .pure _

/-- Adding an instruction without a result. -/
def perform (operation : Ir.Operation) : Course (perform operation) := append _

/-- Making room for an object. -/
def allocate (type : Ir.ValueType) : Course (allocate type) :=
  .bind .newTemporary fun temporary => .bind (.makeRoom temporary type) fun _ => .pure _

/-! ## Expressions -/

/-- Finding an initializer. -/
def initializer : (decl : Decl) → Course (initializer decl)
  | ⟨_, _, .object _ _ (some initializer)⟩ => .pure initializer
  | ⟨_, _, .object _ _ none⟩ | ⟨_, _, .parameter _⟩ | ⟨_, _, .function _ _ _⟩ | ⟨_, _, .program _⟩ =>
    .throw _

section Expressions

variable {lowerExpr : ExprId → Build Ir.Value} (operand : ∀ id, Course (lowerExpr id))

/-- Using a name of the program. -/
def constant (decl : Decl) : Course (if decl.kind.isConstant then do lowerExpr (← Lowering.initializer decl)
    else refuse (.noStorage decl.name)) :=
  match decl.kind.isConstant with
  | true => .bind (initializer decl) operand
  | false => .throw _

/-- Using a name. -/
def name (program : Program) (id : DeclId) : Course (lowerName program lowerExpr id) :=
  .bind .get fun builder =>
    match builder.local? id, program.symbol? id with
    | some value, _ => .pure value
    | none, some value => .pure value
    | none, none => constant operand (program.ast.decl id)

/-- Computing both or either of two truth values. -/
def logical (isOr : Bool) (left right : ExprId) : Course (lowerLogical lowerExpr isOr left right) :=
  .bind (operand left) fun _ =>
  .bind currentBlock fun _ =>
  .bind (.newBlock _) fun rightStart =>
  .bind (.newBlock _) fun endBlock =>
  .bind (terminate _) fun _ =>
  .bind (.enter rightStart) fun _ =>
  .bind (operand right) fun _ =>
  .bind currentBlock fun _ =>
  .bind (branch endBlock) fun _ =>
  .bind (.enter endBlock) fun _ => emit _

/-- Choosing between two expressions. -/
def conditional (type : Ir.ValueType) (guard whenTrue whenFalse : ExprId) :
    Course (lowerConditional lowerExpr type guard whenTrue whenFalse) :=
  .bind (operand guard) fun _ =>
  .bind (.newBlock _) fun trueStart =>
  .bind (.newBlock _) fun falseStart =>
  .bind (.newBlock _) fun endBlock =>
  .bind (terminate _) fun _ =>
  .bind (.enter trueStart) fun _ =>
  .bind (operand whenTrue) fun _ =>
  .bind currentBlock fun _ =>
  .bind (branch endBlock) fun _ =>
  .bind (.enter falseStart) fun _ =>
  .bind (operand whenFalse) fun _ =>
  .bind currentBlock fun _ =>
  .bind (branch endBlock) fun _ =>
  .bind (.enter endBlock) fun _ => emit _

/-- Applying an operator to two values. -/
def binary (ast : Ast) (operator : BinaryOperator) (left right : ExprId) :
    Course (lowerBinary ast lowerExpr operator left right) :=
  .bind (operand left) fun leftValue =>
  .bind (operand right) fun rightValue =>
    match operator.operation? (valueType ast left) leftValue rightValue with
    | some operation => emit operation
    | none => .throw _

/-- Passing arguments. -/
def arguments (ast : Ast) : (ids : List ExprId) → Course (lowerArguments ast lowerExpr ids)
  | [] => .pure []
  | id :: ids => .bind (operand id) fun _ => .bind (arguments ast ids) fun _ => .pure _

/-- Assigning a value. -/
def assignment (ast : Ast) (target value : ExprId) :
    Course (lowerAssignment ast lowerExpr target value) :=
  .bind (operand target) fun pointer =>
  .bind (operand value) fun _ =>
  .bind (perform _) fun _ => .pure pointer

/-- Computing an expression. -/
def kind (program : Program) : (expr : Expr) → Course (lowerKind program lowerExpr expr)
  | ⟨.bool _, _, _⟩ | ⟨.int _, _, _⟩ | ⟨.float _, _, _⟩ | ⟨.char _, _, _⟩ => .pure _
  | ⟨.name declaration, _, _⟩ => name operand program declaration
  | ⟨.unary _ id, _, _⟩ => .bind (operand id) fun _ => emit _
  | ⟨.binary operator left right, _, _⟩ =>
    -- Every operator is named, as only then it shows what is built for it.
    let plain operator := binary operand program.ast operator left right
    match operator with
    | .logicalAnd => logical operand false left right
    | .logicalOr => logical operand true left right
    | .add => plain .add | .sub => plain .sub | .mul => plain .mul | .div => plain .div
    | .rem => plain .rem | .and => plain .and | .or => plain .or | .xor => plain .xor
    | .shl => plain .shl | .shr => plain .shr | .eq => plain .eq | .ne => plain .ne
    | .lt => plain .lt | .gt => plain .gt | .le => plain .le | .ge => plain .ge
  | ⟨.call callee ids, _, _⟩ =>
    .bind (operand callee) fun _ => .bind (arguments operand program.ast ids) fun _ => emit _
  | ⟨.index _ _, _, _⟩ => .throw _
  | ⟨.cast id, _, _⟩ => operand id
  | ⟨.assign target value, _, _⟩ => assignment operand program.ast target value
  | ⟨.conditional guard whenTrue whenFalse, _, _⟩ => conditional operand _ guard whenTrue whenFalse
  | ⟨.convert _ id, _, _⟩ => .bind (operand id) fun _ => emit _

end Expressions

/-- Computing an expression of some nesting. -/
def exprWithin (program : Program) : (fuel : Nat) → (id : ExprId) →
    Course (lowerExprWithin program fuel id)
  | 0, _ => .throw _
  | fuel + 1, id => kind (exprWithin program fuel) program (program.ast.expr id)

/-- Computing any expression. -/
def expr (program : Program) (id : ExprId) : Course (lowerExpr program id) := exprWithin program _ id

/-! ## Statements -/

/-- Declaring an object. -/
def object (program : Program) (id : DeclId) : Course (lowerLocal program id) := by
  -- The step has to be opened before its declaration can be taken apart.
  delta lowerLocal
  generalize program.ast.decl id = decl
  exact match decl with
    | ⟨_, _, .object .var _ _⟩ =>
      .bind (allocate _) fun _ =>
      .bind (.bindLocal _ _) fun _ =>
      .bind (initializer _) fun _ =>
      .bind (expr program _) fun _ => perform _
    | ⟨_, _, .object .const _ _⟩ | ⟨_, _, .object .value _ _⟩ =>
      .bind (initializer _) fun _ =>
      .bind (expr program _) fun _ => .bindLocal _ _
    | ⟨_, _, .parameter _⟩ | ⟨_, _, .function _ _ _⟩ | ⟨_, _, .program _⟩ => .throw _

section Statements

variable (program : Program) (guard : ExprId)

/-- Building under a guard. -/
def when {body : Build Unit} (whenTrue : Course body) : Course (lowerWhen program guard body) :=
  .bind (expr program guard) fun _ =>
  .bind (.newBlock _) fun thenBlock =>
  .bind (.newBlock _) fun endBlock =>
  .bind (terminate _) fun _ =>
  .bind (.enter thenBlock) fun _ =>
  .bind whenTrue fun _ =>
  .bind (branch endBlock) fun _ => .enter endBlock

/-- Building two alternatives. -/
def ifElse {left right : Build Unit} (whenTrue : Course left) (whenFalse : Course right) :
    Course (lowerIf program guard left right) :=
  .bind (expr program guard) fun _ =>
  .bind (.newBlock _) fun thenBlock =>
  .bind (.newBlock _) fun elseBlock =>
  .bind (.newBlock _) fun endBlock =>
  .bind (terminate _) fun _ =>
  .bind (.enter thenBlock) fun _ =>
  .bind whenTrue fun _ =>
  .bind (branch endBlock) fun _ =>
  .bind (.enter elseBlock) fun _ =>
  .bind whenFalse fun _ =>
  .bind (branch endBlock) fun _ => .enter endBlock

/-- Building a loop. -/
def whileLoop {body : LoopTargets → Build Unit} (whileTrue : ∀ targets, Course (body targets)) :
    Course (lowerWhile program guard body) :=
  .bind (.newBlock _) fun condBlock =>
  .bind (.newBlock _) fun bodyBlock =>
  .bind (.newBlock _) fun endBlock =>
  .bind (terminate _) fun _ =>
  .bind (.enter condBlock) fun _ =>
  .bind (expr program guard) fun _ =>
  .bind (terminate _) fun _ =>
  .bind (.enter bodyBlock) fun _ =>
  .bind (whileTrue _) fun _ =>
  .bind (branch condBlock) fun _ => .enter endBlock

end Statements

/-- Jumping out of the body of a loop. -/
def jump : (loop : Option LoopTargets) → (target : LoopTargets → Nat) → (location : Location) →
    (error : SemanticError) → Course (lowerJump loop target location error)
  | some _, _, _, _ => terminate _
  | none, _, _, _ => .throw _

/-- Building statements one after another. -/
def sequence {lowerStmt : StmtId → Build Unit} (statement : ∀ id, Course (lowerStmt id)) :
    (ids : List StmtId) → Course (lowerSequence lowerStmt ids)
  | [] => .pure ()
  | id :: ids => .bind (statement id) fun _ => sequence statement ids

/-- Building a statement. -/
def form (program : Program) (result : Ir.ValueType)
    {lowerStmt : Option LoopTargets → StmtId → Build Unit}
    (statement : ∀ loop id, Course (lowerStmt loop id)) (loop : Option LoopTargets) :
    (stmt : Stmt) → Course (lowerForm program result lowerStmt loop stmt)
  | .block ids => sequence (statement loop) ids
  | .whenTrue guard body => when program guard (statement loop body)
  | .ifElse guard whenTrue whenFalse =>
    ifElse program guard (statement loop whenTrue) (statement loop whenFalse)
  | .whileTrue guard body => by
    delta lowerForm
    exact whileLoop program guard fun targets => statement (some targets) body
  | .breakLoop location => jump loop LoopTargets.breakBlock location .breakOutsideLoop
  | .continueLoop location => jump loop LoopTargets.continueBlock location .continueOutsideLoop
  | .returnValue value => .bind (expr program value) fun _ => terminate _
  | .declaration declaration => object program declaration
  | .expression expression => .bind (expr program expression) fun _ => .pure ()

/-- Building a statement of some nesting. -/
def stmtWithin (program : Program) (result : Ir.ValueType) : (fuel : Nat) →
    (loop : Option LoopTargets) → (id : StmtId) → Course (lowerStmtWithin program result fuel loop id)
  | 0, _, _ => .throw _
  | fuel + 1, loop, id => form program result (stmtWithin program result fuel) loop (program.ast.stmt id)

/-- Building any statement. -/
def stmt (program : Program) (result : Ir.ValueType) (id : StmtId) :
    Course (lowerStmt program result id) := stmtWithin program result _ none id

/-! ## Functions -/

/-- Storing a parameter. -/
def parameter (program : Program) (index : Nat) (id : DeclId) :
    Course (lowerParameter program index id) := by
  delta lowerParameter
  generalize program.ast.decl id = decl
  exact match decl with
    | ⟨_, _, .object _ _ _⟩ | ⟨_, _, .parameter _⟩ | ⟨_, _, .function _ _ _⟩ =>
      .bind (allocate _) fun _ =>
      .bind (perform _) fun _ =>
      .bind (.bindLocal _ _) fun _ => .pure _
    | ⟨_, _, .program _⟩ => .throw _

/-- Storing parameters. -/
def parameters (program : Program) : (index : Nat) → (ids : List DeclId) →
    Course (lowerParameters program index ids)
  | _, [] => .pure []
  | index, id :: ids =>
    .bind (parameter program index id) fun _ => .bind (parameters program (index + 1) ids) fun _ => .pure _

/-- Finding a body. -/
def functionBody : (decl : Decl) → Course (functionBody decl)
  | ⟨_, _, .function _ _ (some body)⟩ => .pure body
  | ⟨_, _, .function _ _ none⟩ | ⟨_, _, .object _ _ _⟩ | ⟨_, _, .parameter _⟩ | ⟨_, _, .program _⟩ =>
    .throw _

/-- Building a function. -/
def function (program : Program) (result : Ir.ValueType) (decl : Decl) :
    Course (buildFunction program result decl) :=
  .bind (.newBlock _) fun entry =>
  .bind (.enter entry) fun _ =>
  .bind (parameters program 0 decl.kind.parameters) fun _ =>
  .bind (functionBody decl) fun body =>
  .bind (stmt program result body) fun _ => .pure _

end Course

end Minilang.Lowering
