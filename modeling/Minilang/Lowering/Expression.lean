import Minilang.Lowering.Builder

/-!
# Lowering expressions

The operands of an expression are lowered from left to right in front of the instruction that combines
them. Operators that may leave an operand unevaluated become blocks whose values meet in a `phi`. A global
constant has no storage, and every use of it lowers its initializer anew.
-/

namespace Minilang

namespace BinaryOperator

/-- The comparison that an operator stands for. -/
def predicate? (isFloat : Bool) : BinaryOperator → Option Ir.Predicate
  | eq => some (if isFloat then .oeq else .eq)
  | ne => some (if isFloat then .one else .ne)
  | lt => some (if isFloat then .olt else .slt)
  | gt => some (if isFloat then .ogt else .sgt)
  | le => some (if isFloat then .ole else .sle)
  | ge => some (if isFloat then .oge else .sge)
  | _ => none

/-- The operator on values that an operator stands for. -/
def instruction? (isFloat : Bool) : BinaryOperator → Option Ir.Operator
  | add => some (if isFloat then .fadd else .add)
  | sub => some (if isFloat then .fsub else .sub)
  | mul => some (if isFloat then .fmul else .mul)
  | div => some (if isFloat then .fdiv else .sdiv)
  | rem => some (if isFloat then .frem else .srem)
  | and => if isFloat then none else some .and
  | or => if isFloat then none else some .or
  | xor => if isFloat then none else some .xor
  | shl => if isFloat then none else some .shl
  | shr => if isFloat then none else some .ashr
  | _ => none

/-- The operation that an operator stands for on two values of a type. -/
def operation? (operator : BinaryOperator) (type : Ir.ValueType) (left right : Ir.Value) :
    Option Ir.Operation :=
  match operator.predicate? type.isFloat with
  | some predicate => some (.compare predicate type left right)
  | none =>
    (operator.instruction? type.isFloat).map fun operator => .binary operator type left right

end BinaryOperator

namespace UnaryOperator

/-- The operation that an operator stands for: every bit is compared with a set one. -/
def operation (operand : Ir.Value) : UnaryOperator → Ir.Operation
  | bitNot => .binary .xor .i32 operand (.const (.int (-1)))
  | logicalNot => .binary .xor .i1 operand (.const (.bool true))

end UnaryOperator

namespace Conversion

/-- The operation that a conversion between two types of values stands for. -/
def operation (source target : Ir.ValueType) (operand : Ir.Value) : Conversion → Ir.Operation
  | load => .load target operand
  | toBool =>
    .compare (if source.isFloat then .one else .ne) source operand (.const (.zero source))
  | toChar => .cast .trunc source target operand
  | toInt => .cast (if source = .i1 then .zext else .sext) source target operand
  | truncate => .cast .fptosi source target operand
  | toFloat => .cast .sitofp source target operand

end Conversion

namespace Program

/-- The address of what a declaration at the top of a program introduces. Constants have none. -/
def symbol? (program : Program) (id : DeclId) : Option Ir.Value :=
  if id ∈ program.declarations then
    let decl := program.ast.decl id
    match decl.kind with
    | .object .var _ _ => some (.global decl.name)
    | .function _ _ _ => some (.function decl.name)
    | _ => none
  else none

end Program

namespace Lowering

/-- The type of the value of an expression. -/
def valueType (ast : Ast) (id : ExprId) : Ir.ValueType := .ofTy (ast.expr id).type

/-- The initializer that an object has to have by now. -/
def initializer (decl : Decl) : Build ExprId :=
  match decl.kind with
  | .object _ _ (some initializer) => pure initializer
  | .object _ _ none => refuse .objectNeverDefined
  | _ => refuse .declarationNotObject

/-- The value of a name: that of a name of the function, else that of a name of the module, else that of
the initializer of a constant. -/
def lowerName (program : Program) (lowerExpr : ExprId → Build Ir.Value) (id : DeclId) :
    Build Ir.Value := do
  match (← get).local? id, program.symbol? id with
  | some value, _ => return value
  | none, some value => return value
  | none, none =>
    let decl := program.ast.decl id
    if decl.kind.isConstant then lowerExpr (← initializer decl) else refuse (.noStorage decl.name)

/-- Both or either of two truth values. The right one is computed only where the left one does not decide
the result. -/
def lowerLogical (lowerExpr : ExprId → Build Ir.Value) (isOr : Bool) (left right : ExprId) :
    Build Ir.Value := do
  let leftValue ← lowerExpr left
  let leftBlock ← currentBlock
  let rightStart ← newBlock (if isOr then .orRhs else .andRhs)
  let endBlock ← newBlock (if isOr then .orEnd else .andEnd)
  terminate (if isOr then .condBranch leftValue endBlock rightStart
    else .condBranch leftValue rightStart endBlock)
  switchTo rightStart
  let rightValue ← lowerExpr right
  let rightEnd ← currentBlock
  branch endBlock
  switchTo endBlock
  emit (.phi .i1 [(.const (.bool isOr), leftBlock), (rightValue, rightEnd)])

/-- A choice between two expressions, only one of which is computed. -/
def lowerConditional (lowerExpr : ExprId → Build Ir.Value) (type : Ir.ValueType)
    (guard whenTrue whenFalse : ExprId) : Build Ir.Value := do
  let condition ← lowerExpr guard
  let trueStart ← newBlock .condTrue
  let falseStart ← newBlock .condFalse
  let endBlock ← newBlock .condEnd
  terminate (.condBranch condition trueStart falseStart)
  switchTo trueStart
  let trueValue ← lowerExpr whenTrue
  let trueEnd ← currentBlock
  branch endBlock
  switchTo falseStart
  let falseValue ← lowerExpr whenFalse
  let falseEnd ← currentBlock
  branch endBlock
  switchTo endBlock
  emit (.phi type [(trueValue, trueEnd), (falseValue, falseEnd)])

/-- An operator that evaluates both operands. The left one gives the type. -/
def lowerBinary (ast : Ast) (lowerExpr : ExprId → Build Ir.Value) (operator : BinaryOperator)
    (left right : ExprId) : Build Ir.Value := do
  let leftValue ← lowerExpr left
  let rightValue ← lowerExpr right
  match operator.operation? (valueType ast left) leftValue rightValue with
  | some operation => emit operation
  | none => refuse (.noInstruction operator)

/-- The arguments of a call with their types. -/
def lowerArguments (ast : Ast) (lowerExpr : ExprId → Build Ir.Value) :
    List ExprId → Build (List (Ir.ValueType × Ir.Value))
  | [] => return []
  | argument :: arguments => do
    let value ← lowerExpr argument
    let rest ← lowerArguments ast lowerExpr arguments
    return (valueType ast argument, value) :: rest

/-- An assignment, whose value is the address it writes to. -/
def lowerAssignment (ast : Ast) (lowerExpr : ExprId → Build Ir.Value) (target value : ExprId) :
    Build Ir.Value := do
  let pointer ← lowerExpr target
  let stored ← lowerExpr value
  perform (.store (valueType ast value) stored pointer)
  return pointer

/-- Lower one expression; its operands are lowered by the given function. -/
def lowerKind (program : Program) (lowerExpr : ExprId → Build Ir.Value) (expr : Expr) :
    Build Ir.Value := do
  let ast := program.ast
  match expr.kind with
  | .bool value => return .const (.bool value)
  | .int value => return .const (.int value)
  | .float value => return .const (.float value)
  | .char value => return .const (.char value)
  | .name declaration => lowerName program lowerExpr declaration
  | .unary operator operand => emit (operator.operation (← lowerExpr operand))
  | .binary .logicalAnd left right => lowerLogical lowerExpr false left right
  | .binary .logicalOr left right => lowerLogical lowerExpr true left right
  | .binary operator left right => lowerBinary ast lowerExpr operator left right
  | .call callee arguments =>
    let callee ← lowerExpr callee
    let arguments ← lowerArguments ast lowerExpr arguments
    emit (.call (.ofTy expr.type) callee arguments)
  | .index _ _ => refuse .indexExpression
  | .cast operand => lowerExpr operand
  | .assign target value => lowerAssignment ast lowerExpr target value
  | .conditional guard whenTrue whenFalse =>
    lowerConditional lowerExpr (.ofTy expr.type) guard whenTrue whenFalse
  | .convert conversion operand =>
    let source := valueType ast operand
    emit (conversion.operation source (.ofTy expr.type) (← lowerExpr operand))

/-- Lower an expression whose nesting is at most the fuel. Where an expression uses a global constant, the
initializer of that constant counts as one of its operands. -/
def lowerExprWithin (program : Program) : (fuel : Nat) → ExprId → Build Ir.Value
  | 0, _ => refuse .nestingTooDeep
  | fuel + 1, id => lowerKind program (lowerExprWithin program fuel) (program.ast.expr id)

/-- Lower an expression. Nesting is at most the number of expressions, as operands are added before the
expressions they belong to. -/
def lowerExpr (program : Program) (id : ExprId) : Build Ir.Value :=
  lowerExprWithin program (program.ast.exprs.size + 1) id

end Lowering

end Minilang
