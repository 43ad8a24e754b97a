import Minilang.Analysis.Conversion

/-!
# Analysis of expressions

One step per form of expression. A step checks its operands from left to right, adds the conversions that
they need, and then adds the expression itself.
-/

namespace Minilang.Analysis

/-- Fail because a step was given a token that does not belong to it. -/
def refuseToken {α : Type} (token : Token) : Check α := refuse (.misplacedToken token.kind)

/-- Add an operator on two values, standing at its token. -/
def addBinary (token : Token) (operator : BinaryOperator) (left right : ExprId) (type : Ty) :
    Check ExprId :=
  addExpr (.binary operator left right) type token.location

/-- An operator on two truth values. -/
def logical (operator : BinaryOperator) (token : Token) (left right : ExprId) : Check ExprId := do
  let left ← requireCategory .boolean left
  let right ← requireCategory .boolean right
  addBinary token operator left right .bool

/-- An operator on the bits of two integers. -/
def bitwise (operator : BinaryOperator) (token : Token) (left right : ExprId) : Check ExprId := do
  let left ← requireCategory .integer left
  let right ← requireCategory .integer right
  addBinary token operator left right .int

/-- Two operands of one group and of one type. -/
def requireAlike (category : Category) (left right : ExprId) : Check (ExprId × ExprId × Ty) := do
  let left ← requireCategory category left
  let right ← requireCategory category right
  let type := (← expr left).type
  requireSame type right
  return (left, right, type)

/-- Arithmetic on two numbers of one type. -/
def arithmetic (operator : BinaryOperator) (token : Token) (left right : ExprId) :
    Check ExprId := do
  let (left, right, type) ← requireAlike .arithmetic left right
  addBinary token operator left right type

/-- A comparison of two values of one type. -/
def comparison (category : Category) (token : Token) (left right : ExprId) : Check ExprId := do
  let operator ← match token.kind with
    | .relational .eq => pure BinaryOperator.eq
    | .relational .ne => pure .ne
    | .relational .lt => pure .lt
    | .relational .gt => pure .gt
    | .relational .le => pure .le
    | .relational .ge => pure .ge
    | _ => refuseToken token
  let (left, right, _) ← requireAlike category left right
  addBinary token operator left right .bool

/-- Either of two truth values. -/
def logicalOr : Token → ExprId → ExprId → Check ExprId := logical .logicalOr

/-- Both of two truth values. -/
def logicalAnd : Token → ExprId → ExprId → Check ExprId := logical .logicalAnd

/-- The bits of either integer. -/
def bitwiseOr : Token → ExprId → ExprId → Check ExprId := bitwise .or

/-- The bits of exactly one integer. -/
def bitwiseXor : Token → ExprId → ExprId → Check ExprId := bitwise .xor

/-- The bits of both integers. -/
def bitwiseAnd : Token → ExprId → ExprId → Check ExprId := bitwise .and

/-- A test for equality. -/
def equality : Token → ExprId → ExprId → Check ExprId := comparison .scalar

/-- A comparison of two numbers. -/
def relational : Token → ExprId → ExprId → Check ExprId := comparison .numeric

/-- A shift of the bits of an integer. -/
def shift (token : Token) (left right : ExprId) : Check ExprId :=
  match token.kind with
  | .bitwise .shl => bitwise .shl token left right
  | .bitwise .shr => bitwise .shr token left right
  | _ => refuseToken token

/-- A sum or a difference. -/
def additive (token : Token) (left right : ExprId) : Check ExprId :=
  match token.kind with
  | .arithmetic .add => arithmetic .add token left right
  | .arithmetic .sub => arithmetic .sub token left right
  | _ => refuseToken token

/-- A product, a quotient or a remainder. -/
def multiplicative (token : Token) (left right : ExprId) : Check ExprId :=
  match token.kind with
  | .arithmetic .mul => arithmetic .mul token left right
  | .arithmetic .div => arithmetic .div token left right
  | .arithmetic .mod => arithmetic .rem token left right
  | _ => refuseToken token

/-- Operators on two values, grouped by how tightly they bind. -/
inductive OperatorLevel where
  | logicalOr | logicalAnd | bitwiseOr | bitwiseXor | bitwiseAnd
  | equality | relational | shift | additive | multiplicative
deriving DecidableEq, Repr

namespace OperatorLevel

/-- The step that combines two operands with an operator of a level. -/
def combine : OperatorLevel → Token → ExprId → ExprId → Check ExprId
  | logicalOr => Analysis.logicalOr
  | logicalAnd => Analysis.logicalAnd
  | bitwiseOr => Analysis.bitwiseOr
  | bitwiseXor => Analysis.bitwiseXor
  | bitwiseAnd => Analysis.bitwiseAnd
  | equality => Analysis.equality
  | relational => Analysis.relational
  | shift => Analysis.shift
  | additive => Analysis.additive
  | multiplicative => Analysis.multiplicative

end OperatorLevel

/-- An assignment, which designates the storage it assigns. -/
def assignment (target value : ExprId) : Check ExprId := do
  let target ← requireReference target
  let value ← load value
  let expr ← expr target
  requireSame expr.type.objectType value
  addExpr (.assign target value) expr.type expr.location

/-- A choice between two expressions. It designates storage if both branches do. -/
def conditional (guard whenTrue whenFalse : ExprId) : Check ExprId := do
  let guard ← requireCategory .boolean guard
  let location := (← expr guard).location
  let type ← commonType (← expr whenTrue).type (← expr whenFalse).type location
  let whenTrue ← convertTo whenTrue type
  let whenFalse ← convertTo whenFalse type
  addExpr (.conditional guard whenTrue whenFalse) type location

/-- A cast. -/
def cast (operand : ExprId) (type : Ty) : Check ExprId := do
  let location := (← expr operand).location
  let operand ← convertTo operand type
  addExpr (.cast operand) type location

/-- The zero that a negated number of the given type is subtracted from. -/
def zeroOf : Ty → ExprKind
  | .float => .float .zero
  | _ => .int 0

/-- The negative of a number, computed as a difference. -/
def negation (token : Token) (operand : ExprId) : Check ExprId := do
  let operand ← requireCategory .arithmetic operand
  let type := (← expr operand).type
  let zero ← addExpr (zeroOf type) type token.location
  addBinary token .sub zero operand type

/-- An operator on one value. The operators on pointers have no meaning. -/
def unary (token : Token) (operand : ExprId) : Check ExprId :=
  match token.kind with
  | .arithmetic .add => requireCategory .arithmetic operand
  | .arithmetic .sub => negation token operand
  | .bitwise .not => do
    let operand ← requireCategory .integer operand
    addExpr (.unary .bitNot operand) .int token.location
  | .logical .not => do
    let operand ← requireCategory .boolean operand
    addExpr (.unary .logicalNot operand) .bool token.location
  | .arithmetic .mul | .bitwise .and => reject token.location (.unsupported .pointerOperations)
  | _ => refuseToken token

/-- The arguments of a call, the first of which has the given position. -/
def convertArguments : (position : Nat) → (arguments : List ExprId) → (parameters : List Ty) →
    Check (List ExprId)
  | position, argument :: arguments, parameter :: parameters => do
    let argument ← load argument
    let expr ← expr argument
    if expr.type ≠ parameter then
      reject expr.location (.argumentMismatch position parameter expr.type)
    let rest ← convertArguments (position + 1) arguments parameters
    return argument :: rest
  | _, _, _ => return []

/-- A call. The number of arguments is checked before their types. -/
def call (callee : ExprId) (arguments : List ExprId) : Check ExprId := do
  let callee ← requireCategory .function callee
  let expr ← expr callee
  match expr.type with
  | .function result parameters =>
    if parameters.length < arguments.length then
      reject expr.location (.tooManyArguments parameters.length arguments.length)
    if arguments.length < parameters.length then
      reject expr.location (.tooFewArguments parameters.length arguments.length)
    let arguments ← convertArguments 1 arguments parameters
    addExpr (.call callee arguments) result expr.location
  | _ => refuse .calleeNotFunction

/-- An index expression, which has no meaning. -/
def index (base : ExprId) (_arguments : List ExprId) : Check ExprId := do
  let expr ← expr base
  reject expr.location (.unsupported .indexExpressions)

/-- An integer that has to fit into 32 bits. The range is checked at one location, and the literal
stands at another one. -/
def addInteger (value : Int64) (checkedAt location : Location) : Check ExprId :=
  if Int32.minValue.toInt ≤ value.toInt ∧ value.toInt ≤ Int32.maxValue.toInt then
    addExpr (.int value.toInt32) .int location
  else reject checkedAt (.integerOutOfRange value)

/-- An integer literal. -/
def integerLiteral (token : Token) : Check ExprId :=
  match token.kind with
  | .integer value _ => addInteger value token.location token.location
  | _ => refuseToken token

/-- A minus sign directly before an integer literal. The range is that of the negative value, so the
least integer can be written. -/
def negatedIntegerLiteral (sign token : Token) : Check ExprId :=
  match token.kind with
  | .integer value _ => addInteger (-value) token.location sign.location
  | _ => refuseToken token

/-- A truth value. -/
def booleanLiteral (token : Token) : Check ExprId :=
  match token.kind with
  | .boolean value => addExpr (.bool value) .bool token.location
  | _ => refuseToken token

/-- A floating-point literal. -/
def floatLiteral (token : Token) : Check ExprId :=
  match token.kind with
  | .float value => addExpr (.float value) .float token.location
  | _ => refuseToken token

/-- A character literal, which has to be an ASCII character. -/
def characterLiteral (token : Token) : Check ExprId :=
  match token.kind with
  | .character value =>
    if value.toNat < 128 then addExpr (.char (UInt8.ofNat value.toNat)) .char token.location
    else reject token.location (.characterOutOfRange value)
  | _ => refuseToken token

/-- A string literal, which has no meaning. -/
def stringLiteral (token : Token) : Check ExprId :=
  reject token.location (.unsupported .stringLiterals)

/-- A use of a name. Names of variables and parameters designate their storage; a constant cannot be
used before it has its initializer. -/
def name (token : Token) : Check ExprId := do
  let name ← nameOf token
  match (← get).scopes.lookup name with
  | none => reject token.location (.undeclared name)
  | some id =>
    let decl ← decl id
    if decl.kind.isConstant ∧ decl.kind.initializer? = none then
      reject token.location (.selfInitializer name)
    match decl.kind.type? with
    | none => refuse .nameOfProgram
    | some type =>
      let type := if decl.kind.isVariable then type.referenceTo else type
      addExpr (.name id) type token.location

end Minilang.Analysis
