import Minilang.Analysis.Expression
import Minilang.Parsing.Types

/-!
# Parsing expressions

The forms of expressions, from the loosest to the tightest: assignments, conditionals, ten levels of
operators on two values, casts, operators on one value, calls and index expressions, and primary
expressions. Operators on two values group to the left, assignments and conditionals to the right.

Every form is written over parsers for the expressions nested inside it. Nested expressions start behind
at least one token of the outer one, so they get less fuel.
-/

namespace Minilang

namespace Analysis.OperatorLevel

/-- The levels from the loosest to the tightest. -/
def all : List OperatorLevel :=
  [logicalOr, logicalAnd, bitwiseOr, bitwiseXor, bitwiseAnd, equality, relational, shift, additive,
    multiplicative]

/-- Whether a kind of token is an operator of a level. -/
def accepts : OperatorLevel → TokenKind → Bool
  | logicalOr, .logical .or => true
  | logicalAnd, .logical .and => true
  | bitwiseOr, .bitwise .or => true
  | bitwiseXor, .bitwise .xor => true
  | bitwiseAnd, .bitwise .and => true
  | equality, .relational .eq | equality, .relational .ne => true
  | relational, .relational .lt | relational, .relational .gt | relational, .relational .le
  | relational, .relational .ge => true
  | shift, .bitwise .shl | shift, .bitwise .shr => true
  | additive, .arithmetic .add | additive, .arithmetic .sub => true
  | multiplicative, .arithmetic .mul | multiplicative, .arithmetic .div
  | multiplicative, .arithmetic .mod => true
  | _, _ => false

end Analysis.OperatorLevel

/-- The forms of expressions that are nested inside larger ones. -/
inductive ExpressionForm where
  /-- Any expression. -/
  | expression
  /-- An expression without an assignment outside of parentheses. -/
  | conditional
  /-- An operator on one value, or a tighter expression. -/
  | unary
deriving DecidableEq, Repr

/-- Parsers for the expressions nested inside a larger one. -/
abbrev ExpressionParsers : Type := ExpressionForm → Parser ExprId

namespace Parser

open Analysis (OperatorLevel)

/-- A literal, a name, or an expression in parentheses. -/
def primary (nested : ExpressionParsers) : Parser ExprId := do
  match ← peek with
  | .integer _ _ => check (Analysis.integerLiteral (← next))
  | .float _ => check (Analysis.floatLiteral (← next))
  | .boolean _ => check (Analysis.booleanLiteral (← next))
  | .character _ => check (Analysis.characterLiteral (← next))
  | .string _ => check (Analysis.stringLiteral (← next))
  | .identifier _ => check (Analysis.name (← next))
  | .punctuation .leftParen => do
    let _ ← next
    let inner ← nested .expression
    expectSign .rightParen
    return inner
  | _ => unexpected .expression

/-- The arguments up to a closing sign, which is consumed. -/
def arguments (nested : ExpressionParsers) (closing : Punctuation) (fuel : Nat) :
    Parser (List ExprId) := do
  if ← consumeSign closing then return []
  let arguments ← sepByComma (nested .expression) fuel
  expectSign closing
  return arguments

/-- The calls and index expressions around an expression; one of them per unit of fuel. -/
def postfixTail (nested : ExpressionParsers) : (fuel : Nat) → ExprId → Parser ExprId
  | 0, _ => exhausted
  | fuel + 1, callee => do
    if ← consumeSign .leftParen then
      let arguments ← arguments nested .rightParen fuel
      postfixTail nested fuel (← check (Analysis.call callee arguments))
    else if ← consumeSign .leftBracket then
      let arguments ← arguments nested .rightBracket fuel
      postfixTail nested fuel (← check (Analysis.index callee arguments))
    else
      return callee

/-- A primary expression with calls and index expressions around it. -/
def postfixExpression (nested : ExpressionParsers) (fuel : Nat) : Parser ExprId := do
  postfixTail nested fuel (← primary nested)

/-- Whether a kind of token is an operator on one value. -/
def isUnaryOperator : TokenKind → Bool
  | .arithmetic .add | .arithmetic .sub | .arithmetic .mul => true
  | .bitwise .and | .bitwise .not | .logical .not => true
  | _ => false

/-- Whether a consumed operator is a minus sign in front of an integer literal that is neither called
nor indexed. -/
def negatesLiteral (operator : Token) : Parser Bool := do
  if operator.kind ≠ .arithmetic .sub then return false
  match ← peek with
  | .integer _ _ =>
    match (← lookahead 1).kind with
    | .punctuation .leftParen | .punctuation .leftBracket => return false
    | _ => return true
  | _ => return false

/-- An operator on one value, or a tighter expression. -/
def unaryExpression (nested : ExpressionParsers) (fuel : Nat) : Parser ExprId := do
  match ← consumeIf isUnaryOperator with
  | none => postfixExpression nested fuel
  | some operator =>
    if ← negatesLiteral operator then
      check (Analysis.negatedIntegerLiteral operator (← next))
    else
      check (Analysis.unary operator (← nested .unary))

/-- The casts behind an expression; one of them per unit of fuel. -/
def castTail : (fuel : Nat) → ExprId → Parser ExprId
  | 0, _ => exhausted
  | fuel + 1, operand => do
    if ← consume (.keyword .asWord) then
      let type ← typeWithin fuel
      castTail fuel (← check (Analysis.cast operand type))
    else
      return operand

/-- An operator on one value with casts behind it. -/
def castExpression (nested : ExpressionParsers) (fuel : Nat) : Parser ExprId := do
  castTail fuel (← unaryExpression nested fuel)

/-- The operators of a level and their right operands behind a left operand; one operator per unit of
fuel. -/
def binaryTail (level : OperatorLevel) (operand : Parser ExprId) :
    (fuel : Nat) → ExprId → Parser ExprId
  | 0, _ => exhausted
  | fuel + 1, left => do
    match ← consumeIf level.accepts with
    | none => return left
    | some operator =>
      let right ← operand
      binaryTail level operand fuel (← check (level.combine operator left right))

/-- Operators of the given levels, the loosest level first, over operands that are casts. -/
def binaryExpression (nested : ExpressionParsers) (fuel : Nat) :
    List OperatorLevel → Parser ExprId
  | [] => castExpression nested fuel
  | level :: tighter => do
    let operand := binaryExpression nested fuel tighter
    binaryTail level operand fuel (← operand)

/-- A conditional, or a tighter expression. -/
def conditionalExpression (nested : ExpressionParsers) (fuel : Nat) : Parser ExprId := do
  let guard ← binaryExpression nested fuel OperatorLevel.all
  if ← consumeSign .question then
    let whenTrue ← nested .expression
    expectSign .colon
    let whenFalse ← nested .conditional
    check (Analysis.conditional guard whenTrue whenFalse)
  else
    return guard

/-- An assignment, or a tighter expression. -/
def assignmentExpression (nested : ExpressionParsers) (fuel : Nat) : Parser ExprId := do
  let target ← conditionalExpression nested fuel
  if ← consumeSign .assign then
    let value ← nested .expression
    check (Analysis.assignment target value)
  else
    return target

/-- The parsers of the nested forms. Expressions nested inside them get less fuel. -/
def expressionsWithin : (fuel : Nat) → ExpressionParsers
  | 0, _ => exhausted
  | fuel + 1, .expression => assignmentExpression (expressionsWithin fuel) (fuel + 1)
  | fuel + 1, .conditional => conditionalExpression (expressionsWithin fuel) (fuel + 1)
  | fuel + 1, .unary => unaryExpression (expressionsWithin fuel) (fuel + 1)

/-- An expression. -/
def expressionWithin (fuel : Nat) : Parser ExprId := expressionsWithin fuel .expression

end Parser

end Minilang
