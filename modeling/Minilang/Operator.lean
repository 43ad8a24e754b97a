/-!
# Operators of expressions

The operators that analyzed expressions are built from. Signs and comparisons of the text have been
told apart by then, so every operator has one meaning.
-/

namespace Minilang

/-- Operators on one value. -/
inductive UnaryOperator where
  /-- Flip every bit of an integer. -/
  | bitNot
  /-- Flip a truth value. -/
  | logicalNot
deriving DecidableEq, Repr

/-- Operators on two values. -/
inductive BinaryOperator where
  | add | sub | mul | div | rem
  | and | or | xor | shl | shr
  | logicalAnd | logicalOr
  | eq | ne | lt | gt | le | ge
deriving DecidableEq, Repr

namespace BinaryOperator

/-- Whether an operator compares its operands. -/
def isComparison : BinaryOperator → Bool
  | eq | ne | lt | gt | le | ge => true
  | _ => false

/-- Whether an operator may leave its second operand unevaluated. -/
def isLogical : BinaryOperator → Bool
  | logicalAnd | logicalOr => true
  | _ => false

/-- The name of an operator in messages about the compiler itself. -/
def name : BinaryOperator → String
  | add => "Add"
  | sub => "Sub"
  | mul => "Mul"
  | div => "Div"
  | rem => "Rem"
  | and => "And"
  | or => "Or"
  | xor => "Xor"
  | shl => "Shl"
  | shr => "Shr"
  | logicalAnd => "LogicalAnd"
  | logicalOr => "LogicalOr"
  | eq => "Eq"
  | ne => "Ne"
  | lt => "Lt"
  | gt => "Gt"
  | le => "Le"
  | ge => "Ge"

end BinaryOperator

/-- Conversions that analysis inserts between an operand and its use. -/
inductive Conversion where
  /-- Read the object that a reference designates. -/
  | load
  /-- Compare a value with zero. -/
  | toBool
  /-- Keep the low byte of an integer. -/
  | toChar
  /-- Widen a truth value or a character to an integer. -/
  | toInt
  /-- Cut off the fraction of a floating-point number. -/
  | truncate
  /-- Turn an integer into a floating-point number. -/
  | toFloat
deriving DecidableEq, Repr

end Minilang
