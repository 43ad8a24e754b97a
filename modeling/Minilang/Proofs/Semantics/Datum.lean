import Minilang.Ir.Basic
import Minilang.Operator

/-!
# Data of running programs

While a program runs, its expressions and its temporaries hold data. Data may be addresses of storage and
of functions, and what these are is left open, as it differs between a program and the module that it is
lowered to. Arithmetic on integers is that of 32 bits, without a result where the machine has none, and
that on floating-point numbers is left open altogether.
-/

namespace Minilang

/-- What an expression or a temporary holds. -/
inductive Datum (Place Code : Type) where
  /-- A truth value. -/
  | bool (value : Bool)
  /-- A character. -/
  | char (value : UInt8)
  /-- An integer. -/
  | int (value : Int32)
  /-- A floating-point number. -/
  | float (value : Binary64)
  /-- The address of nothing. -/
  | null
  /-- The address of storage. -/
  | place (place : Place)
  /-- The address of a function. -/
  | code (code : Code)
deriving DecidableEq, Repr

/-- The arithmetic of floating-point numbers. -/
structure FloatArithmetic where
  add : Binary64 → Binary64 → Binary64
  sub : Binary64 → Binary64 → Binary64
  mul : Binary64 → Binary64 → Binary64
  div : Binary64 → Binary64 → Binary64
  rem : Binary64 → Binary64 → Binary64
  eq : Binary64 → Binary64 → Bool
  ne : Binary64 → Binary64 → Bool
  lt : Binary64 → Binary64 → Bool
  gt : Binary64 → Binary64 → Bool
  le : Binary64 → Binary64 → Bool
  ge : Binary64 → Binary64 → Bool
  /-- The integer in front of the fraction, if there is one of 32 bits. -/
  truncate : Binary64 → Option Int32
  /-- The number closest to an integer. -/
  ofInt : Int32 → Binary64

namespace IntArithmetic

/-- Whether a division of integers has a result: the divisor is not zero, and the quotient has 32 bits. -/
def divides (left right : Int32) : Bool :=
  right != 0 && !(left == Int32.minValue && right == -1)

/-- The quotient of two integers. -/
def div (left right : Int32) : Option Int32 :=
  if divides left right then some (left / right) else none

/-- The remainder of two integers. -/
def rem (left right : Int32) : Option Int32 :=
  if divides left right then some (left % right) else none

/-- Whether an integer counts places that 32 bits can be shifted by. -/
def shifts (count : Int32) : Bool := decide (0 ≤ count) && decide (count < 32)

/-- An integer shifted to the left. -/
def shl (value count : Int32) : Option Int32 :=
  if shifts count then some (value <<< count) else none

/-- An integer shifted to the right, with copies of the sign bit in front. -/
def shr (value count : Int32) : Option Int32 :=
  if shifts count then some (value >>> count) else none

/-- The integer with the low byte of a character, whose sign bit is copied. -/
def ofChar (value : UInt8) : Int32 := value.toInt8.toInt32

/-- The character in the low byte of an integer. -/
def toChar (value : Int32) : UInt8 := value.toInt8.toUInt8

/-- One for what is true and zero for what is not. -/
def ofBool (value : Bool) : Int32 := if value then 1 else 0

end IntArithmetic

namespace Datum

variable {Place Code : Type}

/-- The zero of a type of values. -/
def ofConstant : Ir.Constant → Datum Place Code
  | .bool value => bool value
  | .char value => char value
  | .int value => int value
  | .float value => float value
  | .null => null

/-- The truth value that a datum is. -/
def truth? : Datum Place Code → Option Bool
  | bool value => some value
  | _ => none

/-- The storage that a datum is the address of. -/
def place? : Datum Place Code → Option Place
  | place address => some address
  | _ => none

/-- The function that a datum is the address of. -/
def code? : Datum Place Code → Option Code
  | code function => some function
  | _ => none

/-- Whether a datum is an address. -/
def isAddress : Datum Place Code → Bool
  | null | place _ | code _ => true
  | _ => false

/-- Whether two data are the same, if they are of one kind and no floating-point numbers. -/
def same? [DecidableEq Place] [DecidableEq Code] : Datum Place Code → Datum Place Code → Option Bool
  | bool left, bool right => some (left == right)
  | char left, char right => some (left == right)
  | int left, int right => some (left == right)
  | left, right => if left.isAddress && right.isAddress then some (left == right) else none

end Datum

end Minilang
