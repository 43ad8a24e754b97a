import Minilang.Binary64.Basic
import Minilang.Ty

/-!
# Modules of basic blocks

A module holds global objects and functions, and a function is a list of basic blocks. Every block ends
in exactly one terminator, blocks are referred to by their place in the list, and the first one is where
the function starts. Values are constants, numbered temporaries, arguments and names of the module.
Memory is reached through untyped addresses.
-/

namespace Minilang.Ir

/-- Types of values. -/
inductive ValueType where
  /-- One bit. -/
  | i1
  /-- One byte. -/
  | i8
  /-- An integer of 32 bits. -/
  | i32
  /-- A floating-point number. -/
  | f32
  /-- An address. -/
  | ptr
deriving DecidableEq, Repr

namespace ValueType

/-- Whether a type is the one of floating-point numbers. -/
def isFloat : ValueType → Bool
  | f32 => true
  | _ => false

/-- The type of values that stand for objects of a type. References and functions are addresses. -/
def ofTy : Ty → ValueType
  | .bool => i1
  | .char => i8
  | .int => i32
  | .float => f32
  | .pointer _ | .reference _ | .function _ _ => ptr

end ValueType

/-- Constants. -/
inductive Constant where
  /-- A truth value. -/
  | bool (value : Bool)
  /-- A character. -/
  | char (value : UInt8)
  /-- An integer. -/
  | int (value : Int32)
  /-- A floating-point number. -/
  | float (value : Binary64)
  /-- The address of nothing. -/
  | null
deriving DecidableEq, Repr

namespace Constant

/-- The zero of a type. -/
def zero : ValueType → Constant
  | .i1 => bool false
  | .i8 => char 0
  | .i32 => int 0
  | .f32 => float .zero
  | .ptr => null

/-- The type of a constant. -/
def type : Constant → ValueType
  | bool _ => .i1
  | char _ => .i8
  | int _ => .i32
  | float _ => .f32
  | null => .ptr

@[simp]
theorem type_zero (valueType : ValueType) : (zero valueType).type = valueType := by
  cases valueType <;> rfl

end Constant

/-- Operands of instructions. -/
inductive Value where
  /-- A constant. -/
  | const (constant : Constant)
  /-- The result of the instruction with a number. -/
  | temp (index : Nat)
  /-- An argument of the function, counted from zero. -/
  | arg (index : Nat)
  /-- The address of a global object. -/
  | global (name : String)
  /-- The address of a function. -/
  | function (name : String)
deriving DecidableEq, Repr

/-- Operators on two values; those on floating-point numbers start with an `f`. -/
inductive Operator where
  | add | sub | mul | sdiv | srem
  | and | or | xor | shl | ashr
  | fadd | fsub | fmul | fdiv | frem
deriving DecidableEq, Repr

/-- Comparisons of two values; those of signed integers start with an `s`, and those of floating-point
numbers with an `o`. -/
inductive Predicate where
  | eq | ne | slt | sgt | sle | sge
  | oeq | one | olt | ogt | ole | oge
deriving DecidableEq, Repr

namespace Predicate

/-- Whether floating-point numbers are compared. -/
def isFloat : Predicate → Bool
  | oeq | one | olt | ogt | ole | oge => true
  | _ => false

end Predicate

/-- Conversions from one type to another. -/
inductive CastOperator where
  /-- Keep the low bits. -/
  | trunc
  /-- Put zeros in front. -/
  | zext
  /-- Put copies of the sign bit in front. -/
  | sext
  /-- Turn a floating-point number into an integer. -/
  | fptosi
  /-- Turn an integer into a floating-point number. -/
  | sitofp
deriving DecidableEq, Repr

/-- What an instruction does. -/
inductive Operation where
  /-- Make room for an object and give its address. -/
  | alloca (type : ValueType)
  /-- Read memory. -/
  | load (type : ValueType) (pointer : Value)
  /-- Write memory. -/
  | store (type : ValueType) (value pointer : Value)
  /-- An operator on two values of one type. -/
  | binary (operator : Operator) (type : ValueType) (left right : Value)
  /-- A comparison of two values of one type. -/
  | compare (predicate : Predicate) (type : ValueType) (left right : Value)
  /-- A conversion. -/
  | cast (operator : CastOperator) (source target : ValueType) (value : Value)
  /-- A call. -/
  | call (result : ValueType) (callee : Value) (arguments : List (ValueType × Value))
  /-- The value that belongs to the block from which this one was entered. -/
  | phi (type : ValueType) (incoming : List (Value × Nat))
deriving DecidableEq, Repr

/-- An instruction. -/
structure Instruction where
  /-- The number of the temporary that holds the result, if there is one. -/
  result : Option Nat
  /-- What the instruction does. -/
  operation : Operation
deriving DecidableEq, Repr

/-- How a block ends. -/
inductive Terminator where
  /-- Go to a block. -/
  | branch (target : Nat)
  /-- Go to one of two blocks. -/
  | condBranch (condition : Value) (whenTrue whenFalse : Nat)
  /-- Leave the function with a value. -/
  | ret (type : ValueType) (value : Value)
deriving DecidableEq, Repr

namespace Terminator

/-- The blocks that may follow. -/
def successors : Terminator → List Nat
  | branch target => [target]
  | condBranch _ whenTrue whenFalse => [whenTrue, whenFalse]
  | ret _ _ => []

end Terminator

/-- A basic block. -/
structure Block where
  /-- The name of the block within its function. -/
  label : String
  /-- What is done in the block, in order. -/
  instructions : List Instruction
  /-- How the block ends. -/
  terminator : Terminator
deriving DecidableEq, Repr

/-- A parameter of a function. -/
structure Parameter where
  /-- The name that the program gives the parameter. -/
  name : String
  /-- The type of the argument. -/
  type : ValueType
deriving DecidableEq, Repr

/-- A function. -/
structure Function where
  /-- The name of the function. -/
  name : String
  /-- The parameters in order. -/
  parameters : List Parameter
  /-- The type of the result. -/
  result : ValueType
  /-- The blocks; the function starts in the first one. -/
  blocks : List Block
deriving DecidableEq, Repr

namespace Function

/-- The block where a function starts. -/
def entry? (function : Function) : Option Block := function.blocks.head?

/-- The first block with a label. -/
def block? (function : Function) (label : String) : Option Block :=
  function.blocks.find? fun block => block.label == label

/-- The label of the block at a place. -/
def label (function : Function) (index : Nat) : String :=
  match function.blocks[index]? with
  | some block => block.label
  | none => "<invalid>"

end Function

/-- A global object. -/
structure Global where
  /-- The name of the object. -/
  name : String
  /-- The type of the object. -/
  type : ValueType
  /-- What the object holds at first. -/
  initial : Constant
deriving DecidableEq, Repr

/-- A part of a module. -/
inductive Part where
  /-- A global object. -/
  | global (global : Global)
  /-- A function. -/
  | function (function : Function)
deriving DecidableEq, Repr

/-- A module. -/
structure Module where
  /-- The name of the module. -/
  name : String
  /-- The global objects in order. -/
  globals : List Global
  /-- The functions in order. -/
  functions : List Function
deriving DecidableEq, Repr

namespace Module

/-- The parts of a module one after another: its global objects and then its functions. -/
def parts (module : Module) : List Part :=
  module.globals.map .global ++ module.functions.map .function

/-- The first global object with a name. -/
def global? (module : Module) (name : String) : Option Global :=
  module.globals.find? fun global => global.name == name

/-- The first function with a name. -/
def function? (module : Module) (name : String) : Option Function :=
  module.functions.find? fun function => function.name == name

end Module

end Minilang.Ir
