import Minilang.Binary64.Text
import Minilang.Ir.Basic

/-!
# Texts of modules

A module is written as one line per global object and per instruction. Names of the module start with an
`@`, temporaries, arguments and labels with a `%`.
-/

namespace Minilang.Ir

/-- Texts with a comma between each two of them. -/
def commaSeparated (texts : List String) : String := ", ".intercalate texts

namespace ValueType

/-- The name of a type. -/
def text : ValueType → String
  | i1 => "i1"
  | i8 => "i8"
  | i32 => "i32"
  | f32 => "float"
  | ptr => "ptr"

end ValueType

namespace Constant

/-- A constant. Characters are written as numbers. -/
def text : Constant → String
  | bool value => if value then "true" else "false"
  | char value => toString value.toNat
  | int value => toString value.toInt
  | float value => value.text .constant
  | null => "null"

end Constant

namespace Value

/-- An operand. -/
def text : Value → String
  | const constant => constant.text
  | temp index => s!"%t{index}"
  | arg index => s!"%arg{index}"
  | global name | function name => s!"@{name}"

end Value

namespace Operator

/-- The name of an operator. -/
def text : Operator → String
  | add => "add"
  | sub => "sub"
  | mul => "mul"
  | sdiv => "sdiv"
  | srem => "srem"
  | and => "and"
  | or => "or"
  | xor => "xor"
  | shl => "shl"
  | ashr => "ashr"
  | fadd => "fadd"
  | fsub => "fsub"
  | fmul => "fmul"
  | fdiv => "fdiv"
  | frem => "frem"

end Operator

namespace Predicate

/-- The name of a comparison. -/
def text : Predicate → String
  | eq => "eq"
  | ne => "ne"
  | slt => "slt"
  | sgt => "sgt"
  | sle => "sle"
  | sge => "sge"
  | oeq => "oeq"
  | one => "one"
  | olt => "olt"
  | ogt => "ogt"
  | ole => "ole"
  | oge => "oge"

/-- The name of the instruction that a comparison belongs to. -/
def instruction (predicate : Predicate) : String :=
  if predicate.isFloat then "fcmp" else "icmp"

end Predicate

namespace CastOperator

/-- The name of a conversion. -/
def text : CastOperator → String
  | trunc => "trunc"
  | zext => "zext"
  | sext => "sext"
  | fptosi => "fptosi"
  | sitofp => "sitofp"

end CastOperator

namespace Operation

/-- What an instruction does; the labels of blocks are given. -/
def text (label : Nat → String) : Operation → String
  | alloca type => s!"alloca {type.text}"
  | load type pointer => s!"load {type.text}, ptr {pointer.text}"
  | store type value pointer => s!"store {type.text} {value.text}, ptr {pointer.text}"
  | binary operator type left right =>
    s!"{operator.text} {type.text} {left.text}, {right.text}"
  | compare predicate type left right =>
    s!"{predicate.instruction} {predicate.text} {type.text} {left.text}, {right.text}"
  | cast operator source target value =>
    s!"{operator.text} {source.text} {value.text} to {target.text}"
  | call result callee arguments =>
    let arguments := arguments.map fun (type, value) => s!"{type.text} {value.text}"
    s!"call {result.text} {callee.text}({commaSeparated arguments})"
  | phi type incoming =>
    let incoming := incoming.map fun (value, block) => s!"[ {value.text}, %{label block} ]"
    s!"phi {type.text} {commaSeparated incoming}"

end Operation

namespace Instruction

/-- An instruction; the labels of blocks are given. -/
def text (label : Nat → String) (instruction : Instruction) : String :=
  let operation := instruction.operation.text label
  match instruction.result with
  | some index => s!"%t{index} = {operation}"
  | none => operation

end Instruction

namespace Terminator

/-- The end of a block; the labels of blocks are given. -/
def text (label : Nat → String) : Terminator → String
  | branch target => s!"br label %{label target}"
  | condBranch condition whenTrue whenFalse =>
    s!"br i1 {condition.text}, label %{label whenTrue}, label %{label whenFalse}"
  | ret type value => s!"ret {type.text} {value.text}"

end Terminator

namespace Block

/-- The lines of a block; the labels of blocks are given. -/
def lines (label : Nat → String) (block : Block) : List String :=
  [block.label ++ ":"] ++ block.instructions.map (fun instruction => "  " ++ instruction.text label)
    ++ ["  " ++ block.terminator.text label]

end Block

/-- Lines of text, each ended by a newline. -/
def joinLines (lines : List String) : String := String.join (lines.map (· ++ "\n"))

namespace Function

/-- The line that opens a function. -/
def headLine (function : Function) : String :=
  let parameters := function.parameters.zipIdx.map fun (parameter, index) =>
    s!"{parameter.type.text} %arg{index}"
  s!"define {function.result.text} @{function.name}({commaSeparated parameters}) \x7b"

/-- A function, with an empty line between each two blocks. -/
def text (function : Function) : String :=
  let blocks := function.blocks.map (Block.lines function.label)
  joinLines ([function.headLine] ++ [""].intercalate blocks ++ ["\x7d"])

end Function

namespace Global

/-- A global object. -/
def text (global : Global) : String :=
  s!"@{global.name} = global {global.type.text} {global.initial.text}"

end Global

namespace Part

/-- A part of a module, with an empty line before every function. -/
def text : Part → String
  | global object => object.text ++ "\n"
  | function body => "\n" ++ body.text

end Part

namespace Module

/-- A whole module. -/
def text (module : Module) : String :=
  s!"; ModuleID = '{module.name}'\n" ++ String.join (module.parts.map Part.text)

end Module

end Minilang.Ir
