import Minilang.Ir.Basic

/-!
# Renaming modules

A module in which global objects, functions and parameters are called otherwise. Nothing else changes: types,
constants, labels, temporaries and the order of everything stay.
-/

namespace Minilang.Ir

variable (naming : String → String)

/-- The same value, with another name if it is one. -/
def Value.rename : Value → Value
  | const constant => const constant
  | temp index => temp index
  | arg index => arg index
  | global name => global (naming name)
  | function name => function (naming name)

/-- The same operation on renamed values. -/
def Operation.rename : Operation → Operation
  | alloca type => alloca type
  | load type pointer => load type (pointer.rename naming)
  | store type value pointer => store type (value.rename naming) (pointer.rename naming)
  | binary operator type left right =>
    binary operator type (left.rename naming) (right.rename naming)
  | compare predicate type left right =>
    compare predicate type (left.rename naming) (right.rename naming)
  | cast operator source target value => cast operator source target (value.rename naming)
  | call result callee arguments =>
    call result (callee.rename naming)
      (arguments.map fun argument => (argument.1, argument.2.rename naming))
  | phi type incoming =>
    phi type (incoming.map fun source => (source.1.rename naming, source.2))

/-- The same instruction on renamed values. -/
def Instruction.rename (instruction : Instruction) : Instruction :=
  { instruction with operation := instruction.operation.rename naming }

/-- The same end of a block, with renamed values. -/
def Terminator.rename : Terminator → Terminator
  | branch target => branch target
  | condBranch condition whenTrue whenFalse =>
    condBranch (condition.rename naming) whenTrue whenFalse
  | ret type value => ret type (value.rename naming)

/-- The same block with renamed values. -/
def Block.rename (block : Block) : Block where
  label := block.label
  instructions := block.instructions.map (Instruction.rename naming)
  terminator := block.terminator.rename naming

/-- The same parameter under another name. -/
def Parameter.rename (parameter : Parameter) : Parameter :=
  { parameter with name := naming parameter.name }

/-- The same function in a module with other names. -/
def Function.rename (function : Function) : Function where
  name := naming function.name
  parameters := function.parameters.map (Parameter.rename naming)
  result := function.result
  blocks := function.blocks.map (Block.rename naming)

/-- The same global object under another name. -/
def Global.rename (global : Global) : Global := { global with name := naming global.name }

/-- The same module with other names of global objects, functions and parameters. The module itself keeps
its name. -/
def Module.rename (module : Module) : Module where
  name := module.name
  globals := module.globals.map (Global.rename naming)
  functions := module.functions.map (Function.rename naming)

/-! ## Names that stay -/

theorem Value.rename_id (value : Value) : value.rename (fun name => name) = value := by
  cases value <;> rfl

theorem Operation.rename_id (operation : Operation) :
    operation.rename (fun name => name) = operation := by
  cases operation <;> simp [rename, Value.rename_id]

theorem Terminator.rename_id (terminator : Terminator) :
    terminator.rename (fun name => name) = terminator := by
  cases terminator <;> simp [rename, Value.rename_id]

theorem Block.rename_id (block : Block) : block.rename (fun name => name) = block := by
  have instruction_eq : Instruction.rename (fun name => name) = id := by
    funext instruction
    simp [Instruction.rename, Operation.rename_id]
  simp [rename, instruction_eq, Terminator.rename_id]

theorem Function.rename_id : Function.rename (fun name => name) = id := by
  have parameter_eq : Parameter.rename (fun name => name) = id := rfl
  have block_eq : Block.rename (fun name => name) = id := funext Block.rename_id
  funext function
  simp [rename, parameter_eq, block_eq]

theorem Global.rename_id : Global.rename (fun name => name) = id := rfl

end Minilang.Ir
