import Minilang.Ast
import Minilang.Diagnostic.Basic
import Minilang.Ir.Basic

/-!
# Building functions

A function is built block by block. Instructions go to the end of the current block, a terminator closes
it, and code behind a terminator starts a block that nothing leads to. Room for objects is made in front of
everything else.
-/

namespace Minilang

/-- What a block is made for. -/
inductive BlockRole where
  | entry | unreachable
  | whenThen | whenEnd
  | ifThen | ifElse | ifEnd
  | whileCond | whileBody | whileEnd
  | andRhs | andEnd
  | orRhs | orEnd
  | condTrue | condFalse | condEnd
deriving DecidableEq, Repr

namespace BlockRole

/-- The label of the first block of a role. -/
def text : BlockRole → String
  | entry => "entry"
  | unreachable => "unreachable"
  | whenThen => "when.then"
  | whenEnd => "when.end"
  | ifThen => "if.then"
  | ifElse => "if.else"
  | ifEnd => "if.end"
  | whileCond => "while.cond"
  | whileBody => "while.body"
  | whileEnd => "while.end"
  | andRhs => "and.rhs"
  | andEnd => "and.end"
  | orRhs => "or.rhs"
  | orEnd => "or.end"
  | condTrue => "cond.true"
  | condFalse => "cond.false"
  | condEnd => "cond.end"

/-- The label of a block of a role with the given number of such blocks before it. -/
def label (role : BlockRole) : (earlier : Nat) → String
  | 0 => role.text
  | earlier + 1 => s!"{role.text}{earlier + 1}"

end BlockRole

/-- A block under construction. -/
structure OpenBlock where
  /-- What the block is made for. -/
  role : BlockRole
  /-- The number of blocks of its role before it. -/
  earlier : Nat
  /-- The instructions so far. -/
  instructions : Array Ir.Instruction
  /-- How the block ends, once that is known. -/
  terminator : Option Ir.Terminator
deriving DecidableEq, Repr

namespace OpenBlock

/-- The block as it is when nothing more is added to it. It ends with the given terminator if it has got
none. -/
def close (block : OpenBlock) (fallback : Ir.Terminator) : Ir.Block where
  label := block.role.label block.earlier
  instructions := block.instructions.toList
  terminator := block.terminator.getD fallback

end OpenBlock

/-- A function under construction. -/
structure Builder where
  /-- The blocks so far. -/
  blocks : Array OpenBlock
  /-- The block that instructions are added to, unless the last one was closed. -/
  current : Option Nat
  /-- The instructions that make room for objects. -/
  allocas : Array Ir.Instruction
  /-- The values of the names declared in the function, latest first: addresses of variables and
  parameters, and the values of constants. -/
  locals : List (DeclId × Ir.Value)
  /-- The number of temporaries so far. -/
  temporaries : Nat
deriving DecidableEq, Repr

/-- A step that builds a part of a function. -/
abbrev Build (α : Type) : Type := StateT Builder (Except Diagnostic) α

namespace Builder

/-- The function of which nothing is built yet. -/
def empty : Builder := ⟨#[], none, #[], [], 0⟩

/-- The value of a name declared in the function. -/
def local? (builder : Builder) (declaration : DeclId) : Option Ir.Value :=
  builder.locals.lookup declaration

/-- The number of blocks of a role. -/
def countRole (builder : Builder) (role : BlockRole) : Nat :=
  builder.blocks.countP fun block => block.role == role

/-- The blocks of a function in which nothing is left to build. Room for objects is made at the start of
the first block, and a block without an end returns the zero of the result type. -/
def finish (builder : Builder) (result : Ir.ValueType) : List Ir.Block :=
  let fallback := Ir.Terminator.ret result (.const (.zero result))
  match builder.blocks.toList.map fun block => block.close fallback with
  | [] => []
  | entry :: others =>
    { entry with instructions := builder.allocas.toList ++ entry.instructions } :: others

end Builder

namespace Lowering

/-- Fail because of an invariant of the compiler. -/
def refuse {α : Type} (error : InternalError) : Build α := throw (.internal error)

/-- Add a block without making it the current one. -/
def newBlock (role : BlockRole) : Build Nat :=
  modifyGet fun builder =>
    let block : OpenBlock := ⟨role, builder.countRole role, #[], none⟩
    (builder.blocks.size, { builder with blocks := builder.blocks.push block })

/-- Go on in a block. -/
def switchTo (block : Nat) : Build Unit :=
  modify fun builder => { builder with current := some block }

/-- The current block. Behind a terminator it is a fresh one that nothing leads to. -/
def currentBlock : Build Nat := do
  match (← get).current with
  | some block => return block
  | none =>
    let block ← newBlock .unreachable
    switchTo block
    return block

/-- Change a block. -/
def modifyBlock (block : Nat) (change : OpenBlock → OpenBlock) : Build Unit :=
  modify fun builder => { builder with blocks := builder.blocks.modify block change }

/-- Close the current block. -/
def terminate (terminator : Ir.Terminator) : Build Unit := do
  let block ← currentBlock
  modifyBlock block fun block => { block with terminator := some terminator }
  modify fun builder => { builder with current := none }

/-- Go on in a block unless the current one is closed. -/
def branch (target : Nat) : Build Unit := do
  if (← get).current.isSome then terminate (.branch target)

/-- A temporary that nothing has used yet. -/
def newTemporary : Build Nat :=
  modifyGet fun builder =>
    (builder.temporaries, { builder with temporaries := builder.temporaries + 1 })

/-- Add an instruction to the current block. -/
def append (instruction : Ir.Instruction) : Build Unit := do
  let block ← currentBlock
  modifyBlock block fun block =>
    { block with instructions := block.instructions.push instruction }

/-- Add an instruction with a result. -/
def emit (operation : Ir.Operation) : Build Ir.Value := do
  let temporary ← newTemporary
  append ⟨some temporary, operation⟩
  return .temp temporary

/-- Add an instruction without a result. -/
def perform (operation : Ir.Operation) : Build Unit := append ⟨none, operation⟩

/-- Make room for an object. -/
def allocate (type : Ir.ValueType) : Build Ir.Value := do
  let temporary ← newTemporary
  modify fun builder =>
    { builder with allocas := builder.allocas.push ⟨some temporary, .alloca type⟩ }
  return .temp temporary

/-- Give a name its value. -/
def bindLocal (declaration : DeclId) (value : Ir.Value) : Build Unit :=
  modify fun builder => { builder with locals := (declaration, value) :: builder.locals }

end Lowering

end Minilang
