import Mathlib.Tactic.Common
import Minilang.Ir.Basic

/-!
# Definitions and uses of temporaries

A temporary is used by instructions and terminators, and an incoming value of a `phi` is used at the end of
the block that it comes from. A use is dominated by a definition that every walk from the entry passes
before it.
-/

namespace Minilang.Ir

/-- Whether a value needs no temporaries but those before a number. -/
def Value.Below (count : Nat) : Value → Prop
  | temp index => index < count
  | const _ | arg _ | global _ | function _ => True

theorem Value.Below.mono {value : Value} {count more : Nat} (below : value.Below count)
    (count_le : count ≤ more) : value.Below more := by
  cases value with
  | temp index => exact Nat.lt_of_lt_of_le below count_le
  | const | arg | global | function => trivial

namespace Operation

/-- The values that an operation is applied to. -/
def operands : Operation → List Value
  | alloca _ => []
  | load _ pointer => [pointer]
  | store _ value pointer => [value, pointer]
  | binary _ _ left right | compare _ _ left right => [left, right]
  | cast _ _ _ value => [value]
  | call _ callee arguments => callee :: arguments.map Prod.snd
  | phi _ incoming => incoming.map Prod.fst

/-- The values that meet in a `phi`, with the blocks that they come from. -/
def incoming : Operation → List (Value × Nat)
  | phi _ incoming => incoming
  | _ => []

/-- The values that meet in a `phi` are its operands. -/
theorem mem_operands_of_incoming {operation : Operation} {value : Value} {block : Nat}
    (member : (value, block) ∈ operation.incoming) : value ∈ operation.operands := by
  cases operation with
  | phi type incoming => exact List.mem_map_of_mem member
  | _ => cases member

/-- Whether an operation is a `phi`. -/
def isPhi : Operation → Bool
  | phi _ _ => true
  | _ => false

end Operation

/-- The values that a terminator needs. -/
def Terminator.operands : Terminator → List Value
  | branch _ => []
  | condBranch condition _ _ => [condition]
  | ret _ value => [value]

/-- The temporaries that instructions define. -/
def results (instructions : List Instruction) : List Nat :=
  instructions.filterMap Instruction.result

@[simp] theorem results_nil : results [] = [] := rfl

@[simp] theorem results_append (first second : List Instruction) :
    results (first ++ second) = results first ++ results second :=
  List.filterMap_append

@[simp] theorem results_cons (instruction : Instruction) (instructions : List Instruction) :
    results (instruction :: instructions) =
      instruction.result.toList ++ results instructions := by
  cases instruction with
  | mk result operation => cases result <;> rfl

namespace Function

variable (function : Function)

/-- All instructions of a function. -/
def instructions : List Instruction := function.blocks.flatMap Block.instructions

/-- Whether a block defines a temporary. -/
def Defines (temporary block : Nat) : Prop :=
  ∃ body, function.blocks[block]? = some body ∧ temporary ∈ results body.instructions

/-- Whether a temporary is used in a block behind a number of its instructions. -/
inductive Uses (temporary : Nat) : (block position : Nat) → Prop
  | instruction {block : Nat} {body : Block} {first rest : List Instruction}
      {instruction : Instruction} :
      function.blocks[block]? = some body →
      body.instructions = first ++ instruction :: rest → instruction.operation.isPhi = false →
      .temp temporary ∈ instruction.operation.operands → Uses temporary block first.length
  /-- A value that comes into a `phi` is used at the end of the block that it comes from. -/
  | incoming {block target : Nat} {source body : Block} {instruction : Instruction} :
      function.blocks[target]? = some body → instruction ∈ body.instructions →
      (.temp temporary, block) ∈ instruction.operation.incoming →
      function.blocks[block]? = some source → Uses temporary block source.instructions.length
  | terminator {block : Nat} {body : Block} :
      function.blocks[block]? = some body → .temp temporary ∈ body.terminator.operands →
      Uses temporary block body.instructions.length

/-- A walk from the entry to a block, with the blocks that it has passed before. -/
inductive Walk : (passed : List Nat) → (block : Nat) → Prop
  | entry : Walk [] 0
  | step {passed : List Nat} {block next : Nat} {body : Block} :
      Walk passed block → function.blocks[block]? = some body →
      next ∈ body.terminator.successors → Walk (block :: passed) next

/-- A walk has passed the entry unless it has just begun there. -/
theorem Walk.entry_mem {function : Function} {passed : List Nat} {block : Nat}
    (walk : function.Walk passed block) : 0 ∈ block :: passed := by
  induction walk with
  | entry => exact List.mem_cons_self
  | step _ _ _ induction => exact List.mem_cons_of_mem _ induction

/-- Whether a block can be reached from the entry. -/
def Reachable (block : Nat) : Prop := ∃ passed, function.Walk passed block

/-- Whether a temporary is defined before a position of a block: earlier in the same block or in a block
that every walk passes. -/
def Dominates (temporary block position : Nat) : Prop :=
  (∃ body, function.blocks[block]? = some body ∧
    temporary ∈ results (body.instructions.take position)) ∨
  ∃ definition, function.Defines temporary definition ∧
    ∀ passed, function.Walk passed block → definition ∈ passed

/-- Whether every temporary that is used or defined is the result of exactly one instruction. -/
def SingleAssignment : Prop :=
  ∀ temporary, (∃ block position, function.Uses temporary block position) ∨
      (∃ block, function.Defines temporary block) →
    function.instructions.countP (fun instruction => instruction.result == some temporary) = 1

/-- Whether definitions dominate all uses in blocks that can be reached. -/
def DominatesUses : Prop :=
  ∀ temporary block position, function.Uses temporary block position →
    function.Reachable block → function.Dominates temporary block position

end Function

end Minilang.Ir
