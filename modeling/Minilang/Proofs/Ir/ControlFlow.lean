import Minilang.Proofs.Ir.Dominance

/-!
# Control-flow graphs

The blocks of a function and the branches between them form a graph. It is well connected if branches stay
within the function, nothing leads to its entry and to blocks made for code behind a terminator, room is
made at its start only, and every `phi` tells apart all ways into its block and nothing else.
-/

namespace Minilang.Ir

/-- Whether an operation makes room for an object. -/
def Operation.isAlloca : Operation → Bool
  | alloca _ => true
  | _ => false

namespace Function

variable (function : Function)

/-- Whether one block is a predecessor of another one. -/
def Leads (source target : Nat) : Prop :=
  ∃ body, function.blocks[source]? = some body ∧ target ∈ body.terminator.successors

/-- Whether a block is labelled as one for code behind a terminator. -/
def Unreached (block : Nat) : Prop :=
  ∃ body, function.blocks[block]? = some body ∧ "unreachable".toList <+: body.label.toList

/-- Whether branches, room for objects and `phi` instructions stand where they may stand. -/
structure WellConnected : Prop where
  /-- Branches lead to blocks of the function. -/
  target_lt : ∀ source target, function.Leads source target → target < function.blocks.length
  /-- Nothing leads to the entry. -/
  entry_unled : ∀ source, ¬ function.Leads source 0
  /-- Nothing leads to blocks made for code behind a terminator. -/
  unreached_unled : ∀ source target, function.Unreached target → ¬ function.Leads source target
  /-- Room is made in the entry, before anything else is done. -/
  room : ∀ (index : Nat) (body : Block) (first : List Instruction) (instruction : Instruction)
    (rest : List Instruction), function.blocks[index]? = some body →
    body.instructions = first ++ instruction :: rest → instruction.operation.isAlloca = true →
    index = 0 ∧ ∀ earlier ∈ first, earlier.operation.isAlloca = true
  /-- A `phi` is the first instruction of its block and the only `phi` in it. -/
  phi_first : ∀ (index : Nat) (body : Block) (first : List Instruction) (instruction : Instruction)
    (rest : List Instruction), function.blocks[index]? = some body →
    body.instructions = first ++ instruction :: rest → instruction.operation.isPhi = true →
    first = [] ∧ ∀ later ∈ rest, later.operation.isPhi = false
  /-- A `phi` has an incoming value for each of the two predecessors of its block, and no other. -/
  phi_incoming : ∀ (index : Nat) (body : Block), function.blocks[index]? = some body →
    ∀ instruction ∈ body.instructions, instruction.operation.isPhi = true →
    ∃ firstValue firstBlock secondValue secondBlock,
      instruction.operation.incoming = [(firstValue, firstBlock), (secondValue, secondBlock)] ∧
      firstBlock ≠ secondBlock ∧ firstBlock < function.blocks.length ∧
      secondBlock < function.blocks.length ∧
      ∀ source, function.Leads source index ↔ source = firstBlock ∨ source = secondBlock

end Function

end Minilang.Ir
