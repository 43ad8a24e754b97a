import Minilang.Proofs.Ir.Dominance

/-!
# Storage that is written before it is read

Storage that a function has made room for holds nothing at first. A function reads it only when it has been
written if every walk to a load from the address of the storage passes a store to that address.
-/

namespace Minilang.Ir

/-- The temporary whose address an operation reads from. -/
def Operation.read? : Operation → Option Nat
  | load _ (.temp slot) => some slot
  | _ => none

/-- The temporary whose address an operation writes to. -/
def Operation.written? : Operation → Option Nat
  | store _ _ (.temp slot) => some slot
  | _ => none

/-- Whether some of the instructions writes to the address in a temporary. -/
def Writes (slot : Nat) (instructions : List Instruction) : Prop :=
  ∃ instruction ∈ instructions, instruction.operation.written? = some slot

theorem Writes.mono {slot : Nat} {instructions more : List Instruction}
    (writes : Writes slot instructions) (subset : instructions ⊆ more) : Writes slot more := by
  obtain ⟨instruction, member, written⟩ := writes
  exact ⟨instruction, subset member, written⟩

/-- Whether every walk from the entry to a load from room for an object writes to that room before, in a
block that the walk has passed or earlier in the same block. -/
def Function.ReadsWritten (function : Function) : Prop :=
  ∀ slot type, ⟨some slot, .alloca type⟩ ∈ function.instructions →
    ∀ passed block, function.Walk passed block →
      ∀ body, function.blocks[block]? = some body →
        ∀ first instruction rest, body.instructions = first ++ instruction :: rest →
          instruction.operation.read? = some slot →
          Writes slot first ∨ ∃ other ∈ passed, ∃ earlier,
            function.blocks[other]? = some earlier ∧ Writes slot earlier.instructions

end Minilang.Ir
