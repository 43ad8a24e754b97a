import Minilang.Proofs.Ir.Dominance

/-!
# Addresses of storage

Addresses of storage are the results of `alloca`, the names of global objects, and what a `phi` chooses from
them. A function confines them if they serve only to read and write memory: none is stored, passed, computed
with, decided upon or returned.
-/

namespace Minilang.Ir

/-- Whether a value is an address of storage, where some instructions are given. -/
inductive IsAddress (instructions : List Instruction) : Value → Prop
  | room {temporary : Nat} {type : ValueType} :
      ⟨some temporary, .alloca type⟩ ∈ instructions → IsAddress instructions (.temp temporary)
  | global (name : String) : IsAddress instructions (.global name)
  | phi {temporary block : Nat} {type : ValueType} {incoming : List (Value × Nat)} {value : Value} :
      ⟨some temporary, .phi type incoming⟩ ∈ instructions → (value, block) ∈ incoming →
      IsAddress instructions value → IsAddress instructions (.temp temporary)

/-- Whether an operation uses addresses to reach memory only. If addresses meet in a `phi`, nothing else
meets there. -/
def Operation.Confines (address : Value → Prop) : Operation → Prop
  | alloca _ | load _ _ => True
  | store _ value _ => ¬ address value
  | binary _ _ left right | compare _ _ left right => ¬ address left ∧ ¬ address right
  | cast _ _ _ value => ¬ address value
  | call _ callee arguments => ¬ address callee ∧ ∀ argument ∈ arguments, ¬ address argument.2
  | phi _ incoming =>
    (∃ value ∈ incoming.map Prod.fst, address value) → ∀ value ∈ incoming.map Prod.fst, address value

/-- Whether a terminator needs no address. -/
def Terminator.Confines (address : Value → Prop) (terminator : Terminator) : Prop :=
  ∀ value ∈ terminator.operands, ¬ address value

/-- Whether a function uses addresses of storage to reach memory only. -/
structure Function.ConfinesAddresses (function : Function) : Prop where
  /-- Instructions do. -/
  instruction : ∀ instruction ∈ function.instructions,
    instruction.operation.Confines (IsAddress function.instructions)
  /-- Terminators need none. -/
  terminator : ∀ block ∈ function.blocks,
    block.terminator.Confines (IsAddress function.instructions)

end Minilang.Ir
