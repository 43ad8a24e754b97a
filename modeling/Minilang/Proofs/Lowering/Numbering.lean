import Minilang.Proofs.Lowering.Growth

/-!
# Numbers of temporaries

The instructions of a function under construction define each temporary that has been counted exactly once,
and nothing in it uses any other one.
-/

namespace Minilang

namespace OpenBlock

/-- Whether a block uses no temporaries but those before a number. -/
structure Below (count : Nat) (block : OpenBlock) : Prop where
  instructions : ∀ instruction ∈ block.instructions.toList,
    ∀ value ∈ instruction.operation.operands, value.Below count
  terminator : ∀ terminator, block.terminator = some terminator →
    ∀ value ∈ terminator.operands, value.Below count

theorem Below.mono {block : OpenBlock} {count more : Nat} (below : block.Below count)
    (count_le : count ≤ more) : block.Below more where
  instructions instruction member value operand :=
    (below.instructions instruction member value operand).mono count_le
  terminator terminator closed value operand :=
    (below.terminator terminator closed value operand).mono count_le

end OpenBlock

namespace Builder

/-- The temporaries that the instructions of a function define. -/
def results (builder : Builder) : List Nat :=
  Ir.results builder.allocas.toList ++
    builder.blocks.toList.flatMap fun block => Ir.results block.instructions.toList

/-- Whether every temporary that has been counted has one definition, and no other one is used. -/
structure Numbered (builder : Builder) : Prop where
  results_perm : builder.results.Perm (List.range builder.temporaries)
  allocas_eq : ∀ instruction ∈ builder.allocas.toList, ∃ type, instruction.operation = .alloca type
  below : ∀ (index : Nat) (block : OpenBlock), builder.blocks[index]? = some block →
    block.Below builder.temporaries

/-- Adding to what the element at an index contributes adds to what all contribute. -/
theorem flatMap_modify_perm {α β : Type} {change : α → α} {parts : α → List β} {added : List β}
    {elements : List α} {index : Nat} {element : α} (found : elements[index]? = some element)
    (changed : parts (change element) = parts element ++ added) :
    ((elements.modify index change).flatMap parts).Perm (elements.flatMap parts ++ added) := by
  induction elements generalizing index with
  | nil => cases found
  | cons first elements induction =>
      cases index with
      | zero =>
          cases found
          rw [List.modify_zero_cons, List.flatMap_cons, List.flatMap_cons, changed,
            List.append_assoc, List.append_assoc]
          exact List.perm_append_comm.append_left _
      | succ index =>
          rw [List.modify_succ_cons, List.flatMap_cons, List.flatMap_cons, List.append_assoc]
          exact (induction found).append_left _

namespace Numbered

variable {builder : Builder}

/-- The results stay numbered when a block gets an instruction. -/
theorem push {block : Nat} {instruction : Ir.Instruction} (numbered : builder.Numbered)
    (bound : block < builder.blocks.size) {after : Builder}
    (blocks_eq : after.blocks = (builder.push block instruction).blocks)
    (allocas_eq : after.allocas = builder.allocas)
    (temporaries_eq : List.range after.temporaries =
      List.range builder.temporaries ++ instruction.result.toList)
    (operands : ∀ value ∈ instruction.operation.operands, value.Below builder.temporaries) :
    after.Numbered := by
  have temporaries_le : builder.temporaries ≤ after.temporaries := by
    have lengths := congrArg List.length temporaries_eq
    simp only [List.length_range, List.length_append] at lengths
    omega
  constructor
  · rw [results, blocks_eq, allocas_eq, temporaries_eq, Builder.push, Array.toList_modify]
    have changed (open' : OpenBlock) : Ir.results
        ({ open' with instructions := open'.instructions.push instruction } :
          OpenBlock).instructions.toList =
        Ir.results open'.instructions.toList ++ instruction.result.toList := by
      simp
    have found : builder.blocks.toList[block]? = some builder.blocks[block] := by simp [bound]
    refine ((flatMap_modify_perm found (changed _)).append_left _).trans ?_
    rw [← List.append_assoc]
    exact numbered.results_perm.append_right _
  · rw [allocas_eq]
    exact numbered.allocas_eq
  · intro index other found
    rw [blocks_eq, Builder.push, Array.getElem?_modify] at found
    by_cases same : block = index
    · subst same
      rw [if_pos rfl] at found
      obtain ⟨earlier, earlier_found, rfl⟩ := Option.map_eq_some_iff.1 found
      have below := (numbered.below block earlier earlier_found).mono temporaries_le
      refine ⟨?_, below.terminator⟩
      intro added member value operand
      rw [Array.toList_push, List.mem_append, List.mem_singleton] at member
      rcases member with member | rfl
      · exact below.instructions added member value operand
      · exact (operands value operand).mono temporaries_le
    · rw [if_neg same] at found
      exact (numbered.below index other found).mono temporaries_le

end Numbered

/-- The results stay numbered as a function grows. -/
theorem Grows.numbered {before after : Builder} (grows : before.Grows after)
    (wellFormed : before.WellFormed) (numbered : before.Numbered) : after.Numbered := by
  have current_lt {builder : Builder} {block : Nat} (grows : before.Grows builder)
      (current : builder.current = some block) : block < builder.blocks.size := by
    obtain ⟨open', found, _⟩ := grows.wellFormed wellFormed block current
    exact (Array.getElem?_eq_some_iff.1 found).1
  induction grows with
  | refl => exact numbered
  | @addBlock after role _ induction =>
      constructor
      · simpa [results, Builder.addBlock] using induction.results_perm
      · exact induction.allocas_eq
      · intro index block found
        rw [Builder.addBlock, Array.getElem?_push] at found
        split at found
        · cases found
          exact ⟨by simp, fun _ closed => by cases closed⟩
        · exact induction.below index block found
  | goTo _ _ _ induction =>
      exact ⟨induction.results_perm, induction.allocas_eq, induction.below⟩
  | perform grows current operands induction =>
      exact induction.push (current_lt grows current) rfl rfl (by simp) operands
  | emit grows current operands induction =>
      exact induction.push (current_lt grows current) rfl rfl (by simp [List.range_succ]) operands
  | @close after block terminator grows current operands _ induction =>
      constructor
      · have same (open' : OpenBlock) : Ir.results
            ({ open' with terminator := some terminator } : OpenBlock).instructions.toList =
            Ir.results open'.instructions.toList ++ [] := by simp
        rw [results, Builder.close, Array.toList_modify]
        have block_lt := current_lt grows current
        have found : after.blocks.toList[block]? = some after.blocks[block] := by simp [block_lt]
        refine ((flatMap_modify_perm found (same _)).append_left _).trans ?_
        rw [List.append_nil]
        exact induction.results_perm
      · exact induction.allocas_eq
      · intro index other found
        rw [Builder.close, Array.getElem?_modify] at found
        by_cases same : block = index
        · subst same
          rw [if_pos rfl] at found
          obtain ⟨earlier, earlier_found, rfl⟩ := Option.map_eq_some_iff.1 found
          have below := induction.below block earlier earlier_found
          refine ⟨below.instructions, ?_⟩
          rintro _ ⟨rfl⟩
          exact operands
        · rw [if_neg same] at found
          exact induction.below index other found
  | @addAlloca after type _ induction =>
      constructor
      · rw [results, Builder.addAlloca, Array.toList_push, Ir.results_append]
        dsimp only
        rw [List.range_succ, Ir.results_cons, Ir.results_nil, Option.toList_some,
          List.append_nil, List.append_assoc]
        refine (List.perm_append_comm.append_left _).trans ?_
        rw [← List.append_assoc]
        exact induction.results_perm.append_right _
      · intro instruction member
        rw [Builder.addAlloca, Array.toList_push, List.mem_append, List.mem_singleton] at member
        rcases member with member | rfl
        · exact induction.allocas_eq instruction member
        · exact ⟨type, rfl⟩
      · exact fun index block found => (induction.below index block found).mono (Nat.le_succ _)
  | bind _ _ _ induction =>
      exact ⟨induction.results_perm, induction.allocas_eq, induction.below⟩

end Builder

end Minilang
