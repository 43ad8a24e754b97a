import Minilang.Proofs.Lowering.Flow
import Minilang.Proofs.Lowering.Numbering

/-!
# Finished functions

A finished function has the blocks that were built, with the room for objects made in the first of them.
Every temporary in it has exactly one definition, and the definitions dominate all uses where temporaries
flow.
-/

namespace Minilang.Builder

/-- What is done in a block of the finished function before what has been built in it. -/
def lead (builder : Builder) (index : Nat) : List Ir.Instruction :=
  if index = 0 then builder.allocas.toList else []

/-- A block of the finished function. -/
def finished (builder : Builder) (result : Ir.ValueType) (index : Nat) (block : OpenBlock) :
    Ir.Block where
  label := block.role.label block.earlier
  instructions := builder.lead index ++ block.instructions.toList
  terminator := block.terminator.getD (.ret result (.const (.zero result)))

theorem finish_getElem? (builder : Builder) (result : Ir.ValueType) (index : Nat) :
    (builder.finish result)[index]? = builder.blocks[index]?.map (builder.finished result index) := by
  rw [finish, ← Array.getElem?_toList]
  cases builder.blocks.toList with
  | nil => rfl
  | cons entry others =>
      cases index with
      | zero => simp [finished, lead, OpenBlock.close]
      | succ index =>
          simp only [List.map_cons, List.getElem?_cons_succ, List.getElem?_map]
          congr 1

variable {builder : Builder} {name : String} {parameters : List Ir.Parameter}
  {result : Ir.ValueType}

/-- The lead of a block makes room, and does nothing else. -/
theorem Numbered.lead_eq (numbered : builder.Numbered) {index : Nat} {instruction : Ir.Instruction}
    (member : instruction ∈ builder.lead index) : ∃ type, instruction.operation = .alloca type := by
  rw [lead] at member
  split at member
  · exact numbered.allocas_eq instruction member
  · cases member

/-- Behind its lead, a block of the finished function does what has been built in it. -/
theorem split_of_notMem_lead {index : Nat} {instruction : Ir.Instruction}
    {own first rest : List Ir.Instruction}
    (split : builder.lead index ++ own = first ++ instruction :: rest)
    (notLead : instruction ∉ builder.lead index) :
    ∃ earlier, first = builder.lead index ++ earlier ∧ own = earlier ++ instruction :: rest := by
  rcases List.append_eq_append_iff.1 split with ⟨earlier, same, rest_eq⟩ | ⟨more, same, rest_eq⟩
  · exact ⟨earlier, same, rest_eq⟩
  · cases more with
    | nil => exact ⟨[], by simpa using same.symm, by simpa using rest_eq.symm⟩
    | cons other more =>
        rw [List.cons_append, List.cons.injEq] at rest_eq
        refine absurd ?_ notLead
        rw [same, rest_eq.1]
        simp

theorem Numbered.below_finished (numbered : builder.Numbered) {index : Nat} {body : Ir.Block}
    (found : (builder.finish result)[index]? = some body) :
    (∀ instruction ∈ body.instructions, ∀ value ∈ instruction.operation.operands,
      value.Below builder.temporaries) ∧
    ∀ value ∈ body.terminator.operands, value.Below builder.temporaries := by
  rw [finish_getElem?] at found
  obtain ⟨block, block_found, rfl⟩ := Option.map_eq_some_iff.1 found
  have below := numbered.below index block block_found
  constructor
  · intro instruction member value operand
    rcases List.mem_append.1 member with member | member
    · obtain ⟨type, alloca⟩ := numbered.lead_eq member
      rw [alloca] at operand
      cases operand
    · exact below.instructions instruction member value operand
  · intro value operand
    rw [finished] at operand
    cases closed : block.terminator with
    | some terminator =>
        rw [closed] at operand
        exact below.terminator terminator closed value operand
    | none =>
        rw [closed, Option.getD_none, Ir.Terminator.operands, List.mem_singleton] at operand
        rw [operand]
        trivial

/-- All instructions of a finished function define what the function under construction defines. -/
theorem results_finish (nonempty : builder.blocks.size ≠ 0) :
    Ir.results (Ir.Function.instructions ⟨name, parameters, result, builder.finish result⟩) =
      builder.results := by
  rw [Ir.Function.instructions, results, finish]
  cases blocks : builder.blocks.toList with
  | nil => simp [← Array.length_toList, blocks] at nonempty
  | cons entry others =>
      simp only [List.map_cons, List.flatMap_cons, Ir.results_append, OpenBlock.close]
      rw [List.append_assoc, List.flatMap_map, Ir.results, Ir.results, Ir.results,
        List.filterMap_flatMap]
      rfl

/-- Every temporary of a finished function has exactly one definition. -/
theorem Numbered.singleAssignment (numbered : builder.Numbered)
    (nonempty : builder.blocks.size ≠ 0) :
    Ir.Function.SingleAssignment ⟨name, parameters, result, builder.finish result⟩ := by
  set function : Ir.Function := ⟨name, parameters, result, builder.finish result⟩
  have perm : (Ir.results function.instructions).Perm (List.range builder.temporaries) := by
    rw [results_finish nonempty]
    exact numbered.results_perm
  intro temporary mentioned
  have bound : temporary < builder.temporaries := by
    rcases mentioned with ⟨block, position, used⟩ | ⟨block, body, found, member⟩
    · cases used with
      | instruction found split _ operand =>
          refine (numbered.below_finished found).1 _ ?_ _ operand
          rw [split]
          simp
      | incoming found member operand _ =>
          exact (numbered.below_finished found).1 _ member (.temp temporary)
            (Ir.Operation.mem_operands_of_incoming operand)
      | terminator found operand => exact (numbered.below_finished found).2 _ operand
    · rw [← List.mem_range]
      apply perm.subset
      obtain ⟨instruction, instruction_mem, defined⟩ := List.mem_filterMap.1 member
      exact List.mem_filterMap.2 ⟨instruction,
        List.mem_flatMap.2 ⟨body, List.mem_of_getElem? found, instruction_mem⟩, defined⟩
  rw [← List.count_filterMap, show function.instructions.filterMap _ = _ from rfl]
  rw [← Ir.results, perm.count_eq, List.count_eq_one_of_mem List.nodup_range]
  exact List.mem_range.2 bound

/-- Different blocks of a finished function define different temporaries. -/
theorem Numbered.defines_unique (numbered : builder.Numbered) (nonempty : builder.blocks.size ≠ 0)
    {temporary first second : Nat}
    (left : Ir.Function.Defines ⟨name, parameters, result, builder.finish result⟩ temporary first)
    (right : Ir.Function.Defines ⟨name, parameters, result, builder.finish result⟩ temporary second) :
    first = second := by
  have nodup : (Ir.results (Ir.Function.instructions
      ⟨name, parameters, result, builder.finish result⟩)).Nodup := by
    rw [results_finish nonempty]
    exact numbered.results_perm.nodup_iff.2 List.nodup_range
  rw [Ir.Function.instructions, Ir.results, List.filterMap_flatMap, List.nodup_flatMap] at nodup
  have apart := List.pairwise_iff_getElem.1 nodup.2
  obtain ⟨body, found, member⟩ := left
  obtain ⟨other, other_found, other_member⟩ := right
  obtain ⟨first_lt, rfl⟩ := List.getElem?_eq_some_iff.1 found
  obtain ⟨second_lt, rfl⟩ := List.getElem?_eq_some_iff.1 other_found
  rcases Nat.lt_trichotomy first second with earlier | same | later
  · exact absurd other_member (apart first second first_lt second_lt earlier member)
  · exact same
  · exact absurd member (apart second first second_lt first_lt later other_member)

section Walks

variable {entries : Entries} {temporary block : Nat} {passed : List Nat}

/-- What is offered behind a block is defined in it or in a block that a walk to it has passed, if that is
so of what the block is given. -/
theorem Offers.defined (offers : builder.Offers entries block temporary)
    (bound : block < builder.blocks.size)
    (walk : Ir.Function.Walk ⟨name, parameters, result, builder.finish result⟩ passed block)
    (given : entries block temporary → ∃ other ∈ passed,
      Ir.Function.Defines ⟨name, parameters, result, builder.finish result⟩ temporary other) :
    ∃ other ∈ block :: passed,
      Ir.Function.Defines ⟨name, parameters, result, builder.finish result⟩ temporary other := by
  rcases offers with room | isGiven | ⟨open', found, defined⟩
  · obtain ⟨entry, entry_found⟩ : ∃ entry, builder.blocks[0]? = some entry :=
      ⟨_, Array.getElem?_eq_getElem (Nat.zero_lt_of_lt bound)⟩
    refine ⟨0, walk.entry_mem, _, by rw [finish_getElem?, entry_found]; rfl, ?_⟩
    rw [finished, lead, if_pos rfl, Ir.results_append]
    exact List.mem_append_left _ room
  · obtain ⟨other, member, defines⟩ := given isGiven
    exact ⟨other, List.mem_cons_of_mem _ member, defines⟩
  · refine ⟨block, List.mem_cons_self, _, by rw [finish_getElem?, found]; rfl, ?_⟩
    rw [finished, Ir.results_append]
    exact List.mem_append_right _ defined

/-- What a block is given is defined in a block that a walk to it has passed. -/
theorem Flowing.given_defined (flowing : builder.Flowing entries)
    (nothing : ∀ temporary, ¬entries 0 temporary)
    (walk : Ir.Function.Walk ⟨name, parameters, result, builder.finish result⟩ passed block)
    (given : entries block temporary) : ∃ other ∈ passed,
      Ir.Function.Defines ⟨name, parameters, result, builder.finish result⟩ temporary other := by
  induction walk with
  | entry => exact absurd given (nothing temporary)
  | @step passed block next body walk found successor induction =>
      rw [finish_getElem?] at found
      obtain ⟨open', open_found, rfl⟩ := Option.map_eq_some_iff.1 found
      cases closed : open'.terminator with
      | none =>
          rw [finished, closed] at successor
          cases successor
      | some terminator =>
          rw [finished, closed] at successor
          have offers := (flowing.justified block open' open_found).edge terminator closed next
            successor temporary given
          exact offers.defined (Array.getElem?_eq_some_iff.1 open_found).1 walk induction

/-- One definition that all walks pass dominates. -/
theorem Numbered.dominates (numbered : builder.Numbered) (nonempty : builder.blocks.size ≠ 0)
    {position : Nat}
    (reachable : Ir.Function.Reachable ⟨name, parameters, result, builder.finish result⟩ block)
    (defined : ∀ passed,
      Ir.Function.Walk ⟨name, parameters, result, builder.finish result⟩ passed block →
      ∃ other ∈ passed,
        Ir.Function.Defines ⟨name, parameters, result, builder.finish result⟩ temporary other) :
    Ir.Function.Dominates ⟨name, parameters, result, builder.finish result⟩ temporary block
      position := by
  obtain ⟨passed, walk⟩ := reachable
  obtain ⟨definition, _, defines⟩ := defined passed walk
  refine .inr ⟨definition, defines, fun others walk => ?_⟩
  obtain ⟨other, member, otherDefines⟩ := defined others walk
  rw [numbered.defines_unique nonempty defines otherDefines]
  exact member

/-- What is offered behind a block is defined at its end. -/
theorem Flowing.dominates_end (flowing : builder.Flowing entries) (numbered : builder.Numbered)
    (nothing : ∀ temporary, ¬entries 0 temporary)
    (reachable : Ir.Function.Reachable ⟨name, parameters, result, builder.finish result⟩ block)
    {body : Ir.Block} (found : (builder.finish result)[block]? = some body)
    (offers : builder.Offers entries block temporary) :
    Ir.Function.Dominates ⟨name, parameters, result, builder.finish result⟩ temporary block
      body.instructions.length := by
  have bound : block < builder.blocks.size := by
    rw [finish_getElem?] at found
    obtain ⟨open', open_found, _⟩ := Option.map_eq_some_iff.1 found
    exact (Array.getElem?_eq_some_iff.1 open_found).1
  by_cases inside :
      Ir.Function.Defines ⟨name, parameters, result, builder.finish result⟩ temporary block
  · obtain ⟨same, same_found, member⟩ := inside
    obtain rfl : same = body := Option.some.inj (same_found.symm.trans found)
    exact .inl ⟨same, same_found, by rwa [List.take_length]⟩
  · refine numbered.dominates (Nat.ne_zero_of_lt bound) reachable fun passed walk => ?_
    obtain ⟨other, member, defines⟩ :=
      offers.defined bound walk (flowing.given_defined nothing walk)
    rcases List.mem_cons.1 member with rfl | member
    · exact absurd defines inside
    · exact ⟨other, member, defines⟩

/-- Where temporaries flow from their definitions to their uses, the definitions dominate the uses. -/
theorem Flowing.dominatesUses (flowing : builder.Flowing entries) (numbered : builder.Numbered)
    (nothing : ∀ temporary, ¬entries 0 temporary) :
    Ir.Function.DominatesUses ⟨name, parameters, result, builder.finish result⟩ := by
  intro temporary block position used reachable
  cases used with
  | @instruction body first rest instruction found split notPhi operand =>
      have body_found := found
      rw [finish_getElem?] at found
      obtain ⟨open', open_found, rfl⟩ := Option.map_eq_some_iff.1 found
      have bound := (Array.getElem?_eq_some_iff.1 open_found).1
      have justifies := flowing.justified block open' open_found
      have notRoom : instruction ∉ builder.lead block := by
        intro member
        obtain ⟨type, alloca⟩ := numbered.lead_eq member
        rw [alloca] at operand
        cases operand
      obtain ⟨earlier, rfl, own_split⟩ := split_of_notMem_lead split notRoom
      have before {other : Nat} (member : other ∈ Ir.results (builder.lead block ++ earlier)) :
          Ir.Function.Dominates ⟨name, parameters, result, builder.finish result⟩ other block
            (builder.lead block ++ earlier).length := by
        refine .inl ⟨_, body_found, ?_⟩
        rw [split, List.take_left]
        exact member
      rcases justifies.instruction earlier instruction rest own_split notPhi temporary operand
        with room | given | defined
      · by_cases isEntry : block = 0
        · apply before
          rw [lead, if_pos isEntry, Ir.results_append]
          exact List.mem_append_left _ room
        · refine numbered.dominates (Nat.ne_zero_of_lt bound) reachable fun passed walk => ?_
          have atEntry : builder.Offers entries 0 temporary := .inl room
          have defined : ∃ other ∈ [0], Ir.Function.Defines
              ⟨name, parameters, result, builder.finish result⟩ temporary other :=
            atEntry.defined (Nat.zero_lt_of_lt bound) .entry
              fun given => absurd given (nothing temporary)
          obtain ⟨other, member, defines⟩ := defined
          rw [List.mem_singleton.1 member] at defines
          rcases List.mem_cons.1 walk.entry_mem with same | member
          · exact absurd same.symm isEntry
          · exact ⟨0, member, defines⟩
      · exact numbered.dominates (Nat.ne_zero_of_lt bound) reachable fun passed walk =>
          flowing.given_defined nothing walk given
      · apply before
        rw [Ir.results_append]
        exact List.mem_append_right _ defined
  | @incoming target source body instruction found member operand source_found =>
      rw [finish_getElem?] at found
      obtain ⟨open', open_found, rfl⟩ := Option.map_eq_some_iff.1 found
      refine flowing.dominates_end numbered nothing reachable source_found ?_
      rcases List.mem_append.1 member with member | member
      · obtain ⟨type, alloca⟩ := numbered.lead_eq member
        rw [alloca] at operand
        cases operand
      · exact ((flowing.justified target open' open_found).incoming instruction member temporary
          block operand).2
  | @terminator body found operand =>
      refine flowing.dominates_end numbered nothing reachable found ?_
      rw [finish_getElem?] at found
      obtain ⟨open', open_found, rfl⟩ := Option.map_eq_some_iff.1 found
      rw [finished] at operand
      cases closed : open'.terminator with
      | none =>
          rw [closed, Option.getD_none, Ir.Terminator.operands, List.mem_singleton] at operand
          cases operand
      | some terminator =>
          rw [closed] at operand
          exact (flowing.justified block open' open_found).operand terminator closed temporary operand

end Walks

end Minilang.Builder
