import Minilang.Proofs.Ir.Machine
import Minilang.Proofs.Lowering.Branches
import Minilang.Proofs.Lowering.Finishing

/-!
# Positions in functions under construction

Where building goes on is a position in the function that is built in the end: behind what has been built of
the open block. From such a position a machine runs the instruction that is built next.
-/

namespace Minilang.Builder

open Ir (Instruction)

/-- What a function under construction is in the end holds all that has been built, and the names keep their
values. -/
structure Becomes (builder last : Builder) : Prop where
  includes : builder.Includes last
  local_kept : ∀ declaration value, builder.local? declaration = some value →
    last.local? declaration = some value

variable {builder before middle after last : Builder} {frame : Ir.Frame}
  {operation : Ir.Operation} {terminator : Ir.Terminator}

/-- Blocks are kept. -/
theorem Includes.lt_size (includes : before.Includes after) {block : Nat}
    (bound : block < before.blocks.size) : block < after.blocks.size := by
  obtain ⟨later, found, _⟩ :=
    includes.block_grows block before.blocks[block] (Array.getElem?_eq_getElem bound)
  exact (Array.getElem?_eq_some_iff.1 found).1

/-- Giving a name its value keeps what has been built. -/
theorem Includes.bind (builder : Builder) (declaration : DeclId) (value : Ir.Value) :
    builder.Includes (builder.bind declaration value) :=
  ⟨fun _ block found => ⟨block, found, .refl block⟩, List.prefix_rfl, le_rfl⟩

@[simp]
theorem resume_currentIndex (builder : Builder) :
    builder.resume.currentIndex = builder.currentIndex :=
  currentIndex_of_current builder.resume_current

namespace Becomes

theorem refl (builder : Builder) : builder.Becomes builder := ⟨.refl builder, fun _ _ found => found⟩

theorem trans (first : before.Becomes middle) (second : middle.Becomes after) :
    before.Becomes after :=
  ⟨first.includes.trans second.includes,
    fun _ _ found => second.local_kept _ _ (first.local_kept _ _ found)⟩

/-- A step that gives no name a value. -/
theorem of_locals_eq (includes : before.Includes after) (locals_eq : after.locals = before.locals) :
    before.Becomes after := by
  refine ⟨includes, fun declaration value found => ?_⟩
  rwa [local?, locals_eq]

theorem addBlock (builder : Builder) (role : BlockRole) : builder.Becomes (builder.addBlock role) :=
  of_locals_eq (.addBlock builder role) (builder.addBlock_locals role)

theorem goTo (builder : Builder) (block : Nat) : builder.Becomes (builder.goTo block) :=
  of_locals_eq (.goTo builder block) (builder.goTo_locals block)

theorem resume (builder : Builder) : builder.Becomes builder.resume := by
  rw [Builder.resume]
  cases builder.current with
  | none => exact (addBlock builder .unreachable).trans (goTo _ _)
  | some block => exact refl builder

theorem leave (wellFormed : builder.WellFormed) (target next : Nat) :
    builder.Becomes (builder.leave target next) :=
  of_locals_eq (.leave wellFormed target next) (builder.leave_locals target next)

section Valid

variable (valid : builder.Valid)

include valid

theorem emit (operation : Ir.Operation) : builder.Becomes (builder.emit operation) := by
  refine of_locals_eq ?_ (builder.emit_locals operation)
  have counted : builder.resume.countTemporary.WellFormed := valid.resume.wellFormed
  exact ((resume builder).includes.trans (.countTemporary _)).trans
    (.push counted builder.resume_current _)

theorem perform (operation : Ir.Operation) : builder.Becomes (builder.perform operation) := by
  refine of_locals_eq ?_ (builder.perform_locals operation)
  exact (resume builder).includes.trans
    (.push valid.resume.wellFormed builder.resume_current _)

theorem endWith (terminator : Ir.Terminator) : builder.Becomes (builder.endWith terminator) := by
  refine of_locals_eq ?_ (builder.endWith_locals terminator)
  exact (resume builder).includes.trans
    (.close valid.resume.wellFormed builder.resume_current terminator)

theorem splitLogical (isOr : Bool) (left : Ir.Value) :
    builder.Becomes (builder.splitLogical isOr left) :=
  ((((resume builder).trans (addBlock _ _)).trans (addBlock _ _)).trans
    (endWith ((valid.resume.addBlock _).addBlock _) _)).trans (goTo _ _)

theorem splitTwo (first second : BlockRole) (condition : Ir.Value) :
    builder.Becomes (builder.splitTwo first second condition) :=
  (((addBlock builder first).trans (addBlock _ second)).trans
    (endWith ((valid.addBlock first).addBlock second) _)).trans (goTo _ _)

theorem splitThree (first second third : BlockRole) (condition : Ir.Value) :
    builder.Becomes (builder.splitThree first second third condition) :=
  ((((addBlock builder first).trans (addBlock _ second)).trans (addBlock _ third)).trans
    (endWith (((valid.addBlock first).addBlock second).addBlock third) _)).trans (goTo _ _)

end Valid

end Becomes

theorem Grows.becomes (grows : before.Grows after) (wellFormed : before.WellFormed) :
    before.Becomes after :=
  ⟨grows.includes wellFormed, fun _ _ => grows.local_kept⟩

/-- Whether a call is behind what has been built of the open block. -/
structure At (last builder : Builder) (frame : Ir.Frame) : Prop where
  /-- The function that is called is the one that is built. -/
  blocks_eq : frame.function.blocks = last.finish frame.function.result
  /-- The call is in the open block. -/
  current : builder.current = some frame.block
  /-- What has been built of the block has been run, and the rest has not. -/
  rest : ∃ block final, builder.blocks[frame.block]? = some block ∧
    last.blocks[frame.block]? = some final ∧
    final.instructions.toList = block.instructions.toList ++ frame.rest

/-- Whether a call is at the start of a block. -/
structure AtStart (last : Builder) (target : Nat) (frame : Ir.Frame) : Prop where
  /-- The function that is called is the one that is built. -/
  blocks_eq : frame.function.blocks = last.finish frame.function.result
  /-- The call is in the block. -/
  block_eq : frame.block = target
  /-- Nothing of the block has been run. -/
  rest : ∃ final, last.blocks[target]? = some final ∧ frame.rest = final.instructions.toList

/-- At the start of a block in which nothing has been built, a call is where building goes on in it. -/
theorem AtStart.at {target : Nat} (atStart : AtStart last target frame)
    (fresh : builder.Fresh target) (current : builder.current = some target) :
    At last builder frame := by
  obtain ⟨blocks_eq, rfl, final, final_found, rest_eq⟩ := atStart
  obtain ⟨role, earlier, found⟩ := fresh
  exact ⟨blocks_eq, current, _, final, found, final_found, rest_eq.symm⟩

namespace At

theorem currentIndex_eq (position : At last builder frame) : builder.currentIndex = frame.block :=
  currentIndex_of_current position.current

theorem resume_eq (position : At last builder frame) : builder.resume = builder :=
  resume_of_current position.current

theorem size_pos (position : At last builder frame) : 0 < builder.blocks.size := by
  obtain ⟨block, final, found, _⟩ := position.rest
  exact Nat.zero_lt_of_lt (Array.getElem?_eq_some_iff.1 found).1

/-- Steps that leave the open block alone do not move a call. -/
theorem of_eq (position : At last before frame) (current_eq : after.current = before.current)
    (blocks_eq : after.blocks[frame.block]? = before.blocks[frame.block]?) :
    At last after frame := by
  obtain ⟨function_eq, current, rest⟩ := position
  exact ⟨function_eq, current_eq.trans current, blocks_eq ▸ rest⟩

/-- The instruction that is built next is run next. -/
theorem push {instruction : Instruction} (position : At last before frame)
    (includes : after.Includes last) (current_eq : after.current = before.current)
    (blocks_eq : after.blocks = (before.push frame.block instruction).blocks) :
    ∃ rest, frame.rest = instruction :: rest ∧
      ∀ temporaries, At last after { frame.withRest rest with temporaries := temporaries } := by
  obtain ⟨function_eq, current, block, final, found, final_found, rest_eq⟩ := position
  have pushed_found : after.blocks[frame.block]? =
      some { block with instructions := block.instructions.push instruction } := by
    rw [blocks_eq, Builder.push, Array.getElem?_modify, if_pos rfl, found, Option.map_some]
  obtain ⟨later, later_found, grows⟩ := includes.block_grows _ _ pushed_found
  rw [final_found] at later_found
  cases later_found
  obtain ⟨rest, behind⟩ := grows.instructions_le
  rw [rest_eq, Array.toList_push, List.append_assoc, List.append_cancel_left_eq] at behind
  refine ⟨rest, behind.symm, fun temporaries => ⟨function_eq, current_eq.trans current, _, final,
    pushed_found, final_found, ?_⟩⟩
  rw [rest_eq, ← behind, Array.toList_push, List.append_assoc]
  rfl

theorem emit (position : At last before frame) (includes : (before.emit operation).Includes last) :
    ∃ rest, frame.rest = ⟨some before.temporaries, operation⟩ :: rest ∧
      ∀ temporaries,
        At last (before.emit operation) { frame.withRest rest with temporaries := temporaries } := by
  refine position.push includes ?_ ?_
  · rw [emit_current, position.currentIndex_eq, position.current]
  · rw [Builder.emit, position.resume_eq, position.currentIndex_eq, Builder.push, Builder.push,
      countTemporary]

theorem perform (position : At last before frame)
    (includes : (before.perform operation).Includes last) :
    ∃ rest, frame.rest = ⟨none, operation⟩ :: rest ∧
      At last (before.perform operation) (frame.withRest rest) := by
  have blocks_eq : (before.perform operation).blocks =
      (before.push frame.block ⟨none, operation⟩).blocks := by
    rw [Builder.perform, position.resume_eq, position.currentIndex_eq]
  have current_eq : (before.perform operation).current = before.current := by
    rw [perform_current, position.currentIndex_eq, position.current]
  obtain ⟨rest, rest_eq, behind⟩ := position.push includes current_eq blocks_eq
  exact ⟨rest, rest_eq, behind frame.temporaries⟩

/-- The result of an instruction that is still to be run is not the address of room for an object. -/
theorem not_mem_allocas (position : At last builder frame) (numbered : last.Numbered)
    {temporary : Nat} {rest : List Instruction}
    (rest_eq : frame.rest = ⟨some temporary, operation⟩ :: rest) :
    temporary ∉ Ir.results last.allocas.toList := by
  obtain ⟨_, _, block, final, _, final_found, final_eq⟩ := position
  have nodup : last.results.Nodup := numbered.results_perm.nodup_iff.2 List.nodup_range
  intro room
  refine List.disjoint_of_nodup_append nodup room (List.mem_flatMap.2 ⟨final, ?_, ?_⟩)
  · rw [← Array.getElem?_toList] at final_found
    exact List.mem_of_getElem? final_found
  · rw [final_eq, rest_eq, Ir.results_append, Ir.results_cons]
    simp

/-- Where the open block is closed, the terminator is run next. -/
theorem close (position : At last before frame)
    (includes : (before.close frame.block terminator).Includes last) :
    frame.rest = [] ∧ ∃ body, frame.function.blocks[frame.block]? = some body ∧
      body.terminator = terminator := by
  obtain ⟨function_eq, current, block, final, found, final_found, rest_eq⟩ := position
  have closed_found : (before.close frame.block terminator).blocks[frame.block]? =
      some { block with terminator := some terminator } := by
    rw [Builder.close, Array.getElem?_modify, if_pos rfl, found, Option.map_some]
  obtain ⟨later, later_found, grows⟩ := includes.block_grows _ _ closed_found
  rw [final_found] at later_found
  cases later_found
  rw [grows.closed rfl] at rest_eq final_found
  refine ⟨List.self_eq_append_right.1 rest_eq, last.finished frame.function.result frame.block
    { block with terminator := some terminator }, ?_, rfl⟩
  rw [function_eq, finish_getElem?, final_found, Option.map_some]

theorem endWith (position : At last before frame)
    (includes : (before.endWith terminator).Includes last) :
    frame.rest = [] ∧ ∃ body, frame.function.blocks[frame.block]? = some body ∧
      body.terminator = terminator := by
  rw [Builder.endWith, position.resume_eq, position.currentIndex_eq] at includes
  exact position.close includes

/-- Where a function is left for another block, the branch is run next. -/
theorem leave {target next : Nat} (position : At last before frame)
    (includes : (before.leave target next).Includes last) :
    frame.rest = [] ∧ ∃ body, frame.function.blocks[frame.block]? = some body ∧
      body.terminator = .branch target := by
  rw [Builder.leave, Builder.branchTo, position.current] at includes
  exact position.close ((Includes.goTo _ next).trans includes)

theorem addBlock (position : At last before frame) (role : BlockRole) :
    At last (before.addBlock role) frame := by
  refine position.of_eq (before.addBlock_current role) ?_
  obtain ⟨block, final, found, _⟩ := position.rest
  have bound := (Array.getElem?_eq_some_iff.1 found).1
  rw [Builder.addBlock, Array.getElem?_push_lt bound, Array.getElem?_eq_getElem bound]

theorem splitLogical {isOr : Bool} {left : Ir.Value} (position : At last before frame)
    (includes : (before.splitLogical isOr left).Includes last) :
    frame.rest = [] ∧ ∃ body, frame.function.blocks[frame.block]? = some body ∧
      body.terminator = if isOr
        then .condBranch left (before.resume.blocks.size + 1) before.resume.blocks.size
        else .condBranch left before.resume.blocks.size (before.resume.blocks.size + 1) := by
  rw [← position.resume_eq] at position
  exact ((position.addBlock _).addBlock _).endWith ((Includes.goTo _ _).trans includes)

theorem splitTwo {first second : BlockRole} {condition : Ir.Value} (position : At last before frame)
    (includes : (before.splitTwo first second condition).Includes last) :
    frame.rest = [] ∧ ∃ body, frame.function.blocks[frame.block]? = some body ∧
      body.terminator = .condBranch condition before.blocks.size (before.blocks.size + 1) :=
  ((position.addBlock _).addBlock _).endWith ((Includes.goTo _ _).trans includes)

theorem splitThree {first second third : BlockRole} {condition : Ir.Value}
    (position : At last before frame)
    (includes : (before.splitThree first second third condition).Includes last) :
    frame.rest = [] ∧ ∃ body, frame.function.blocks[frame.block]? = some body ∧
      body.terminator = .condBranch condition before.blocks.size (before.blocks.size + 1) :=
  (((position.addBlock _).addBlock _).addBlock _).endWith ((Includes.goTo _ _).trans includes)

theorem startLoop (position : At last before frame) (includes : before.startLoop.Includes last) :
    frame.rest = [] ∧ ∃ body, frame.function.blocks[frame.block]? = some body ∧
      body.terminator = .branch before.blocks.size :=
  (((position.addBlock _).addBlock _).addBlock _).endWith ((Includes.goTo _ _).trans includes)

/-- Where nothing more is built, the zero of the result type is returned next. -/
theorem finish (position : At last last frame) (wellFormed : last.WellFormed) :
    frame.rest = [] ∧ ∃ body, frame.function.blocks[frame.block]? = some body ∧
      body.terminator = .ret frame.function.result (.const (.zero frame.function.result)) := by
  obtain ⟨function_eq, current, block, final, found, final_found, rest_eq⟩ := position
  obtain ⟨open', open_found, isOpen⟩ := wellFormed _ current
  rw [found] at final_found open_found
  cases final_found
  cases open_found
  refine ⟨List.self_eq_append_right.1 rest_eq,
    last.finished frame.function.result frame.block block, ?_, ?_⟩
  · rw [function_eq, finish_getElem?, found, Option.map_some]
  · rw [finished, isOpen, Option.getD_none]

end At

section Starts

variable (valid : builder.Valid)

include valid

/-- Nothing has been built in the block of the right operand. -/
theorem fresh_splitLogical (isOr : Bool) (left : Ir.Value) :
    (builder.splitLogical isOr left).Fresh builder.resume.blocks.size :=
  ((Awaits.twoAdded valid.resume _ _).1.endWith _).fresh

/-- Nothing has been built in the first of two blocks. -/
theorem fresh_splitTwo (first second : BlockRole) (condition : Ir.Value) :
    (builder.splitTwo first second condition).Fresh builder.blocks.size :=
  ((Awaits.twoAdded valid first second).1.endWith _).fresh

/-- Nothing has been built in the first of three blocks. -/
theorem fresh_splitThree (first second third : BlockRole) (condition : Ir.Value) :
    (builder.splitThree first second third condition).Fresh builder.blocks.size :=
  ((Awaits.threeAdded valid first second third).1.endWith _).fresh

/-- Nothing has been built in the block that tests the guard. -/
theorem fresh_startLoop : builder.startLoop.Fresh builder.blocks.size :=
  ((Awaits.threeAdded valid _ _ _).1.endWith _).fresh

end Starts

/-- A call gets to the start of any block but the first one. -/
theorem exists_jump {target : Nat}
    (function_eq : frame.function.blocks = last.finish frame.function.result)
    (target_pos : 0 < target) (target_lt : target < last.blocks.size) :
    ∃ rest, frame.jump target =
        some { frame with block := target, previous := some frame.block, rest := rest } ∧
      AtStart last target
        { frame with block := target, previous := some frame.block, rest := rest } := by
  have found : last.blocks[target]? = some last.blocks[target] := Array.getElem?_eq_getElem target_lt
  refine ⟨last.blocks[target].instructions.toList, ?_, function_eq, rfl, _, found, rfl⟩
  rw [Ir.Frame.jump, function_eq, finish_getElem?, found, Option.map_some, Option.map_some, finished,
    lead, if_neg (Nat.ne_of_gt target_pos), List.nil_append]

end Minilang.Builder
