import Minilang.Proofs.Lowering.Positions
import Minilang.Proofs.Semantics.Agreement

/-!
# Steps of machines that run lowered functions

A machine that runs a lowered function gets from position to position. On the way the temporaries that were
there before and the addresses of the objects of the function are kept, and its memory goes on agreeing with
the world of the program.
-/

namespace Minilang.Lowering

open Evaluation (Result World)
open Builder (At AtStart Becomes)

/-- A program, the module that is run, and the arithmetic of both. -/
structure Setting where
  /-- The program. -/
  program : Program
  /-- The module. -/
  module : Ir.Module
  /-- The arithmetic. -/
  floats : FloatArithmetic

/-- A call of a lowered function. -/
structure Call where
  /-- The function as it is when nothing more is built. -/
  last : Builder
  /-- Its temporaries are numbered. -/
  numbered : last.Numbered
  /-- Those who wait for the call. -/
  callers : List (Ir.Frame × Option Nat)
  /-- The number of activations of the program before. -/
  activation : Nat

/-- Where a machine is, and where it has stored the objects of the program. -/
structure Point where
  /-- Where the objects are stored. -/
  layout : Layout
  /-- The call that is under way. -/
  frame : Ir.Frame
  /-- The memory. -/
  memory : Ir.Memory

/-- Whether an operand holds what a datum of the program is. -/
def Point.Shows (point : Point) (program : Program) (value : Ir.Value) (result : Result) : Prop :=
  ∃ word, point.frame.value value = some word ∧ Matches program point.layout result word

/-- Whether a call is at the start of a block that it has entered from another one. -/
def Entered (last : Builder) (block source : Nat) (frame : Ir.Frame) : Prop :=
  AtStart last block frame ∧ frame.previous = some source

variable {setting : Setting} {call : Call}

/-- Whether a machine gets from one point to another one of the same call. It keeps the temporaries below a
number, its function and its arguments, and the addresses of objects. -/
structure Advances (setting : Setting) (call : Call) (count : Nat) (before after : Point) : Prop where
  runs : setting.module.Runs setting.floats
    (.running before.frame call.callers before.memory)
    (.running after.frame call.callers after.memory)
  layout_le : before.layout.Extends after.layout
  kept : ∀ temporary, temporary < count ∨ temporary ∈ Ir.results call.last.allocas.toList →
    after.frame.temporaries temporary = before.frame.temporaries temporary
  arguments_eq : after.frame.arguments = before.frame.arguments
  function_eq : after.frame.function = before.frame.function

/-- Whether a machine is at a position, agrees with the world, and knows the addresses of the variables and
parameters of the function. -/
structure Stands (setting : Setting) (call : Call) (position : Ir.Frame → Prop) (world : World)
    (point : Point) : Prop where
  position : position point.frame
  agrees : Agrees setting.program point.layout world point.memory
  slots : ∀ declaration value, (setting.program.ast.kindOf declaration).isVariable = true →
    call.last.local? declaration = some value →
    ∃ temporary address, value = .temp temporary ∧
      temporary ∈ Ir.results call.last.allocas.toList ∧
      point.frame.temporaries temporary = some (.place address) ∧
      point.layout (.automatic call.activation declaration) = some address

/-- Whether a machine gets from a point to a position where it agrees with a world. -/
structure Arrives (setting : Setting) (call : Call) (count : Nat) (before : Point)
    (position : Ir.Frame → Prop) (world : World) (after : Point) : Prop where
  advances : Advances setting call count before after
  position : position after.frame
  agrees : Agrees setting.program after.layout world after.memory

variable {before middle after : Point} {count more : Nat} {world later last : World}
  {position target next : Ir.Frame → Prop}

namespace Advances

theorem refl (point : Point) : Advances setting call count point point :=
  ⟨.refl, .refl _, fun _ _ => rfl, rfl, rfl⟩

theorem mono (advances : Advances setting call more before after) (count_le : count ≤ more) :
    Advances setting call count before after :=
  ⟨advances.runs, advances.layout_le,
    fun temporary old => advances.kept temporary (old.imp_left (Nat.lt_of_lt_of_le · count_le)),
    advances.arguments_eq, advances.function_eq⟩

theorem trans (first : Advances setting call count before middle)
    (second : Advances setting call more middle after) (count_le : count ≤ more) :
    Advances setting call count before after := by
  replace second := second.mono count_le
  exact ⟨first.runs.trans second.runs, first.layout_le.trans second.layout_le,
    fun temporary old => (second.kept temporary old).trans (first.kept temporary old),
    second.arguments_eq.trans first.arguments_eq, second.function_eq.trans first.function_eq⟩

/-- Operands over temporaries that are kept hold what they held. -/
theorem shows (advances : Advances setting call count before after) {program : Program}
    {value : Ir.Value} {result : Result} (shown : before.Shows program value result)
    (below : value.Below count) : after.Shows program value result := by
  obtain ⟨word, held, same⟩ := shown
  refine ⟨word, ?_, same.mono advances.layout_le⟩
  cases value with
  | const constant => exact held
  | temp index => exact (advances.kept index (.inl below)).trans held
  | arg index =>
      rw [Ir.Frame.value] at held ⊢
      rw [advances.arguments_eq]
      exact held
  | global name => exact held
  | function name => exact held

end Advances

namespace Arrives

theorem refl (stands : Stands setting call position world before) :
    Arrives setting call count before position world before :=
  ⟨.refl before, stands.position, stands.agrees⟩

theorem stands (arrives : Arrives setting call count before target later after)
    (start : Stands setting call position world before) :
    Stands setting call target later after := by
  refine ⟨arrives.position, arrives.agrees, fun declaration value isVariable found => ?_⟩
  obtain ⟨temporary, address, value_eq, room, held, placed⟩ :=
    start.slots declaration value isVariable found
  exact ⟨temporary, address, value_eq, room, (arrives.advances.kept temporary (.inr room)).trans held,
    arrives.advances.layout_le _ _ placed⟩

theorem trans (first : Arrives setting call count before target later middle)
    (second : Arrives setting call more middle next last after) (count_le : count ≤ more) :
    Arrives setting call count before next last after :=
  ⟨first.advances.trans second.advances count_le, second.position, second.agrees⟩

theorem mono (arrives : Arrives setting call more before target later after)
    (count_le : count ≤ more) : Arrives setting call count before target later after :=
  ⟨arrives.advances.mono count_le, arrives.position, arrives.agrees⟩

/-- A position may be seen as another one. -/
theorem reposition (arrives : Arrives setting call count before target later after)
    (moves : ∀ frame, target frame → next frame) :
    Arrives setting call count before next later after :=
  ⟨arrives.advances, moves _ arrives.position, arrives.agrees⟩

end Arrives

section Steps

variable {builder : Builder} {operation : Ir.Operation}

theorem Stands.reposition (stands : Stands setting call position world before)
    (moves : ∀ frame, position frame → target frame) : Stands setting call target world before :=
  ⟨moves _ stands.position, stands.agrees, stands.slots⟩

/-- An instruction with a result runs to the position behind it. -/
theorem Stands.emit (stands : Stands setting call (At call.last builder) world before)
    (includes : (builder.emit operation).Includes call.last) {layout : Layout} {word : Ir.Word}
    {memory : Ir.Memory}
    (runs : ∀ rest, before.frame.rest = ⟨some builder.temporaries, operation⟩ :: rest →
      setting.module.Runs setting.floats (.running before.frame call.callers before.memory)
        (.running ((before.frame.withRest rest).set (some builder.temporaries) word) call.callers
          memory))
    (layout_le : before.layout.Extends layout) (agrees : Agrees setting.program layout later memory) :
    ∃ after, Arrives setting call builder.temporaries before
        (At call.last (builder.emit operation)) later after ∧
      after.frame.temporaries builder.temporaries = some word ∧ after.layout = layout := by
  obtain ⟨rest, rest_eq, behind⟩ := stands.position.emit includes
  have notRoom := stands.position.not_mem_allocas call.numbered rest_eq
  refine ⟨⟨layout, (before.frame.withRest rest).set (some builder.temporaries) word, memory⟩,
    ⟨⟨runs rest rest_eq, layout_le, ?_, rfl, rfl⟩, behind _, agrees⟩, if_pos rfl, rfl⟩
  intro temporary old
  have different : temporary ≠ builder.temporaries := by
    rintro rfl
    exact old.elim (Nat.lt_irrefl _) notRoom
  exact if_neg fun same => different (Option.some.inj same)

/-- An operation over temporaries is computed. -/
theorem Stands.compute (stands : Stands setting call (At call.last builder) world before)
    (includes : (builder.emit operation).Includes call.last) {word : Ir.Word} {result : Result}
    (computed : before.frame.compute setting.floats operation = some word)
    (same : Matches setting.program before.layout result word) :
    ∃ after, Arrives setting call builder.temporaries before
        (At call.last (builder.emit operation)) world after ∧
      after.Shows setting.program (.temp builder.temporaries) result := by
  have steps (rest : List Ir.Instruction)
      (rest_eq : before.frame.rest = ⟨some builder.temporaries, operation⟩ :: rest) :
      setting.module.step setting.floats (.running before.frame call.callers before.memory) =
        some (.running ((before.frame.withRest rest).set (some builder.temporaries) word) call.callers
          before.memory) := by
    rw [Ir.Module.step_instruction rest_eq]
    apply Ir.Instruction.run_of_compute
    rw [Ir.Frame.compute_withRest, computed]
  obtain ⟨after, arrives, holds, layout_eq⟩ :=
    stands.emit includes (fun rest rest_eq => .single (steps rest rest_eq)) (.refl _) stands.agrees
  exact ⟨after, arrives, word, holds, layout_eq ▸ same⟩

/-- An object is read. -/
theorem Stands.load (stands : Stands setting call (At call.last builder) world before)
    {type : Ir.ValueType} {pointer : Ir.Value}
    (includes : (builder.emit (.load type pointer)).Includes call.last) {place : Place}
    {result : Result} (shown : before.Shows setting.program pointer (.place place))
    (found : world.memory place = some result) :
    ∃ after, Arrives setting call builder.temporaries before
        (At call.last (builder.emit (.load type pointer))) world after ∧
      after.Shows setting.program (.temp builder.temporaries) result := by
  obtain ⟨_, held, same⟩ := shown
  obtain ⟨address, rfl, placed⟩ := same.of_place
  obtain ⟨word, read, read_same⟩ := stands.agrees.read placed found
  have steps (rest : List Ir.Instruction)
      (rest_eq : before.frame.rest = ⟨some builder.temporaries, .load type pointer⟩ :: rest) :
      setting.module.step setting.floats (.running before.frame call.callers before.memory) =
        some (.running ((before.frame.withRest rest).set (some builder.temporaries) word) call.callers
          before.memory) := by
    rw [Ir.Module.step_instruction rest_eq]
    refine Ir.Instruction.run_load ?_ read
    rw [Ir.Frame.value_withRest, held]
  obtain ⟨after, arrives, holds, layout_eq⟩ :=
    stands.emit includes (fun rest rest_eq => .single (steps rest rest_eq)) (.refl _) stands.agrees
  exact ⟨after, arrives, word, holds, layout_eq ▸ read_same⟩

/-- An object is written. -/
theorem Stands.store (stands : Stands setting call (At call.last builder) world before)
    {type : Ir.ValueType} {value pointer : Ir.Value}
    (includes : (builder.perform (.store type value pointer)).Includes call.last) {place : Place}
    {result : Result} (shown : before.Shows setting.program pointer (.place place))
    (valueShown : before.Shows setting.program value result) :
    ∃ after, Arrives setting call count before
        (At call.last (builder.perform (.store type value pointer))) (world.write place result)
        after := by
  obtain ⟨_, held, same⟩ := shown
  obtain ⟨address, rfl, placed⟩ := same.of_place
  obtain ⟨word, valueHeld, value_same⟩ := valueShown
  obtain ⟨writes, agrees⟩ := stands.agrees.write placed value_same
  obtain ⟨rest, rest_eq, behind⟩ := stands.position.perform includes
  refine ⟨⟨before.layout, before.frame.withRest rest, before.memory.set address word⟩,
    ⟨.single ?_, .refl _, fun _ _ => rfl, rfl, rfl⟩, behind, agrees⟩
  rw [Ir.Module.step_instruction rest_eq]
  refine Ir.Instruction.run_store ?_ ?_ writes
  · rw [Ir.Frame.value_withRest, valueHeld]
  · rw [Ir.Frame.value_withRest, held]

/-- Behind a terminator that leads to a block, a call is at the start of that block. -/
theorem Stands.jump (stands : Stands setting call (At call.last builder) world before)
    {block : Nat} (block_pos : 0 < block) (block_lt : block < call.last.blocks.size)
    (steps : ∀ frame, before.frame.jump block = some frame →
      setting.module.step setting.floats (.running before.frame call.callers before.memory) =
        some (.running frame call.callers before.memory)) :
    ∃ after, Arrives setting call count before (Entered call.last block builder.currentIndex) world
      after := by
  obtain ⟨rest, jumps, atStart⟩ :=
    Builder.exists_jump stands.position.blocks_eq block_pos block_lt
  rw [stands.position.currentIndex_eq]
  refine ⟨⟨before.layout, { before.frame with
    block := block, previous := some before.frame.block, rest := rest }, before.memory⟩, ?_⟩
  exact ⟨⟨.single (steps _ jumps), .refl _, fun _ _ => rfl, rfl, rfl⟩, ⟨atStart, rfl⟩, stands.agrees⟩

/-- The open block is left for another one. -/
theorem Stands.branch (stands : Stands setting call (At call.last builder) world before)
    {block : Nat} (block_pos : 0 < block) (block_lt : block < call.last.blocks.size)
    (ends : before.frame.rest = [] ∧ ∃ body,
      before.frame.function.blocks[before.frame.block]? = some body ∧
        body.terminator = .branch block) :
    ∃ after, Arrives setting call count before (Entered call.last block builder.currentIndex) world
      after := by
  obtain ⟨rest_eq, body, found, terminator_eq⟩ := ends
  refine stands.jump block_pos block_lt fun frame jumps => ?_
  rw [Ir.Module.step_terminator rest_eq found, terminator_eq, Ir.Terminator.run, jumps]
  rfl

/-- The open block is left for one of two blocks. -/
theorem Stands.condBranch (stands : Stands setting call (At call.last builder) world before)
    {condition : Ir.Value} {whenTrue whenFalse : Nat} {result : Result} {holds : Bool}
    (shown : before.Shows setting.program condition result) (truth : result.truth? = some holds)
    (whenTrue_pos : 0 < whenTrue) (whenFalse_pos : 0 < whenFalse)
    (whenTrue_lt : whenTrue < call.last.blocks.size)
    (whenFalse_lt : whenFalse < call.last.blocks.size)
    (ends : before.frame.rest = [] ∧ ∃ body,
      before.frame.function.blocks[before.frame.block]? = some body ∧
        body.terminator = .condBranch condition whenTrue whenFalse) :
    ∃ after, Arrives setting call count before
      (Entered call.last (if holds then whenTrue else whenFalse) builder.currentIndex) world after := by
  obtain ⟨rest_eq, body, found, terminator_eq⟩ := ends
  obtain ⟨word, held, same⟩ := shown
  refine stands.jump ?_ ?_ fun frame jumps => ?_
  · cases holds
    · exact whenFalse_pos
    · exact whenTrue_pos
  · cases holds
    · exact whenFalse_lt
    · exact whenTrue_lt
  · rw [Ir.Module.step_terminator rest_eq found, terminator_eq, Ir.Terminator.run, held]
    simp only [Option.bind_eq_bind, Option.bind_some, same.truth?_eq, truth, jumps]
    rfl

theorem Stands.splitLogical (stands : Stands setting call (At call.last builder) world before)
    (valid : builder.Valid) {isOr decided : Bool} {left : Ir.Value} {result : Result}
    (includes : (builder.splitLogical isOr left).Includes call.last)
    (shown : before.Shows setting.program left result) (truth : result.truth? = some decided) :
    ∃ after, Arrives setting call count before
      (Entered call.last
        (if decided = isOr then builder.resume.blocks.size + 1 else builder.resume.blocks.size)
        builder.currentIndex) world after := by
  have start_pos : 0 < builder.resume.blocks.size := by
    rw [stands.position.resume_eq]
    exact stands.position.size_pos
  have start_lt := includes.lt_size (Builder.fresh_splitLogical valid isOr left).lt_size
  have next_lt := includes.lt_size (Builder.Awaits.splitLogical valid isOr left).fresh.lt_size
  have ends := stands.position.splitLogical includes
  cases isOr with
  | true =>
      have forks : ∃ after, Arrives setting call count before _ world after :=
        stands.condBranch shown truth (Nat.succ_pos _) start_pos next_lt start_lt ends
      cases decided <;> exact forks
  | false =>
      have forks : ∃ after, Arrives setting call count before _ world after :=
        stands.condBranch shown truth start_pos (Nat.succ_pos _) start_lt next_lt ends
      cases decided <;> exact forks

theorem Stands.splitTwo (stands : Stands setting call (At call.last builder) world before)
    (valid : builder.Valid) {first second : BlockRole} {holds : Bool} {condition : Ir.Value}
    {result : Result} (includes : (builder.splitTwo first second condition).Includes call.last)
    (shown : before.Shows setting.program condition result) (truth : result.truth? = some holds) :
    ∃ after, Arrives setting call count before
      (Entered call.last (if holds then builder.blocks.size else builder.blocks.size + 1)
        builder.currentIndex) world after :=
  stands.condBranch shown truth stands.position.size_pos (Nat.succ_pos _)
    (includes.lt_size (Builder.fresh_splitTwo valid first second condition).lt_size)
    (includes.lt_size (Builder.Awaits.splitTwo valid first second condition).fresh.lt_size)
    (stands.position.splitTwo includes)

theorem Stands.splitThree (stands : Stands setting call (At call.last builder) world before)
    (valid : builder.Valid) {first second third : BlockRole} {holds : Bool} {condition : Ir.Value}
    {result : Result} (includes : (builder.splitThree first second third condition).Includes call.last)
    (shown : before.Shows setting.program condition result) (truth : result.truth? = some holds) :
    ∃ after, Arrives setting call count before
      (Entered call.last (if holds then builder.blocks.size else builder.blocks.size + 1)
        builder.currentIndex) world after :=
  stands.condBranch shown truth stands.position.size_pos (Nat.succ_pos _)
    (includes.lt_size (Builder.fresh_splitThree valid first second third condition).lt_size)
    (includes.lt_size (Builder.Awaits.splitThree valid first second third condition).1.fresh.lt_size)
    (stands.position.splitThree includes)

theorem Stands.startLoop (stands : Stands setting call (At call.last builder) world before)
    (valid : builder.Valid) (includes : builder.startLoop.Includes call.last) :
    ∃ after, Arrives setting call count before
      (Entered call.last builder.blocks.size builder.currentIndex) world after :=
  stands.branch stands.position.size_pos
    (includes.lt_size (Builder.fresh_startLoop valid).lt_size) (stands.position.startLoop includes)

/-- The open block is left for one that has been there. -/
theorem Stands.leave (stands : Stands setting call (At call.last builder) world before)
    {block following : Nat} (includes : (builder.leave block following).Includes call.last)
    (block_pos : 0 < block) (block_lt : block < builder.blocks.size) :
    ∃ after, Arrives setting call count before (Entered call.last block builder.currentIndex) world
      after := by
  refine stands.branch block_pos (includes.lt_size ?_) (stands.position.leave includes)
  rwa [Builder.leave, Builder.goTo_blocks, Builder.branchTo_size]

/-- At the start of a block in which nothing has been built, a machine is where building goes on in it. -/
theorem Arrives.enter {block source : Nat}
    (arrives : Arrives setting call count before (Entered call.last block source) later after)
    (fresh : builder.Fresh block) (current : builder.current = some block) :
    Arrives setting call count before (At call.last builder) later after :=
  arrives.reposition fun _ entered => entered.1.at fresh current

/-- A value is chosen by the block from which the call has come. -/
theorem Stands.phi (stands : Stands setting call (At call.last builder) world before)
    {type : Ir.ValueType} {incoming : List (Ir.Value × Nat)} {value : Ir.Value} {source : Nat}
    {result : Result} (includes : (builder.emit (.phi type incoming)).Includes call.last)
    (entered : before.frame.previous = some source)
    (found : (incoming.find? fun (_, block) => block == source) = some (value, source))
    (shown : before.Shows setting.program value result) :
    ∃ after, Arrives setting call builder.temporaries before
        (At call.last (builder.emit (.phi type incoming))) world after ∧
      after.Shows setting.program (.temp builder.temporaries) result := by
  obtain ⟨word, held, same⟩ := shown
  exact stands.compute includes ((Ir.Frame.compute_phi entered found).trans held) same

/-- The open block is left for the one where values meet, and its value is chosen there. -/
theorem Stands.meet (stands : Stands setting call (At call.last builder) world before)
    {block following : Nat} (leaves : (builder.resume.leave block following).Includes call.last)
    (block_pos : 0 < block) (block_lt : block < builder.resume.blocks.size) {meeting : Builder}
    (fresh : meeting.Fresh block) (current : meeting.current = some block)
    (temporaries_le : builder.temporaries ≤ meeting.temporaries) {type : Ir.ValueType}
    {incoming : List (Ir.Value × Nat)} {value : Ir.Value} {result : Result}
    (includes : (meeting.emit (.phi type incoming)).Includes call.last)
    (found : (incoming.find? fun (_, block) => block == builder.currentIndex) =
      some (value, builder.currentIndex))
    (shown : before.Shows setting.program value result) (below : value.Below builder.temporaries) :
    ∃ after, Arrives setting call builder.temporaries before
        (At call.last (meeting.emit (.phi type incoming))) world after ∧
      after.Shows setting.program (.temp meeting.temporaries) result := by
  have resumed : Stands setting call (At call.last builder.resume) world before :=
    stands.position.resume_eq.symm ▸ stands
  obtain ⟨entry, leaves⟩ := resumed.leave leaves block_pos block_lt
  rw [Builder.resume_currentIndex] at leaves
  have enters : Arrives setting call builder.temporaries before (At call.last meeting) world entry :=
    leaves.enter fresh current
  obtain ⟨after, emits, shown⟩ := (enters.stands stands).phi includes leaves.position.2 found
    (enters.advances.shows shown below)
  exact ⟨after, enters.trans emits temporaries_le, shown⟩

end Steps

end Minilang.Lowering
