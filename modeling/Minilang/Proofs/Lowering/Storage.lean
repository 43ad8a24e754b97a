import Minilang.Proofs.Lowering.Programs
import Minilang.Proofs.Lowering.Simulation

/-!
# Storage of functions

Every variable and parameter of a function has room of its own, which is made before anything else is done.
Where the room has been made, the layout places the objects of the activation there.
-/

namespace Minilang.Lowering

open Evaluation (Result World)
open Builder (Grows At)
open Ir (Word Memory)

variable {program : Program} {before after : Builder}

/-- Whether the variables and parameters of a function have room of their own. -/
structure Rooms (program : Program) (builder : Builder) : Prop where
  /-- The values of their names are addresses of room. -/
  room : ∀ declaration value, (program.ast.kindOf declaration).isVariable = true →
    builder.local? declaration = some value →
    ∃ temporary, value = .temp temporary ∧ temporary < builder.temporaries ∧
      temporary ∈ Ir.results builder.allocas.toList
  /-- No two of them share it. -/
  apart : ∀ first second value, (program.ast.kindOf first).isVariable = true →
    (program.ast.kindOf second).isVariable = true → builder.local? first = some value →
    builder.local? second = some value → first = second

namespace Rooms

/-- Steps that give no name a value keep the room. -/
theorem onward (rooms : Rooms program before)
    (allocas_le : before.allocas.toList <+: after.allocas.toList)
    (temporaries_le : before.temporaries ≤ after.temporaries)
    (locals_eq : after.locals = before.locals) : Rooms program after := by
  have local_eq (declaration : DeclId) : after.local? declaration = before.local? declaration := by
    rw [Builder.local?, locals_eq, Builder.local?]
  constructor
  · intro declaration value isVariable found
    rw [local_eq] at found
    obtain ⟨temporary, same, bound, isRoom⟩ := rooms.room declaration value isVariable found
    exact ⟨temporary, same, bound.trans_le temporaries_le, (allocas_le.filterMap _).subset isRoom⟩
  · intro first second value firstVariable secondVariable firstFound secondFound
    rw [local_eq] at firstFound secondFound
    exact rooms.apart first second value firstVariable secondVariable firstFound secondFound

theorem of_grows (rooms : Rooms program before) (grows : before.Grows after)
    (locals_eq : after.locals = before.locals) : Rooms program after :=
  rooms.onward grows.allocas_le grows.temporaries_le locals_eq

theorem leave (rooms : Rooms program before) (target next : Nat) :
    Rooms program (before.leave target next) :=
  rooms.onward (before.leave_allocas target next ▸ List.prefix_rfl) (by simp) (before.leave_locals target next)

/-- A variable that gets new room shares it with no other one. -/
theorem bind (rooms : Rooms program before) {id : DeclId}
    (allocas_le : before.allocas.toList <+: after.allocas.toList)
    (isRoom : before.temporaries ∈ Ir.results after.allocas.toList)
    (temporaries_lt : before.temporaries < after.temporaries)
    (locals_eq : after.locals = (id, .temp before.temporaries) :: before.locals) :
    Rooms program after := by
  have local_eq (declaration : DeclId) : after.local? declaration =
      if declaration = id then some (.temp before.temporaries)
      else before.local? declaration := by
    rw [Builder.local?, locals_eq, List.lookup_cons]
    by_cases same : declaration = id
    · simp [same]
    · rw [beq_eq_false_iff_ne.2 same, if_neg same, Builder.local?]
  have elsewhere (declaration : DeclId)
      (isVariable : (program.ast.kindOf declaration).isVariable = true)
      (found : before.local? declaration = some (.temp before.temporaries)) : False := by
    obtain ⟨temporary, same, bound, _⟩ := rooms.room declaration _ isVariable found
    cases same
    exact Nat.lt_irrefl _ bound
  constructor
  · intro declaration value isVariable found
    rw [local_eq] at found
    split at found
    · cases found
      exact ⟨_, rfl, temporaries_lt, isRoom⟩
    · obtain ⟨temporary, same, bound, isRoom⟩ := rooms.room declaration value isVariable found
      exact ⟨temporary, same, bound.trans temporaries_lt, (allocas_le.filterMap _).subset isRoom⟩
  · intro first second value firstVariable secondVariable firstFound secondFound
    rw [local_eq] at firstFound secondFound
    split at firstFound <;> split at secondFound
    · next isFirst isSecond => exact isFirst.trans isSecond.symm
    · cases firstFound
      exact (elsewhere second secondVariable secondFound).elim
    · cases secondFound
      exact (elsewhere first firstVariable firstFound).elim
    · exact rooms.apart first second value firstVariable secondVariable firstFound secondFound

/-- Constants need no room. -/
theorem bindConstant (rooms : Rooms program before) {id : DeclId} (value : Ir.Value)
    (isConstant : (program.ast.kindOf id).isVariable = false) :
    Rooms program (before.bind id value) := by
  have local_eq (declaration : DeclId)
      (isVariable : (program.ast.kindOf declaration).isVariable = true) :
      (before.bind id value).local? declaration = before.local? declaration := by
    have different : declaration ≠ id := by
      rintro rfl
      rw [isConstant] at isVariable
      cases isVariable
    rw [Builder.local?, Builder.bind_locals, List.lookup_cons, beq_eq_false_iff_ne.2 different,
      Builder.local?]
  constructor
  · intro declaration other isVariable found
    rw [local_eq declaration isVariable] at found
    exact rooms.room declaration other isVariable found
  · intro first second other firstVariable secondVariable firstFound secondFound
    rw [local_eq _ firstVariable] at firstFound
    rw [local_eq _ secondVariable] at secondFound
    exact rooms.apart first second other firstVariable secondVariable firstFound secondFound

theorem started (program : Program) : Rooms program started := by
  constructor
  · intro declaration value _ found
    simp [Lowering.started, Builder.local?, Builder.empty] at found
  · intro first second value _ _ found
    simp [Lowering.started, Builder.local?, Builder.empty] at found

theorem withParameter (rooms : Rooms program before) (index : Nat) (id : DeclId)
    (type : Ir.ValueType) : Rooms program (withParameter before index id type) := by
  refine rooms.bind ?_ ?_ (by simp [Lowering.withParameter])
    (by simp [Lowering.withParameter] : _ = (id, Ir.Value.temp before.temporaries) :: _)
  · have grows : before.Grows (before.addAlloca type) := .addAlloca type .refl
    simpa [Lowering.withParameter, Builder.perform] using grows.allocas_le
  · simp [Lowering.withParameter, Builder.perform, Builder.addAlloca]

end Rooms

/-- Whether room has been made for the results of instructions. -/
structure Furnishes (temporaries : List Nat) (room : Nat → Nat) (before after : Memory) : Prop where
  slots_le : before.slots ≤ after.slots
  kept : ∀ address, (∀ slot, address = .slot slot → slot < before.slots) →
    after.cells address = before.cells address
  made : ∀ temporary ∈ temporaries, before.slots ≤ room temporary ∧ room temporary < after.slots ∧
    (after.cells (.slot (room temporary))).isSome = true
  apart : ∀ first ∈ temporaries, ∀ second ∈ temporaries, room first = room second → first = second

theorem Furnishes.nil (room : Nat → Nat) (memory : Memory) : Furnishes [] room memory memory :=
  ⟨le_rfl, fun _ _ => rfl, nofun, nofun⟩

/-- The next room is made at the next address. -/
theorem Furnishes.cons {result : Option Nat} {temporaries : List Nat} {room : Nat → Nat}
    {memory later : Memory} (fresh : ∀ temporary ∈ temporaries, some temporary ≠ result)
    (furnishes : Furnishes temporaries room memory.allocate later) :
    Furnishes (result.toList ++ temporaries)
      (fun temporary => if some temporary = result then memory.slots else room temporary) memory
      later := by
  have slots_lt : memory.slots < later.slots := furnishes.slots_le
  have kept (address : Ir.Address)
      (old : ∀ slot, address = .slot slot → slot < memory.slots + 1) :
      later.cells address = memory.allocate.cells address := furnishes.kept address old
  have split {temporary : Nat} (member : temporary ∈ result.toList ++ temporaries) :
      some temporary = result ∨ some temporary ≠ result ∧ temporary ∈ temporaries := by
    rcases List.mem_append.1 member with isResult | member
    · exact .inl (Option.mem_toList.1 isResult).symm
    · exact .inr ⟨fresh temporary member, member⟩
  refine ⟨slots_lt.le, ?_, ?_, ?_⟩
  · intro address old
    rw [kept address fun slot same => Nat.lt_succ_of_lt (old slot same), Memory.allocate_cells,
      if_neg]
    rintro rfl
    exact Nat.lt_irrefl _ (old _ rfl)
  · intro temporary member
    rcases split member with isResult | ⟨notResult, member⟩
    · rw [if_pos isResult, kept (.slot memory.slots) (by rintro _ ⟨rfl⟩; exact Nat.lt_succ_self _),
        Memory.allocate_cells, if_pos rfl]
      exact ⟨le_rfl, slots_lt, rfl⟩
    · rw [if_neg notResult]
      obtain ⟨new, bound, isSome⟩ := furnishes.made temporary member
      exact ⟨(Nat.le_succ _).trans new, bound, isSome⟩
  · have elsewhere (temporary : Nat) (member : temporary ∈ temporaries) :
        room temporary ≠ memory.slots :=
      Nat.ne_of_gt (furnishes.made temporary member).1
    intro first firstMember second secondMember same
    rcases split firstMember with isFirst | ⟨notFirst, firstMember⟩ <;>
      rcases split secondMember with isSecond | ⟨notSecond, secondMember⟩
    · exact Option.some.inj (isFirst.trans isSecond.symm)
    · rw [if_pos isFirst, if_neg notSecond] at same
      exact (elsewhere second secondMember same.symm).elim
    · rw [if_neg notFirst, if_pos isSecond] at same
      exact (elsewhere first firstMember same).elim
    · rw [if_neg notFirst, if_neg notSecond] at same
      exact furnishes.apart first firstMember second secondMember same

/-- A machine makes all the room that is asked for. -/
theorem exists_furnishes {module : Ir.Module} {floats : FloatArithmetic}
    {callers : List (Ir.Frame × Option Nat)} {instructions rest : List Ir.Instruction}
    (allocas : ∀ instruction ∈ instructions, ∃ type, instruction.operation = .alloca type)
    (nodup : (Ir.results instructions).Nodup) (frame : Ir.Frame) (memory : Memory)
    (rest_eq : frame.rest = instructions ++ rest) :
    ∃ room temporaries later,
      module.Runs floats (.running frame callers memory)
        (.running { frame.withRest rest with temporaries := temporaries } callers later) ∧
      Furnishes (Ir.results instructions) room memory later ∧
      (∀ temporary ∈ Ir.results instructions,
        temporaries temporary = some (.place (.slot (room temporary)))) ∧
      ∀ temporary ∉ Ir.results instructions, temporaries temporary = frame.temporaries temporary := by
  induction instructions generalizing frame memory with
  | nil =>
      refine ⟨id, frame.temporaries, memory, ?_, .nil id memory, nofun, fun _ _ => rfl⟩
      rw [List.nil_append] at rest_eq
      rw [← rest_eq]
      exact .refl
  | cons instruction instructions induction =>
      rw [List.forall_mem_cons] at allocas
      obtain ⟨result, operation⟩ := instruction
      obtain ⟨⟨type, rfl⟩, allocas⟩ := allocas
      rw [Ir.results_cons, List.nodup_append] at nodup
      have step : module.step floats (.running frame callers memory) =
          some (.running ((frame.withRest (instructions ++ rest)).set result
            (.place (.slot memory.slots))) callers memory.allocate) :=
        Ir.Module.step_instruction rest_eq
      obtain ⟨room, temporaries, later, runs, furnishes, held, kept⟩ := induction allocas nodup.2.1
        ((frame.withRest (instructions ++ rest)).set result (.place (.slot memory.slots)))
        memory.allocate rfl
      have fresh (temporary : Nat) (member : temporary ∈ Ir.results instructions) :
          some temporary ≠ result := by
        rintro rfl
        exact nodup.2.2 temporary (by simp) temporary member rfl
      rw [Ir.results_cons]
      refine ⟨_, temporaries, later, .head step runs, .cons fresh furnishes, ?_, ?_⟩
      · intro temporary member
        by_cases isRest : temporary ∈ Ir.results instructions
        · rw [held temporary isRest, if_neg (fresh temporary isRest)]
        · have isResult : some temporary = result :=
            (Option.mem_toList.1 ((List.mem_append.1 member).resolve_right isRest)).symm
          rw [kept temporary isRest, if_pos isResult]
          exact if_pos isResult
      · intro temporary notMember
        rw [List.mem_append, not_or] at notMember
        rw [kept temporary notMember.2]
        exact if_neg fun isResult => notMember.1 (Option.mem_toList.2 isResult.symm)

/-- The layout in which the variables and parameters of a new activation are placed in their room. -/
def enteredLayout (program : Program) (last : Builder) (activation : Nat) (room : Nat → Nat)
    (layout : Layout) : Layout
  | .automatic other declaration =>
    if other = activation then
      match last.local? declaration with
      | some (.temp temporary) =>
        if (program.ast.kindOf declaration).isVariable then some (.slot (room temporary)) else none
      | _ => none
    else layout (.automatic other declaration)
  | .static declaration => layout (.static declaration)

section Entry

variable {last : Builder} {room : Nat → Nat} {layout : Layout} {world : World}
  {memory later : Memory}

/-- Places in a new activation are room of its variables. -/
theorem Rooms.of_entered (rooms : Rooms program last) {activation : Nat} {declaration : DeclId}
    {address : Ir.Address}
    (placed : enteredLayout program last activation room layout (.automatic activation declaration) =
      some address) :
    ∃ temporary ∈ Ir.results last.allocas.toList, address = .slot (room temporary) ∧
      (program.ast.kindOf declaration).isVariable = true ∧
        last.local? declaration = some (.temp temporary) := by
  rw [enteredLayout, if_pos rfl] at placed
  split at placed
  · next temporary found =>
    obtain ⟨isVariable, placed⟩ := Option.ite_none_right_eq_some.1 placed
    cases placed
    obtain ⟨_, same, _, isRoom⟩ := rooms.room declaration _ isVariable found
    cases same
    exact ⟨temporary, isRoom, rfl, isVariable, found⟩
  · cases placed

theorem Rooms.entered_eq (rooms : Rooms program last) (activation : Nat) {declaration : DeclId}
    (isVariable : (program.ast.kindOf declaration).isVariable = true) {value : Ir.Value}
    (found : last.local? declaration = some value) :
    ∃ temporary ∈ Ir.results last.allocas.toList, value = .temp temporary ∧
      enteredLayout program last activation room layout (.automatic activation declaration) =
        some (.slot (room temporary)) := by
  obtain ⟨temporary, rfl, _, isRoom⟩ := rooms.room declaration value isVariable found
  refine ⟨temporary, isRoom, rfl, ?_⟩
  rw [enteredLayout, if_pos rfl, found]
  exact if_pos isVariable

/-- A place is room of the new activation, or it was there before. -/
theorem Rooms.entered_cases (rooms : Rooms program last) {activation : Nat} {place : Place}
    {address : Ir.Address}
    (placed : enteredLayout program last activation room layout place = some address) :
    layout place = some address ∨
      ∃ declaration, place = .automatic activation declaration ∧
        ∃ temporary ∈ Ir.results last.allocas.toList, address = .slot (room temporary) ∧
          (program.ast.kindOf declaration).isVariable = true ∧
            last.local? declaration = some (.temp temporary) := by
  cases place with
  | static declaration => exact .inl placed
  | automatic other declaration =>
      by_cases isNew : other = activation
      · subst isNew
        exact .inr ⟨declaration, rfl, rooms.of_entered placed⟩
      · rw [enteredLayout, if_neg isNew] at placed
        exact .inl placed

variable (agrees : Agrees program layout world memory)

include agrees

/-- Objects stay where they are when a function is entered. -/
theorem extends_enteredLayout : layout.Extends
    (enteredLayout program last world.activations room layout) := by
  intro place address placed
  cases place with
  | static declaration => exact placed
  | automatic activation declaration =>
      rw [enteredLayout, if_neg]
      · exact placed
      · rintro rfl
        exact Nat.lt_irrefl _ (agrees.activation_lt _ _ _ placed)

/-- When the room of a function has been made, its objects are placed there. -/
theorem enteredLayout_agrees (rooms : Rooms program last)
    (furnishes : Furnishes (Ir.results last.allocas.toList) room memory later) :
    Agrees program (enteredLayout program last world.activations room layout)
      { world with activations := world.activations + 1 } later := by
  have old_cells {place : Place} {address : Ir.Address} (placed : layout place = some address) :
      later.cells address = memory.cells address :=
    furnishes.kept address fun slot same => agrees.slot_lt place slot (same ▸ placed)
  have new_ne {place : Place} {temporary : Nat} (isRoom : temporary ∈ Ir.results last.allocas.toList)
      (placed : layout place = some (.slot (room temporary))) : False :=
    Nat.lt_irrefl _ ((agrees.slot_lt place _ placed).trans_le (furnishes.made temporary isRoom).1)
  constructor
  · exact agrees.static_eq
  · intro first second address firstPlaced secondPlaced
    rcases rooms.entered_cases firstPlaced with
        firstOld | ⟨declaration, rfl, slot, isRoom, rfl, isVariable, found⟩ <;>
      rcases rooms.entered_cases secondPlaced with
        secondOld | ⟨other, rfl, otherSlot, otherRoom, same, otherVariable, otherFound⟩
    · exact agrees.injective first second address firstOld secondOld
    · subst same
      exact (new_ne otherRoom firstOld).elim
    · exact (new_ne isRoom secondOld).elim
    · rw [Ir.Address.slot.injEq] at same
      obtain rfl := furnishes.apart slot isRoom otherSlot otherRoom same
      rw [rooms.apart declaration other _ isVariable otherVariable found otherFound]
  · intro place address placed
    rcases rooms.entered_cases placed with old | ⟨_, rfl, temporary, isRoom, rfl, _⟩
    · rw [old_cells old]
      exact agrees.isSome place address old
    · exact (furnishes.made temporary isRoom).2.2
  · intro place slot placed
    rcases rooms.entered_cases placed with old | ⟨_, rfl, temporary, isRoom, same, _⟩
    · exact (agrees.slot_lt place slot old).trans_le furnishes.slots_le
    · cases same
      exact (furnishes.made temporary isRoom).2.1
  · intro activation declaration address placed
    rcases rooms.entered_cases placed with old | ⟨_, same, _⟩
    · exact Nat.lt_succ_of_lt (agrees.activation_lt _ _ _ old)
    · cases same
      exact Nat.lt_succ_self _
  · intro place value found
    obtain ⟨address, word, placed, read, same⟩ := agrees.written place value found
    refine ⟨address, word, extends_enteredLayout agrees _ _ placed, ?_,
      same.mono (extends_enteredLayout agrees)⟩
    rw [Memory.read, old_cells placed]
    exact read

end Entry

end Minilang.Lowering
