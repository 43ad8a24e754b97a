import Minilang.Proofs.Lowering.Finishing
import Minilang.Proofs.Lowering.Programs
import Minilang.Proofs.Lowering.StatementFlow

/-!
# Definitions dominate uses

In the functions of a compiled module every temporary has exactly one definition. Where a program uses the
constants of its functions only where they are bound on every way, the definitions dominate all uses.
-/

namespace Minilang.Lowering

open Builder (Flowing Carries Grows)

variable {program : Program} {before : Builder} {entries : Entries}

/-- A parameter gets its storage using only what is offered. -/
theorem ParameterTurn.flows {function parameter : DeclId} {start : Builder} {done : List DeclId}
    {type : Ty} (turn : ParameterTurn program function start done parameter type before)
    (flowing : before.Flowing entries) (keeps : Keeps program (.reachable []) before entries)
    (index : Nat) :
    before.Carries entries (withParameter before index parameter (.ofTy type)) entries ∧
      Keeps program (.reachable []) (withParameter before index parameter (.ofTy type)) entries := by
  have room : before.temporaries ∈ Ir.results (before.addAlloca (.ofTy type)).allocas.toList := by
    simp [Builder.addAlloca]
  have toRoom := Carries.addAlloca flowing (.ofTy type)
  have performed := Carries.perform toRoom.flowing
    (.store (.ofTy type) (.arg index) (.temp before.temporaries))
    (by simp [Ir.Operation.operands, Ir.Value.Below]) rfl
    (fun temporary operand => by
      rw [Ir.Operation.operands, List.mem_cons, List.mem_singleton] at operand
      rcases operand with isArgument | same
      · cases isArgument
      · cases same
        exact fun _ _ => .inl room)
  have toStored := toRoom.trans performed
  have storedUnbound : ((before.addAlloca (.ofTy type)).perform
      (.store (.ofTy type) (.arg index) (.temp before.temporaries))).local? parameter = none := by
    rw [Builder.local?, Builder.perform_locals]
    exact turn.unbound
  have storedRoom : before.temporaries ∈ Ir.results
      (withParameter before index parameter (.ofTy type)).allocas.toList := by
    have allocas_eq : (withParameter before index parameter (.ofTy type)).allocas =
        (before.addAlloca (.ofTy type)).allocas := by simp [withParameter, Builder.perform]
    rw [allocas_eq]
    exact room
  have boundKeeps : Keeps program ((Flow.reachable []).declare parameter)
      (withParameter before index parameter (.ofTy type)) entries := by
    refine (keeps.carry toStored (by simp)).bind List.prefix_rfl rfl (.inr ⟨_, rfl, storedRoom⟩)
      (fun _ offered => offered) ?_
    rintro _ ⟨rfl⟩
    exact fun _ _ => .inl storedRoom
  exact ⟨toStored.trans (.bind toStored.flowing storedUnbound (by simp [Ir.Value.Below])),
    boundKeeps.of_declare⟩

/-- What blocks are given at first: nothing but the entry is there yet. -/
def startEntries : Entries := fun block _ => block ≠ 0

theorem started_flowing : started.Flowing startEntries := by
  refine ⟨started_valid, ?_, ?_⟩
  · intro index block found
    obtain rfl : block = ⟨.entry, 0, #[], none⟩ := by
      cases index with
      | zero => exact (Option.some.inj found).symm
      | succ index => simp [started, Builder.addBlock, Builder.goTo, Builder.empty] at found
    exact .of_fresh .entry 0
  · rintro index temporary bound rfl
    simp [started, Builder.empty] at bound

theorem started_keeps : Keeps program (.reachable []) started startEntries := by
  refine ⟨?_, nofun, ?_⟩
  · intro declaration value found
    simp [started, Builder.local?, Builder.empty] at found
  · rintro _ ⟨rfl⟩ declaration member
    cases member

theorem started_numbered : started.Numbered := by
  refine ⟨?_, ?_, ?_⟩
  · simp [started, Builder.results, Builder.addBlock, Builder.goTo, Builder.empty]
  · simp [started, Builder.empty]
  · intro index block found
    obtain rfl : block = ⟨.entry, 0, #[], none⟩ := by
      cases index with
      | zero => exact (Option.some.inj found).symm
      | succ index => simp [started, Builder.addBlock, Builder.goTo, Builder.empty] at found
    exact ⟨by simp, fun _ closed => by cases closed⟩

/-- The blocks of a complete function use only what is defined on every way, if its body uses only what is
bound. -/
theorem CompleteFunction.flows {id : DeclId} {result : Ty} {parameters : List DeclId} {body : StmtId}
    {next : Nat} (complete : CompleteFunction program id result parameters body next)
    (coherent : program.Coherent) {flow : Flow}
    (flows : program.flowStmtWithin (program.ast.stmts.size + 1) (.reachable []) body = some flow) :
    Builds (buildFunction program (.ofTy result) (program.ast.decl id)) .empty
      (fun _ after => ∃ later, started.Carries startEntries after later) fun _ => True := by
  rw [builds_buildFunction complete.kind_eq]
  refine (complete.parameters_keep (fun _ _ after =>
      started.Carries startEntries after startEntries ∧
        Keeps program (.reachable []) after startEntries) ?_
    ⟨.refl started_flowing, started_keeps⟩).mono ?_ fun _ _ => trivial
  · rintro done parameter rest type before turn ⟨carries, keeps⟩
    obtain ⟨toStored, storedKeeps⟩ := turn.flows carries.flowing keeps done.length
    exact ⟨carries.trans toStored, storedKeeps⟩
  rintro lowered before ⟨settles, -, toBefore, keeps⟩
  have bodyFlows := (followsForms_flows ⟨complete.lowerable coherent, complete.apart⟩
    (.ofTy result)).holds coherent.sound complete.inScope (program.ast.stmts.size + 1)
    complete.enough none _ _ _ ((Program.flowSequence_singleton _ _ _).trans flows)
    (Nat.lt_succ_self _) le_rfl
  rw [lowerSequence_singleton] at bodyFlows
  refine (bodyFlows before startEntries toBefore.flowing settles.binds nofun nofun keeps).mono ?_
    fun _ _ => trivial
  rintro _ after ⟨_, later, toAfter, _⟩
  exact ⟨later, toBefore.trans toAfter⟩

/-- What has grown from its first block has blocks. -/
theorem size_ne_zero_of_started {built : Builder} (grows : started.Grows built) :
    built.blocks.size ≠ 0 := by
  have size_le := grows.size_le
  simp only [started, Builder.goTo_blocks, Builder.addBlock_size] at size_le
  omega

/-- A lowered function assigns every temporary once, and the definitions dominate all uses if its body uses
only what is bound. -/
theorem lowerFunction_dominates (coherent : program.Coherent) {id : DeclId}
    (atTop : id ∈ program.declarations) (isFunction : (program.ast.kindOf id).isFunction = true)
    {function : Ir.Function} (lowered : lowerFunction program id = .ok function) :
    function.SingleAssignment ∧
      (program.bindsDefinitely = true → function.DominatesUses) := by
  obtain ⟨result, parameters, body, next, complete⟩ := exists_completeFunction coherent atTop isFunction
  obtain ⟨given, built, run, grows, rfl⟩ := complete.exists_built coherent lowered
  have numbered := grows.numbered started_valid.wellFormed started_numbered
  refine ⟨numbered.singleAssignment (size_ne_zero_of_started grows), fun definitely => ?_⟩
  have bodyFlows := List.all_eq_true.1 definitely id atTop
  rw [complete.kind_eq] at bodyFlows
  obtain ⟨flow, flows⟩ := Option.isSome_iff_exists.1 bodyFlows
  obtain ⟨later, carries⟩ := (complete.flows coherent flows).result run
  refine carries.flowing.dominatesUses numbered fun temporary isGiven => ?_
  rw [carries.kept 0 (by simp [started])] at isGiven
  exact isGiven rfl

end Minilang.Lowering

namespace Minilang

/-- In a compiled module every temporary has exactly one definition. If the program uses the constants of its
functions only where they are bound on every way, every use that can be reached is dominated by it. -/
theorem compile_dominates {source : Source} {module : Ir.Module}
    (compiled : compile source = .ok module) :
    ∃ program, parse source = .ok program ∧ ∀ function ∈ module.functions,
      function.SingleAssignment ∧
        (program.bindsDefinitely = true → function.DominatesUses) := by
  rw [compile] at compiled
  cases parsed : parse source with
  | error cause =>
      rw [parsed] at compiled
      cases compiled
  | ok program =>
      rw [parsed] at compiled
      have coherent := parse_coherent parsed
      refine ⟨program, rfl, fun function member => ?_⟩
      replace compiled : lower program = .ok module := compiled
      rw [Lowering.lower_eq coherent] at compiled
      cases run : Lowering.lowerFunctions program
          (program.declarations.filter fun id => (program.ast.decl id).kind.isFunction) with
      | error cause =>
          rw [run] at compiled
          cases compiled
      | ok functions =>
          rw [run] at compiled
          cases compiled
          obtain ⟨id, id_mem, lowered⟩ := Lowering.mem_of_lowerFunctions run member
          obtain ⟨atTop, isFunction⟩ := List.mem_filter.1 id_mem
          exact Lowering.lowerFunction_dominates coherent atTop isFunction lowered

/-- A constant that is declared between the branches of a conditional and used behind it. -/
def definitelyBound : Source :=
  ⟨"t", "def f(c: bool) -> int { let x: int = c ? f(c) : 1; when (c) return x; return x + x; }"⟩

theorem compile_dominates_of_definitelyBound :
    ∃ module, compile definitelyBound = .ok module ∧ module.functions ≠ [] ∧
      ∀ function ∈ module.functions, function.SingleAssignment ∧ function.DominatesUses := by
  have compiles :
      (compile definitelyBound).toOption.any (fun module => module.functions ≠ []) = true := by
    decide +kernel
  have binds : (parse definitelyBound).toOption.all Program.bindsDefinitely = true := by
    decide +kernel
  cases compiled : compile definitelyBound with
  | error cause =>
      rw [compiled] at compiles
      cases compiles
  | ok module =>
      rw [compiled] at compiles
      obtain ⟨program, parsed, all⟩ := compile_dominates compiled
      rw [parsed] at binds
      refine ⟨module, rfl, of_decide_eq_true compiles, fun function member => ?_⟩
      obtain ⟨single, dominates⟩ := all function member
      exact ⟨single, dominates binds⟩

/-- A constant that a guard leaves out, and that is used behind the guarded declaration. -/
def guardedConstant : Source :=
  ⟨"t", "def f(c: bool) -> int { when (c) let x: int = f(c); return x; }"⟩

/-- The value of a constant that is declared behind a guard reaches the block where the ways meet again,
although the way around the declaration does not compute it. -/
theorem compile_guardedConstant_not_dominated :
    ∃ module, compile guardedConstant = .ok module ∧
      ∃ function ∈ module.functions, ¬ function.DominatesUses := by
  let entry : Ir.Block := ⟨"entry", [⟨some 0, .alloca .i1⟩, ⟨none, .store .i1 (.arg 0) (.temp 0)⟩,
    ⟨some 1, .load .i1 (.temp 0)⟩], .condBranch (.temp 1) 1 2⟩
  let whenThen : Ir.Block := ⟨"when.then", [⟨some 2, .load .i1 (.temp 0)⟩,
    ⟨some 3, .call .i32 (.function "f") [(.i1, .temp 2)]⟩], .branch 2⟩
  let whenEnd : Ir.Block := ⟨"when.end", [], .ret .i32 (.temp 3)⟩
  let function : Ir.Function := ⟨"f", [⟨"c", .i1⟩], .i32, [entry, whenThen, whenEnd]⟩
  refine ⟨⟨"t", [], [function]⟩, by decide +kernel, function, List.mem_singleton.2 rfl, ?_⟩
  intro dominates
  -- The way around the declaration passes the entry only.
  have around : function.Walk [0] 2 := .step .entry rfl (by decide)
  have used : function.Uses 3 2 whenEnd.instructions.length :=
    .terminator rfl (List.mem_singleton.2 rfl)
  rcases dominates 3 2 _ used ⟨[0], around⟩ with ⟨body, found, defined⟩ | ⟨definition, defines, all⟩
  · cases defined
  · obtain rfl := List.mem_singleton.1 (all [0] around)
    obtain ⟨body, found, defined⟩ := defines
    obtain rfl : entry = body := Option.some.inj found
    revert defined
    decide

end Minilang
