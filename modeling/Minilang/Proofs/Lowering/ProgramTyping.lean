import Minilang.Proofs.Lowering.Dominance
import Minilang.Proofs.Lowering.StatementTyping

/-!
# Compiled modules are typed

A function is built from typed parts and stays typed when it is finished, where every temporary has the type
of its one definition. As names at the top of a program are different, a function that is called by its name
is the one that the name means in the module.
-/

namespace Minilang

namespace Builder

variable {builder : Builder} {name : String} {parameters : List Ir.Parameter}
  {result : Ir.ValueType} {calls : String → Ir.Signature → Prop}

/-- What has been built is there in the finished function. -/
theorem Contains.finish {instruction : Ir.Instruction} (contains : builder.Contains instruction)
    (nonempty : builder.blocks.size ≠ 0) :
    instruction ∈ Ir.Function.instructions ⟨name, parameters, result, builder.finish result⟩ := by
  have finished {index : Nat} {block : OpenBlock} (found : builder.blocks[index]? = some block)
      (member : instruction ∈ builder.lead index ++ block.instructions.toList) :
      instruction ∈ Ir.Function.instructions ⟨name, parameters, result, builder.finish result⟩ := by
    refine List.mem_flatMap.2 ⟨builder.finished result index block, ?_, member⟩
    apply List.mem_of_getElem?
    rw [finish_getElem?, found, Option.map_some]
  rcases contains with room | ⟨index, block, found, member⟩
  · have first := Array.getElem?_eq_getElem (Nat.pos_of_ne_zero nonempty)
    refine finished first (List.mem_append_left _ ?_)
    rw [lead, if_pos rfl]
    exact room
  · exact finished found (List.mem_append_right _ member)

/-- Values have their types in the finished function. -/
theorem Holds.finish {value : Ir.Value} {type : Ir.ValueType}
    (holds : builder.Holds (parameters.map Ir.Parameter.type) value type)
    (numbered : builder.Numbered) (nonempty : builder.blocks.size ≠ 0) :
    Ir.Function.Holds ⟨name, parameters, result, builder.finish result⟩ value type := by
  cases holds with
  | const | global | function => rfl
  | arg found =>
      rw [List.getElem?_map] at found
      exact found
  | @temp index operation _ _ contains type_eq =>
      have nodup : (Ir.results (Ir.Function.instructions
          ⟨name, parameters, result, builder.finish result⟩)).Nodup := by
        rw [results_finish nonempty]
        exact numbered.results_perm.nodup_iff.2 List.nodup_range
      rw [Ir.Function.Holds, Ir.Function.typeOf?,
        Ir.Function.definition?_eq nodup (contains.finish nonempty) rfl, Option.bind_some]
      exact type_eq

/-- A finished function is typed. -/
theorem WellTyped.finish
    (typed : builder.WellTyped ⟨parameters.map Ir.Parameter.type, result⟩ calls)
    (numbered : builder.Numbered) (nonempty : builder.blocks.size ≠ 0) :
    Ir.Function.WellTyped calls ⟨name, parameters, result, builder.finish result⟩ := by
  have holds {value : Ir.Value} {type : Ir.ValueType}
      (holds : builder.Holds (parameters.map Ir.Parameter.type) value type) :
      Ir.Function.Holds ⟨name, parameters, result, builder.finish result⟩ value type :=
    holds.finish numbered nonempty
  constructor
  · intro body member instruction instruction_mem
    obtain ⟨index, found⟩ := List.mem_iff_getElem?.1 member
    rw [finish_getElem?] at found
    obtain ⟨block, block_found, rfl⟩ := Option.map_eq_some_iff.1 found
    rcases List.mem_append.1 instruction_mem with isLead | isOwn
    · obtain ⟨type, alloca⟩ := numbered.lead_eq isLead
      rw [alloca]
      exact .alloca type
    · exact ((typed.block index block block_found).instruction instruction isOwn).mono
        (fun _ _ => holds) fun _ _ called => called
  · intro body member
    obtain ⟨index, found⟩ := List.mem_iff_getElem?.1 member
    rw [finish_getElem?] at found
    obtain ⟨block, block_found, rfl⟩ := Option.map_eq_some_iff.1 found
    rw [finished]
    cases closed : block.terminator with
    | some terminator =>
        exact ((typed.block index block block_found).terminator terminator closed).mono
          fun _ _ => holds
    | none =>
        refine .ret ?_
        rw [Ir.Function.Holds, Ir.Function.typeOf?, Ir.Constant.type_zero]

end Builder

namespace Lowering

variable {program : Program} {signature : Ir.Signature} {before : Builder}

/-- A parameter is put into storage of its type. -/
theorem withParameter_typed (typed : Typed program signature before) {parameter : DeclId}
    {type : Ir.ValueType} {index : Nat} (unbound : before.local? parameter = none)
    (isVariable : (program.ast.kindOf parameter).isVariable = true)
    (argument : signature.arguments[index]? = some type) :
    Typed program signature (withParameter before index parameter type) := by
  have roomTyped := typed.addAlloca type
  have stored : (Ir.Operation.store type (.arg index) (.temp before.temporaries)).WellTyped
      ((before.addAlloca type).Holds signature.arguments) program.Calls :=
    .store (.arg argument) (before.addAlloca_holds type)
  have grows := Builder.Grows.refl.performed (Builder.WellTyped.operand_below stored)
  rw [withParameter]
  refine (roomTyped.perform stored).bind ?_ ?_ fun nameType named => .of_holds ?_ (by simp)
  · rw [Builder.local?, Builder.perform_locals]
    exact unbound
  · rw [Builder.perform_temporaries]
    exact Nat.lt_succ_self _
  · cases named with
    | «variable» =>
        rw [Ir.ValueType.ofTy_referenceTo]
        exact (before.addAlloca_holds type).mono (grows.includes roomTyped.valid.wellFormed)
    | name notVariable => rw [isVariable] at notVariable; cases notVariable

/-- Nothing in an empty function lacks its type. -/
theorem started_typed (program : Program) (signature : Ir.Signature) :
    Typed program signature started := by
  refine ⟨⟨started_valid, ?_⟩, ?_⟩
  · intro index block found
    obtain rfl : block = ⟨.entry, 0, #[], none⟩ := by
      cases index with
      | zero => exact (Option.some.inj found).symm
      | succ index => simp [started, Builder.addBlock, Builder.goTo, Builder.empty] at found
    exact .of_fresh .entry 0
  · intro declaration value type found
    simp [started, Builder.local?, Builder.empty] at found

namespace CompleteFunction

variable {id : DeclId} {result : Ty} {parameters : List DeclId} {body : StmtId} {next : Nat}

/-- Once the parameters have got their storage it has their types. -/
theorem parameters_typed (complete : CompleteFunction program id result parameters body next)
    (arguments_eq : signature.arguments = (Analysis.typesOf program.ast parameters).map .ofTy) :
    Builds (lowerParameters program 0 parameters) started
      (fun lowered after =>
        Settles ⟨program.declarations, parameters, id⟩ (id.index + 1) started after ∧
        lowered.map Ir.Parameter.type = signature.arguments ∧ Typed program signature after)
      fun _ => False := by
  -- The arguments from the next one on have the types of the parameters that are left.
  refine (complete.parameters_keep (fun done rest before => Typed program signature before ∧
      signature.arguments.drop done.length = (Analysis.typesOf program.ast rest).map .ofTy) ?_
    ⟨started_typed program signature, arguments_eq⟩).mono ?_ fun _ => False.elim
  · rintro done parameter rest type before turn ⟨typed, left_eq⟩
    have types_eq : Analysis.typesOf program.ast (parameter :: rest) =
        type :: Analysis.typesOf program.ast rest :=
      List.filterMap_cons_some (by rw [turn.kind_eq, DeclKind.type?])
    rw [types_eq, List.map_cons] at left_eq
    have argument : signature.arguments[done.length]? = some (.ofTy type) := by
      rw [← Nat.add_zero done.length, ← List.getElem?_drop, left_eq, List.getElem?_cons_zero]
    refine ⟨withParameter_typed typed turn.unbound turn.isVariable argument, ?_⟩
    rw [List.length_append, List.length_singleton, ← List.drop_drop, left_eq]
    rfl
  · rintro lowered after ⟨settles, types_eq, typed, -⟩
    exact ⟨settles, types_eq.trans arguments_eq.symm, typed⟩

/-- A complete function is built from typed parts. -/
theorem wellTyped (complete : CompleteFunction program id result parameters body next)
    (coherent : program.Coherent) :
    Builds (buildFunction program (.ofTy result) (program.ast.decl id)) .empty
      (fun lowered after =>
        after.WellTyped ⟨lowered.map Ir.Parameter.type, .ofTy result⟩ program.Calls ∧
          lowered.map Ir.Parameter.type = (Analysis.typesOf program.ast parameters).map .ofTy)
      fun _ => True := by
  rw [builds_buildFunction complete.kind_eq]
  set signature : Ir.Signature :=
    ⟨(Analysis.typesOf program.ast parameters).map .ofTy, .ofTy result⟩
  have arguments_eq : signature.arguments = (Analysis.typesOf program.ast parameters).map .ofTy := rfl
  refine (complete.parameters_typed arguments_eq).mono ?_ fun _ _ => trivial
  rintro lowered before ⟨settles, lowered_eq, beforeTyped⟩
  have function_type : (program.ast.kindOf id).type? =
      some (.function result (Analysis.typesOf program.ast parameters)) := by
    rw [complete.kind_eq, DeclKind.type?]
  have forms : FollowsForms program _ signature.result _ :=
    followsForms_lowersStmtTyped (complete.lowerable coherent) function_type rfl
  have bodyTyped := forms.holds coherent.sound complete.inScope (program.ast.stmts.size + 1)
    complete.enough none (List.forall_mem_singleton.2 complete.returns) (Nat.lt_succ_self _)
  rw [lowerSequence_singleton] at bodyTyped
  refine (bodyTyped.types before beforeTyped settles.binds (fun _ same => by cases same)).mono ?_
    fun _ always => always
  intro _ after afterTyped
  rw [lowered_eq]
  exact ⟨afterTyped.wellTyped, rfl⟩

end CompleteFunction

/-- A function is lowered to a typed one with its name and its signature. -/
theorem lowerFunction_typed (coherent : program.Coherent) {id : DeclId}
    (atTop : id ∈ program.declarations) (isFunction : (program.ast.kindOf id).isFunction = true)
    {function : Ir.Function} (lowered : lowerFunction program id = .ok function) :
    function.WellTyped program.Calls ∧ function.name = (program.ast.decl id).name ∧
      ∃ result types parameters body,
        program.ast.kindOf id = .function (.function result types) parameters body ∧
          function.signature = ⟨types.map .ofTy, .ofTy result⟩ := by
  obtain ⟨result, parameters, body, next, complete⟩ := exists_completeFunction coherent atTop isFunction
  obtain ⟨given, built, run, grows, rfl⟩ := complete.exists_built coherent lowered
  obtain ⟨wellTyped, types_eq⟩ := (complete.wellTyped coherent).result run
  refine ⟨wellTyped.finish (grows.numbered started_valid.wellFormed started_numbered)
    (size_ne_zero_of_started grows), rfl, _, _, _, _, complete.kind_eq, ?_⟩
  rw [Ir.Function.signature, types_eq]

/-- The functions of a lowered program keep their names. -/
theorem names_of_lowerFunctions (coherent : program.Coherent) {ids : List DeclId}
    {functions : List Ir.Function}
    (atTop : ∀ id ∈ ids, id ∈ program.declarations ∧ (program.ast.kindOf id).isFunction = true)
    (lowered : lowerFunctions program ids = .ok functions) :
    functions.map Ir.Function.name = ids.map fun id => (program.ast.decl id).name := by
  have all := forall₂_of_lowerFunctions lowered
  clear lowered
  induction all with
  | nil => rfl
  | cons first _ induction =>
      rw [List.forall_mem_cons] at atTop
      rw [List.map_cons, List.map_cons, induction atTop.2,
        (lowerFunction_typed coherent atTop.1.1 atTop.1.2 first).2.1]

end Lowering

/-- Among functions with different names, the first one with a name is the only one. -/
theorem Ir.Module.function?_eq {module : Ir.Module} {function : Ir.Function}
    (nodup : (module.functions.map Ir.Function.name).Nodup) (member : function ∈ module.functions) :
    module.function? function.name = some function := by
  rw [Ir.Module.function?]
  generalize module.functions = functions at nodup member
  induction functions with
  | nil => cases member
  | cons first rest induction =>
      rw [List.map_cons, List.nodup_cons] at nodup
      rw [List.find?_cons]
      rcases List.mem_cons.1 member with rfl | member
      · rw [beq_self_eq_true]
      · have different : first.name ≠ function.name := fun same =>
          nodup.1 (same ▸ List.mem_map_of_mem member)
        rw [beq_eq_false_iff_ne.2 different]
        exact induction nodup.2 member

/-- A lowered program is a typed module. -/
theorem Lowering.lower_wellTyped {program : Program} (coherent : program.Coherent)
    {module : Ir.Module} (lowered : lower program = .ok module) : module.WellTyped := by
  rw [lower_eq coherent] at lowered
  set ids := program.declarations.filter fun id => (program.ast.decl id).kind.isFunction
  have atTop : ∀ id ∈ ids, id ∈ program.declarations ∧
      (program.ast.kindOf id).isFunction = true := fun id member => List.mem_filter.1 member
  cases run : lowerFunctions program ids with
  | error cause =>
      rw [run] at lowered
      cases lowered
  | ok functions =>
      rw [run] at lowered
      cases lowered
      have names_nodup : (functions.map Ir.Function.name).Nodup := by
        rw [names_of_lowerFunctions coherent atTop run]
        exact coherent.names_nodup.sublist (List.filter_sublist.map _)
      intro function member
      obtain ⟨id, id_mem, lowered⟩ := mem_of_lowerFunctions run member
      have typed := (lowerFunction_typed coherent (atTop id id_mem).1 (atTop id id_mem).2 lowered).1
      -- the function that a call names is lowered as well, and no other one has its name
      have calls (name : String) (signature : Ir.Signature) (called : program.Calls name signature) :
          Ir.Module.Calls ⟨(program.ast.decl program.root).name,
            (program.declarations.map program.ast.decl).filterMap lowerGlobal?, functions⟩ name
            signature := by
        obtain ⟨callee, callee_top, rfl, result, types, parameters, body, kind_eq, rfl⟩ := called
        have isFunction : (program.ast.kindOf callee).isFunction = true := by
          rw [kind_eq, DeclKind.isFunction]
        have callee_mem : callee ∈ ids := List.mem_filter.2 ⟨callee_top, isFunction⟩
        obtain ⟨other, other_mem, other_lowered⟩ := exists_of_mem_ids run callee_mem
        obtain ⟨_, name_eq, _, _, _, _, kind_eq', signature_eq⟩ :=
          lowerFunction_typed coherent callee_top isFunction other_lowered
        rw [kind_eq] at kind_eq'
        cases kind_eq'
        exact ⟨other, name_eq ▸ Ir.Module.function?_eq names_nodup other_mem, signature_eq⟩
      exact ⟨fun block member instruction instruction_mem =>
        (typed.instruction block member instruction instruction_mem).mono
          (fun _ _ holds => holds) calls, typed.terminator⟩

/-- In a compiled module every operand has the type that its instruction states, and functions that are
called by name get arguments of the types of their parameters. -/
theorem compile_wellTyped {source : Source} {module : Ir.Module}
    (compiled : compile source = .ok module) : module.WellTyped := by
  rw [compile] at compiled
  cases parsed : parse source with
  | error cause =>
      rw [parsed] at compiled
      cases compiled
  | ok program =>
      rw [parsed] at compiled
      replace compiled : lower program = .ok module := compiled
      exact Lowering.lower_wellTyped (parse_coherent parsed) compiled

/-- A program in which values are converted, compared, chosen and passed to a function. -/
def mixedTypes : Source :=
  ⟨"t", "let c: char = 'a'; def f(x: float) -> bool { return x < 2.0; }
def main() -> int { return f(1.5) ? c as int : ~3; }"⟩

theorem compile_wellTyped_of_mixedTypes :
    ∃ module, compile mixedTypes = .ok module ∧ module.functions.length = 2 ∧
      module.WellTyped := by
  have compiles :
      (compile mixedTypes).toOption.any (fun module => module.functions.length = 2) = true := by
    decide +kernel
  cases compiled : compile mixedTypes with
  | error cause =>
      rw [compiled] at compiles
      cases compiles
  | ok module =>
      rw [compiled] at compiles
      exact ⟨module, rfl, of_decide_eq_true compiles, compile_wellTyped compiled⟩

end Minilang
