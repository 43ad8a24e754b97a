import Minilang.Proofs.Lowering.ProgramTyping
import Minilang.Proofs.Lowering.StatementAddresses
import Minilang.Proofs.Parsing.PlainTypes

/-!
# Compiled functions confine addresses

A function is built from instructions whose operands have the ranks they need. In the finished function,
where every temporary has one definition, the rank of a value tells whether it is an address of storage.
-/

namespace Minilang

namespace Builder

variable {builder : Builder} {name : String} {parameters : List Ir.Parameter}
  {result : Ir.ValueType} {value : Ir.Value} {rank : Bool}

/-- A temporary of the finished function is the result of what it was built as. -/
theorem Contains.finish_unique {index : Nat} {operation other : Ir.Operation}
    (contains : builder.Contains ⟨some index, operation⟩) (numbered : builder.Numbered)
    (nonempty : builder.blocks.size ≠ 0)
    (found : ⟨some index, other⟩ ∈
      Ir.Function.instructions ⟨name, parameters, result, builder.finish result⟩) :
    other = operation := by
  have nodup : (Ir.results (Ir.Function.instructions
      ⟨name, parameters, result, builder.finish result⟩)).Nodup := by
    rw [results_finish nonempty]
    exact numbered.results_perm.nodup_iff.2 List.nodup_range
  have same := (Ir.Function.definition?_eq nodup found rfl).symm.trans
    (Ir.Function.definition?_eq nodup (contains.finish nonempty) rfl)
  exact congrArg Ir.Instruction.operation (Option.some.inj same)

/-- In the finished function the rank of a value tells whether it is an address. -/
theorem Ranks.isAddress_iff (ranks : builder.Ranks value rank) (numbered : builder.Numbered)
    (nonempty : builder.blocks.size ≠ 0) :
    Ir.IsAddress (Ir.Function.instructions ⟨name, parameters, result, builder.finish result⟩) value ↔
      rank = true := by
  induction ranks with
  | const | arg | function => exact iff_of_false nofun nofun
  | global name => exact iff_of_true (.global name) rfl
  | room bound contains => exact iff_of_true (.room (contains.finish nonempty)) rfl
  | @phi index type incoming rank bound contains some_incoming _ induction =>
      constructor
      · intro address
        cases address with
        | room found => cases contains.finish_unique numbered nonempty found
        | phi found member address =>
            cases contains.finish_unique numbered nonempty found
            exact (induction _ (List.mem_map_of_mem member)).1 address
      · intro isAddress
        obtain ⟨choice, member⟩ := List.exists_mem_of_ne_nil incoming some_incoming
        exact .phi (contains.finish nonempty) member
          ((induction _ (List.mem_map_of_mem member)).2 isAddress)
  | result bound contains notPhi notRoom =>
      refine iff_of_false (fun address => ?_) nofun
      cases address with
      | room found => exact notRoom _ (contains.finish_unique numbered nonempty found).symm
      | phi found =>
          rw [← contains.finish_unique numbered nonempty found] at notPhi
          cases notPhi

end Builder

namespace Ir

variable {ranks : Value → Bool → Prop} {address : Value → Prop}
  (tells : ∀ value rank, ranks value rank → (address value ↔ rank = true))

include tells

/-- Operations on values of the ranks they need confine addresses. -/
theorem Operation.Ranked.confines {operation : Operation} (ranked : operation.Ranked ranks) :
    operation.Confines address := by
  have noAddress {value : Value} (ranked : ranks value false) : ¬address value := fun isAddress =>
    Bool.false_ne_true ((tells value false ranked).1 isAddress)
  cases operation with
  | alloca => exact ranked.elim
  | load => trivial
  | store => exact noAddress ranked.1
  | binary | compare => exact ⟨noAddress ranked.1, noAddress ranked.2⟩
  | cast => exact noAddress ranked
  | call => exact ⟨noAddress ranked.1, fun argument member => noAddress (ranked.2 argument member)⟩
  | phi =>
      obtain ⟨rank, ranked⟩ := ranked
      rintro ⟨chosen, chosen_mem, isAddress⟩ value member
      exact (tells value rank (ranked value member)).2
        ((tells chosen rank (ranked chosen chosen_mem)).1 isAddress)

/-- Terminators that need nothing but other values confine addresses. -/
theorem Terminator.Ranked.confines {terminator : Terminator} (ranked : terminator.Ranked ranks) :
    terminator.Confines address :=
  fun value member isAddress =>
    Bool.false_ne_true ((tells value false (ranked value member)).1 isAddress)

end Ir

namespace Builder

variable {builder : Builder} {name : String} {parameters : List Ir.Parameter}
  {result : Ir.ValueType}

/-- A finished function confines addresses. -/
theorem Ranked.finish (ranked : builder.Ranked) (numbered : builder.Numbered)
    (nonempty : builder.blocks.size ≠ 0) :
    Ir.Function.ConfinesAddresses ⟨name, parameters, result, builder.finish result⟩ := by
  have tells (value : Ir.Value) (rank : Bool) (ranks : builder.Ranks value rank) :
      Ir.IsAddress (Ir.Function.instructions ⟨name, parameters, result, builder.finish result⟩)
        value ↔ rank = true := ranks.isAddress_iff numbered nonempty
  constructor
  · intro instruction member
    obtain ⟨body, body_mem, member⟩ := List.mem_flatMap.1 member
    obtain ⟨index, found⟩ := List.mem_iff_getElem?.1 body_mem
    rw [finish_getElem?] at found
    obtain ⟨block, block_found, rfl⟩ := Option.map_eq_some_iff.1 found
    rcases List.mem_append.1 member with isLead | isOwn
    · obtain ⟨type, alloca⟩ := numbered.lead_eq isLead
      rw [alloca]
      trivial
    · exact (ranked.instruction index block block_found instruction isOwn).confines tells
  · intro body member
    obtain ⟨index, found⟩ := List.mem_iff_getElem?.1 member
    rw [finish_getElem?] at found
    obtain ⟨block, block_found, rfl⟩ := Option.map_eq_some_iff.1 found
    rw [finished]
    cases closed : block.terminator with
    | some terminator =>
        exact (ranked.terminator index block block_found terminator closed).confines tells
    | none =>
        have zero : (Ir.Terminator.ret result (.const (.zero result))).Ranked builder.Ranks :=
          fun _ member => List.mem_singleton.1 member ▸ .const _
        exact zero.confines tells

end Builder

namespace Lowering

variable {program : Program} {before : Builder}

/-- An argument is put into storage, and the parameter designates that storage. -/
theorem withParameter_ranked (ranked : Ranked program before) {parameter : DeclId}
    (unbound : before.local? parameter = none)
    (isVariable : (program.ast.kindOf parameter).isVariable = true) (index : Nat)
    (type : Ir.ValueType) : Ranked program (withParameter before index parameter type) := by
  have slot := before.addAlloca_ranks type
  have stored : (Ir.Operation.store type (.arg index) (.temp before.temporaries)).Ranked
      (before.addAlloca type).Ranks := ⟨.arg index, slot⟩
  have roomRanked := ranked.addAlloca type
  have includes := (Builder.Grows.refl.performed (Builder.Ranked.operand_below stored)).includes
    roomRanked.valid.wellFormed
  refine (roomRanked.perform stored).bind ?_ ?_ fun nameType named => ?_
  · rw [Builder.local?, Builder.perform_locals]
    exact unbound
  · rw [Builder.perform_temporaries]
    exact Nat.lt_succ_self _
  · rw [isReference_of_variable isVariable named]
    exact slot.mono includes

/-- Nothing in an empty function lacks its rank. -/
theorem started_ranked (program : Program) : Ranked program started := by
  have only {index : Nat} {block : OpenBlock} (found : started.blocks[index]? = some block) :
      block = ⟨.entry, 0, #[], none⟩ := by
    cases index with
    | zero => exact (Option.some.inj found).symm
    | succ index => simp [started, Builder.addBlock, Builder.goTo, Builder.empty] at found
  refine ⟨⟨started_valid, fun index block found => ?_, fun index block found => ?_⟩, ?_⟩
  · rw [only found]
    exact List.forall_mem_nil _
  · rw [only found]
    intro terminator closed
    cases closed
  · intro declaration value type found
    simp [started, Builder.local?, Builder.empty] at found

namespace CompleteFunction

variable {id : DeclId} {result : Ty} {parameters : List DeclId} {body : StmtId} {next : Nat}

/-- Once the parameters have got their storage they designate it. -/
theorem parameters_ranked (complete : CompleteFunction program id result parameters body next) :
    Builds (lowerParameters program 0 parameters) started
      (fun _ after =>
        Settles ⟨program.declarations, parameters, id⟩ (id.index + 1) started after ∧
        Ranked program after) fun _ => False := by
  refine (complete.parameters_keep (fun _ _ => Ranked program) ?_ (started_ranked program)).mono
    (fun _ _ keeps => ⟨keeps.1, keeps.2.2⟩) fun _ => False.elim
  intro done parameter rest type before turn ranked
  exact withParameter_ranked ranked turn.unbound turn.isVariable done.length (.ofTy type)

/-- A complete function is built from instructions with operands of the ranks they need. -/
theorem ranked (complete : CompleteFunction program id result parameters body next)
    (storing : Storing program) :
    Builds (buildFunction program (.ofTy result) (program.ast.decl id)) .empty
      (fun _ after => after.Ranked) fun _ => True := by
  rw [builds_buildFunction complete.kind_eq]
  refine complete.parameters_ranked.mono ?_ fun _ _ => trivial
  rintro lowered before ⟨settles, ranked⟩
  have bodyRanked := (followsForms_lowersStmtRanked
    ⟨complete.lowerable storing.coherent, storing.plain⟩ (.ofTy result)).holds storing.coherent.sound
    complete.inScope (program.ast.stmts.size + 1) complete.enough none (Nat.lt_succ_self _)
  rw [lowerSequence_singleton] at bodyRanked
  exact (bodyRanked.ranks before ranked settles.binds nofun).mono
    (fun _ after afterRanked => afterRanked.ranked) fun _ always => always

end CompleteFunction

/-- A lowered function confines addresses. -/
theorem lowerFunction_confinesAddresses (storing : Storing program) {id : DeclId}
    (atTop : id ∈ program.declarations) (isFunction : (program.ast.kindOf id).isFunction = true)
    {function : Ir.Function} (lowered : lowerFunction program id = .ok function) :
    function.ConfinesAddresses := by
  obtain ⟨result, parameters, body, next, complete⟩ :=
    exists_completeFunction storing.coherent atTop isFunction
  obtain ⟨given, built, run, grows, rfl⟩ := complete.exists_built storing.coherent lowered
  exact ((complete.ranked storing).result run).finish
    (grows.numbered started_valid.wellFormed started_numbered) (size_ne_zero_of_started grows)

end Lowering

/-- In a compiled module addresses of storage serve to reach memory only: none is stored, passed, called,
computed with, decided upon or returned, and where one meets other values in a choice, all are addresses. -/
theorem compile_confinesAddresses {source : Source} {module : Ir.Module}
    (compiled : compile source = .ok module) :
    ∀ function ∈ module.functions, function.ConfinesAddresses := by
  intro function member
  rw [compile] at compiled
  cases parsed : parse source with
  | error cause =>
      rw [parsed] at compiled
      cases compiled
  | ok program =>
      rw [parsed] at compiled
      replace compiled : lower program = .ok module := compiled
      have storing : Lowering.Storing program := ⟨parse_coherent parsed, parse_declaresPlain parsed⟩
      rw [Lowering.lower_eq storing.coherent] at compiled
      cases run : Lowering.lowerFunctions program (program.declarations.filter fun id =>
          (program.ast.decl id).kind.isFunction) with
      | error cause =>
          rw [run] at compiled
          cases compiled
      | ok functions =>
          rw [run] at compiled
          cases compiled
          obtain ⟨id, id_mem, lowered⟩ := Lowering.mem_of_lowerFunctions run member
          obtain ⟨atTop, isFunction⟩ := List.mem_filter.1 id_mem
          exact Lowering.lowerFunction_confinesAddresses storing atTop isFunction lowered

/-- A program that assigns through a choice of a global variable and a parameter. -/
def chosenStorage : Source :=
  ⟨"t", "var g: int = 1;
def f(x: int, c: bool) -> int { (c ? g : x) = 2; return g + f(x, x < g); }"⟩

theorem compile_confinesAddresses_of_chosenStorage :
    ∃ module, compile chosenStorage = .ok module ∧ module.functions.length = 1 ∧
      ∀ function ∈ module.functions, function.ConfinesAddresses := by
  have compiles :
      (compile chosenStorage).toOption.any (fun module => module.functions.length = 1) = true := by
    decide +kernel
  cases compiled : compile chosenStorage with
  | error cause =>
      rw [compiled] at compiles
      cases compiles
  | ok module =>
      rw [compiled] at compiles
      exact ⟨module, rfl, of_decide_eq_true compiles, compile_confinesAddresses compiled⟩

end Minilang
