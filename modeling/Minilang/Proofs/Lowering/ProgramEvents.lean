import Mathlib.Data.List.TakeWhile
import Minilang.Proofs.Lowering.ProgramControlFlow
import Minilang.Proofs.Lowering.ProgramTyping
import Minilang.Proofs.Lowering.StatementEvents

/-!
# Events of compiled functions

A compiled function holds what has taken place while it was built: one instruction for each effect, room for
each parameter and each variable, and one branch for each jump to a block of a loop.
-/

namespace Minilang

/-! ## Labels -/

namespace BlockRole

theorem label_succ (role : BlockRole) (earlier : Nat) :
    role.label (earlier + 1) = role.text ++ (earlier + 1).repr := rfl

/-- The letters of a label tell the role. -/
theorem takeWhile_label (role : BlockRole) (earlier : Nat) :
    (role.label earlier).toList.takeWhile (fun letter => !letter.isDigit) = role.text.toList := by
  have letters : ∀ letter ∈ role.text.toList, (!letter.isDigit) = true := by
    rw [← List.all_eq_true]
    cases role <;> decide +kernel
  cases earlier with
  | zero => exact List.takeWhile_eq_self_iff.2 letters
  | succ earlier =>
      have digits : ∀ digit ∈ Nat.toDigits 10 (earlier + 1), digit.isDigit = true := fun digit member =>
        Nat.isDigit_of_mem_toDigits (by decide) (by decide) member
      rw [label_succ, String.toList_append, Nat.toList_repr, List.takeWhile_append_of_pos letters]
      cases digits_eq : Nat.toDigits 10 (earlier + 1) with
      | nil => simp
      | cons digit others =>
          have isDigit := digits digit (by simp [digits_eq])
          rw [List.takeWhile_cons_of_neg (by simp [isDigit]), List.append_nil]

theorem text_inj {role other : BlockRole} (same : role.text = other.text) : role = other := by
  cases role <;> cases other <;> first | rfl | simp [text] at same

/-- Different blocks have different labels. -/
theorem label_inj {role other : BlockRole} {earlier more : Nat}
    (same : role.label earlier = other.label more) : role = other ∧ earlier = more := by
  have text_eq : role.text.toList = other.text.toList := by
    rw [← takeWhile_label role earlier, same, takeWhile_label]
  obtain rfl : role = other := text_inj (String.toList_inj.1 text_eq)
  have ne_text (number : Nat) : role.text ++ number.repr ≠ role.text := fun same =>
    Nat.repr_ne_empty ((String.append_right_inj role.text).1 (same.trans String.append_empty.symm))
  refine ⟨rfl, ?_⟩
  cases earlier with
  | zero =>
      cases more with
      | zero => rfl
      | succ more => exact absurd same.symm (ne_text _)
  | succ earlier =>
      cases more with
      | zero => exact absurd same (ne_text _)
      | succ more =>
          rw [label_succ, label_succ, String.append_right_inj] at same
          have digits_eq := congrArg String.toList same
          rw [Nat.toList_repr, Nat.toList_repr] at digits_eq
          rw [← @Nat.ofDigitChars_ten_toDigits (earlier + 1), digits_eq, Nat.ofDigitChars_ten_toDigits]

end BlockRole

/-! ## What functions hold -/

namespace Ir.Function

variable (function : Function)

/-- The number of instructions with an effect. -/
def countEffect (effect : Effect) : Nat :=
  function.instructions.countP fun instruction => instruction.operation.effect? == some effect

/-- The number of instructions that make room for an object. -/
def countRooms : Nat := function.instructions.countP fun instruction => instruction.operation.isAlloca

/-- The number of blocks with a label. -/
def countLabel (label : String) : Nat := function.blocks.countP fun block => block.label = label

/-- The number of blocks that go on with a block of a label, whatever happens. -/
def countBranches (label : String) : Nat :=
  function.blocks.countP fun block =>
    block.terminator.target?.any fun target => function.label target = label

end Ir.Function

namespace Builder

variable {builder : Builder} {name : String} {parameters : List Ir.Parameter} {result : Ir.ValueType}

/-- Rooms are made in front of all that has been built. -/
theorem instructions_finish (nonempty : builder.blocks.size ≠ 0) :
    (Ir.Function.instructions ⟨name, parameters, result, builder.finish result⟩).map
        Ir.Instruction.operation =
      builder.allocas.toList.map Ir.Instruction.operation ++ builder.operations := by
  rw [← Array.length_toList] at nonempty
  rw [Ir.Function.instructions, finish, operations]
  cases blocks_eq : builder.blocks.toList with
  | nil => exact absurd (by rw [blocks_eq]; rfl) nonempty
  | cons entry others =>
      simp [OpenBlock.close, List.flatMap_map, List.map_flatMap]

/-- Blocks are labelled for what they were made. -/
theorem label_finish {index : Nat} {role : BlockRole} {earlier : Nat}
    (found : builder.places[index]? = some (role, earlier)) :
    Ir.Function.label ⟨name, parameters, result, builder.finish result⟩ index =
      role.label earlier := by
  rw [places, List.getElem?_map, Array.getElem?_toList] at found
  obtain ⟨block, block_found, place_eq⟩ := Option.map_eq_some_iff.1 found
  cases place_eq
  rw [Ir.Function.label]
  dsimp only
  rw [finish_getElem?, block_found]
  rfl

theorem labels_finish (builder : Builder) (result : Ir.ValueType) :
    (builder.finish result).map Ir.Block.label =
      builder.places.map fun place => place.1.label place.2 := by
  rw [finish, places]
  cases builder.blocks.toList with
  | nil => rfl
  | cons entry others => simp [OpenBlock.close]

/-- Blocks go on where they were closed to go on. -/
theorem countP_finish (leads : Nat → Bool) :
    (builder.finish result).countP (fun block => block.terminator.target?.any leads) =
      builder.targets.countP leads := by
  have closed (blocks : List OpenBlock) (value : Ir.Value) :
      (blocks.map fun block => block.close (.ret result value)).countP
          (fun block => block.terminator.target?.any leads) =
        (blocks.flatMap fun block => (block.terminator.bind Ir.Terminator.target?).toList).countP
          leads := by
    induction blocks with
    | nil => rfl
    | cons block blocks induction =>
        rw [List.map_cons, List.countP_cons, induction, List.flatMap_cons, List.countP_append,
          Nat.add_comm, OpenBlock.close]
        cases terminator_eq : block.terminator with
        | none => rfl
        | some terminator =>
            cases terminator with
            | branch target =>
                cases leads_eq : leads target <;> simp [Ir.Terminator.target?, leads_eq]
            | condBranch | ret => rfl
  rw [finish, targets, ← closed _ (.const (.zero result))]
  cases builder.blocks.toList with
  | nil => rfl
  | cons entry others => rfl

end Builder

/-! ## Functions -/

namespace Program

variable (program : Program)

/-- The functions of a program. -/
def functions : List DeclId :=
  program.declarations.filter fun id => (program.ast.kindOf id).isFunction

/-- The outline of the body of a function. -/
def body (id : DeclId) : Outline :=
  match program.ast.kindOf id with
  | .function _ _ (some body) => program.ast.outline body
  | _ => .skip

/-- The jumps in a function. -/
def jumps (id : DeclId) : List Jump := (program.body id).jumps program none 0

end Program

namespace Lowering

open Builder (Records)

variable {program : Program} {before : Builder}

/-- Once the parameters have got their room they are written. -/
theorem CompleteFunction.parameters_record {id : DeclId} {result : Ty} {parameters : List DeclId}
    {body : StmtId} {next : Nat}
    (complete : CompleteFunction program id result parameters body next) :
    Builds (lowerParameters program 0 parameters) started
      (fun _ after =>
        Settles ⟨program.declarations, parameters, id⟩ (id.index + 1) started after ∧
        Records (fun _ => True) (parameters.map fun _ => .store)
          ((Analysis.typesOf program.ast parameters).map .ofTy) [] [] started after)
      fun _ => False := by
  refine (complete.parameters_keep (fun done _ before => Records (fun _ => True)
      (done.map fun _ => .store) ((Analysis.typesOf program.ast done).map .ofTy) [] [] started before)
    ?_ (.refl _ _)).mono (fun _ _ keeps => ⟨keeps.1, keeps.2.2⟩) fun _ => False.elim
  intro done parameter rest type before turn records
  have valid := started_valid.of_grows turn.grows
  have roomed : Records (fun _ => True) [] [.ofTy type] [] [] before
      (before.addAlloca (.ofTy type)) := Builder.records_addAlloca trivial
  have roomed_valid : (before.addAlloca (.ofTy type)).Valid := valid.of_grows (.addAlloca _ .refl)
  have written : Records (fun _ => True) [.store] [] [] [] (before.addAlloca (.ofTy type))
      (withParameter before done.length parameter (.ofTy type)) :=
    (Builder.records_perform roomed_valid trivial trivial).andThen (Builder.records_bind _ _)
  have type_eq : Analysis.typesOf program.ast [parameter] = [type] :=
    List.filterMap_cons_some (by rw [turn.kind_eq, DeclKind.type?])
  have types_eq : Analysis.typesOf program.ast (done ++ [parameter]) =
      Analysis.typesOf program.ast done ++ [type] := by
    rw [← type_eq, Analysis.typesOf, List.filterMap_append]
    rfl
  rw [List.map_append, types_eq, List.map_append]
  exact records.trans (roomed.trans written)

/-- At first no loop has begun. -/
theorem started_begun : Begun 0 started := ⟨rfl, rfl⟩

/-- What is at the top is no parameter. -/
theorem notMem_parameters_of_topLevel (coherent : program.Coherent) {declaration : DeclId}
    (atTop : declaration ∈ program.declarations) {parameters : List DeclId}
    (typed : ∀ parameter ∈ parameters, ∃ type, program.ast.kindOf parameter = .parameter type) :
    declaration ∉ parameters := by
  intro member
  obtain ⟨_, parameter_kind⟩ := typed declaration member
  cases coherent.topLevel declaration atTop with
  | object kind_eq | function kind_eq =>
      rw [kind_eq] at parameter_kind
      cases parameter_kind

/-- A function starts with one block. -/
theorem count_places_started (role : BlockRole) (earlier : Nat) :
    started.places.count (role, earlier) = if earlier < started.countRole role then 1 else 0 := by
  have places_eq : started.places = [(.entry, 0)] := rfl
  rw [Builder.countRole_eq, places_eq, List.map_singleton, List.count_singleton,
    List.count_singleton]
  cases role <;> cases earlier <;> rfl

/-- What has been built when a function has been lowered: the parameters, and then its body. -/
structure Built (program : Program) (id : DeclId) (builder : Builder) : Prop where
  /-- All jumps belong to loops. -/
  faultless : (program.jumps id).filterMap Jump.fault? = []
  /-- The effects, objects, jumps and loops have been added. -/
  records : Records (fun _ => True)
    (((program.ast.kindOf id).parameters.map fun _ => .store) ++ (program.body id).effects program.ast)
    ((Analysis.typesOf program.ast (program.ast.kindOf id).parameters ++
      (program.body id).declared).map .ofTy)
    ((program.jumps id).filterMap Jump.place?) (BlockRole.ofLoops (program.body id).loops)
    started builder
  /-- Room is made in front of the blocks only. -/
  connected : builder.Connected

/-- The blocks of a complete function hold what it does, unless a jump in it belongs to no loop. -/
theorem CompleteFunction.performs {id : DeclId} {result : Ty} {parameters : List DeclId}
    {body : StmtId} {next : Nat} (complete : CompleteFunction program id result parameters body next)
    (coherent : program.Coherent) :
    Builds (buildFunction program (.ofTy result) (program.ast.decl id)) .empty
      (fun _ after => after.Connected → Built program id after)
      fun error => ((program.jumps id).filterMap Jump.fault?).head? = some error := by
  have body_eq : program.body id = program.ast.outline body := by
    rw [Program.body, complete.kind_eq]
  have parameters_eq : (program.ast.kindOf id).parameters = parameters := by
    rw [complete.kind_eq, DeclKind.parameters]
  rw [builds_buildFunction complete.kind_eq]
  refine complete.parameters_record.mono ?_ fun _ => False.elim
  rintro _ before ⟨settles, stored⟩
  have performs := lowerStmt_performs (complete.lowerable coherent) (.ofTy result) complete.inScope
    (Nat.lt_succ_self _) fun declaration member =>
      ⟨notMem_parameters_of_topLevel coherent member complete.typed, complete.apart declaration member⟩
  refine (performs.performs before none 0 (started_valid.of_grows settles.grows) settles.binds
    .outside (started_begun.of_plain stored)).mono ?_ ?_
  · rintro _ after ⟨faultless, records, -⟩
    rw [← body_eq] at faultless records
    refine fun connected => ⟨faultless, ?_, connected⟩
    rw [parameters_eq, List.map_append]
    exact stored.trans records
  · intro error fault
    rwa [Program.jumps, body_eq]

/-- The blocks of a function hold what it does. A function fails to be lowered at its first jump that
belongs to no loop. -/
theorem lowerFunction_performs (coherent : program.Coherent) {id : DeclId}
    (atTop : id ∈ program.declarations) (isFunction : (program.ast.kindOf id).isFunction = true) :
    (∀ function, lowerFunction program id = .ok function →
      ∃ name parameters result builder,
        function = ⟨name, parameters, result, builder.finish result⟩ ∧ Built program id builder) ∧
    ∀ error, lowerFunction program id = .error error →
      ((program.jumps id).filterMap Jump.fault?).head? = some error := by
  obtain ⟨result, parameters, body, next, complete⟩ := exists_completeFunction coherent atTop isFunction
  have builds := complete.performs coherent
  constructor
  · intro function lowered
    obtain ⟨given, built, run, -, function_eq⟩ := complete.exists_built coherent lowered
    exact ⟨_, _, _, built, function_eq,
      builds.result run ((buildFunction_connected _ _).result run).1⟩
  · intro error failed
    exact builds.error (complete.run_of_failed failed)

/-- Functions fail to be lowered at the first of their jumps that belongs to no loop. -/
theorem lowerFunctions_fault (coherent : program.Coherent) {ids : List DeclId} (functions :
    ∀ id ∈ ids, id ∈ program.declarations ∧ (program.ast.kindOf id).isFunction = true)
    {error : Diagnostic} (failed : lowerFunctions program ids = .error error) :
    ((ids.flatMap program.jumps).filterMap Jump.fault?).head? = some error := by
  obtain ⟨done, id, rest, rfl, succeeded, fails⟩ := exists_of_lowerFunctions_failed failed
  have performs (other : DeclId) (member : other ∈ done ++ id :: rest) :=
    lowerFunction_performs coherent (functions other member).1 (functions other member).2
  have faultless : (done.flatMap program.jumps).filterMap Jump.fault? = [] := by
    rw [List.filterMap_flatMap, List.flatMap_eq_nil_iff]
    intro other member
    obtain ⟨function, lowered⟩ := succeeded other member
    obtain ⟨_, _, _, _, -, built⟩ :=
      (performs other (List.mem_append_left _ member)).1 function lowered
    exact built.faultless
  rw [List.flatMap_append, List.filterMap_append, faultless, List.nil_append, List.flatMap_cons,
    List.filterMap_append, List.head?_append, (performs id (by simp)).2 error fails]
  rfl

/-- Where all functions have been built, no jump is a fault. -/
theorem faultless_of_built {ids : List DeclId} {functions : List Ir.Function}
    (all : List.Forall₂ (fun id function => ∃ name parameters result builder,
      function = ⟨name, parameters, result, builder.finish result⟩ ∧ Built program id builder)
      ids functions) : (ids.flatMap program.jumps).filterMap Jump.fault? = [] := by
  induction all with
  | nil => rfl
  | cons first _ induction =>
      obtain ⟨_, _, _, _, -, built⟩ := first
      rw [List.flatMap_cons, List.filterMap_append, built.faultless, induction]
      rfl

/-- A coherent program is lowered by lowering its functions one after another, and fails to be lowered at
the first jump that belongs to no loop. -/
theorem lower_performs (coherent : program.Coherent) :
    (∀ module, lower program = .ok module → List.Forall₂ (fun id function =>
        ∃ name parameters result builder,
          function = ⟨name, parameters, result, builder.finish result⟩ ∧ Built program id builder)
      program.functions module.functions) ∧
    ∀ error, lower program = .error error →
      ((program.functions.flatMap program.jumps).filterMap Jump.fault?).head? = some error := by
  have functions : ∀ id ∈ program.functions,
      id ∈ program.declarations ∧ (program.ast.kindOf id).isFunction = true := fun id member =>
    List.mem_filter.1 member
  have lower_eq : lower program = (lowerFunctions program program.functions).map _ :=
    Lowering.lower_eq coherent
  rw [lower_eq]
  cases run : lowerFunctions program program.functions with
  | error cause =>
      constructor
      · rintro _ ⟨⟩
      · rintro _ ⟨rfl⟩
        exact lowerFunctions_fault coherent functions run
  | ok lowered =>
      constructor
      · rintro _ ⟨rfl⟩
        have all := forall₂_of_lowerFunctions run
        refine ((List.forall₂_and_left _ _).2 ⟨functions, all⟩).imp ?_
        rintro id function ⟨⟨atTop, isFunction⟩, first⟩
        exact (lowerFunction_performs coherent atTop isFunction).1 function first
      · rintro _ ⟨⟩

end Lowering

/-! ## What is held in the end -/

namespace Builder

variable {allowed : Event → Prop} {effects : List Effect} {rooms : List Ir.ValueType}
  {jumps : List (BlockRole × Nat)} {loops : List BlockRole} {before after : Builder}

/-- There is one instruction with an effect for each effect. -/
theorem Records.effects_perm (records : Records allowed effects rooms jumps loops before after) :
    (after.operations.filterMap Ir.Operation.effect?).Perm
      (before.operations.filterMap Ir.Operation.effect? ++ effects) := by
  obtain ⟨events, traces, -, rfl, -⟩ := records
  refine (traces.operations_perm.filterMap _).trans ?_
  rw [List.filterMap_append, List.filterMap_filterMap]
  exact .refl _

theorem Records.allocas_eq (records : Records allowed effects rooms jumps loops before after) :
    after.allocas.toList.map Ir.Instruction.operation =
      before.allocas.toList.map Ir.Instruction.operation ++ rooms.map Ir.Operation.alloca := by
  obtain ⟨events, traces, -, -, rfl, -⟩ := records
  exact traces.allocas_eq

/-- There is one branch to each block of a loop for each jump to it. -/
theorem Records.countP_targets (records : Records allowed effects rooms jumps loops before after)
    (untargeted : before.targets = []) {role : BlockRole} (isLoop : role.isLoop = true)
    (earlier : Nat) {leads : Nat → Bool}
    (leads_iff : ∀ target place, after.places[target]? = some place →
      (leads target = true ↔ place = (role, earlier))) :
    after.targets.countP leads = jumps.count (role, earlier) := by
  obtain ⟨events, traces, -, -, -, rfl, -⟩ := records
  obtain ⟨added, perm, lead⟩ := traces.targets_perm
  rw [untargeted, List.nil_append] at perm
  rw [perm.countP_eq, List.count_filter (by exact isLoop)]
  clear perm traces
  generalize events.filterMap Event.jump? = places at lead
  induction lead with
  | nil => rfl
  | @cons target place _ _ found _ induction =>
      rw [List.countP_cons, List.count_cons, induction]
      simp [leads_iff target place found]

/-- Blocks of a role are numbered from zero on. -/
theorem Traces.count_places {events : List Event} (traces : before.Traces events after)
    (numbered : ∀ role earlier,
      before.places.count (role, earlier) = if earlier < before.countRole role then 1 else 0)
    (role : BlockRole) (earlier : Nat) :
    after.places.count (role, earlier) = if earlier < after.countRole role then 1 else 0 := by
  induction traces with
  | refl => exact numbered role earlier
  | goTo _ _ induction | countTemporary _ induction | bind _ _ _ induction
  | addAlloca _ _ induction => exact induction
  | push _ _ _ induction | jump _ _ _ induction | fork _ _ _ _ _ induction
  | leave _ _ _ _ induction => simpa [Builder.countRole_eq] using induction
  | @addBlock _ after added _ induction =>
      have more : (after.addBlock added).countRole role =
          after.countRole role + if added = role then 1 else 0 := by
        rw [Builder.countRole_eq, Builder.countRole_eq, places_addBlock, List.map_append,
          List.count_append]
        simp [List.count_singleton]
      rw [places_addBlock, List.count_append, induction, List.count_singleton, more]
      by_cases same : added = role
      · subst same
        simp only [beq_iff_eq, Prod.mk.injEq, true_and, if_true]
        split_ifs <;> omega
      · simp [same]

end Builder

namespace Program

variable (program : Program) (id : DeclId)

/-- The expressions that a function evaluates, with those in them. -/
def nodes : List ExprId := (program.body id).evaluated.flatMap program.ast.nodes

/-- The number of expressions in a function with an effect of their own. -/
def countEffect (effect : Effect) : Nat :=
  (program.nodes id).countP fun node => (program.ast.expr node).kind.effect? == some effect

/-- The number of parameters and variables of a function. -/
def countObjects : Nat :=
  (program.ast.kindOf id).parameters.length + (program.body id).declared.length

end Program

namespace Lowering

open Builder (Records)

variable {program : Program} {id : DeclId} {builder : Builder} {name : String}
  {parameters : List Ir.Parameter} {result : Ir.ValueType}

/-- Jumps that belong to no loop are faults. -/
theorem error?_isSome_of_jumps (outline : Outline) {number : Option Nat} {begun : Nat} {jump : Jump}
    (member : jump ∈ outline.jumps program number begun) (outside : jump.loop = none) :
    jump.cause.error?.isSome = true := by
  induction outline generalizing number begun with
  | skip | returnValue | object | expression => cases member
  | sequence first rest first_holds rest_holds =>
      exact (List.mem_append.1 member).elim first_holds rest_holds
  | whenTrue guard body body_holds => exact body_holds member
  | ifElse guard first second first_holds second_holds =>
      exact (List.mem_append.1 member).elim first_holds second_holds
  | whileTrue guard body body_holds =>
      rw [Outline.jumps, List.mem_cons, List.mem_append] at member
      obtain rfl | member | member := member
      · cases outside
      · exact body_holds member
      · split at member
        · rw [List.mem_singleton] at member
          subst member
          cases outside
        · cases member
  | breakLoop | continueLoop =>
      rw [Outline.jumps, List.mem_singleton] at member
      subst member
      rfl

namespace Built

variable (built : Built program id builder)

include built

theorem nonempty : builder.blocks.size ≠ 0 := by
  have entry : started.places[0]? = some (.entry, 0) := rfl
  have found := (List.getElem?_eq_some_iff.1 (built.records.place_eq entry)).1
  rw [Builder.places_length] at found
  exact Nat.ne_of_gt found

theorem allocas_eq : builder.allocas.toList.map Ir.Instruction.operation =
    (Analysis.typesOf program.ast (program.ast.kindOf id).parameters ++
      (program.body id).declared).map fun type => .alloca (.ofTy type) := by
  rw [built.records.allocas_eq, List.map_map]
  rfl

/-- What a function does is one effect for each parameter, and the effects of its body. -/
theorem effects_perm : (builder.operations.filterMap Ir.Operation.effect?).Perm
    (((program.ast.kindOf id).parameters.map fun _ => .store) ++
      ((program.nodes id).filterMap (fun node => (program.ast.expr node).kind.effect?) ++
        (program.body id).declared.map fun _ => .store)) := by
  have evaluated_eq : (program.body id).evaluated.flatMap program.ast.effects =
      (program.nodes id).filterMap fun node => (program.ast.expr node).kind.effect? := by
    rw [Program.nodes, List.filterMap_flatMap]
    rfl
  rw [← evaluated_eq]
  exact built.records.effects_perm.trans (((program.body id).effects_perm program.ast).append_left _)

theorem countEffect_eq (effect : Effect) :
    Ir.Function.countEffect ⟨name, parameters, result, builder.finish result⟩ effect =
      (if effect = .store then program.countObjects id else 0) + program.countEffect id effect := by
  have written {α : Type} (objects : List α) : (objects.map fun _ => Effect.store).count effect =
      if effect = .store then objects.length else 0 := by
    rw [List.map_const', List.count_replicate]
    cases effect <;> rfl
  have quiet : (builder.allocas.toList.map Ir.Instruction.operation).filterMap
      Ir.Operation.effect? = [] := by
    rw [built.allocas_eq, List.filterMap_map, List.filterMap_eq_nil_iff]
    exact fun _ _ => rfl
  calc Ir.Function.countEffect ⟨name, parameters, result, builder.finish result⟩ effect
      = (((Ir.Function.instructions ⟨name, parameters, result, builder.finish result⟩).map
          Ir.Instruction.operation).filterMap Ir.Operation.effect?).count effect := by
        rw [List.count_filterMap, List.countP_map]
        rfl
    _ = (builder.operations.filterMap Ir.Operation.effect?).count effect := by
        rw [Builder.instructions_finish built.nonempty, List.filterMap_append, quiet, List.nil_append]
    _ = _ := by
        rw [built.effects_perm.count_eq, List.count_append, List.count_append, written, written,
          List.count_filterMap, ← Program.countEffect, Program.countObjects]
        split <;> omega

/-- There is room for each parameter and each variable, and no other. -/
theorem countRooms_eq (typed : ∀ parameter ∈ (program.ast.kindOf id).parameters,
      ∃ type, (program.ast.kindOf parameter).type? = some type) :
    Ir.Function.countRooms ⟨name, parameters, result, builder.finish result⟩ =
      program.countObjects id := by
  have types_length := Ast.length_typesOf typed
  have noRoom : builder.operations.countP Ir.Operation.isAlloca = 0 := by
    rw [List.countP_eq_zero, Builder.operations]
    intro operation member
    obtain ⟨block, block_mem, instruction_mem⟩ := List.mem_flatMap.1 member
    obtain ⟨instruction, inside, rfl⟩ := List.mem_map.1 instruction_mem
    obtain ⟨index, found⟩ := List.mem_iff_getElem?.1 block_mem
    rw [Array.getElem?_toList] at found
    simp [built.connected.noRoom index block found instruction inside]
  calc Ir.Function.countRooms ⟨name, parameters, result, builder.finish result⟩
      = ((Ir.Function.instructions ⟨name, parameters, result, builder.finish result⟩).map
          Ir.Instruction.operation).countP Ir.Operation.isAlloca := by
        rw [List.countP_map]
        rfl
    _ = ((Analysis.typesOf program.ast (program.ast.kindOf id).parameters ++
          (program.body id).declared).map fun type => Ir.Operation.alloca (.ofTy type)).countP
            Ir.Operation.isAlloca := by
        rw [Builder.instructions_finish built.nonempty, List.countP_append, noRoom, built.allocas_eq]
        rfl
    _ = program.countObjects id := by
        have all : ∀ type ∈ Analysis.typesOf program.ast (program.ast.kindOf id).parameters ++
            (program.body id).declared,
            (Ir.Operation.isAlloca ∘ fun type => .alloca (.ofTy type)) type = true :=
          fun _ _ => rfl
        rw [List.countP_map, List.countP_eq_length.2 all, List.length_append, types_length]
        rfl

theorem countBranches_eq {role : BlockRole} (isLoop : role.isLoop = true) (number : Nat) :
    Ir.Function.countBranches ⟨name, parameters, result, builder.finish result⟩ (role.label number) =
      ((program.jumps id).filterMap Jump.place?).count (role, number) := by
  refine (Builder.countP_finish _).trans (built.records.countP_targets rfl isLoop number ?_)
  rintro target ⟨other, earlier⟩ found
  rw [Builder.label_finish found, decide_eq_true_iff, Prod.mk.injEq]
  exact ⟨BlockRole.label_inj, fun same => by rw [same.1, same.2]⟩

/-- The blocks that continue and end loops are numbered like the loops. -/
theorem countLabel_eq {role : BlockRole} (role_eq : role = .whileCond ∨ role = .whileEnd)
    (number : Nat) :
    Ir.Function.countLabel ⟨name, parameters, result, builder.finish result⟩ (role.label number) =
      if number < (program.body id).loops then 1 else 0 := by
  have loops_eq : builder.countRole role = (program.body id).loops := by
    have begun := started_begun.of_records built.records
    obtain rfl | rfl := role_eq
    · exact begun.1.trans (Nat.zero_add _)
    · exact begun.2.trans (Nat.zero_add _)
  obtain ⟨events, traces, -⟩ := built.records
  calc Ir.Function.countLabel ⟨name, parameters, result, builder.finish result⟩ (role.label number)
      = ((builder.finish result).map Ir.Block.label).count (role.label number) := by
        rw [List.count, List.countP_map]
        rfl
    _ = builder.places.count (role, number) := by
        rw [Builder.labels_finish, List.count, List.countP_map]
        refine List.countP_congr fun place _ => ?_
        rw [Function.comp_apply, beq_iff_eq, beq_iff_eq, Prod.ext_iff]
        exact ⟨BlockRole.label_inj, fun same => by rw [same.1, same.2]⟩
    _ = _ := by rw [traces.count_places count_places_started, loops_eq]

end Built

end Lowering

/-! ## Jumps and effects of compiled programs -/

open Lowering (lower_performs error?_isSome_of_jumps)

/-- Jumps are faults where they belong to no loop, and lead to a block of their loop elsewhere. -/
theorem Program.fault?_of_mem_jumps {program : Program} {jump : Jump}
    (member : jump ∈ program.functions.flatMap program.jumps) :
    (jump.fault? = none ↔ jump.loop.isSome = true) ∧
      ∀ error, jump.fault? = some error ↔ jump.loop = none ∧ jump.cause.error? = some error := by
  obtain ⟨id, -, inside⟩ := List.mem_flatMap.1 member
  cases loop : jump.loop with
  | none =>
      have isFault := error?_isSome_of_jumps _ inside loop
      rw [Jump.fault?, loop]
      cases cause : jump.cause.error? with
      | none => simp [cause] at isFault
      | some error => simp
  | some number => simp [Jump.fault?, loop]

/-- A program with a loop in a loop, both of which are left and continued in different ways. -/
def nestedLoops : Source :=
  ⟨"t", "def f(c: bool) -> int {
  while (c) {
    when (c) break;
    while (c) { if (c) continue; else break; }
    continue;
    break;
  }
  return 1;
}"⟩

/-- A program with jumps behind a loop. -/
def strayJumps : Source :=
  ⟨"t", "def f(c: bool) -> int { while (c) break; when (c) continue; break; return 1; }"⟩

/-- Lowering neither loses nor repeats an effect: in all the blocks of a function together there is one call
for each call in its body, one read of memory for each storage that is read there, one write and room for
each parameter and each variable, and one more write for each assignment. -/
theorem compile_effects {source : Source} {module : Ir.Module}
    (compiled : compile source = .ok module) :
    ∃ program, parse source = .ok program ∧
      List.Forall₂ (fun id function =>
        function.countEffect .call = program.countEffect id .call ∧
        function.countEffect .load = program.countEffect id .load ∧
        function.countEffect .store = program.countObjects id + program.countEffect id .store ∧
        function.countRooms = program.countObjects id) program.functions module.functions := by
  rw [compile] at compiled
  cases parsed : parse source with
  | error cause =>
      rw [parsed] at compiled
      cases compiled
  | ok program =>
      rw [parsed] at compiled
      have coherent := parse_coherent parsed
      refine ⟨program, rfl, ?_⟩
      have all := (lower_performs coherent).1 module compiled
      have functions : ∀ id ∈ program.functions,
          id ∈ program.declarations ∧ (program.ast.kindOf id).isFunction = true := fun id member =>
        List.mem_filter.1 member
      refine ((List.forall₂_and_left _ _).2 ⟨functions, all⟩).imp ?_
      rintro id _ ⟨⟨atTop, -⟩, name, parameters, result, builder, rfl, built⟩
      refine ⟨?_, ?_, ?_, built.countRooms_eq ?_⟩
      · rw [built.countEffect_eq, if_neg (by simp), Nat.zero_add]
      · rw [built.countEffect_eq, if_neg (by simp), Nat.zero_add]
      · rw [built.countEffect_eq, if_pos rfl]
      · cases coherent.topLevel id atTop with
        | object kind_eq =>
            rw [kind_eq]
            simp [DeclKind.parameters]
        | function kind_eq typed =>
            rw [kind_eq]
            intro parameter member
            obtain ⟨type, parameter_eq⟩ := typed parameter member
            exact ⟨type, by rw [parameter_eq, DeclKind.type?]⟩

/-- A program with effects in all places: in an unreachable statement and in a choice, and at several uses of
a constant. -/
def scatteredEffects : Source :=
  ⟨"t", "var n: int = 3;
let k: int = 2 + 5;
def f(x: int) -> int { return x + k; n = x; }
def g(y: int) -> int {
  var m: int = f(n);
  let s: int = f(m) + k;
  m = s < n ? f(s) : s + s;
  return m;
}"⟩

theorem compile_effects_of_scatteredEffects : ∃ module, compile scatteredEffects = .ok module ∧
    module.functions.map (fun function => (function.countEffect .call, function.countEffect .load,
      function.countEffect .store, function.countRooms)) = [(0, 2, 2, 1), (3, 4, 3, 2)] := by
  have compiles : (compile scatteredEffects).toOption.isSome = true := by decide +kernel
  have counts : (parse scatteredEffects).toOption.any (fun program =>
      program.functions.map (fun id => (program.countEffect id .call, program.countEffect id .load,
        program.countObjects id + program.countEffect id .store, program.countObjects id)) =
          [(0, 2, 2, 1), (3, 4, 3, 2)]) = true := by
    decide +kernel
  cases compiled : compile scatteredEffects with
  | error cause =>
      rw [compiled] at compiles
      cases compiles
  | ok module =>
      obtain ⟨program, parsed, all⟩ := compile_effects compiled
      rw [parsed] at counts
      refine ⟨module, rfl, Eq.trans ?_ (of_decide_eq_true counts)⟩
      refine (List.forall₂_eq_eq_eq ▸ List.forall₂_map_left_iff.2 (List.forall₂_map_right_iff.2 ?_))
      refine all.flip.imp ?_
      rintro function id ⟨calls, loads, stores, rooms⟩
      rw [calls, loads, stores, rooms]

end Minilang
