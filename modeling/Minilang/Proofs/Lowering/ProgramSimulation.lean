import Minilang.Proofs.Lowering.ProgramTyping
import Minilang.Proofs.Lowering.StatementSimulation

/-!
# Compiled programs mean the same

A machine enters a lowered function, makes room for its objects, stores the arguments, and runs the body to
the result that the function of the program has. So wherever the evaluation of a call of the program ends, a
machine that runs the compiled module ends with the same result.
-/

namespace Minilang

open Evaluation (Result World Yields callFunction writeParameters yields_pure yields_bind yields_write
  yields_callFunction yields_execSequence_singleton not_yields_stuck)

namespace Lowering

open Builder (Grows Valid At AtStart Becomes)

variable {setting : Setting} {call : Call} {before after : Builder} {point : Point}
  {world later : World}

/-- Whether a machine puts arguments, the first of which has a given number, into the storage of
parameters. -/
def Stores (setting : Setting) (index : Nat) (parameters : List DeclId) (before after : Builder) :
    Prop :=
  ∀ (call : Call) (point : Point) (world later : World) (results : List Result),
    after.Becomes call.last → Stands setting call (At call.last before) world point →
    List.Forall₂ (Matches setting.program point.layout) results
      (point.frame.arguments.drop index) →
    Yields (writeParameters call.activation parameters results) world () later →
    ∃ final, Arrives setting call before.temporaries point (At call.last after) later final

/-- A parameter is put into its storage. -/
theorem withParameter_stores {parameter : DeclId} {type : Ir.ValueType} {index : Nat}
    {result : Result}
    (isVariable : (setting.program.ast.kindOf parameter).isVariable = true)
    (becomes : (withParameter before index parameter type).Becomes call.last)
    (stands : Stands setting call (At call.last before) world point) {word : Ir.Word}
    (argument : point.frame.arguments[index]? = some word)
    (same : Matches setting.program point.layout result word) :
    ∃ final, Arrives setting call before.temporaries point
      (At call.last (withParameter before index parameter type))
      (world.write (.automatic call.activation parameter) result) final := by
  obtain ⟨_, address, slot_eq, _, held, placed⟩ := stands.slots parameter (.temp before.temporaries)
    isVariable (becomes.local_kept _ _ (by simp [withParameter, Builder.local?]))
  cases slot_eq
  have roomStands : Stands setting call (At call.last (before.addAlloca type)) world point :=
    stands.reposition fun _ position => position.of_eq rfl rfl
  obtain ⟨final, stores⟩ := roomStands.store
    ((Builder.Includes.bind _ _ _).trans becomes.includes) ⟨.place address, held, .place placed⟩
    ⟨word, argument, same⟩
  exact ⟨final, stores.reposition fun _ position => position.of_eq rfl rfl⟩

theorem Stores.nil (index : Nat) (builder : Builder) : Stores setting index [] builder builder := by
  intro call point world later results _ stands _ yields
  cases results with
  | nil =>
      obtain ⟨_, rfl⟩ := yields_pure.1 yields
      exact ⟨point, .refl stands⟩
  | cons => exact (not_yields_stuck yields).elim

/-- An argument is put into the storage of its parameter, and then the others are put into theirs. -/
theorem ParameterTurn.stores {function parameter : DeclId} {done rest : List DeclId} {type : Ty}
    (turn : ParameterTurn setting.program function started done parameter type before)
    (grows : (withParameter before done.length parameter (.ofTy type)).Grows after)
    (stores : Stores setting (done.length + 1) rest
      (withParameter before done.length parameter (.ofTy type)) after) :
    Stores setting done.length (parameter :: rest) before after := by
  have valid := started_valid.of_grows (turn.grows.trans turn.settles.grows)
  intro call point world later results becomes stands same yields
  cases results with
  | nil => exact (not_yields_stuck yields).elim
  | cons result results =>
      rw [writeParameters, yields_bind] at yields
      obtain ⟨_, _, writes, yields⟩ := yields
      obtain rfl := yields_write.1 writes
      obtain ⟨word, words, argument_same, words_same, arguments_eq⟩ :=
        List.forall₂_cons_left_iff.1 same
      have argument : point.frame.arguments[done.length]? = some word := by
        rw [← Nat.add_zero done.length, ← List.getElem?_drop, arguments_eq,
          List.getElem?_cons_zero]
      obtain ⟨middle, arrives⟩ := withParameter_stores turn.isVariable
        ((grows.becomes valid.wellFormed).trans becomes) stands argument argument_same
      have rest_eq : middle.frame.arguments.drop (done.length + 1) = words := by
        rw [arrives.advances.arguments_eq, ← List.drop_drop, arguments_eq]
        rfl
      obtain ⟨final, restArrives⟩ := stores call middle _ later results becomes
        (arrives.stands stands) (rest_eq ▸ words_same.imp fun _ _ matched =>
          matched.mono arrives.advances.layout_le) yields
      exact ⟨final, arrives.trans restArrives turn.settles.grows.temporaries_le⟩

/-- Parameters are lowered to steps that put the arguments into their storage. -/
theorem CompleteFunction.parameters_stored {id : DeclId} {result : Ty} {parameters : List DeclId}
    {body : StmtId} {next : Nat}
    (complete : CompleteFunction setting.program id result parameters body next) :
    Builds (lowerParameters setting.program 0 parameters) started
      (fun lowered after =>
        Settles ⟨setting.program.declarations, parameters, id⟩ (id.index + 1) started after ∧
        lowered.length = parameters.length ∧ Rooms setting.program after ∧
        Stores setting 0 parameters started after)
      fun _ => False := by
  -- However the parameters that are left are stored, with them all are.
  refine (complete.parameters_keep (fun done rest before => Rooms setting.program before ∧
      ∀ after, before.Grows after → Stores setting done.length rest before after →
        Stores setting 0 parameters started after) ?_
    ⟨.started setting.program, fun _ _ stores => stores⟩).mono ?_ fun _ => False.elim
  · rintro done parameter rest type before turn ⟨rooms, stored⟩
    refine ⟨rooms.withParameter _ _ _, fun after grows stores => ?_⟩
    rw [List.length_append, List.length_singleton] at stores
    exact stored after (turn.settles.grows.trans grows) (turn.stores grows stores)
  · rintro lowered after ⟨settles, types_eq, rooms, stored⟩
    refine ⟨settles, ?_, rooms, stored after .refl (.nil _ _)⟩
    rw [← List.length_map, types_eq, List.length_map]
    refine Ast.length_typesOf fun parameter member => ?_
    obtain ⟨type, kind_eq⟩ := complete.typed parameter member
    exact ⟨type, by rw [kind_eq, DeclKind.type?]⟩

/-- A machine enters a function by making room for its objects. -/
theorem exists_entered (call : Call) {function : Ir.Function}
    (blocks_eq : function.blocks = call.last.finish function.result)
    (nonempty : 0 < call.last.blocks.size) (rooms : Rooms setting.program call.last)
    {layout : Layout} {memory : Ir.Memory} (agrees : Agrees setting.program layout world memory)
    (activation_eq : call.activation = world.activations) (words : List Ir.Word) :
    ∃ entry, function.entry? = some entry ∧ ∃ point : Point,
      setting.module.Runs setting.floats
        (.running ⟨function, words, fun _ => none, 0, none, entry.instructions⟩ call.callers memory)
        (.running point.frame call.callers point.memory) ∧
      layout.Extends point.layout ∧ point.frame.arguments = words ∧ point.frame.function = function ∧
      Stands setting call (AtStart call.last 0)
        { world with activations := world.activations + 1 } point := by
  have first := Array.getElem?_eq_getElem nonempty
  set block := call.last.blocks[0]
  have entry_eq : function.entry? = some (call.last.finished function.result 0 block) := by
    rw [Ir.Function.entry?, List.head?_eq_getElem?, blocks_eq, Builder.finish_getElem?, first,
      Option.map_some]
  have instructions_eq : (call.last.finished function.result 0 block).instructions =
      call.last.allocas.toList ++ block.instructions.toList := by
    rw [Builder.finished, Builder.lead, if_pos rfl]
  have nodup : (Ir.results call.last.allocas.toList).Nodup :=
    (List.nodup_append.1 (call.numbered.results_perm.nodup_iff.2 List.nodup_range)).1
  obtain ⟨room, temporaries, later, runs, furnishes, held, _⟩ := exists_furnishes
    call.numbered.allocas_eq nodup ⟨function, words, fun _ => none, 0, none, _⟩ memory instructions_eq
  refine ⟨_, entry_eq, ⟨enteredLayout setting.program call.last world.activations room layout, _,
    later⟩, runs, extends_enteredLayout agrees, rfl, rfl, ?_, ?_, ?_⟩
  · exact ⟨blocks_eq, rfl, block, first, rfl⟩
  · exact enteredLayout_agrees agrees rooms furnishes
  · intro declaration value isVariable found
    obtain ⟨temporary, isRoom, rfl, placed⟩ := rooms.entered_eq call.activation isVariable found
    rw [activation_eq] at placed
    exact ⟨temporary, _, rfl, isRoom, held temporary isRoom, by rw [activation_eq]; exact placed⟩

/-- A complete function is built so that its parameters are stored and its body is executed. -/
theorem CompleteFunction.executes {id : DeclId} {result : Ty} {parameters : List DeclId}
    {body : StmtId} {next : Nat}
    (complete : CompleteFunction setting.program id result parameters body next)
    (coherent : setting.program.Coherent) {level : Nat}
    (runsCalls : ∀ fuel < level, RunsCalls setting fuel) {flow : Flow}
    (flows : setting.program.flowStmtWithin (setting.program.ast.stmts.size + 1) (.reachable []) body =
      some flow) :
    Builds (buildFunction setting.program (.ofTy result) (setting.program.ast.decl id)) .empty
      (fun lowered last => lowered.length = parameters.length ∧ Rooms setting.program last ∧
        ∃ before, started.Grows before ∧ before.Grows last ∧
          Stores setting 0 parameters started before ∧
          Executes setting level none (.reachable []) flow [body] before last)
      fun _ => True := by
  rw [builds_buildFunction complete.kind_eq]
  refine complete.parameters_stored.mono ?_ fun _ _ => trivial
  rintro lowered before ⟨settles, length_eq, rooms, stores⟩
  have sequence := lowerSequence_executes ⟨complete.lowerable coherent, complete.apart⟩ runsCalls
    (.ofTy result) complete.inScope (Nat.lt_succ_self _) le_rfl
    (setting.program.ast.stmts.size + 1) complete.enough _
    ((Program.flowSequence_singleton _ _ _).trans flows) none
  rw [lowerSequence_singleton] at sequence
  refine (sequence before (started_valid.of_grows settles.grows) settles.binds nofun).mono ?_
    fun _ _ => trivial
  rintro _ last ⟨bodySettles, bodyHouses, executes⟩
  exact ⟨length_eq, bodyHouses rooms, before, settles.grows, bodySettles.grows, stores, executes⟩

/-- A machine runs a lowered function to the result of the call. -/
theorem lowerFunction_runs (coherent : setting.program.Coherent)
    (definitely : setting.program.bindsDefinitely = true) {fuel : Nat}
    (runsCalls : ∀ less < fuel, RunsCalls setting less) {id : DeclId}
    (atTop : id ∈ setting.program.declarations)
    (isFunction : (setting.program.ast.kindOf id).isFunction = true) {function : Ir.Function}
    (lowered : lowerFunction setting.program id = .ok function) {layout : Layout}
    {memory : Ir.Memory} {results : List Result} {words : List Ir.Word} {result : Result}
    (callers : List (Ir.Frame × Option Nat))
    (same : List.Forall₂ (Matches setting.program layout) results words)
    (agrees : Agrees setting.program layout world memory)
    (yields : Yields (callFunction setting.program (setting.program.evaluator setting.floats fuel) id
      results) world result later) :
    words.length = function.parameters.length ∧ ∃ entry, function.entry? = some entry ∧
      ∃ layout' memory' word,
        setting.module.Runs setting.floats
          (.running ⟨function, words, fun _ => none, 0, none, entry.instructions⟩ callers memory)
          (.return word memory' callers) ∧
        layout.Extends layout' ∧ Agrees setting.program layout' later memory' ∧
        Matches setting.program layout' result word := by
  obtain ⟨type, parameters, body, next, complete⟩ := exists_completeFunction coherent atTop isFunction
  have bodyFlows := List.all_eq_true.1 definitely id atTop
  rw [complete.kind_eq] at bodyFlows
  obtain ⟨flow, flows⟩ := Option.isSome_iff_exists.1 bodyFlows
  obtain ⟨given, last, run, grows, rfl⟩ := complete.exists_built coherent lowered
  obtain ⟨length_eq, rooms, before, toBefore, toLast, stores, executes⟩ :=
    (complete.executes coherent runsCalls flows).result run
  have numbered := grows.numbered started_valid.wellFormed started_numbered
  have beforeValid := started_valid.of_grows toBefore
  have lastBecomes := toLast.becomes beforeValid.wellFormed
  obtain ⟨stored, completion, lastFrame, storeYields, bodyYields, ending⟩ :=
    yields_callFunction complete.kind_eq yields
  let call : Call := ⟨last, numbered, callers, world.activations⟩
  set function : Ir.Function :=
    ⟨(setting.program.ast.decl id).name, given, .ofTy type, last.finish (.ofTy type)⟩
  have nonempty : 0 < last.blocks.size := Nat.pos_of_ne_zero (size_ne_zero_of_started grows)
  obtain ⟨entry, entry_eq, start, enters, layout_le, arguments_eq, function_eq, startStands⟩ :=
    exists_entered call (rfl : function.blocks = _) nonempty rooms agrees rfl words
  have atStarted : Stands setting call (At call.last started) _ start :=
    startStands.reposition fun _ position => position.at ⟨.entry, 0, rfl⟩ rfl
  obtain ⟨bodyPoint, storeArrives⟩ := stores call start _ stored results lastBecomes atStarted
    (by rw [arguments_eq]; exact same.imp fun _ _ matched => matched.mono layout_le) storeYields
  obtain ⟨_, ends⟩ := executes fuel le_rfl call _ lastFrame bodyPoint stored later completion []
    rfl (.refl last) (fun _ same => by cases same) rfl (storeArrives.stands atStarted)
    (fun _ same => by cases same)
    (yields_execSequence_singleton.2 bodyYields)
  have toBody := enters.trans storeArrives.advances.runs
  have body_le := layout_le.trans storeArrives.advances.layout_le
  refine ⟨?_, entry, entry_eq, ?_⟩
  · rw [← same.length_eq, ← Evaluation.length_of_writeParameters storeYields]
    exact length_eq.symm
  rcases ending with ⟨rfl, rfl⟩ | rfl
  · obtain @⟨_, final, _, arrives, _⟩ := ends
    have final_eq : final.frame.function = function := by
      rw [arrives.advances.function_eq, storeArrives.advances.function_eq, function_eq]
    obtain ⟨rest_eq, block, found, terminator_eq⟩ :=
      arrives.position.finish (beforeValid.of_grows toLast).wellFormed
    refine ⟨final.layout, final.memory, .ofConstant (.zero (.ofTy type)),
      .tail (toBody.trans arrives.advances.runs) ?_, body_le.trans arrives.advances.layout_le,
      arrives.agrees, .zero type⟩
    rw [Ir.Module.step_terminator rest_eq found, terminator_eq, final_eq]
    rfl
  · obtain @⟨⟩ | @⟨⟩ | @⟨⟩ | @⟨_, layout', memory', word, runs, layout_le', agrees', matched⟩ := ends
    exact ⟨layout', memory', word, toBody.trans runs, body_le.trans layout_le', agrees', matched⟩

/-- Whether a module has all functions of a program. -/
def HasFunctions (program : Program) (module : Ir.Module) : Prop :=
  ∀ id ∈ program.declarations, (program.ast.kindOf id).isFunction = true →
    ∃ function, module.function? (program.ast.decl id).name = some function ∧
      lowerFunction program id = .ok function

/-- A machine runs all functions of a program that uses its constants where they are bound, with all
fuel. -/
theorem runsCalls (coherent : setting.program.Coherent)
    (definitely : setting.program.bindsDefinitely = true)
    (functions : HasFunctions setting.program setting.module) (fuel : Nat) :
    RunsCalls setting fuel := by
  induction fuel using Nat.strongRecOn with
  | ind fuel induction =>
  intro layout world later memory id results words result callers atTop isFunction same agrees yields
  cases fuel with
  | zero => cases yields
  | succ fuel =>
      obtain ⟨function, found, lowered⟩ := functions id atTop isFunction
      obtain ⟨length_eq, entry, entry_eq, runs⟩ := lowerFunction_runs coherent definitely
        (fun less less_lt => induction less (Nat.lt_succ_of_lt less_lt)) atTop isFunction lowered
        callers same agrees yields
      refine ⟨_, ?_, runs⟩
      simp [Ir.Module.enter?, found, entry_eq, length_eq]

/-- The global object of a variable is found by its name. -/
theorem find?_lowerGlobal {program : Program} {ids : List DeclId}
    (nodup : (ids.map fun id => (program.ast.decl id).name).Nodup) {id : DeclId} (member : id ∈ ids)
    {type : Ty} {initializer : Option ExprId}
    (kind_eq : program.ast.kindOf id = .object .var type initializer) :
    ((ids.map program.ast.decl).filterMap lowerGlobal?).find?
        (fun global => global.name == (program.ast.decl id).name) =
      some ⟨(program.ast.decl id).name, .ofTy type, .zero (.ofTy type)⟩ := by
  induction ids with
  | nil => cases member
  | cons first ids induction =>
      rw [List.map_cons, List.nodup_cons] at nodup
      rw [List.map_cons]
      rcases List.mem_cons.1 member with rfl | member
      · rw [Ast.kindOf] at kind_eq
        rw [List.filterMap_cons_some (by rw [lowerGlobal?, kind_eq]), List.find?_cons_of_pos]
        exact beq_self_eq_true _
      · have rest := induction nodup.2 member
        have different : (program.ast.decl first).name ≠ (program.ast.decl id).name := fun same =>
          nodup.1 (same ▸ List.mem_map_of_mem member)
        rw [List.filterMap_cons]
        split
        · exact rest
        · next global found =>
          have name_eq : global.name = (program.ast.decl first).name := by
            rw [lowerGlobal?] at found
            split at found <;> cases found
            rfl
          rw [List.find?_cons_of_neg (by simpa [name_eq] using different)]
          exact rest

/-- Before anything has been called, global objects hold the zeros that the variables hold. -/
theorem agrees_initial {program : Program} (coherent : program.Coherent) {module : Ir.Module}
    (globals_eq : module.globals =
      (program.declarations.map program.ast.decl).filterMap lowerGlobal?) :
    Agrees program program.initialLayout program.initialWorld module.initialMemory := by
  have of_placed {place : Place} {address : Ir.Address}
      (placed : program.initialLayout place = some address) :
      ∃ declaration ∈ program.declarations, ∃ type initializer,
        program.ast.kindOf declaration = .object .var type initializer ∧
          place = .static declaration ∧ address = .global (program.ast.decl declaration).name := by
    cases place with
    | automatic => cases placed
    | static declaration =>
        obtain ⟨atTop, placed⟩ := Option.ite_none_right_eq_some.1 placed
        split at placed
        · next type initializer kind_eq =>
          cases placed
          exact ⟨declaration, atTop, type, initializer, kind_eq, rfl, rfl⟩
        · cases placed
  have initial_cells {declaration : DeclId} (atTop : declaration ∈ program.declarations) {type : Ty}
      {initializer : Option ExprId}
      (kind_eq : program.ast.kindOf declaration = .object .var type initializer) :
      module.initialMemory.cells (.global (program.ast.decl declaration).name) =
        some (some (.ofConstant (.zero (.ofTy type)))) := by
    have found := find?_lowerGlobal coherent.names_nodup atTop kind_eq
    rw [← globals_eq] at found
    exact congrArg
      (Option.map fun global : Ir.Global => some (Datum.ofConstant global.initial)) found
  constructor
  · intro declaration atTop type initializer kind_eq
    rw [Program.initialLayout, if_pos atTop, kind_eq]
  · intro first second address firstPlaced secondPlaced
    obtain ⟨d, atTop, _, _, _, rfl, rfl⟩ := of_placed firstPlaced
    obtain ⟨d', atTop', _, _, _, rfl, same⟩ := of_placed secondPlaced
    rw [List.inj_on_of_nodup_map coherent.names_nodup atTop atTop' (by simpa using same)]
  · intro place address placed
    obtain ⟨declaration, atTop, type, initializer, kind_eq, _, rfl⟩ := of_placed placed
    rw [initial_cells atTop kind_eq]
    rfl
  · intro place slot placed
    obtain ⟨_, _, _, _, _, _, same⟩ := of_placed placed
    cases same
  · intro activation declaration address placed
    cases placed
  · intro place value found
    cases place with
    | automatic => cases found
    | static declaration =>
        obtain ⟨atTop, found⟩ := Option.ite_none_right_eq_some.1 found
        split at found
        · next type initializer kind_eq =>
          cases found
          refine ⟨.global (program.ast.decl declaration).name, .ofConstant (.zero (.ofTy type)), ?_,
            ?_, .zero type⟩
          · rw [Program.initialLayout, if_pos atTop, kind_eq]
          · rw [Ir.Memory.read, initial_cells atTop kind_eq, Option.join_some]
        · cases found

/-- A lowered program has the functions and global objects of the program. -/
theorem lower_hasFunctions {program : Program} (coherent : program.Coherent) {module : Ir.Module}
    (lowered : lower program = .ok module) :
    HasFunctions program module ∧
      module.globals = (program.declarations.map program.ast.decl).filterMap lowerGlobal? := by
  rw [lower_eq coherent] at lowered
  set ids := program.declarations.filter fun id => (program.ast.decl id).kind.isFunction
  have atTop : ∀ id ∈ ids, id ∈ program.declarations ∧
      (program.ast.kindOf id).isFunction = true := fun id member => List.mem_filter.1 member
  cases run : lowerFunctions program ids with
  | error cause =>
      rw [run] at lowered
      cases lowered
  | ok functions =>
      rw [run] at lowered
      cases lowered
      have names_nodup : (functions.map Ir.Function.name).Nodup := by
        rw [names_of_lowerFunctions coherent atTop run]
        exact coherent.names_nodup.sublist (List.filter_sublist.map _)
      refine ⟨fun id id_top isFunction => ?_, rfl⟩
      obtain ⟨function, member, found⟩ :=
        exists_of_mem_ids run (List.mem_filter.2 ⟨id_top, isFunction⟩)
      have name_eq := (lowerFunction_typed coherent id_top isFunction found).2.1
      exact ⟨function, name_eq ▸ Ir.Module.function?_eq names_nodup member, found⟩

end Lowering

/-- Where a program uses the constants of its functions only where they are bound on every way, the compiled
module does what the program means: whenever the evaluation of a call ends with a result, the machine
finishes with that result, and what the program has written to its places is found at their addresses. Before
the first call, both hold the same. -/
theorem compile_preserves_meaning {source : Source} {module : Ir.Module}
    (compiled : compile source = .ok module) :
    ∃ program, parse source = .ok program ∧
      Agrees program program.initialLayout program.initialWorld module.initialMemory ∧
      (program.bindsDefinitely = true → ∀ (floats : FloatArithmetic) (fuel : Nat) (layout : Layout)
        (world later : World) (memory : Ir.Memory) (id : DeclId) (arguments : List Result)
        (words : List Ir.Word) (result : Result),
        id ∈ program.declarations → (program.ast.kindOf id).isFunction = true →
        List.Forall₂ (Matches program layout) arguments words →
        Agrees program layout world memory →
        Yields ((program.evaluator floats fuel).call id arguments) world result later →
        ∃ entered layout' memory' word,
          module.enter? (program.ast.decl id).name words = some entered ∧
          module.Runs floats (.running entered [] memory) (.finished word memory') ∧
          layout.Extends layout' ∧ Agrees program layout' later memory' ∧
          Matches program layout' result word) := by
  rw [compile] at compiled
  cases parsed : parse source with
  | error cause =>
      rw [parsed] at compiled
      cases compiled
  | ok program =>
      rw [parsed] at compiled
      replace compiled : lower program = .ok module := compiled
      have coherent := parse_coherent parsed
      obtain ⟨functions, globals_eq⟩ := Lowering.lower_hasFunctions coherent compiled
      refine ⟨program, rfl, Lowering.agrees_initial coherent globals_eq, ?_⟩
      intro definitely floats fuel layout world later memory id arguments words result atTop isFunction
        same agrees yields
      have runs : Lowering.RunsCalls ⟨program, module, floats⟩ fuel :=
        Lowering.runsCalls coherent definitely functions fuel
      obtain ⟨entered, enters, layout', memory', word, runs, layout_le, agrees', matched⟩ :=
        runs layout world later memory id arguments words result [] atTop isFunction same agrees yields
      exact ⟨entered, layout', memory', word, enters, runs, layout_le, agrees', matched⟩

/-- An arithmetic for programs that compute nothing with floating-point numbers. -/
def FloatArithmetic.unused : FloatArithmetic where
  add left _ := left
  sub left _ := left
  mul left _ := left
  div left _ := left
  rem left _ := left
  eq left right := left == right
  ne left right := left != right
  lt _ _ := false
  gt _ _ := false
  le left right := left == right
  ge left right := left == right
  truncate _ := none
  ofInt _ := .zero

/-- A recursive function that is called in a loop, which is left in the middle. -/
def countedCalls : Source :=
  ⟨"t", "var n: int = 0;
def f(i: int) -> int {
  n = n + 1;
  while (true) { when (i < 1) break; let a: int = f(i = i - 1); n = n + a; }
  return n;
}"⟩

theorem compile_preserves_meaning_of_countedCalls :
    ∃ module entered memory, compile countedCalls = .ok module ∧
      module.enter? "f" [.int 2] = some entered ∧
      module.Runs .unused (.running entered [] module.initialMemory)
        (.finished (.int 26) memory) := by
  have evaluates : (parse countedCalls).toOption.any (fun program =>
      (lower program).toOption.isSome && program.bindsDefinitely &&
        decide (⟨2⟩ ∈ program.declarations) && (program.ast.kindOf ⟨2⟩).isFunction &&
        (program.ast.decl ⟨2⟩).name == "f" &&
        ((((program.evaluator .unused 20).call ⟨2⟩ [.int 2]) program.initialWorld).map Prod.fst ==
          some (.int 26))) = true := by
    decide +kernel
  cases parsed : parse countedCalls with
  | error cause =>
      rw [parsed] at evaluates
      cases evaluates
  | ok program =>
      rw [parsed] at evaluates
      simp only [Except.toOption, Option.any_some, Bool.and_eq_true, beq_iff_eq,
        decide_eq_true_eq, Option.map_eq_some_iff, Prod.exists, exists_and_right] at evaluates
      obtain ⟨⟨⟨⟨⟨lowers, definitely⟩, atTop⟩, isFunction⟩, name_eq⟩, result, ⟨later, yields⟩, rfl⟩ :=
        evaluates
      cases lowered : lower program with
      | error cause =>
          rw [lowered] at lowers
          cases lowers
      | ok module =>
          have compiled : compile countedCalls = .ok module := by
            rw [compile, parsed]
            exact lowered
          obtain ⟨_, parsed', agrees, runs⟩ := compile_preserves_meaning compiled
          rw [parsed] at parsed'
          cases parsed'
          obtain ⟨entered, _, memory, word, enters, finishes, _, _, same⟩ := runs definitely .unused 20
            program.initialLayout program.initialWorld later module.initialMemory ⟨2⟩ [.int 2] [.int 2]
            (.int 26) atTop isFunction (.cons (.int 2) .nil) agrees yields
          cases same
          exact ⟨module, entered, memory, compiled, name_eq ▸ enters, finishes⟩

/-- A constant that takes over the value of another one, which the next rounds of the loop compute again. -/
def aliasedConstant : Source :=
  ⟨"t", "def h() -> int {
  var i: int = 0;
  while ((i = i + 1) < 4) if (i != 2) let w: int = i; else let x: int = w;
  return x;
}"⟩

/-- Where constants are bound on some ways only, a name may be given the temporary of a constant that is
computed again later on: the program returns 1, and the machine returns 3. -/
theorem compile_aliasedConstant_differs :
    ∃ program module, parse aliasedConstant = .ok program ∧ compile aliasedConstant = .ok module ∧
      (∃ id ∈ program.declarations, (program.ast.decl id).name = "h" ∧ ∃ later,
        Yields ((program.evaluator .unused 40).call id []) program.initialWorld (.int 1) later) ∧
      module.call .unused 300 "h" [] = some (.int 3) := by
  have differs : (parse aliasedConstant).toOption.any (fun program =>
      (lower program).toOption.any (fun module =>
        module.call .unused 300 "h" [] == some (.int 3)) &&
      decide (⟨0⟩ ∈ program.declarations) && (program.ast.decl ⟨0⟩).name == "h" &&
        ((((program.evaluator .unused 40).call ⟨0⟩ []) program.initialWorld).map Prod.fst ==
          some (.int 1))) = true := by
    decide +kernel
  cases parsed : parse aliasedConstant with
  | error cause =>
      rw [parsed] at differs
      cases differs
  | ok program =>
      rw [parsed] at differs
      simp only [Except.toOption, Option.any_some, Bool.and_eq_true, beq_iff_eq,
        decide_eq_true_eq, Option.map_eq_some_iff, Prod.exists, exists_and_right] at differs
      obtain ⟨⟨⟨runs, atTop⟩, name_eq⟩, result, ⟨later, yields⟩, rfl⟩ := differs
      cases lowered : lower program with
      | error cause =>
          rw [lowered] at runs
          cases runs
      | ok module =>
          rw [lowered] at runs
          have compiled : compile aliasedConstant = .ok module := by
            rw [compile, parsed]
            exact lowered
          exact ⟨program, module, rfl, compiled, ⟨⟨0⟩, atTop, name_eq, later, yields⟩,
            beq_iff_eq.1 runs⟩

end Minilang
