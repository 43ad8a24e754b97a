import Minilang.Compile
import Minilang.Proofs.Lowering.Statements
import Minilang.Proofs.Parsing.Program

/-!
# Lowering programs

A function of a coherent program is lowered from no blocks at all, its parameters first. All in all,
compiling a text fails by its own faults only.
-/

namespace Minilang.Lowering

open Builder (Grows Valid)

variable {program : Program} {before : Builder}

/-- The function in which a parameter has got its storage. -/
def withParameter (before : Builder) (index : Nat) (id : DeclId) (type : Ir.ValueType) : Builder :=
  ((before.addAlloca type).perform (.store type (.arg index) (.temp before.temporaries))).bind id
    (.temp before.temporaries)

theorem builds_lowerParameter {index : Nat} {id : DeclId} {type : Ty}
    (typed : (program.ast.kindOf id).type? = some type)
    {onResult : Ir.Parameter → Builder → Prop} {onError : Diagnostic → Prop} :
    Builds (lowerParameter program index id) before onResult onError ↔
      onResult ⟨(program.ast.decl id).name, .ofTy type⟩
        (withParameter before index id (.ofTy type)) := by
  rw [Ast.kindOf] at typed
  rw [lowerParameter, typed]
  dsimp only
  rw [builds_bind, builds_allocate, builds_bind, builds_perform, builds_bind, builds_bindLocal,
    builds_pure, withParameter]

/-- A parameter that has no storage yet gets it. -/
theorem withParameter_settles {function : DeclId} {done : List DeclId} {parameter : DeclId}
    (fresh : parameter ∉ done)
    (binds : Binds ⟨program.declarations, done, function⟩ (function.index + 1) before) (index : Nat)
    (type : Ir.ValueType) :
    before.local? parameter = none ∧
      Settles ⟨program.declarations, done ++ [parameter], function⟩ (function.index + 1) before
        (withParameter before index parameter type) := by
  have inside_iff (declaration : DeclId) :
      ¬(function.index < declaration.index ∧ declaration.index < function.index + 1) := by omega
  have unbound : before.local? parameter = none := by
    rw [← Option.not_isSome_iff_eq_none, binds parameter]
    exact not_or.2 ⟨fresh, inside_iff parameter⟩
  set stored := (before.addAlloca type).perform
    (.store type (.arg index) (.temp before.temporaries)) with stored_eq
  have locals_eq : stored.locals = before.locals := by simp [stored]
  have grows : before.Grows stored := by
    refine Grows.performed (.addAlloca _ .refl) ?_
    simp [Ir.Operation.operands, Ir.Value.Below]
  refine ⟨unbound, ?_, ?_⟩
  · rw [withParameter, ← stored_eq]
    refine .bind grows ?_ (by simp [stored, Ir.Value.Below])
    rw [Builder.local?, locals_eq]
    exact unbound
  · intro declaration
    rw [withParameter, ← stored_eq, Builder.local?, Builder.bind_locals, List.lookup_cons, locals_eq]
    by_cases same : declaration = parameter
    · simp [same]
    · rw [beq_eq_false_iff_ne.2 same, ← Builder.local?, binds declaration]
      simp [same]

/-- The turn of a parameter: those in front of it have got their storage, and it has none yet. -/
structure ParameterTurn (program : Program) (function : DeclId) (start : Builder) (done : List DeclId)
    (parameter : DeclId) (type : Ty) (before : Builder) : Prop where
  /-- The parameter is one. -/
  kind_eq : program.ast.kindOf parameter = .parameter type
  /-- The parameter has had no turn yet. -/
  fresh : parameter ∉ done
  /-- The function has grown. -/
  grows : start.Grows before
  /-- The parameters in front have values. -/
  binds : Binds ⟨program.declarations, done, function⟩ (function.index + 1) before

namespace ParameterTurn

variable {function parameter : DeclId} {start : Builder} {done : List DeclId} {type : Ty}

theorem isVariable (turn : ParameterTurn program function start done parameter type before) :
    (program.ast.kindOf parameter).isVariable = true := by
  rw [turn.kind_eq]
  rfl

theorem unbound (turn : ParameterTurn program function start done parameter type before) :
    before.local? parameter = none :=
  (withParameter_settles turn.fresh turn.binds done.length (.ofTy type)).1

theorem settles (turn : ParameterTurn program function start done parameter type before) :
    Settles ⟨program.declarations, done ++ [parameter], function⟩ (function.index + 1) before
      (withParameter before done.length parameter (.ofTy type)) :=
  (withParameter_settles turn.fresh turn.binds done.length (.ofTy type)).2

end ParameterTurn

/-- What every parameter keeps as it gets its storage, the parameters keep as they get theirs one after
another. -/
theorem lowerParameters_keeps {function : DeclId} {start : Builder}
    (motive : (done rest : List DeclId) → Builder → Prop)
    (step : ∀ done parameter rest type before,
      ParameterTurn program function start done parameter type before →
      motive done (parameter :: rest) before →
      motive (done ++ [parameter]) rest (withParameter before done.length parameter (.ofTy type)))
    {parameters : List DeclId}
    (typed : ∀ parameter ∈ parameters, ∃ type, program.ast.kindOf parameter = .parameter type)
    (nodup : parameters.Nodup)
    (binds : Binds ⟨program.declarations, [], function⟩ (function.index + 1) start)
    (base : motive [] parameters start) :
    Builds (lowerParameters program 0 parameters) start
      (fun lowered after =>
        Settles ⟨program.declarations, parameters, function⟩ (function.index + 1) start after ∧
        lowered.map Ir.Parameter.type = (Analysis.typesOf program.ast parameters).map .ofTy ∧
        motive parameters [] after) fun _ => False := by
  -- Some parameters are done, so the induction is on those that are left.
  suffices general : ∀ (rest done : List DeclId) (before : Builder), start.Grows before →
      (∀ parameter ∈ rest, ∃ type, program.ast.kindOf parameter = .parameter type) →
      (done ++ rest).Nodup →
      Binds ⟨program.declarations, done, function⟩ (function.index + 1) before →
      motive done rest before →
      Builds (lowerParameters program done.length rest) before
        (fun lowered after =>
          Settles ⟨program.declarations, done ++ rest, function⟩ (function.index + 1) start after ∧
          lowered.map Ir.Parameter.type = (Analysis.typesOf program.ast rest).map .ofTy ∧
          motive (done ++ rest) [] after) fun _ => False from
    general parameters [] start .refl typed nodup binds base
  intro rest
  induction rest with
  | nil =>
      intro done before grows _ _ binds holds
      rw [lowerParameters, builds_pure, List.append_nil]
      exact ⟨⟨grows, binds⟩, rfl, holds⟩
  | cons parameter rest induction =>
      intro done before grows typed nodup binds holds
      rw [List.forall_mem_cons] at typed
      obtain ⟨⟨type, kind_eq⟩, typed⟩ := typed
      have type_eq : (program.ast.kindOf parameter).type? = some type := by
        rw [kind_eq, DeclKind.type?]
      have turn : ParameterTurn program function start done parameter type before :=
        ⟨kind_eq, fun member => (List.disjoint_of_nodup_append nodup) member List.mem_cons_self,
          grows, binds⟩
      rw [List.append_cons] at nodup ⊢
      have others := induction (done ++ [parameter]) _ (grows.trans turn.settles.grows) typed nodup
        turn.settles.binds (step done parameter rest type before turn holds)
      rw [List.length_append, List.length_singleton] at others
      rw [lowerParameters, builds_bind, builds_lowerParameter type_eq, builds_bind]
      refine others.mono ?_ fun _ => id
      rintro lowered after ⟨settles, types_eq, holds⟩
      have first_eq : Analysis.typesOf program.ast (parameter :: rest) =
          type :: Analysis.typesOf program.ast rest := List.filterMap_cons_some type_eq
      rw [builds_pure, List.map_cons, types_eq, first_eq]
      exact ⟨settles, rfl, holds⟩

/-- The function with nothing but its first block, in which building starts. -/
def started : Builder := (Builder.empty.addBlock .entry).goTo 0

theorem started_valid : started.Valid := by
  have empty : Builder.empty.Valid := ⟨nofun, nofun⟩
  exact empty.of_grows (.goTo (.addBlock .entry .refl) (Nat.zero_le 0) (.added .empty .entry))

/-- No name has a value at first. -/
theorem started_binds (program : Program) (id : DeclId) :
    Binds ⟨program.declarations, [], id⟩ (id.index + 1) started := by
  intro declaration
  simp only [Builder.local?, started, Builder.goTo_locals, Builder.addBlock_locals, Builder.empty,
    List.lookup_nil, Option.isSome_none, Bool.false_eq_true, List.not_mem_nil, false_or, false_iff]
  omega

theorem builds_buildFunction {result : Ir.ValueType} {decl : Decl} {type : Ty}
    {parameters : List DeclId} {body : StmtId}
    (kind_eq : decl.kind = .function type parameters (some body))
    {onResult : List Ir.Parameter → Builder → Prop} {onError : Diagnostic → Prop} :
    Builds (buildFunction program result decl) .empty onResult onError ↔
      Builds (lowerParameters program 0 parameters) started (fun lowered before =>
        Builds (lowerStmt program result body) before (fun _ after => onResult lowered after) onError)
        onError := by
  rw [buildFunction, builds_bind, builds_newBlock, builds_bind, builds_switchTo, builds_bind, kind_eq]
  refine Iff.of_eq (congrArg (Builds _ _ · _) ?_)
  funext lowered before
  rw [builds_bind, functionBody, kind_eq]
  dsimp only
  rw [builds_pure, builds_bind]
  rfl

/-- Lowering a complete function is building its blocks. -/
theorem lowerFunction_eq {id : DeclId} {result : Ty} {types : List Ty} {parameters : List DeclId}
    {body : Option StmtId}
    (kind_eq : program.ast.kindOf id = .function (.function result types) parameters body) :
    lowerFunction program id =
      ((buildFunction program (.ofTy result) (program.ast.decl id)).run .empty).map
        fun built => ⟨(program.ast.decl id).name, built.1, .ofTy result, built.2.finish (.ofTy result)⟩ := by
  have type_eq : (program.ast.decl id).kind.type? = some (.function result types) := by
    rw [← Ast.kindOf, kind_eq, DeclKind.type?]
  rw [lowerFunction, type_eq]
  dsimp only
  cases (buildFunction program (.ofTy result) (program.ast.decl id)).run .empty with
  | ok built => rfl
  | error cause => rfl

/-- A function of a coherent program, its parameters and its body. -/
structure CompleteFunction (program : Program) (id : DeclId) (result : Ty) (parameters : List DeclId)
    (body : StmtId) (next : Nat) : Prop where
  /-- The function has a body. -/
  kind_eq : program.ast.kindOf id =
    .function (.function result (Analysis.typesOf program.ast parameters)) parameters (some body)
  /-- Its parameters are parameters. -/
  typed : ∀ parameter ∈ parameters, ∃ type, program.ast.kindOf parameter = .parameter type
  /-- No parameter comes twice. -/
  nodup : parameters.Nodup
  /-- The body names what it can see. -/
  inScope : program.ast.Scoped (FunctionScope.Visible ⟨program.declarations, parameters, id⟩)
    (id.index + 1) [body] next
  /-- What stands at the top is not declared in the body. -/
  apart : ∀ other ∈ program.declarations, other.index ≤ id.index ∨ next ≤ other.index
  /-- The body returns what the function should. -/
  returns : program.ast.Returns id body

/-- The functions at the top of a coherent program are complete. -/
theorem exists_completeFunction (coherent : program.Coherent) {id : DeclId}
    (atTop : id ∈ program.declarations) (isFunction : (program.ast.kindOf id).isFunction = true) :
    ∃ result parameters body next, CompleteFunction program id result parameters body next := by
  cases coherent.topLevel id atTop with
  | object kind_eq =>
      rw [kind_eq] at isFunction
      cases isFunction
  | function kind_eq typed nodup inScope _ apart returns =>
      exact ⟨_, _, _, _, kind_eq, typed, nodup, inScope, apart, returns⟩

namespace CompleteFunction

variable {id : DeclId} {result : Ty} {parameters : List DeclId} {body : StmtId} {next : Nat}

theorem lowerable (complete : CompleteFunction program id result parameters body next)
    (coherent : program.Coherent) : Lowerable program ⟨program.declarations, parameters, id⟩ :=
  ⟨coherent, rfl, complete.typed⟩

/-- There is enough fuel for the body. -/
theorem enough (complete : CompleteFunction program id result parameters body next) :
    ∀ statement ∈ [body], statement.index < program.ast.stmts.size + 1 :=
  fun statement member => Nat.lt_succ_of_lt (complete.inScope.index_lt statement member)

/-- The parameters of a function get their storage, keeping what each of them keeps. -/
theorem parameters_keep (complete : CompleteFunction program id result parameters body next)
    (motive : (done rest : List DeclId) → Builder → Prop)
    (step : ∀ done parameter rest type before,
      ParameterTurn program id started done parameter type before →
      motive done (parameter :: rest) before →
      motive (done ++ [parameter]) rest (withParameter before done.length parameter (.ofTy type)))
    (base : motive [] parameters started) :
    Builds (lowerParameters program 0 parameters) started
      (fun lowered after =>
        Settles ⟨program.declarations, parameters, id⟩ (id.index + 1) started after ∧
        lowered.map Ir.Parameter.type = (Analysis.typesOf program.ast parameters).map .ofTy ∧
        motive parameters [] after) fun _ => False :=
  lowerParameters_keeps motive step complete.typed complete.nodup (started_binds program id) base

/-- A complete function is built, or a jump in it has no loop around it. -/
theorem builds (complete : CompleteFunction program id result parameters body next)
    (coherent : program.Coherent) :
    Builds (buildFunction program (.ofTy result) (program.ast.decl id)) .empty
      (fun _ after => Settles ⟨program.declarations, parameters, id⟩ next started after)
      fun error => error.isFault = true := by
  rw [builds_buildFunction complete.kind_eq]
  refine (complete.parameters_keep (fun _ _ _ => True) (fun _ _ _ _ _ _ _ => trivial) trivial).mono
    ?_ fun _ => False.elim
  rintro lowered before ⟨settles, -, -⟩
  have lowers := lowerSequence_builds (complete.lowerable coherent) (.ofTy result) complete.inScope
    (Nat.lt_succ_self _) (program.ast.stmts.size + 1) complete.enough none
  exact (lowers.of_singleton before (started_valid.of_grows settles.grows) settles.binds
    nofun).mono (fun _ after rest => rest.behind settles.grows) fun _ fault => fault

/-- A lowered function is finished from what has been built, which has grown from its first block. -/
theorem exists_built (complete : CompleteFunction program id result parameters body next)
    (coherent : program.Coherent) {function : Ir.Function}
    (lowered : lowerFunction program id = .ok function) :
    ∃ given built, (buildFunction program (.ofTy result) (program.ast.decl id)).run .empty =
        .ok (given, built) ∧ started.Grows built ∧
      function = ⟨(program.ast.decl id).name, given, .ofTy result, built.finish (.ofTy result)⟩ := by
  rw [lowerFunction_eq complete.kind_eq] at lowered
  cases run : (buildFunction program (.ofTy result) (program.ast.decl id)).run .empty with
  | error cause =>
      rw [run] at lowered
      cases lowered
  | ok built =>
      rw [run] at lowered
      cases lowered
      exact ⟨built.1, built.2, rfl, ((complete.builds coherent).result run).grows, rfl⟩

/-- A function fails to be lowered as building it fails. -/
theorem run_of_failed (complete : CompleteFunction program id result parameters body next)
    {error : Diagnostic} (failed : lowerFunction program id = .error error) :
    (buildFunction program (.ofTy result) (program.ast.decl id)).run .empty = .error error := by
  rw [lowerFunction_eq complete.kind_eq] at failed
  cases run : (buildFunction program (.ofTy result) (program.ast.decl id)).run .empty with
  | ok built =>
      rw [run] at failed
      cases failed
  | error cause =>
      rw [run] at failed
      cases failed
      rfl

end CompleteFunction

/-- A function fails to be lowered only by a fault of its own. -/
theorem lowerFunction_faults (coherent : program.Coherent) {id : DeclId}
    (atTop : id ∈ program.declarations) (isFunction : (program.ast.kindOf id).isFunction = true)
    {error : Diagnostic} (failed : lowerFunction program id = .error error) :
    error.isFault = true := by
  obtain ⟨result, parameters, body, next, complete⟩ := exists_completeFunction coherent atTop isFunction
  exact (complete.builds coherent).error (complete.run_of_failed failed)

/-! ### Functions one after another -/

theorem lowerFunctions_cons (program : Program) (id : DeclId) (ids : List DeclId) :
    lowerFunctions program (id :: ids) = (lowerFunction program id).bind fun first =>
      (lowerFunctions program ids).map (first :: ·) := by
  rw [lowerFunctions]
  cases lowerFunction program id with
  | error error => rfl
  | ok first => cases lowerFunctions program ids <;> rfl

section Sequences

variable {ids : List DeclId} {functions : List Ir.Function}

/-- Functions are lowered one by one. -/
theorem forall₂_of_lowerFunctions (lowered : lowerFunctions program ids = .ok functions) :
    List.Forall₂ (fun id function => lowerFunction program id = .ok function) ids functions := by
  induction ids generalizing functions with
  | nil =>
      cases lowered
      exact .nil
  | cons id ids induction =>
      rw [lowerFunctions_cons] at lowered
      cases first : lowerFunction program id with
      | error cause =>
          rw [first] at lowered
          cases lowered
      | ok function =>
          cases rest : lowerFunctions program ids with
          | error cause =>
              rw [first, rest] at lowered
              cases lowered
          | ok others =>
              rw [first, rest] at lowered
              cases lowered
              exact .cons first (induction rest)

theorem lowerFunctions_of_forall₂
    (all : List.Forall₂ (fun id function => lowerFunction program id = .ok function) ids functions) :
    lowerFunctions program ids = .ok functions := by
  induction all with
  | nil => rfl
  | cons first _ induction =>
      rw [lowerFunctions_cons, first, induction]
      rfl

/-- Every function among the declarations is lowered. -/
theorem exists_of_mem_ids (lowered : lowerFunctions program ids = .ok functions) {id : DeclId}
    (member : id ∈ ids) : ∃ function ∈ functions, lowerFunction program id = .ok function := by
  have all := forall₂_of_lowerFunctions lowered
  clear lowered
  induction all with
  | nil => cases member
  | cons first _ induction =>
      rcases List.mem_cons.1 member with rfl | member
      · exact ⟨_, List.mem_cons_self, first⟩
      · obtain ⟨function, function_mem, found⟩ := induction member
        exact ⟨function, List.mem_cons_of_mem _ function_mem, found⟩

/-- Nothing but the functions among the declarations is lowered. -/
theorem mem_of_lowerFunctions (lowered : lowerFunctions program ids = .ok functions)
    {function : Ir.Function} (member : function ∈ functions) :
    ∃ id ∈ ids, lowerFunction program id = .ok function := by
  have all := forall₂_of_lowerFunctions lowered
  clear lowered
  induction all with
  | nil => cases member
  | cons first _ induction =>
      rcases List.mem_cons.1 member with rfl | member
      · exact ⟨_, List.mem_cons_self, first⟩
      · obtain ⟨id, id_mem, found⟩ := induction member
        exact ⟨id, List.mem_cons_of_mem _ id_mem, found⟩

/-- Functions fail to be lowered at the first of them that does. -/
theorem exists_of_lowerFunctions_failed {error : Diagnostic}
    (failed : lowerFunctions program ids = .error error) :
    ∃ done id rest, ids = done ++ id :: rest ∧
      (∀ other ∈ done, ∃ function, lowerFunction program other = .ok function) ∧
      lowerFunction program id = .error error := by
  induction ids with
  | nil => cases failed
  | cons id ids induction =>
      rw [lowerFunctions_cons] at failed
      cases first : lowerFunction program id with
      | error cause =>
          rw [first] at failed
          cases failed
          exact ⟨[], id, ids, rfl, List.forall_mem_nil _, first⟩
      | ok function =>
          cases rest : lowerFunctions program ids with
          | ok functions =>
              rw [first, rest] at failed
              cases failed
          | error cause =>
              rw [first, rest] at failed
              cases failed
              obtain ⟨done, other, others, rfl, succeeded, fails⟩ := induction rest
              exact ⟨id :: done, other, others, rfl,
                List.forall_mem_cons.2 ⟨⟨function, first⟩, succeeded⟩, fails⟩

end Sequences

/-- Everything at the top of a coherent program may stand there. -/
theorem checkTopLevel_eq_ok (coherent : program.Coherent) {decls : List DeclId}
    (atTop : ∀ id ∈ decls, id ∈ program.declarations) :
    (decls.map program.ast.decl).forM checkTopLevel = .ok () := by
  induction decls with
  | nil => rfl
  | cons id decls induction =>
      rw [List.forall_mem_cons] at atTop
      have passes : checkTopLevel (program.ast.decl id) = .ok () := by
        cases coherent.topLevel id atTop.1 with
        | object kind_eq => rw [checkTopLevel, ← Ast.kindOf, kind_eq]; rfl
        | function kind_eq => rw [checkTopLevel, ← Ast.kindOf, kind_eq]; rfl
      rw [List.map_cons, List.forM_eq_forM, List.forM_cons, passes]
      exact induction atTop.2

/-- Lowering a coherent program is lowering its functions. -/
theorem lower_eq (coherent : program.Coherent) :
    lower program = (lowerFunctions program
      (program.declarations.filter fun id => (program.ast.decl id).kind.isFunction)).map
        fun functions => ⟨(program.ast.decl program.root).name,
          (program.declarations.map program.ast.decl).filterMap lowerGlobal?, functions⟩ := by
  rw [lower, checkTopLevel_eq_ok coherent fun _ member => member]
  change (lowerFunctions program
    (program.declarations.filter fun id => (program.ast.decl id).kind.isFunction)).bind _ = _
  cases lowerFunctions program
      (program.declarations.filter fun id => (program.ast.decl id).kind.isFunction) with
  | ok functions => rfl
  | error cause => rfl

/-- A coherent program fails to be lowered only by faults of its own. -/
theorem lower_faults (coherent : program.Coherent) {error : Diagnostic}
    (failed : lower program = .error error) : error.isFault = true := by
  rw [lower_eq coherent] at failed
  cases run : lowerFunctions program
      (program.declarations.filter fun id => (program.ast.decl id).kind.isFunction) with
  | ok functions =>
      rw [run] at failed
      cases failed
  | error cause =>
      rw [run] at failed
      cases failed
      obtain ⟨done, id, rest, ids_eq, -, fails⟩ := exists_of_lowerFunctions_failed run
      have member : id ∈ program.declarations.filter fun id =>
          (program.ast.decl id).kind.isFunction := by simp [ids_eq]
      obtain ⟨atTop, isFunction⟩ := List.mem_filter.1 member
      exact lowerFunction_faults coherent atTop isFunction fails

end Minilang.Lowering

namespace Minilang

/-- Whatever the text is, compiling it gives a module or ends with a fault of the program: the compiler
does not break any invariant of its own. -/
theorem compile_faults (source : Source) :
    (∃ module, compile source = .ok module) ∨
      (∃ location error, compile source = .error (.lexical location error)) ∨
      (∃ location expected found,
        compile source = .error (.unexpected location expected found)) ∨
      ∃ location error, compile source = .error (.semantic location error) := by
  have faults {error : Diagnostic} (failed : compile source = .error error) :
      error.isFault = true := by
    rw [compile] at failed
    cases parsed : parse source with
    | error cause =>
        rw [parsed] at failed
        cases failed
        exact parse_faults parsed
    | ok program =>
        rw [parsed] at failed
        exact Lowering.lower_faults (parse_coherent parsed) failed
  cases compiled : compile source with
  | ok module => exact .inl ⟨module, rfl⟩
  | error error =>
      have fault := faults compiled
      cases error with
      | lexical location error => exact .inr (.inl ⟨location, error, rfl⟩)
      | unexpected location expected found =>
          exact .inr (.inr (.inl ⟨location, expected, found, rfl⟩))
      | semantic location error => exact .inr (.inr (.inr ⟨location, error, rfl⟩))
      | internal | unreadable => cases fault

end Minilang
