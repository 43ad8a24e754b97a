import Minilang.Proofs.Lowering.ExpressionAddresses
import Minilang.Proofs.Lowering.Statements

/-!
# Addresses in lowered statements

Guards, initializers and returned values are no addresses of storage, and a name of a variable is the
address of its own storage.
-/

namespace Minilang.Lowering

variable {program : Program} {scope : FunctionScope} {first second count : Nat} {before : Builder}

/-- Parts of statements are lowered to ranked instructions wherever the declarations before them have
values. -/
structure LowersStmtRanked (program : Program) (scope : FunctionScope) (first last : Nat)
    (loop : Option LoopTargets) (step : Build Unit) : Prop where
  /-- The statements are lowered. -/
  lowers : LowersStmt scope first last loop step
  /-- What comes out is ranked. -/
  ranks : ∀ before : Builder, Ranked program before → Binds scope first before →
    Reaches loop before → Builds step before (fun _ => Ranked program) fun _ => True

theorem LowersStmtRanked.builds {loop : Option LoopTargets} {step : Build Unit} {last : Nat}
    (lowers : LowersStmtRanked program scope first last loop step) (ranked : Ranked program before)
    (binds : Binds scope first before) (reaches : Reaches loop before) :
    Builds step before (fun _ after => Settles scope last before after ∧ Ranked program after)
      fun _ => True :=
  ((lowers.lowers before ranked.valid binds reaches).and
    (lowers.ranks before ranked binds reaches)).mono (fun _ _ both => both) fun _ _ => trivial

/-- What it takes to rank the values in a function. -/
structure Rankable (program : Program) (scope : FunctionScope) : Prop where
  /-- The function can be lowered. -/
  lowerable : Lowerable program scope
  /-- Declared types are plain. -/
  plain : program.ast.DeclaresPlain

/-- An expression is lowered to a value of its rank where everything that it may name has a value. -/
theorem Rankable.expression (rankable : Rankable program scope) (ranked : Ranked program before)
    (binds : Binds scope count before) {id : ExprId}
    (names : program.ast.Names (scope.Visible count) id) :
    Builds (lowerExpr program id) before (fun value after => GivesValue before value after ∧
      GivesRanked program (program.ast.typeOf id) value after) fun _ => True :=
  (lowerExpr_ranked ⟨rankable.lowerable.coherent, rankable.plain⟩ names.index_lt).builds ranked
    (names.mono (binds.available rankable.lowerable.globals_eq))

/-- A name may get a value of its rank. -/
theorem Ranked.bind (ranked : Ranked program before) {declaration : DeclId} {value : Ir.Value}
    (unbound : before.local? declaration = none) (below : value.Below before.temporaries)
    (ranks : ∀ type, program.ast.HasType (.name declaration) type →
      before.Ranks value type.isReference) : Ranked program (before.bind declaration value) := by
  have grows : before.Grows (before.bind declaration value) := .bind .refl unbound below
  have includes := grows.includes ranked.valid.wellFormed
  refine ⟨ranked.ranked.bind unbound below, fun other otherValue type found named => ?_⟩
  rw [Builder.local?, Builder.bind_locals, List.lookup_cons] at found
  by_cases same : other = declaration
  · subst same
    simp only [beq_self_eq_true, Option.some.injEq] at found
    rw [← found]
    exact (ranks type named).mono includes
  · rw [beq_eq_false_iff_ne.2 same] at found
    exact (ranked.local_ranks other otherValue type found named).mono includes

theorem Ranked.addAlloca (ranked : Ranked program before) (type : Ir.ValueType) :
    Ranked program (before.addAlloca type) := by
  have grows : before.Grows (before.addAlloca type) := .addAlloca type .refl
  exact ranked.onward (grows.includes ranked.valid.wellFormed) (before.addAlloca_locals type)
    (ranked.ranked.addAlloca type)

/-- A name of a variable has a reference as its type. -/
theorem isReference_of_variable {declaration : DeclId} {type : Ty}
    (isVariable : (program.ast.kindOf declaration).isVariable = true)
    (named : program.ast.HasType (.name declaration) type) : type.isReference = true := by
  cases named with
  | «variable» => exact Ty.isReference_referenceTo _
  | name notVariable => rw [isVariable] at notVariable; cases notVariable

/-- Storage gets a name whose uses designate it. -/
theorem Ranked.bindRoom (ranked : Ranked program before) {declaration : DeclId}
    (unbound : before.local? declaration = none)
    (isVariable : (program.ast.kindOf declaration).isVariable = true) (type : Ir.ValueType) :
    Ranked program ((before.addAlloca type).bind declaration (.temp before.temporaries)) := by
  refine (ranked.addAlloca type).bind unbound (Nat.lt_succ_self _) fun nameType named => ?_
  rw [isReference_of_variable isVariable named]
  exact before.addAlloca_ranks type

/-- A declared object is initialized with a value, which is no address. -/
theorem lowerLocal_ranked (rankable : Rankable program scope) (ranked : Ranked program before)
    (behind : scope.function.index < count) (binds : Binds scope count before) {kind : ObjectKind}
    {type : Ty} {initializer : ExprId}
    (kind_eq : program.ast.kindOf ⟨count⟩ = .object kind type (some initializer))
    (names : program.ast.Names (scope.Visible (if kind = .var then count + 1 else count))
      initializer) :
    Builds (lowerLocal program ⟨count⟩) before (fun _ => Ranked program) fun _ => True := by
  have unbound := binds.unbound (rankable.lowerable.not_parameter kind_eq)
  have declared : (program.ast.kindOf ⟨count⟩).type? = some type := by rw [kind_eq, DeclKind.type?]
  have isValue : (program.ast.typeOf initializer).isReference = false := by
    have typed := (rankable.lowerable.coherent.sound.initializer_typed ⟨count⟩ initializer
      (by rw [kind_eq, DeclKind.initializer?])).2
    exact Ty.isReference_of_isPlain (rankable.plain ⟨count⟩ _ typed)
  by_cases isVariable : kind = .var
  · rw [if_pos isVariable] at names
    rw [isVariable] at kind_eq
    rw [builds_lowerLocal_of_variable kind_eq]
    have bound := (binds.of_locals_eq (before.addAlloca_locals (.ofTy type))).bind behind
      (.temp before.temporaries)
    have boundRanked := ranked.bindRoom unbound (by rw [kind_eq]; rfl) (.ofTy type)
    have bindGrows : (before.addAlloca (.ofTy type)).Grows ((before.addAlloca (.ofTy type)).bind
        ⟨count⟩ (.temp before.temporaries)) := .bind .refl unbound (Nat.lt_succ_self _)
    refine (rankable.expression boundRanked bound names).mono ?_ fun _ => id
    rintro value after ⟨gives, rankedValue⟩
    have valueRanks := rankedValue.ranks
    rw [isValue] at valueRanks
    have slot : after.Ranks (.temp before.temporaries) true :=
      (before.addAlloca_ranks (.ofTy type)).mono ((bindGrows.trans gives.grows).includes
        (ranked.addAlloca (.ofTy type)).valid.wellFormed)
    exact rankedValue.ranked.perform ⟨valueRanks, slot⟩
  · rw [if_neg isVariable] at names
    rw [builds_lowerLocal_of_constant isVariable kind_eq]
    refine (rankable.expression ranked binds names).mono ?_ fun _ => id
    rintro value after ⟨gives, rankedValue⟩
    have valueRanks := rankedValue.ranks
    rw [isValue] at valueRanks
    refine rankedValue.ranked.bind ?_ gives.below fun nameType named => ?_
    · rw [Builder.local?, gives.locals_eq]
      exact unbound
    · cases named with
      | «variable» variableKind =>
          rw [kind_eq] at variableKind
          cases kind <;> simp_all [DeclKind.isVariable]
      | name _ declared' =>
          cases declared.symm.trans declared'
          rw [Ty.isReference_of_isPlain (rankable.plain _ _ declared)]
          exact valueRanks

section Forms

variable {body whenFalse : Build Unit} {guard : ExprId} {loop : Option LoopTargets}
  (rankable : Rankable program scope)
  (names : program.ast.Names (scope.Visible first) guard)
  (guard_type : program.ast.typeOf guard = .bool)

include rankable names guard_type

theorem lowerWhen_ranked (bodyRanked : LowersStmtRanked program scope first count loop body) :
    LowersStmtRanked program scope first count loop (lowerWhen program guard body) := by
  refine ⟨lowerWhen_builds rankable.lowerable names bodyRanked.lowers,
    fun before ranked binds reaches => ?_⟩
  rw [builds_lowerWhen]
  refine (rankable.expression ranked binds names).mono ?_ fun _ => id
  rintro condition split ⟨gives, rankedGuard⟩
  rw [guard_type] at rankedGuard
  have splitRanked := rankedGuard.ranked.splitTwo rankedGuard.ranks .whenThen .whenEnd
  have started := gives.grows.splitTwo rankedGuard.ranked.valid .whenThen .whenEnd gives.below
  have awaits := Builder.Awaits.splitTwo rankedGuard.ranked.valid .whenThen .whenEnd condition
  refine (bodyRanked.builds splitRanked (binds.of_locals_eq (by simp [gives.locals_eq]))
    (reaches.of_grows started)).mono ?_ fun _ => id
  rintro _ joined ⟨settles, joinedRanked⟩
  exact joinedRanked.leave _ (awaits.of_grows settles.grows)

theorem lowerIf_ranked (trueRanked : LowersStmtRanked program scope first second loop body)
    (falseRanked : LowersStmtRanked program scope second count loop whenFalse) :
    LowersStmtRanked program scope first count loop (lowerIf program guard body whenFalse) := by
  refine ⟨lowerIf_builds rankable.lowerable names trueRanked.lowers falseRanked.lowers,
    fun before ranked binds reaches => ?_⟩
  rw [builds_lowerIf]
  refine (rankable.expression ranked binds names).mono ?_ fun _ => id
  rintro condition split ⟨gives, rankedGuard⟩
  rw [guard_type] at rankedGuard
  have splitRanked := rankedGuard.ranked.splitThree rankedGuard.ranks .ifThen .ifElse .ifEnd
  have started :=
    gives.grows.splitThree rankedGuard.ranked.valid .ifThen .ifElse .ifEnd gives.below
  obtain ⟨awaitsElse, awaitsEnd⟩ := Builder.Awaits.splitThree rankedGuard.ranked.valid .ifThen
    .ifElse .ifEnd condition
  refine (trueRanked.builds splitRanked (binds.of_locals_eq (by simp [gives.locals_eq]))
    (reaches.of_grows started)).mono ?_ fun _ => id
  rintro _ turned ⟨settlesTrue, turnedRanked⟩
  replace awaitsElse := awaitsElse.of_grows settlesTrue.grows
  replace awaitsEnd := awaitsEnd.of_grows settlesTrue.grows
  have turnedGrows := (started.trans settlesTrue.grows).leave awaitsEnd.fresh.lt_size awaitsElse
    (Nat.le_succ_of_le gives.grows.size_le)
  refine (falseRanked.builds (turnedRanked.leave (split.blocks.size + 2) awaitsElse)
    (settlesTrue.binds.of_locals_eq (turned.leave_locals _ _)) (reaches.of_grows turnedGrows)).mono
    ?_ fun _ => id
  rintro _ joined ⟨settlesFalse, joinedRanked⟩
  exact joinedRanked.leave _ ((awaitsEnd.leave _ (Nat.ne_of_lt (Nat.lt_succ_self _))).of_grows
    settlesFalse.grows)

theorem lowerWhile_ranked {body : LoopTargets → Build Unit}
    (bodyRanked : ∀ targets,
      LowersStmtRanked program scope first count (some targets) (body targets)) :
    LowersStmtRanked program scope first count loop (lowerWhile program guard body) := by
  refine ⟨lowerWhile_builds rankable.lowerable names fun targets => (bodyRanked targets).lowers,
    fun before ranked binds _ => ?_⟩
  rw [builds_lowerWhile]
  obtain ⟨awaitsBody, awaitsEnd⟩ := Builder.Awaits.startLoop ranked.valid
  refine (rankable.expression ranked.startLoop (binds.of_locals_eq before.startLoop_locals)
    names).mono ?_ fun _ => id
  rintro condition tested ⟨gives, rankedGuard⟩
  rw [guard_type] at rankedGuard
  replace awaitsBody := (awaitsBody.of_grows gives.grows).endWith
    (.condBranch condition (before.blocks.size + 1) (before.blocks.size + 2))
  replace awaitsEnd := ((awaitsEnd.of_grows gives.grows).endWith
    (.condBranch condition (before.blocks.size + 1) (before.blocks.size + 2))).goTo
    (Nat.ne_of_lt (Nat.lt_succ_self (before.blocks.size + 1)))
  have endBlock_lt := awaitsEnd.fresh.lt_size
  have closedRanked := rankedGuard.ranked.endWith
    (.condBranch rankedGuard.ranks (before.blocks.size + 1) (before.blocks.size + 2))
  have enteredRanked := closedRanked.onward (.goTo _ _) rfl (closedRanked.ranked.goTo awaitsBody)
  refine ((bodyRanked _).builds enteredRanked (binds.of_locals_eq (by simp [gives.locals_eq]))
    ?_).mono ?_ fun _ => id
  · rintro _ ⟨rfl⟩
    exact ⟨Nat.lt_of_succ_lt (Nat.lt_of_succ_lt endBlock_lt), endBlock_lt⟩
  rintro _ turned ⟨settles, turnedRanked⟩
  exact turnedRanked.leave _ (awaitsEnd.of_grows settles.grows)

end Forms

/-- A jump needs no value. -/
theorem lowerJump_ranked {loop : Option LoopTargets} {target : LoopTargets → Nat}
    {location : Location} {error : SemanticError} (ranked : Ranked program before) :
    Builds (lowerJump loop target location error) before (fun _ => Ranked program)
      fun _ => True := by
  cases loop with
  | none => trivial
  | some targets =>
      rw [lowerJump, builds_terminate]
      exact ranked.endWith (.branch _)

/-- A returned value is no address. -/
theorem lowerReturn_ranked (rankable : Rankable program scope) {value : ExprId}
    {result : Ir.ValueType} (ranked : Ranked program before) (binds : Binds scope first before)
    (names : program.ast.Names (scope.Visible first) value)
    (isValue : (program.ast.typeOf value).isReference = false) :
    Builds (do
      let value ← lowerExpr program value
      terminate (.ret result value)) before (fun _ => Ranked program) fun _ => True := by
  rw [builds_bind]
  refine (rankable.expression ranked binds names).mono ?_ fun _ => id
  rintro returned after ⟨-, rankedValue⟩
  have valueRanks := rankedValue.ranks
  rw [isValue] at valueRanks
  rw [builds_terminate]
  exact rankedValue.ranked.endWith fun _ member => List.mem_singleton.1 member ▸ valueRanks

/-- Every form of statement is lowered to ranked instructions. -/
theorem followsForms_lowersStmtRanked (rankable : Rankable program scope) (result : Ir.ValueType) :
    FollowsForms program scope.Visible result fun first _ last loop step =>
      scope.function.index < first → LowersStmtRanked program scope first last loop step := by
  have lowerable := rankable.lowerable
  have forms := followsForms_lowersStmt lowerable result
  have typed {id : StmtId} {stmt : Stmt} (is : program.ast.StmtIs id stmt) :
      program.ast.StmtTyped stmt :=
    is.2 ▸ lowerable.coherent.sound.stmt_typed id is.1
  constructor
  case nil =>
    intro first loop behind
    exact ⟨forms.nil first loop behind, fun _ ranked _ _ => ranked⟩
  case cons =>
    intro first middle last id rest loop step steps first_le _ stepRanked restRanked behind
    have head := stepRanked behind
    have tail := restRanked (behind.trans_le first_le)
    refine ⟨head.lowers.cons tail.lowers, fun before ranked binds reaches => ?_⟩
    rw [builds_bind]
    refine (head.builds ranked binds reaches).mono ?_ fun _ always => always
    rintro _ middle ⟨settles, middleRanked⟩
    exact tail.ranks middle middleRanked settles.binds (reaches.of_grows settles.grows)
  case block =>
    intro first last id statements loop step _ innerRanked behind
    exact innerRanked behind
  case whenTrue =>
    intro first last id guard body loop step is names _ bodyRanked behind
    exact lowerWhen_ranked rankable names ((typed is).guard guard (.inl ⟨body, rfl⟩))
      (bodyRanked behind)
  case ifElse =>
    intro first second last id guard whenTrue whenFalse loop trueStep falseStep is names first_le _
      trueRanked falseRanked behind
    exact lowerIf_ranked rankable names
      ((typed is).guard guard (.inr (.inl ⟨whenTrue, whenFalse, rfl⟩))) (trueRanked behind)
      (falseRanked (behind.trans_le first_le))
  case whileTrue =>
    intro first last id guard body loop step is names _ bodyRanked behind
    exact lowerWhile_ranked rankable names
      ((typed is).guard guard (.inr (.inr ⟨body, rfl⟩))) fun targets => bodyRanked targets behind
  case breakLoop =>
    intro first id location loop is behind
    exact ⟨forms.breakLoop is behind, fun _ ranked _ _ => lowerJump_ranked ranked⟩
  case continueLoop =>
    intro first id location loop is behind
    exact ⟨forms.continueLoop is behind, fun _ ranked _ _ => lowerJump_ranked ranked⟩
  case returnValue =>
    intro first id value loop is names behind
    obtain ⟨function, parameters, declared⟩ := (typed is).returned value rfl
    have isValue := Ty.isReference_of_isPlain
      (Ty.isPlain_function.1 (rankable.plain function _ declared)).1
    exact ⟨forms.returnValue is names behind, fun before ranked binds _ =>
      lowerReturn_ranked rankable ranked binds names isValue⟩
  case declaration =>
    intro first id kind type initializer loop is kind_eq names behind
    exact ⟨forms.declaration is kind_eq names behind, fun before ranked binds _ =>
      lowerLocal_ranked rankable ranked behind binds kind_eq names⟩
  case expression =>
    intro first id value loop is names behind
    refine ⟨forms.expression is names behind, fun before ranked binds _ => ?_⟩
    rw [builds_bind]
    refine (rankable.expression ranked binds names).mono ?_ fun _ always => always
    rintro result after ⟨-, rankedValue⟩
    exact rankedValue.ranked

end Minilang.Lowering
