import Minilang.Proofs.Lowering.ExpressionTyping
import Minilang.Proofs.Lowering.Statements

/-!
# Lowered statements are typed

Statements are lowered to typed instructions and terminators: guards are truth values, initializers have the
declared types, and returned values have the type of the result of the function.
-/

namespace Minilang.Lowering

variable {program : Program} {signature : Ir.Signature} {scope : FunctionScope}
  {first second count : Nat} {before : Builder}

/-- Parts of statements are lowered to typed instructions wherever the declarations before them have
values. -/
structure LowersStmtTyped (program : Program) (signature : Ir.Signature) (scope : FunctionScope)
    (first last : Nat) (loop : Option LoopTargets) (step : Build Unit) : Prop where
  /-- The statements are lowered. -/
  lowers : LowersStmt scope first last loop step
  /-- What comes out is typed. -/
  types : ∀ before : Builder, Typed program signature before → Binds scope first before →
    Reaches loop before → Builds step before (fun _ => Typed program signature) fun _ => True

theorem LowersStmtTyped.builds {loop : Option LoopTargets} {step : Build Unit} {last : Nat}
    (lowers : LowersStmtTyped program signature scope first last loop step)
    (typed : Typed program signature before) (binds : Binds scope first before)
    (reaches : Reaches loop before) :
    Builds step before (fun _ after => Settles scope last before after ∧
      Typed program signature after) fun _ => True :=
  ((lowers.lowers before typed.valid binds reaches).and
    (lowers.types before typed binds reaches)).mono (fun _ _ both => both) fun _ _ => trivial

/-- An expression is lowered to typed instructions where everything that it may name has a value. -/
theorem Lowerable.expression_typed (lowerable : Lowerable program scope)
    (typed : Typed program signature before) (binds : Binds scope count before) {id : ExprId}
    (names : program.ast.Names (scope.Visible count) id) :
    Builds (lowerExpr program id) before (fun value after => GivesValue before value after ∧
      GivesTyped program signature (program.ast.typeOf id) value after) fun _ => True :=
  (lowerExpr_typed lowerable.coherent names.index_lt).builds typed
    (names.mono (binds.available lowerable.globals_eq))

/-- A name may get a value that fits it. -/
theorem Typed.bind (typed : Typed program signature before) {declaration : DeclId}
    {value : Ir.Value} (unbound : before.local? declaration = none)
    (below : value.Below before.temporaries)
    (fits : ∀ type, program.ast.HasType (.name declaration) type →
      Fits program signature.arguments before value type) :
    Typed program signature (before.bind declaration value) := by
  have grows : before.Grows (before.bind declaration value) := .bind .refl unbound below
  have includes := grows.includes typed.valid.wellFormed
  refine ⟨typed.wellTyped.bind unbound below, fun other otherValue type found named => ?_⟩
  rw [Builder.local?, Builder.bind_locals, List.lookup_cons] at found
  by_cases same : other = declaration
  · subst same
    simp only [beq_self_eq_true, Option.some.injEq] at found
    rw [← found]
    exact (fits type named).mono includes
  · rw [beq_eq_false_iff_ne.2 same] at found
    exact (typed.local_fits other otherValue type found named).mono includes

theorem Typed.addAlloca (typed : Typed program signature before) (type : Ir.ValueType) :
    Typed program signature (before.addAlloca type) := by
  have grows : before.Grows (before.addAlloca type) := .addAlloca type .refl
  exact typed.onward (grows.includes typed.valid.wellFormed) (before.addAlloca_locals type)
    (typed.wellTyped.addAlloca type)

/-- Storage gets a name whose uses designate it. -/
theorem Typed.bindRoom (typed : Typed program signature before) {declaration : DeclId}
    (unbound : before.local? declaration = none)
    (isVariable : (program.ast.kindOf declaration).isVariable = true) (type : Ir.ValueType) :
    Typed program signature ((before.addAlloca type).bind declaration (.temp before.temporaries)) := by
  refine (typed.addAlloca type).bind unbound (Nat.lt_succ_self _) fun nameType named => ?_
  refine .of_holds ?_ (by simp)
  cases named with
  | «variable» =>
      rw [Ir.ValueType.ofTy_referenceTo]
      exact before.addAlloca_holds type
  | name notVariable => rw [isVariable] at notVariable; cases notVariable

/-- The initializer of an object has the declared type. -/
theorem Lowerable.initializer_type (lowerable : Lowerable program scope) {id : DeclId}
    {kind : ObjectKind} {type : Ty} {initializer : ExprId}
    (kind_eq : program.ast.kindOf id = .object kind type (some initializer)) :
    program.ast.typeOf initializer = type := by
  have declared := (lowerable.coherent.sound.initializer_typed id initializer
    (by rw [kind_eq, DeclKind.initializer?])).2
  rw [kind_eq] at declared
  exact (Option.some.inj declared).symm

/-- A declared object is initialized with a value of its type. -/
theorem lowerLocal_typed (lowerable : Lowerable program scope)
    (typed : Typed program signature before) (behind : scope.function.index < count)
    (binds : Binds scope count before) {kind : ObjectKind} {type : Ty} {initializer : ExprId}
    (kind_eq : program.ast.kindOf ⟨count⟩ = .object kind type (some initializer))
    (names : program.ast.Names (scope.Visible (if kind = .var then count + 1 else count))
      initializer) :
    Builds (lowerLocal program ⟨count⟩) before (fun _ => Typed program signature) fun _ => True := by
  have unbound := binds.unbound (lowerable.not_parameter kind_eq)
  have initializer_type := lowerable.initializer_type kind_eq
  by_cases isVariable : kind = .var
  · rw [if_pos isVariable] at names
    rw [isVariable] at kind_eq
    rw [builds_lowerLocal_of_variable kind_eq]
    have bound := (binds.of_locals_eq (before.addAlloca_locals (.ofTy type))).bind behind
      (.temp before.temporaries)
    have boundTyped := typed.bindRoom unbound (by rw [kind_eq]; rfl) (.ofTy type)
    have bindGrows : (before.addAlloca (.ofTy type)).Grows ((before.addAlloca (.ofTy type)).bind
        ⟨count⟩ (.temp before.temporaries)) := .bind .refl unbound (Nat.lt_succ_self _)
    refine (lowerable.expression_typed boundTyped bound names).mono ?_ fun _ => id
    rintro value after ⟨gives, typedValue⟩
    rw [initializer_type] at typedValue
    have slot : after.Holds signature.arguments (.temp before.temporaries) .ptr :=
      (before.addAlloca_holds (.ofTy type)).mono ((bindGrows.trans gives.grows).includes
        (typed.addAlloca (.ofTy type)).valid.wellFormed)
    exact typedValue.typed.perform (.store typedValue.fits.holds slot)
  · rw [if_neg isVariable] at names
    rw [builds_lowerLocal_of_constant isVariable kind_eq]
    refine (lowerable.expression_typed typed binds names).mono ?_ fun _ => id
    rintro value after ⟨gives, typedValue⟩
    refine typedValue.typed.bind ?_ gives.below fun nameType named => ?_
    · rw [Builder.local?, gives.locals_eq]
      exact unbound
    · obtain rfl : type = nameType := by
        cases named with
        | «variable» variableKind =>
            rw [kind_eq] at variableKind
            cases kind <;> simp_all [DeclKind.isVariable]
        | name _ declared => rw [kind_eq] at declared; exact Option.some.inj declared
      exact initializer_type ▸ typedValue.fits

section Forms

variable {body whenFalse : Build Unit} {guard : ExprId} {loop : Option LoopTargets}
  (lowerable : Lowerable program scope)
  (names : program.ast.Names (scope.Visible first) guard)
  (guard_type : program.ast.typeOf guard = .bool)

include lowerable names guard_type

theorem lowerWhen_typed (bodyTyped : LowersStmtTyped program signature scope first count loop body) :
    LowersStmtTyped program signature scope first count loop (lowerWhen program guard body) := by
  refine ⟨lowerWhen_builds lowerable names bodyTyped.lowers, fun before typed binds reaches => ?_⟩
  rw [builds_lowerWhen]
  refine (lowerable.expression_typed typed binds names).mono ?_ fun _ => id
  rintro condition split ⟨gives, typedGuard⟩
  rw [guard_type] at typedGuard
  have splitTyped := typedGuard.typed.splitTwo typedGuard.fits.holds .whenThen .whenEnd
  have started := gives.grows.splitTwo typedGuard.typed.valid .whenThen .whenEnd gives.below
  have awaits := Builder.Awaits.splitTwo typedGuard.typed.valid .whenThen .whenEnd condition
  refine (bodyTyped.builds splitTyped (binds.of_locals_eq (by simp [gives.locals_eq]))
    (reaches.of_grows started)).mono ?_ fun _ => id
  rintro _ joined ⟨settles, joinedTyped⟩
  exact joinedTyped.leave _ (awaits.of_grows settles.grows)

theorem lowerIf_typed (trueTyped : LowersStmtTyped program signature scope first second loop body)
    (falseTyped : LowersStmtTyped program signature scope second count loop whenFalse) :
    LowersStmtTyped program signature scope first count loop
      (lowerIf program guard body whenFalse) := by
  refine ⟨lowerIf_builds lowerable names trueTyped.lowers falseTyped.lowers,
    fun before typed binds reaches => ?_⟩
  rw [builds_lowerIf]
  refine (lowerable.expression_typed typed binds names).mono ?_ fun _ => id
  rintro condition split ⟨gives, typedGuard⟩
  rw [guard_type] at typedGuard
  have splitTyped := typedGuard.typed.splitThree typedGuard.fits.holds .ifThen .ifElse .ifEnd
  have started := gives.grows.splitThree typedGuard.typed.valid .ifThen .ifElse .ifEnd gives.below
  obtain ⟨awaitsElse, awaitsEnd⟩ := Builder.Awaits.splitThree typedGuard.typed.valid .ifThen .ifElse
    .ifEnd condition
  refine (trueTyped.builds splitTyped (binds.of_locals_eq (by simp [gives.locals_eq]))
    (reaches.of_grows started)).mono ?_ fun _ => id
  rintro _ turned ⟨settlesTrue, turnedTyped⟩
  replace awaitsElse := awaitsElse.of_grows settlesTrue.grows
  replace awaitsEnd := awaitsEnd.of_grows settlesTrue.grows
  have turnedGrows := (started.trans settlesTrue.grows).leave awaitsEnd.fresh.lt_size awaitsElse
    (Nat.le_succ_of_le gives.grows.size_le)
  refine (falseTyped.builds (turnedTyped.leave (split.blocks.size + 2) awaitsElse)
    (settlesTrue.binds.of_locals_eq (turned.leave_locals _ _)) (reaches.of_grows turnedGrows)).mono
    ?_ fun _ => id
  rintro _ joined ⟨settlesFalse, joinedTyped⟩
  exact joinedTyped.leave _ ((awaitsEnd.leave _ (Nat.ne_of_lt (Nat.lt_succ_self _))).of_grows
    settlesFalse.grows)

theorem lowerWhile_typed {body : LoopTargets → Build Unit}
    (bodyTyped : ∀ targets,
      LowersStmtTyped program signature scope first count (some targets) (body targets)) :
    LowersStmtTyped program signature scope first count loop (lowerWhile program guard body) := by
  refine ⟨lowerWhile_builds lowerable names fun targets => (bodyTyped targets).lowers,
    fun before typed binds _ => ?_⟩
  rw [builds_lowerWhile]
  obtain ⟨awaitsBody, awaitsEnd⟩ := Builder.Awaits.startLoop typed.valid
  refine (lowerable.expression_typed typed.startLoop (binds.of_locals_eq before.startLoop_locals)
    names).mono ?_ fun _ => id
  rintro condition tested ⟨gives, typedGuard⟩
  rw [guard_type] at typedGuard
  replace awaitsBody := (awaitsBody.of_grows gives.grows).endWith
    (.condBranch condition (before.blocks.size + 1) (before.blocks.size + 2))
  replace awaitsEnd := ((awaitsEnd.of_grows gives.grows).endWith
    (.condBranch condition (before.blocks.size + 1) (before.blocks.size + 2))).goTo
    (Nat.ne_of_lt (Nat.lt_succ_self (before.blocks.size + 1)))
  have endBlock_lt := awaitsEnd.fresh.lt_size
  have closedTyped := typedGuard.typed.endWith
    (.condBranch (before.blocks.size + 1) (before.blocks.size + 2) typedGuard.fits.holds)
  have enteredTyped := closedTyped.onward (.goTo _ _) rfl (closedTyped.wellTyped.goTo awaitsBody)
  refine ((bodyTyped _).builds enteredTyped (binds.of_locals_eq (by simp [gives.locals_eq]))
    ?_).mono ?_ fun _ => id
  · rintro _ ⟨rfl⟩
    exact ⟨Nat.lt_of_succ_lt (Nat.lt_of_succ_lt endBlock_lt), endBlock_lt⟩
  rintro _ turned ⟨settles, turnedTyped⟩
  exact turnedTyped.leave _ (awaitsEnd.of_grows settles.grows)

end Forms

/-- A jump needs no value. -/
theorem lowerJump_typed {loop : Option LoopTargets} {target : LoopTargets → Nat}
    {location : Location} {error : SemanticError} (typed : Typed program signature before) :
    Builds (lowerJump loop target location error) before (fun _ => Typed program signature)
      fun _ => True := by
  cases loop with
  | none => trivial
  | some targets =>
      rw [lowerJump, builds_terminate]
      exact typed.endWith (.branch _)

/-- A returned value has the type of the result. -/
theorem lowerReturn_typed (lowerable : Lowerable program scope) {value : ExprId} {result : Ty}
    (typed : Typed program signature before) (binds : Binds scope first before)
    (names : program.ast.Names (scope.Visible first) value)
    (value_type : program.ast.typeOf value = result) (result_eq : signature.result = .ofTy result) :
    Builds (do
      let value ← lowerExpr program value
      terminate (.ret signature.result value)) before (fun _ => Typed program signature)
      fun _ => True := by
  rw [builds_bind]
  refine (lowerable.expression_typed typed binds names).mono ?_ fun _ => id
  rintro returned after ⟨-, typedValue⟩
  rw [value_type] at typedValue
  rw [builds_terminate]
  refine typedValue.typed.endWith (.ret ?_)
  rw [result_eq]
  exact typedValue.fits.holds

/-- Every form of statement is lowered to typed instructions in a function that returns its result. -/
theorem followsForms_lowersStmtTyped (lowerable : Lowerable program scope) {result : Ty}
    {types : List Ty}
    (function_type : (program.ast.kindOf scope.function).type? = some (.function result types))
    (result_eq : signature.result = .ofTy result) :
    FollowsForms program scope.Visible signature.result fun first ids last loop step =>
      (∀ id ∈ ids, program.ast.Returns scope.function id) → scope.function.index < first →
        LowersStmtTyped program signature scope first last loop step := by
  have forms := followsForms_lowersStmt lowerable signature.result
  have guard_type {id : StmtId} {stmt : Stmt} {guard : ExprId} (is : program.ast.StmtIs id stmt)
      (guards : (∃ body, stmt = .whenTrue guard body) ∨
        (∃ whenTrue whenFalse, stmt = .ifElse guard whenTrue whenFalse) ∨
        (∃ body, stmt = .whileTrue guard body)) : program.ast.typeOf guard = .bool := by
    have typed := lowerable.coherent.sound.stmt_typed id is.1
    rw [is.2] at typed
    exact typed.guard guard guards
  have child {id child : StmtId} {stmt : Stmt} (is : program.ast.StmtIs id stmt)
      (returns : ∀ other ∈ [id], program.ast.Returns scope.function other)
      (member : child ∈ stmt.children) : program.ast.Returns scope.function child :=
    (returns id (List.mem_singleton.2 rfl)).child (is.2.symm ▸ member)
  constructor
  case nil =>
    intro first loop _ behind
    exact ⟨forms.nil first loop behind, fun _ typed _ _ => typed⟩
  case cons =>
    intro first middle last id rest loop step steps first_le _ stepTyped restTyped returns behind
    rw [List.forall_mem_cons] at returns
    have head := stepTyped (List.forall_mem_singleton.2 returns.1) behind
    have tail := restTyped returns.2 (behind.trans_le first_le)
    refine ⟨head.lowers.cons tail.lowers, fun before typed binds reaches => ?_⟩
    rw [builds_bind]
    refine (head.builds typed binds reaches).mono ?_ fun _ always => always
    rintro _ middle ⟨settles, middleTyped⟩
    exact tail.types middle middleTyped settles.binds (reaches.of_grows settles.grows)
  case block =>
    intro first last id statements loop step is innerTyped returns behind
    exact innerTyped (fun _ member => child is returns member) behind
  case whenTrue =>
    intro first last id guard body loop step is names _ bodyTyped returns behind
    refine lowerWhen_typed lowerable names (guard_type is (.inl ⟨body, rfl⟩)) (bodyTyped ?_ behind)
    exact List.forall_mem_singleton.2 (child is returns (by simp [Stmt.children]))
  case ifElse =>
    intro first second last id guard whenTrue whenFalse loop trueStep falseStep is names first_le _
      trueTyped falseTyped returns behind
    refine lowerIf_typed lowerable names (guard_type is (.inr (.inl ⟨whenTrue, whenFalse, rfl⟩)))
      (trueTyped ?_ behind) (falseTyped ?_ (behind.trans_le first_le))
    · exact List.forall_mem_singleton.2 (child is returns (by simp [Stmt.children]))
    · exact List.forall_mem_singleton.2 (child is returns (by simp [Stmt.children]))
  case whileTrue =>
    intro first last id guard body loop step is names _ bodyTyped returns behind
    refine lowerWhile_typed lowerable names (guard_type is (.inr (.inr ⟨body, rfl⟩)))
      fun targets => bodyTyped targets ?_ behind
    exact List.forall_mem_singleton.2 (child is returns (by simp [Stmt.children]))
  case breakLoop =>
    intro first id location loop is _ behind
    exact ⟨forms.breakLoop is behind, fun _ typed _ _ => lowerJump_typed typed⟩
  case continueLoop =>
    intro first id location loop is _ behind
    exact ⟨forms.continueLoop is behind, fun _ typed _ _ => lowerJump_typed typed⟩
  case returnValue =>
    intro first id value loop is names returns behind
    obtain ⟨parameters, declared⟩ := (returns id (List.mem_singleton.2 rfl)).typed is.2
    cases declared.symm.trans function_type
    exact ⟨forms.returnValue is names behind, fun before typed binds _ =>
      lowerReturn_typed lowerable typed binds names rfl result_eq⟩
  case declaration =>
    intro first id kind type initializer loop is kind_eq names _ behind
    exact ⟨forms.declaration is kind_eq names behind, fun before typed binds _ =>
      lowerLocal_typed lowerable typed behind binds kind_eq names⟩
  case expression =>
    intro first id value loop is names _ behind
    refine ⟨forms.expression is names behind, fun before typed binds _ => ?_⟩
    rw [builds_bind]
    refine (lowerable.expression_typed typed binds names).mono ?_ fun _ always => always
    rintro result after ⟨-, typedValue⟩
    exact typedValue.typed

end Minilang.Lowering
