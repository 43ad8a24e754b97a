import Minilang.Proofs.Analysis.Steps
import Minilang.Proofs.Lowering.Expressions

/-!
# Lowering statements

Statements are lowered from the state in which all declarations before them have values to the one in which
those within them have values too. They fail only where a jump has no loop around it.
-/

namespace Minilang.Lowering

open Builder (Grows Valid)

/-- Whether exactly the parameters of a function and the declarations made in it so far have values. -/
def Binds (scope : FunctionScope) (count : Nat) (builder : Builder) : Prop :=
  ∀ declaration, (builder.local? declaration).isSome = true ↔
    declaration ∈ scope.parameters ∨
      scope.function.index < declaration.index ∧ declaration.index < count

/-- Whether the blocks that jumps lead to are there. -/
def Reaches (loop : Option LoopTargets) (builder : Builder) : Prop :=
  ∀ targets, loop = some targets →
    targets.continueBlock < builder.blocks.size ∧ targets.breakBlock < builder.blocks.size

/-- Statements that leave a number of declarations made have grown the function. -/
structure Settles (scope : FunctionScope) (count : Nat) (before after : Builder) : Prop where
  /-- The function has grown. -/
  grows : before.Grows after
  /-- The declarations have values. -/
  binds : Binds scope count after

variable {program : Program} {scope : FunctionScope} {first count : Nat}
  {before middle after : Builder}

theorem Binds.of_locals_eq (binds : Binds scope count before) (same : after.locals = before.locals) :
    Binds scope count after := by
  intro declaration
  rw [Builder.local?, same]
  exact binds declaration

/-- What is visible is available. -/
theorem Binds.available (binds : Binds scope count before)
    (globals_eq : scope.globals = program.declarations) (declaration : DeclId)
    (visible : scope.Visible count declaration) : Available program before declaration := by
  obtain atTop | inside := visible
  · exact .inr (globals_eq ▸ atTop)
  · exact .inl ((binds declaration).2 inside)

/-- The next declaration has no value yet. -/
theorem Binds.unbound (binds : Binds scope count before)
    (notParameter : (⟨count⟩ : DeclId) ∉ scope.parameters) : before.local? ⟨count⟩ = none := by
  rw [← Option.not_isSome_iff_eq_none, binds]
  exact not_or.2 ⟨notParameter, fun inside => Nat.lt_irrefl _ inside.2⟩

/-- The next declaration gets a value. -/
theorem Binds.bind (binds : Binds scope count before) (behind : scope.function.index < count)
    (value : Ir.Value) : Binds scope (count + 1) (before.bind ⟨count⟩ value) := by
  intro declaration
  rw [Builder.local?, Builder.bind_locals, List.lookup_cons]
  by_cases same : declaration = ⟨count⟩
  · subst same
    simp [behind]
  · have different : declaration.index ≠ count := fun equal => same (by rw [← equal])
    rw [beq_eq_false_iff_ne.2 same]
    refine (binds declaration).trans (or_congr Iff.rfl (and_congr_right fun _ => ?_))
    omega

theorem Reaches.of_grows {loop : Option LoopTargets} (reaches : Reaches loop before)
    (grows : before.Grows after) : Reaches loop after :=
  fun targets within => ⟨(reaches targets within).1.trans_le grows.size_le,
    (reaches targets within).2.trans_le grows.size_le⟩

theorem Settles.behind (grows : before.Grows middle) (settles : Settles scope count middle after) :
    Settles scope count before after :=
  ⟨grows.trans settles.grows, settles.binds⟩

/-- What it takes to lower statements in a function. -/
structure Lowerable (program : Program) (scope : FunctionScope) : Prop where
  /-- The program is coherent. -/
  coherent : program.Coherent
  /-- The function may name everything at the top. -/
  globals_eq : scope.globals = program.declarations
  /-- Parameters are parameters. -/
  parameter_kind : ∀ parameter ∈ scope.parameters, ∃ type,
    program.ast.kindOf parameter = .parameter type

/-- Objects are no parameters. -/
theorem Lowerable.not_parameter (lowerable : Lowerable program scope) {id : DeclId}
    {objectKind : ObjectKind} {type : Ty} {initializer : Option ExprId}
    (kind_eq : program.ast.kindOf id = .object objectKind type initializer) :
    id ∉ scope.parameters := by
  intro isParameter
  obtain ⟨_, other⟩ := lowerable.parameter_kind id isParameter
  rw [kind_eq] at other
  cases other

/-- An expression is lowered where everything that it may name has a value. -/
theorem Lowerable.expression (lowerable : Lowerable program scope) (valid : before.Valid)
    (binds : Binds scope count before) {id : ExprId}
    (names : program.ast.Names (scope.Visible count) id) :
    Builds (lowerExpr program id) before (GivesValue before) fun _ => False :=
  lowerExpr_builds lowerable.coherent id before valid
    (names.mono (binds.available lowerable.globals_eq))

/-- A declaration is lowered from the state before it to the one behind it. -/
theorem lowerLocal_builds (lowerable : Lowerable program scope) (valid : before.Valid)
    (behind : scope.function.index < count) (binds : Binds scope count before)
    {kind : ObjectKind} {type : Ty} {initializer : ExprId}
    (kind_eq : program.ast.kindOf ⟨count⟩ = .object kind type (some initializer))
    (names : program.ast.Names (scope.Visible (if kind = .var then count + 1 else count))
      initializer) :
    Builds (lowerLocal program ⟨count⟩) before (fun _ => Settles scope (count + 1) before)
      fun _ => False := by
  have unbound := binds.unbound (lowerable.not_parameter kind_eq)
  by_cases isVariable : kind = .var
  · rw [if_pos isVariable] at names
    rw [isVariable] at kind_eq
    rw [builds_lowerLocal_of_variable kind_eq]
    have declared : before.Grows ((before.addAlloca (.ofTy type)).bind ⟨count⟩
        (.temp before.temporaries)) :=
      .bind (.addAlloca _ .refl) unbound (Nat.lt_succ_self _)
    have bound := (binds.of_locals_eq (before.addAlloca_locals (.ofTy type))).bind behind
      (.temp before.temporaries)
    refine (lowerable.expression (valid.of_grows declared) bound names).mono ?_ fun _ => id
    intro value after gives
    have slotBelow : before.temporaries < after.temporaries :=
      Nat.lt_of_lt_of_le (Nat.lt_succ_self _) gives.grows.temporaries_le
    refine ⟨(declared.trans gives.grows).performed ?_, ?_⟩
    · simp only [Ir.Operation.operands, List.forall_mem_cons]
      exact ⟨gives.below, slotBelow, by simp⟩
    · exact (bound.of_locals_eq gives.locals_eq).of_locals_eq (after.perform_locals _)
  · rw [if_neg isVariable] at names
    rw [builds_lowerLocal_of_constant isVariable kind_eq]
    refine (lowerable.expression valid binds names).mono ?_ fun _ => id
    intro value after gives
    have same := binds.of_locals_eq gives.locals_eq
    exact ⟨.bind gives.grows (same.unbound (lowerable.not_parameter kind_eq)) gives.below,
      same.bind behind value⟩

section Forms

variable {body whenFalse : Build Unit} {guard : ExprId} {second : Nat}

/-- Parts of statements are lowered wherever the declarations before them have values. -/
def LowersStmt (scope : FunctionScope) (first last : Nat) (loop : Option LoopTargets)
    (lower : Build Unit) : Prop :=
  ∀ before : Builder, before.Valid → Binds scope first before → Reaches loop before →
    Builds lower before (fun _ => Settles scope last before) fun error => error.isFault = true

variable {loop : Option LoopTargets} (lowerable : Lowerable program scope)
  (names : program.ast.Names (scope.Visible first) guard)

include lowerable names

theorem lowerWhen_builds (lowersBody : LowersStmt scope first count loop body) :
    LowersStmt scope first count loop (lowerWhen program guard body) := by
  intro before valid binds reaches
  rw [builds_lowerWhen]
  refine (lowerable.expression valid binds names).mono ?_ fun _ => False.elim
  intro condition split gives
  have splitValid := valid.of_grows gives.grows
  have started := gives.grows.splitTwo splitValid .whenThen .whenEnd gives.below
  have awaits := Builder.Awaits.splitTwo splitValid .whenThen .whenEnd condition
  refine (lowersBody _ (valid.of_grows started)
    (binds.of_locals_eq (by simp [gives.locals_eq])) (reaches.of_grows started)).mono ?_
    fun _ => id
  intro _ joined settles
  replace awaits := awaits.of_grows settles.grows
  exact ⟨(started.trans settles.grows).leave awaits.fresh.lt_size awaits
    (Nat.le_succ_of_le gives.grows.size_le), settles.binds.of_locals_eq (joined.leave_locals _ _)⟩

theorem lowerIf_builds (lowersTrue : LowersStmt scope first second loop body)
    (lowersFalse : LowersStmt scope second count loop whenFalse) :
    LowersStmt scope first count loop (lowerIf program guard body whenFalse) := by
  intro before valid binds reaches
  rw [builds_lowerIf]
  refine (lowerable.expression valid binds names).mono ?_ fun _ => False.elim
  intro condition split gives
  have splitValid := valid.of_grows gives.grows
  have started := gives.grows.splitThree splitValid .ifThen .ifElse .ifEnd gives.below
  obtain ⟨awaitsElse, awaitsEnd⟩ := Builder.Awaits.splitThree splitValid .ifThen .ifElse .ifEnd
    condition
  refine (lowersTrue _ (valid.of_grows started)
    (binds.of_locals_eq (by simp [gives.locals_eq])) (reaches.of_grows started)).mono ?_
    fun _ => id
  intro _ turned settlesTrue
  replace awaitsElse := awaitsElse.of_grows settlesTrue.grows
  replace awaitsEnd := awaitsEnd.of_grows settlesTrue.grows
  have turnedGrows := (started.trans settlesTrue.grows).leave awaitsEnd.fresh.lt_size awaitsElse
    (Nat.le_succ_of_le gives.grows.size_le)
  refine (lowersFalse _ (valid.of_grows turnedGrows)
    (settlesTrue.binds.of_locals_eq (turned.leave_locals _ _)) (reaches.of_grows turnedGrows)).mono
    ?_ fun _ => id
  intro _ joined settlesFalse
  replace awaitsEnd := (awaitsEnd.leave _ (Nat.ne_of_lt (Nat.lt_succ_self _))).of_grows
    settlesFalse.grows
  exact ⟨(turnedGrows.trans settlesFalse.grows).leave awaitsEnd.fresh.lt_size awaitsEnd
    (Nat.le_add_right_of_le gives.grows.size_le),
    settlesFalse.binds.of_locals_eq (joined.leave_locals _ _)⟩

theorem lowerWhile_builds {body : LoopTargets → Build Unit}
    (lowersBody : ∀ targets, LowersStmt scope first count (some targets) (body targets)) :
    LowersStmt scope first count loop (lowerWhile program guard body) := by
  intro before valid binds _
  rw [builds_lowerWhile]
  have started := Grows.refl.startLoop valid
  obtain ⟨awaitsBody, awaitsEnd⟩ := Builder.Awaits.startLoop valid
  refine (lowerable.expression (valid.of_grows started)
    (binds.of_locals_eq before.startLoop_locals) names).mono ?_ fun _ => False.elim
  intro condition tested gives
  replace awaitsBody := awaitsBody.of_grows gives.grows
  replace awaitsEnd := awaitsEnd.of_grows gives.grows
  have closed := (started.trans gives.grows).endWith
    (.condBranch condition (before.blocks.size + 1) (before.blocks.size + 2))
    (by simpa [Ir.Terminator.operands] using gives.below)
    (by
      rw [Ir.Terminator.successors, List.forall_mem_cons, List.forall_mem_singleton]
      exact ⟨awaitsBody.fresh.lt_size, awaitsEnd.fresh.lt_size⟩)
  replace awaitsBody := awaitsBody.endWith
    (.condBranch condition (before.blocks.size + 1) (before.blocks.size + 2))
  replace awaitsEnd := awaitsEnd.endWith
    (.condBranch condition (before.blocks.size + 1) (before.blocks.size + 2))
  have entered := closed.enter awaitsBody (Nat.le_succ _)
  replace awaitsEnd := awaitsEnd.goTo (Nat.ne_of_lt (Nat.lt_succ_self (before.blocks.size + 1)))
  have endBlock_lt := awaitsEnd.fresh.lt_size
  refine (lowersBody _ _ (valid.of_grows entered)
    (binds.of_locals_eq (by simp [gives.locals_eq])) ?_).mono ?_ fun _ => id
  · rintro _ ⟨rfl⟩
    exact ⟨Nat.lt_of_succ_lt (Nat.lt_of_succ_lt endBlock_lt), endBlock_lt⟩
  intro _ turned settles
  replace awaitsEnd := awaitsEnd.of_grows settles.grows
  exact ⟨(entered.trans settles.grows).leave
    (Nat.lt_of_succ_lt (Nat.lt_of_succ_lt awaitsEnd.fresh.lt_size)) awaitsEnd
    (Nat.le_add_right _ _), settles.binds.of_locals_eq (turned.leave_locals _ _)⟩

end Forms

/-- A jump is lowered in a loop and is an error outside of every loop. -/
theorem lowerJump_builds {loop : Option LoopTargets} {target : LoopTargets → Nat}
    {location : Location} {error : SemanticError} (binds : Binds scope count before)
    (target_lt : ∀ targets, loop = some targets → target targets < before.blocks.size) :
    Builds (lowerJump loop target location error) before (fun _ => Settles scope count before)
      fun error => error.isFault = true := by
  cases loop with
  | none => rfl
  | some targets =>
      rw [lowerJump, builds_terminate]
      refine ⟨Grows.refl.endWith _ (by simp [Ir.Terminator.operands]) ?_,
        binds.of_locals_eq (before.endWith_locals _)⟩
      rw [Ir.Terminator.successors, List.forall_mem_singleton]
      exact target_lt targets rfl

/-- A sequence of one statement is lowered like that statement. -/
theorem lowerSequence_singleton (lowerStmt : StmtId → Build Unit) (id : StmtId) :
    lowerSequence lowerStmt [id] = lowerStmt id :=
  bind_pure_unit

/-- What holds of lowering scoped statements if it holds of the parts: it is about the numbers of the
declarations made before and behind the statements, the loop around them, and the steps that lower them. -/
structure FollowsForms (program : Program) (visible : Nat → DeclId → Prop) (result : Ir.ValueType)
    (motive : Nat → List StmtId → Nat → Option LoopTargets → Build Unit → Prop) : Prop where
  nil : ∀ first loop, motive first [] first loop (return)
  cons : ∀ {first middle last id rest loop step steps}, first ≤ middle → middle ≤ last →
    motive first [id] middle loop step → motive middle rest last loop steps →
    motive first (id :: rest) last loop (do step; steps)
  block : ∀ {first last id statements loop step}, program.ast.StmtIs id (.block statements) →
    motive first statements last loop step → motive first [id] last loop step
  whenTrue : ∀ {first last id guard body loop step},
    program.ast.StmtIs id (.whenTrue guard body) → program.ast.Names (visible first) guard →
    first ≤ last → motive first [body] last loop step →
    motive first [id] last loop (lowerWhen program guard step)
  ifElse : ∀ {first second last id guard whenTrue whenFalse loop trueStep falseStep},
    program.ast.StmtIs id (.ifElse guard whenTrue whenFalse) →
    program.ast.Names (visible first) guard → first ≤ second → second ≤ last →
    motive first [whenTrue] second loop trueStep →
    motive second [whenFalse] last loop falseStep →
    motive first [id] last loop (lowerIf program guard trueStep falseStep)
  whileTrue : ∀ {first last id guard body loop} {step : LoopTargets → Build Unit},
    program.ast.StmtIs id (.whileTrue guard body) → program.ast.Names (visible first) guard →
    first ≤ last → (∀ targets, motive first [body] last (some targets) (step targets)) →
    motive first [id] last loop (lowerWhile program guard step)
  breakLoop : ∀ {first id location loop}, program.ast.StmtIs id (.breakLoop location) →
    motive first [id] first loop
      (lowerJump loop LoopTargets.breakBlock location .breakOutsideLoop)
  continueLoop : ∀ {first id location loop}, program.ast.StmtIs id (.continueLoop location) →
    motive first [id] first loop
      (lowerJump loop LoopTargets.continueBlock location .continueOutsideLoop)
  returnValue : ∀ {first id value loop}, program.ast.StmtIs id (.returnValue value) →
    program.ast.Names (visible first) value → motive first [id] first loop (do
      let value ← lowerExpr program value
      terminate (.ret result value))
  declaration : ∀ {first id kind type initializer loop},
    program.ast.StmtIs id (.declaration ⟨first⟩) →
    program.ast.kindOf ⟨first⟩ = .object kind type (some initializer) →
    program.ast.Names (visible (if kind = .var then first + 1 else first)) initializer →
    motive first [id] (first + 1) loop (lowerLocal program ⟨first⟩)
  expression : ∀ {first id value loop}, program.ast.StmtIs id (.expression value) →
    program.ast.Names (visible first) value → motive first [id] first loop (do
      let _ ← lowerExpr program value)

/-- What follows the forms of statements holds of all scoped statements that are lowered with enough
fuel. -/
theorem FollowsForms.holds {visible : Nat → DeclId → Prop} {result : Ir.ValueType}
    {motive : Nat → List StmtId → Nat → Option LoopTargets → Build Unit → Prop}
    (forms : FollowsForms program visible result motive) (sound : program.ast.Sound) {last : Nat}
    {statements : List StmtId} (inScope : program.ast.Scoped visible first statements last)
    (fuel : Nat) (enough : ∀ id ∈ statements, id.index < fuel) (loop : Option LoopTargets) :
    motive first statements last loop
      (lowerSequence (lowerStmtWithin program result fuel loop) statements) := by
  -- the head of a sequence takes one unit of fuel, which leaves enough for the older ones within it
  have head {id : StmtId} {form : Stmt} {rest : List StmtId} {fuel : Nat}
      (is : program.ast.StmtIs id form) (enough : ∀ other ∈ id :: rest, other.index < fuel) :
      ∃ less, fuel = less + 1 ∧ (∀ child ∈ form.children, child.index < less) ∧
        ∀ other ∈ rest, other.index < fuel := by
    rw [List.forall_mem_cons] at enough
    obtain ⟨less, rfl⟩ := Nat.exists_eq_succ_of_ne_zero (Nat.ne_zero_of_lt enough.1)
    refine ⟨less, rfl, fun child member => ?_, enough.2⟩
    rw [← is.2] at member
    exact (sound.child_lt id is.1 child member).trans_le (Nat.le_of_lt_succ enough.1)
  induction inScope generalizing fuel loop with
  | nil first => exact forms.nil first loop
  | block form inner others innerHolds restHolds =>
      obtain ⟨less, rfl, children_lt, rest_lt⟩ := head form enough
      refine forms.cons inner.le others.le ?_ (restHolds (less + 1) rest_lt loop)
      rw [lowerStmtWithin, form.2, lowerForm]
      exact forms.block form (innerHolds less children_lt loop)
  | whenTrue form names inner others innerHolds restHolds =>
      obtain ⟨less, rfl, children_lt, rest_lt⟩ := head form enough
      refine forms.cons inner.le others.le ?_ (restHolds (less + 1) rest_lt loop)
      rw [lowerStmtWithin, form.2, lowerForm]
      have bodyHolds := innerHolds less children_lt loop
      rw [lowerSequence_singleton] at bodyHolds
      exact forms.whenTrue form names inner.le bodyHolds
  | ifElse form names left right others leftHolds rightHolds restHolds =>
      obtain ⟨less, rfl, children_lt, rest_lt⟩ := head form enough
      rw [Stmt.children, List.forall_mem_cons] at children_lt
      refine forms.cons (left.le.trans right.le) others.le ?_ (restHolds (less + 1) rest_lt loop)
      rw [lowerStmtWithin, form.2, lowerForm]
      have trueHolds := leftHolds less (List.forall_mem_singleton.2 children_lt.1) loop
      have falseHolds := rightHolds less children_lt.2 loop
      rw [lowerSequence_singleton] at trueHolds falseHolds
      exact forms.ifElse form names left.le right.le trueHolds falseHolds
  | whileTrue form names inner others innerHolds restHolds =>
      obtain ⟨less, rfl, children_lt, rest_lt⟩ := head form enough
      refine forms.cons inner.le others.le ?_ (restHolds (less + 1) rest_lt loop)
      rw [lowerStmtWithin, form.2, lowerForm]
      refine forms.whileTrue form names inner.le fun targets => ?_
      have bodyHolds := innerHolds less children_lt (some targets)
      rw [lowerSequence_singleton] at bodyHolds
      exact bodyHolds
  | breakLoop form others restHolds =>
      obtain ⟨less, rfl, _, rest_lt⟩ := head form enough
      refine forms.cons le_rfl others.le ?_ (restHolds (less + 1) rest_lt loop)
      rw [lowerStmtWithin, form.2, lowerForm]
      exact forms.breakLoop form
  | continueLoop form others restHolds =>
      obtain ⟨less, rfl, _, rest_lt⟩ := head form enough
      refine forms.cons le_rfl others.le ?_ (restHolds (less + 1) rest_lt loop)
      rw [lowerStmtWithin, form.2, lowerForm]
      exact forms.continueLoop form
  | returnValue form names others restHolds =>
      obtain ⟨less, rfl, _, rest_lt⟩ := head form enough
      refine forms.cons le_rfl others.le ?_ (restHolds (less + 1) rest_lt loop)
      rw [lowerStmtWithin, form.2, lowerForm]
      exact forms.returnValue form names
  | declaration form kind_eq names others restHolds =>
      obtain ⟨less, rfl, _, rest_lt⟩ := head form enough
      refine forms.cons (Nat.le_succ _) others.le ?_ (restHolds (less + 1) rest_lt loop)
      rw [lowerStmtWithin, form.2, lowerForm]
      exact forms.declaration form kind_eq names
  | expression form names others restHolds =>
      obtain ⟨less, rfl, _, rest_lt⟩ := head form enough
      refine forms.cons le_rfl others.le ?_ (restHolds (less + 1) rest_lt loop)
      rw [lowerStmtWithin, form.2, lowerForm]
      exact forms.expression form names

/-- Statements one after another. -/
theorem LowersStmt.cons {loop : Option LoopTargets} {step steps : Build Unit} {last : Nat}
    (lowersFirst : LowersStmt scope first count loop step)
    (lowersRest : LowersStmt scope count last loop steps) :
    LowersStmt scope first last loop (do step; steps) := by
  intro before valid binds reaches
  rw [builds_bind]
  refine (lowersFirst before valid binds reaches).mono ?_ fun _ semantic => semantic
  intro _ middle settles
  exact (lowersRest middle (valid.of_grows settles.grows) settles.binds
    (reaches.of_grows settles.grows)).mono (fun _ after rest => rest.behind settles.grows)
    fun _ semantic => semantic

/-- A value is returned behind the expression that it comes from. -/
theorem lowerReturn_builds {loop : Option LoopTargets} (lowerable : Lowerable program scope)
    (result : Ir.ValueType) {value : ExprId}
    (names : program.ast.Names (scope.Visible first) value) :
    LowersStmt scope first first loop (do
      let value ← lowerExpr program value
      terminate (.ret result value)) := by
  intro before valid binds _
  rw [builds_bind]
  refine (lowerable.expression valid binds names).mono ?_ fun _ => False.elim
  intro returned after gives
  rw [builds_terminate]
  refine ⟨gives.grows.endWith _ ?_ (by simp [Ir.Terminator.successors]),
    (binds.of_locals_eq gives.locals_eq).of_locals_eq (after.endWith_locals _)⟩
  rw [Ir.Terminator.operands, List.forall_mem_singleton]
  exact gives.below

/-- Every form of statement is lowered wherever the declarations before it have values. -/
theorem followsForms_lowersStmt (lowerable : Lowerable program scope) (result : Ir.ValueType) :
    FollowsForms program scope.Visible result fun first _ last loop step =>
      scope.function.index < first → LowersStmt scope first last loop step where
  nil _ _ _ := fun _ _ binds _ => ⟨.refl, binds⟩
  cons first_le _ stepLowers restLowers behind :=
    (stepLowers behind).cons (restLowers (behind.trans_le first_le))
  block _ innerLowers behind := innerLowers behind
  whenTrue _ names _ bodyLowers behind := lowerWhen_builds lowerable names (bodyLowers behind)
  ifElse _ names first_le _ trueLowers falseLowers behind :=
    lowerIf_builds lowerable names (trueLowers behind) (falseLowers (behind.trans_le first_le))
  whileTrue _ names _ bodyLowers behind :=
    lowerWhile_builds lowerable names fun targets => bodyLowers targets behind
  breakLoop _ _ := fun _ _ binds reaches =>
    lowerJump_builds binds fun targets within => (reaches targets within).2
  continueLoop _ _ := fun _ _ binds reaches =>
    lowerJump_builds binds fun targets within => (reaches targets within).1
  returnValue _ names _ := lowerReturn_builds lowerable result names
  declaration _ kind_eq names behind := fun _ valid binds _ =>
    (lowerLocal_builds lowerable valid behind binds kind_eq names).mono
      (fun _ _ settles => settles) fun _ => False.elim
  expression _ names _ := by
    intro before valid binds _
    rw [builds_bind]
    refine (lowerable.expression valid binds names).mono ?_ fun _ => False.elim
    intro value after gives
    rw [builds_pure]
    exact ⟨gives.grows, binds.of_locals_eq gives.locals_eq⟩

/-- Scoped statements are lowered with enough fuel. -/
theorem lowerSequence_builds (lowerable : Lowerable program scope) (result : Ir.ValueType)
    {last : Nat} {statements : List StmtId}
    (inScope : program.ast.Scoped scope.Visible first statements last)
    (behind : scope.function.index < first) (fuel : Nat)
    (enough : ∀ id ∈ statements, id.index < fuel) (loop : Option LoopTargets) :
    LowersStmt scope first last loop
      (lowerSequence (lowerStmtWithin program result fuel loop) statements) :=
  (followsForms_lowersStmt lowerable result).holds lowerable.coherent.sound inScope fuel enough loop
    behind

/-- A statement outside of every loop is lowered like the sequence of it. -/
theorem LowersStmt.of_singleton {loop : Option LoopTargets} {lowerStmt : StmtId → Build Unit}
    {id : StmtId} (lowers : LowersStmt scope first count loop (lowerSequence lowerStmt [id])) :
    LowersStmt scope first count loop (lowerStmt id) :=
  lowerSequence_singleton lowerStmt id ▸ lowers

end Minilang.Lowering
