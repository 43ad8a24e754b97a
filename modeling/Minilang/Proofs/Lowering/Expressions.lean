import Minilang.Proofs.Analysis.Coherence
import Minilang.Proofs.Lowering.Branches

/-!
# Lowering expressions succeeds

An expression of a coherent program is lowered without any error where its names have values, and lowering
it only builds on: no name gets a value, and the value that comes out needs no other temporaries than those
there are.
-/

namespace Minilang

namespace BinaryOperator

/-- Operators on typed operands stand for operations on their values, unless they are logical. -/
theorem operation?_of_typed {ast : Ast} {operator : BinaryOperator} {left right : ExprId} {type : Ty}
    (typed : ast.HasType (.binary operator left right) type) (strict : operator.isLogical = false)
    (leftValue rightValue : Ir.Value) :
    ∃ operation, operator.operation? (Lowering.valueType ast left) leftValue rightValue =
      some operation ∧ operation.operands = [leftValue, rightValue] ∧ operation.incoming = [] := by
  rw [operation?, Lowering.valueType]
  cases typed with
  | arithmetic isArithmetic number left_type _ =>
      rw [show (ast.expr left).type = type from left_type]
      cases operator <;> cases isArithmetic <;> exact ⟨_, rfl, rfl, rfl⟩
  | bitwise isBitwise left_type _ =>
      rw [show (ast.expr left).type = .int from left_type]
      cases operator <;> cases isBitwise <;> exact ⟨_, rfl, rfl, rfl⟩
  | logical isLogical => rw [strict] at isLogical; cases isLogical
  | comparison isComparison _ _ _ =>
      cases operator <;> cases isComparison <;> exact ⟨_, rfl, rfl, rfl⟩

end BinaryOperator

/-- The only temporary that an operator uses is that of its operand. -/
theorem UnaryOperator.eq_of_mem_operands (operator : UnaryOperator) {operand : Ir.Value}
    {temporary : Nat} (member : .temp temporary ∈ (operator.operation operand).operands) :
    .temp temporary = operand := by
  cases operator <;> simpa [operation, Ir.Operation.operands] using member

/-- The only temporary that a conversion uses is that of its operand. -/
theorem Conversion.eq_of_mem_operands (conversion : Conversion) {source target : Ir.ValueType}
    {operand : Ir.Value} {temporary : Nat}
    (member : .temp temporary ∈ (conversion.operation source target operand).operands) :
    .temp temporary = operand := by
  cases conversion <;> simpa [operation, Ir.Operation.operands] using member

namespace Lowering

open Builder (Grows Valid)

/-- Whether a name can be lowered: it has a value in the function, or it stands at the top. -/
def Available (program : Program) (builder : Builder) (declaration : DeclId) : Prop :=
  (builder.local? declaration).isSome = true ∨ declaration ∈ program.declarations

/-- A value comes out, and the function has grown without new names. -/
structure GivesValue (before : Builder) (value : Ir.Value) (after : Builder) : Prop where
  /-- The function has grown. -/
  grows : before.Grows after
  /-- No name gets a value. -/
  locals_eq : after.locals = before.locals
  /-- The value is there. -/
  below : value.Below after.temporaries
  /-- Building goes on where it was going on. -/
  current_kept : before.current.isSome = true → after.current.isSome = true

/-- A function that lowers an expression wherever its names are available. -/
def LowersExpr (program : Program) (lower : ExprId → Build Ir.Value) (id : ExprId) : Prop :=
  ∀ before : Builder, before.Valid → program.ast.Names (Available program before) id →
    Builds (lower id) before (GivesValue before) fun _ => False

variable {program : Program} {lower : ExprId → Build Ir.Value} {before middle after : Builder}

/-- Names stay available as long as no name gets a value. -/
theorem available_of_locals_eq (same : after.locals = before.locals) :
    Available program after = Available program before := by
  funext declaration
  rw [Available, Available, Builder.local?, Builder.local?, same]

namespace GivesValue

theorem refl {value : Ir.Value} (below : value.Below before.temporaries) :
    GivesValue before value before :=
  ⟨.refl, rfl, below, id⟩

/-- A value that comes out behind other ones. -/
theorem behind {value : Ir.Value} (grows : before.Grows middle)
    (locals_eq : middle.locals = before.locals)
    (current_kept : before.current.isSome = true → middle.current.isSome = true)
    (gives : GivesValue middle value after) : GivesValue before value after :=
  ⟨grows.trans gives.grows, gives.locals_eq.trans locals_eq, gives.below,
    fun current => gives.current_kept (current_kept current)⟩

theorem trans {first second : Ir.Value} (left : GivesValue before first middle)
    (right : GivesValue middle second after) : GivesValue before second after :=
  right.behind left.grows left.locals_eq left.current_kept

/-- A value is still there behind later ones. -/
theorem below_later {first second : Ir.Value} (left : GivesValue before first middle)
    (right : GivesValue middle second after) : first.Below after.temporaries :=
  left.below.mono right.grows.temporaries_le

end GivesValue

/-- An instruction with a result gives its temporary. -/
theorem emit_builds {operation : Ir.Operation}
    (operands : ∀ value ∈ operation.operands, value.Below before.temporaries) :
    Builds (emit operation) before (GivesValue before) fun _ => False := by
  rw [builds_emit]
  refine ⟨Grows.refl.emitted operands, before.emit_locals operation, ?_, fun _ => ?_⟩
  · rw [Builder.emit_temporaries]
    exact Nat.lt_succ_self _
  · rw [Builder.emit_current]
    rfl

/-- An expression is lowered behind other ones. -/
theorem LowersExpr.behind {id : ExprId} (lowers : LowersExpr program lower id)
    (valid : before.Valid) (names : program.ast.Names (Available program before) id)
    (grows : before.Grows middle) (locals_eq : middle.locals = before.locals) :
    Builds (lower id) middle (GivesValue middle) fun _ => False :=
  lowers middle (valid.of_grows grows) (available_of_locals_eq locals_eq ▸ names)

section Names

variable {declaration : DeclId}

/-- A constant at the top of a program, which has no storage. -/
structure ConstantAtTop (program : Program) (declaration : DeclId) (kind : ObjectKind) (type : Ty)
    (initializer : ExprId) : Prop where
  /-- The constant has an initializer. -/
  kind_eq : program.ast.kindOf declaration = .object kind type (some initializer)
  /-- The constant is no variable. -/
  different : kind ≠ .var
  /-- The initializer names what is at the top. -/
  names : program.ast.Names (· ∈ program.declarations) initializer
  /-- The initializer has no effects. -/
  pure : program.ast.Pure initializer

namespace ConstantAtTop

variable {kind : ObjectKind} {declared : Ty} {initializer : ExprId}

theorem isConstant (constant : ConstantAtTop program declaration kind declared initializer) :
    (program.ast.kindOf declaration).isConstant = true := by
  rw [constant.kind_eq]
  cases kind with
  | var => exact absurd rfl constant.different
  | const | value => rfl

theorem initialized (constant : ConstantAtTop program declaration kind declared initializer) :
    (program.ast.kindOf declaration).initializer? = some initializer := by
  rw [constant.kind_eq, DeclKind.initializer?]

/-- The name of a constant has the type of its initializer. -/
theorem typeOf_eq (constant : ConstantAtTop program declaration kind declared initializer)
    (sound : program.ast.Sound) {type : Ty} (named : program.ast.HasType (.name declaration) type) :
    program.ast.typeOf initializer = type := by
  have initializer_type := (sound.initializer_typed declaration _ constant.initialized).2
  cases named with
  | «variable» isVariable =>
      have isConstant := constant.isConstant
      rw [constant.kind_eq] at isVariable isConstant
      cases kind <;> simp_all [DeclKind.isVariable, DeclKind.isConstant]
  | name _ name_type => exact Option.some.inj (initializer_type.symm.trans name_type)

end ConstantAtTop

/-- The ways in which a name is available: it has a value in the function, or else it stands for something at
the top of the program. -/
inductive NameForm (program : Program) (before : Builder) (declaration : DeclId) : Prop
  | bound {value : Ir.Value} : before.local? declaration = some value →
      NameForm program before declaration
  | function {result : Ty} {parameters : List DeclId} {body : StmtId} :
      before.local? declaration = none → declaration ∈ program.declarations →
      program.ast.kindOf declaration =
        .function (.function result (Analysis.typesOf program.ast parameters)) parameters (some body) →
      NameForm program before declaration
  | global {type : Ty} {initializer : ExprId} :
      before.local? declaration = none → declaration ∈ program.declarations →
      program.ast.kindOf declaration = .object .var type (some initializer) →
      NameForm program before declaration
  | constant {kind : ObjectKind} {type : Ty} {initializer : ExprId} :
      before.local? declaration = none → declaration ∈ program.declarations →
      ConstantAtTop program declaration kind type initializer →
      NameForm program before declaration

theorem Available.form (coherent : program.Coherent)
    (available : Available program before declaration) : NameForm program before declaration := by
  cases found : before.local? declaration with
  | some value => exact .bound found
  | none =>
      obtain isLocal | atTop := available
      · rw [found] at isLocal
        cases isLocal
      cases coherent.topLevel declaration atTop with
      | function kind_eq => exact .function found atTop kind_eq
      | @object kind type initializer kind_eq names pure =>
          by_cases isVariable : kind = .var
          · exact .global found atTop (isVariable ▸ kind_eq)
          · exact .constant found atTop ⟨kind_eq, isVariable, names, pure isVariable⟩

end Names

section Forms

variable (valid : before.Valid)

include valid

/-- A name is lowered if it is available. Constants at the top are lowered like their initializers. -/
theorem lowerName_builds (coherent : program.Coherent) {declaration : DeclId}
    (available : Available program before declaration)
    (lowers : ∀ initializer,
      (program.ast.kindOf declaration).isConstant = true →
      (program.ast.kindOf declaration).initializer? = some initializer →
      LowersExpr program lower initializer) :
    Builds (lowerName program lower declaration) before (GivesValue before) fun _ => False := by
  cases available.form coherent with
  | bound found =>
      rw [builds_lowerName_of_local found]
      exact .refl (valid.localsBelow declaration _ found)
  | function unbound atTop kind_eq =>
      rw [builds_lowerName_of_function unbound atTop kind_eq]
      exact .refl trivial
  | global unbound atTop kind_eq =>
      rw [builds_lowerName_of_variable unbound atTop kind_eq]
      exact .refl trivial
  | constant unbound atTop constant =>
      rw [builds_lowerName_of_constant unbound atTop constant.kind_eq constant.different]
      exact lowers _ constant.isConstant constant.initialized before valid
        (constant.names.mono fun other member => .inr member)

/-- Both operands of a logical operator are lowered, the right one in a block of its own. -/
theorem lowerLogical_builds (isOr : Bool) {left right : ExprId}
    (lowersLeft : LowersExpr program lower left) (lowersRight : LowersExpr program lower right)
    (leftNames : program.ast.Names (Available program before) left)
    (rightNames : program.ast.Names (Available program before) right) :
    Builds (lowerLogical lower isOr left right) before (GivesValue before) fun _ => False := by
  rw [builds_lowerLogical]
  refine (lowersLeft before valid leftNames).mono ?_ fun _ => id
  intro leftValue split givesLeft
  have splitValid := valid.of_grows givesLeft.grows
  have started := givesLeft.grows.splitLogical splitValid isOr givesLeft.below
  refine (lowersRight.behind valid rightNames started (by simp [givesLeft.locals_eq])).mono ?_
    fun _ => id
  intro rightValue joined givesRight
  have awaits := ((Builder.Awaits.splitLogical splitValid isOr leftValue).of_grows
    givesRight.grows).resume
  have left := (started.trans givesRight.grows).resume.leave awaits.fresh.lt_size awaits
    (Nat.le_succ_of_le givesLeft.grows.resume.size_le)
  refine (emit_builds ?_).mono (fun value after gives => gives.behind left ?_ fun _ => rfl)
    fun _ => id
  · simp only [Ir.Operation.operands, List.map_cons, List.map_nil, List.forall_mem_cons]
    refine ⟨trivial, ?_, by simp⟩
    simpa using givesRight.below
  · simp [givesRight.locals_eq, givesLeft.locals_eq]

/-- All three parts of a choice are lowered, two of them in blocks of their own. -/
theorem lowerConditional_builds (type : Ir.ValueType) {guard whenTrue whenFalse : ExprId}
    (lowersGuard : LowersExpr program lower guard) (lowersTrue : LowersExpr program lower whenTrue)
    (lowersFalse : LowersExpr program lower whenFalse)
    (guardNames : program.ast.Names (Available program before) guard)
    (trueNames : program.ast.Names (Available program before) whenTrue)
    (falseNames : program.ast.Names (Available program before) whenFalse) :
    Builds (lowerConditional lower type guard whenTrue whenFalse) before (GivesValue before)
      fun _ => False := by
  rw [builds_lowerConditional]
  refine (lowersGuard before valid guardNames).mono ?_ fun _ => id
  intro condition split givesGuard
  have splitValid := valid.of_grows givesGuard.grows
  have started := givesGuard.grows.splitThree splitValid .condTrue .condFalse .condEnd
    givesGuard.below
  obtain ⟨awaitsFalse, awaitsEnd⟩ := Builder.Awaits.splitThree splitValid .condTrue .condFalse
    .condEnd condition
  refine (lowersTrue.behind valid trueNames started (by simp [givesGuard.locals_eq])).mono ?_
    fun _ => id
  intro trueValue turned givesTrue
  replace awaitsFalse := (awaitsFalse.of_grows givesTrue.grows).resume
  replace awaitsEnd := (awaitsEnd.of_grows givesTrue.grows).resume
  have turnedGrows := (started.trans givesTrue.grows).resume.leave awaitsEnd.fresh.lt_size
    awaitsFalse (Nat.le_succ_of_le givesGuard.grows.size_le)
  refine (lowersFalse.behind valid falseNames turnedGrows
    (by simp [givesTrue.locals_eq, givesGuard.locals_eq])).mono ?_ fun _ => id
  intro falseValue joined givesFalse
  replace awaitsEnd := ((awaitsEnd.leave _ (Nat.ne_of_lt (Nat.lt_succ_self _))).of_grows
    givesFalse.grows).resume
  have joinedGrows := (turnedGrows.trans givesFalse.grows).resume.leave awaitsEnd.fresh.lt_size
    awaitsEnd (Nat.le_add_right_of_le givesGuard.grows.size_le)
  refine (emit_builds ?_).mono (fun value after gives => gives.behind joinedGrows ?_ fun _ => rfl)
    fun _ => id
  · have trueBelow := givesTrue.below.mono
      (by simpa using givesFalse.grows.temporaries_le : turned.temporaries ≤ joined.temporaries)
    simp only [Ir.Operation.operands, List.map_cons, List.map_nil, List.forall_mem_cons,
      Builder.leave_temporaries, Builder.resume_temporaries]
    exact ⟨trueBelow, givesFalse.below, by simp⟩
  · simp [givesFalse.locals_eq, givesTrue.locals_eq, givesGuard.locals_eq]

/-- Both operands of an operator are lowered if it stands for an operation. -/
theorem lowerBinary_builds {operator : BinaryOperator} {left right : ExprId}
    (lowersLeft : LowersExpr program lower left) (lowersRight : LowersExpr program lower right)
    (leftNames : program.ast.Names (Available program before) left)
    (rightNames : program.ast.Names (Available program before) right)
    (stands : ∀ leftValue rightValue, ∃ operation,
      operator.operation? (valueType program.ast left) leftValue rightValue = some operation ∧
        operation.operands = [leftValue, rightValue] ∧ operation.incoming = []) :
    Builds (lowerBinary program.ast lower operator left right) before (GivesValue before)
      fun _ => False := by
  rw [lowerBinary, builds_bind]
  refine (lowersLeft before valid leftNames).mono ?_ fun _ => id
  intro leftValue middle givesLeft
  rw [builds_bind]
  refine (lowersRight.behind valid rightNames givesLeft.grows givesLeft.locals_eq).mono ?_
    fun _ => id
  intro rightValue after givesRight
  obtain ⟨operation, stands, operands_eq, _⟩ := stands leftValue rightValue
  rw [stands]
  refine (emit_builds ?_).mono
    (fun value last gives => (givesLeft.trans givesRight).trans gives) fun _ => id
  rw [operands_eq, List.forall_mem_cons]
  exact ⟨givesLeft.below_later givesRight, by simpa using givesRight.below⟩

/-- What is there behind arguments that have been lowered. -/
structure GivesValues (before : Builder) (values : List (Ir.ValueType × Ir.Value))
    (after : Builder) : Prop where
  /-- The function has grown. -/
  grows : before.Grows after
  /-- No name gets a value. -/
  locals_eq : after.locals = before.locals
  /-- The values are there. -/
  below : ∀ value ∈ values.map Prod.snd, value.Below after.temporaries
  /-- Building goes on where it was going on. -/
  current_kept : before.current.isSome = true → after.current.isSome = true

theorem lowerArguments_builds {arguments : List ExprId}
    (lowers : ∀ argument ∈ arguments, LowersExpr program lower argument)
    (names : ∀ argument ∈ arguments, program.ast.Names (Available program before) argument) :
    Builds (lowerArguments program.ast lower arguments) before (GivesValues before)
      fun _ => False := by
  induction arguments generalizing before with
  | nil =>
      rw [lowerArguments, builds_pure]
      exact ⟨.refl, rfl, by simp, id⟩
  | cons argument arguments induction =>
      rw [List.forall_mem_cons] at lowers names
      rw [lowerArguments, builds_bind]
      refine (lowers.1 before valid names.1).mono ?_ fun _ => id
      intro value middle gives
      rw [builds_bind]
      refine (induction (valid.of_grows gives.grows) lowers.2 ?_).mono ?_ fun _ => id
      · rw [available_of_locals_eq gives.locals_eq]
        exact names.2
      intro values after givesRest
      rw [builds_pure]
      refine ⟨gives.grows.trans givesRest.grows, givesRest.locals_eq.trans gives.locals_eq, ?_,
        fun current => givesRest.current_kept (gives.current_kept current)⟩
      rw [List.map_cons, List.forall_mem_cons]
      exact ⟨gives.below.mono givesRest.grows.temporaries_le, givesRest.below⟩

/-- The target and the value of an assignment are lowered. -/
theorem lowerAssignment_builds {target value : ExprId}
    (lowersTarget : LowersExpr program lower target) (lowersValue : LowersExpr program lower value)
    (targetNames : program.ast.Names (Available program before) target)
    (valueNames : program.ast.Names (Available program before) value) :
    Builds (lowerAssignment program.ast lower target value) before (GivesValue before)
      fun _ => False := by
  rw [lowerAssignment, builds_bind]
  refine (lowersTarget before valid targetNames).mono ?_ fun _ => id
  intro pointer middle givesTarget
  rw [builds_bind]
  refine (lowersValue.behind valid valueNames givesTarget.grows givesTarget.locals_eq).mono ?_
    fun _ => id
  intro stored after givesValue
  rw [builds_bind, builds_perform, builds_pure]
  have pointerBelow := givesTarget.below_later givesValue
  refine ⟨(givesTarget.grows.trans givesValue.grows).performed ?_, ?_, ?_, fun _ => ?_⟩
  · simp only [Ir.Operation.operands, List.forall_mem_cons]
    exact ⟨givesValue.below, pointerBelow, by simp⟩
  · rw [Builder.perform_locals, givesValue.locals_eq, givesTarget.locals_eq]
  · rw [Builder.perform_temporaries]
    exact pointerBelow
  · rw [Builder.perform_current]
    rfl

end Forms

/-- One typed expression is lowered if its operands are, and if it is a name then the initializer of the
constant it leads to. -/
theorem lowerKind_builds (coherent : program.Coherent) {kind : ExprKind} {type : Ty}
    {location : Location} (valid : before.Valid) (typed : program.ast.HasType kind type)
    (available : ∀ declaration, kind = .name declaration →
      Available program before declaration)
    (names : ∀ operand ∈ kind.operands, program.ast.Names (Available program before) operand)
    (lowers : ∀ operand ∈ kind.operands, LowersExpr program lower operand)
    (lowersConstant : ∀ declaration initializer, kind = .name declaration →
      (program.ast.kindOf declaration).isConstant = true →
      (program.ast.kindOf declaration).initializer? = some initializer →
      LowersExpr program lower initializer) :
    Builds (lowerKind program lower ⟨kind, type, location⟩) before (GivesValue before)
      fun _ => False := by
  cases kind with
  | bool | int | float | char =>
      rw [lowerKind, builds_pure]
      exact .refl trivial
  | name declaration =>
      exact lowerName_builds valid coherent (available declaration rfl)
        (fun initializer => lowersConstant declaration initializer rfl)
  | unary operator operand =>
      rw [lowerKind, builds_bind]
      refine (lowers operand (by simp [ExprKind.operands]) before valid
        (names operand (by simp [ExprKind.operands]))).mono ?_ fun _ => id
      intro value middle gives
      refine (emit_builds ?_).mono (fun result after emitted => gives.trans emitted) fun _ => id
      cases operator <;>
        simpa [UnaryOperator.operation, Ir.Operation.operands, Ir.Value.Below] using gives.below
  | binary operator left right =>
      rw [ExprKind.operands, List.forall_mem_cons, List.forall_mem_singleton] at names lowers
      by_cases isLogical : operator.isLogical = true
      · cases operator <;> cases isLogical
        · exact lowerLogical_builds valid false lowers.1 lowers.2 names.1 names.2
        · exact lowerLogical_builds valid true lowers.1 lowers.2 names.1 names.2
      · have stands := BinaryOperator.operation?_of_typed typed (by simpa using isLogical)
        have builds := lowerBinary_builds valid lowers.1 lowers.2 names.1 names.2 stands
        cases operator <;> first | exact builds | exact absurd rfl isLogical
  | call callee arguments =>
      rw [ExprKind.operands, List.forall_mem_cons] at names lowers
      rw [lowerKind, builds_bind]
      refine (lowers.1 before valid names.1).mono ?_ fun _ => id
      intro function middle gives
      rw [builds_bind]
      refine (lowerArguments_builds (valid.of_grows gives.grows) lowers.2 ?_).mono ?_ fun _ => id
      · rw [available_of_locals_eq gives.locals_eq]
        exact names.2
      intro values after givesArguments
      refine (emit_builds ?_).mono (fun result last emitted => emitted.behind
        (gives.grows.trans givesArguments.grows)
        (givesArguments.locals_eq.trans gives.locals_eq)
        fun current => givesArguments.current_kept (gives.current_kept current)) fun _ => id
      rw [Ir.Operation.operands, List.forall_mem_cons]
      exact ⟨gives.below.mono givesArguments.grows.temporaries_le, givesArguments.below⟩
  | index => cases typed
  | cast operand =>
      exact lowers operand (by simp [ExprKind.operands]) before valid
        (names operand (by simp [ExprKind.operands]))
  | assign target value =>
      rw [ExprKind.operands, List.forall_mem_cons, List.forall_mem_singleton] at names lowers
      exact lowerAssignment_builds valid lowers.1 lowers.2 names.1 names.2
  | conditional guard whenTrue whenFalse =>
      rw [ExprKind.operands, List.forall_mem_cons, List.forall_mem_cons,
        List.forall_mem_singleton] at names lowers
      exact lowerConditional_builds valid _ lowers.1 lowers.2.1 lowers.2.2 names.1 names.2.1
        names.2.2
  | convert conversion operand =>
      rw [lowerKind, builds_bind]
      refine (lowers operand (by simp [ExprKind.operands]) before valid
        (names operand (by simp [ExprKind.operands]))).mono ?_ fun _ => id
      intro value middle gives
      refine (emit_builds ?_).mono (fun result after emitted => gives.trans emitted) fun _ => id
      cases conversion <;>
        simpa [Conversion.operation, Ir.Operation.operands, Ir.Value.Below] using gives.below

/-- With enough fuel every expression is lowered in some way if it is lowered so from operands and from the
initializer of a named constant that are lowered so with one unit of fuel less: both are older. -/
theorem lowerExprWithin_induction (motive : (ExprId → Build Ir.Value) → ExprId → Prop)
    (sound : program.ast.Sound)
    (step : ∀ fuel id, id.index < fuel + 1 → id.index < program.ast.exprs.size →
      (∀ operand ∈ (program.ast.expr id).kind.operands,
        motive (lowerExprWithin program fuel) operand) →
      (∀ declaration initializer, (program.ast.expr id).kind = .name declaration →
        (program.ast.kindOf declaration).isConstant = true →
        (program.ast.kindOf declaration).initializer? = some initializer →
        motive (lowerExprWithin program fuel) initializer) →
      motive (lowerExprWithin program (fuel + 1)) id)
    {fuel : Nat} {id : ExprId} (enough : id.index < fuel)
    (bound : id.index < program.ast.exprs.size) : motive (lowerExprWithin program fuel) id := by
  induction fuel generalizing id with
  | zero => exact absurd enough (Nat.not_lt_zero _)
  | succ fuel induction =>
      have grounded := sound.expr_grounded id bound
      have older {other : ExprId} (other_lt : other.index < id.index) :
          motive (lowerExprWithin program fuel) other :=
        induction (other_lt.trans_le (Nat.le_of_lt_succ enough)) (other_lt.trans bound)
      exact step fuel id enough bound
        (fun operand member => older (grounded.operand_lt operand member))
        (fun declaration initializer named isConstant initialized =>
          older (grounded.initializer_lt declaration initializer named isConstant initialized))

theorem lowerExprWithin_builds (coherent : program.Coherent) {fuel : Nat} {id : ExprId}
    (enough : id.index < fuel) : LowersExpr program (lowerExprWithin program fuel) id := by
  intro before valid names
  refine lowerExprWithin_induction (LowersExpr program) coherent.sound ?_ enough names.index_lt
    before valid names
  intro fuel id _ bound lowers lowersConstant before valid names
  exact lowerKind_builds coherent valid (coherent.sound.expr_typed id bound)
    (fun declaration named => names.visible_of_name named)
    (fun operand member => names.operand member) lowers lowersConstant

/-- Expressions are lowered wherever their names are available. -/
theorem lowerExpr_builds (coherent : program.Coherent) (id : ExprId) :
    LowersExpr program (lowerExpr program) id := by
  intro before valid names
  exact lowerExprWithin_builds coherent (Nat.lt_succ_of_lt names.index_lt) before valid names

end Lowering

end Minilang
