import Minilang.Proofs.Lowering.Expressions
import Minilang.Proofs.Lowering.Typing

/-!
# Lowered expressions are typed

An expression is lowered to typed instructions, and the value that comes out has the type that stands for
the type of the expression. Names of functions come out for expressions of their types only.
-/

namespace Minilang

@[simp] theorem Ir.ValueType.ofTy_referenceTo (type : Ty) : ofTy type.referenceTo = .ptr := by
  cases type <;> rfl

section Operations

variable {ast : Ast} {type : Ty} {holds : Ir.Value → Ir.ValueType → Prop}
  (calls : String → Ir.Signature → Prop) {left right : ExprId} {leftValue rightValue : Ir.Value}
  (constant : ∀ constant, holds (.const constant) constant.type)
  (leftHolds : holds leftValue (Lowering.valueType ast left))

include leftHolds

section Constants

include constant

theorem UnaryOperator.operation_wellTyped {operator : UnaryOperator}
    (typed : ast.HasType (.unary operator left) type) :
    (operator.operation leftValue).WellTyped holds calls ∧
      (operator.operation leftValue).type? = some (.ofTy type) := by
  cases typed with
  | bitNot left_type =>
      rw [Lowering.valueType, show (ast.expr left).type = .int from left_type] at leftHolds
      exact ⟨.binary rfl leftHolds (constant (.int (-1))), rfl⟩
  | logicalNot left_type =>
      rw [Lowering.valueType, show (ast.expr left).type = .bool from left_type] at leftHolds
      exact ⟨.binary rfl leftHolds (constant (.bool true)), rfl⟩

theorem Conversion.operation_wellTyped {conversion : Conversion}
    (typed : ast.HasType (.convert conversion left) type) :
    (conversion.operation (Lowering.valueType ast left) (.ofTy type) leftValue).WellTyped holds
        calls ∧
      (conversion.operation (Lowering.valueType ast left) (.ofTy type) leftValue).type? =
        some (.ofTy type) := by
  cases typed with
  | load left_type =>
      rw [Lowering.valueType, show (ast.expr left).type = _ from left_type] at leftHolds
      exact ⟨.load leftHolds, rfl⟩
  | convert leads =>
      rw [Lowering.valueType] at leftHolds ⊢
      rw [Ast.typeOf] at leads
      generalize (ast.expr left).type = source at leads leftHolds
      cases leads with
      | charToBool => exact ⟨.compare rfl leftHolds (constant (.char 0)), rfl⟩
      | intToBool => exact ⟨.compare rfl leftHolds (constant (.int 0)), rfl⟩
      | floatToBool => exact ⟨.compare rfl leftHolds (constant (.float .zero)), rfl⟩
      | intToChar => exact ⟨.cast .trunc leftHolds, rfl⟩
      | boolToInt => exact ⟨.cast .zext leftHolds, rfl⟩
      | charToInt => exact ⟨.cast .sext leftHolds, rfl⟩
      | floatToInt => exact ⟨.cast .fptosi leftHolds, rfl⟩
      | intToFloat => exact ⟨.cast .sitofp leftHolds, rfl⟩

end Constants

/-- Operators on typed operands stand for typed operations, unless they are logical. -/
theorem BinaryOperator.operation?_wellTyped {operator : BinaryOperator}
    (rightHolds : holds rightValue (Lowering.valueType ast right))
    (typed : ast.HasType (.binary operator left right) type) (strict : operator.isLogical = false) :
    ∃ operation, operator.operation? (Lowering.valueType ast left) leftValue rightValue =
      some operation ∧ operation.WellTyped holds calls ∧ operation.type? = some (.ofTy type) := by
  rw [Lowering.valueType] at leftHolds rightHolds ⊢
  cases typed with
  | arithmetic isArithmetic number left_type right_type =>
      rw [Ast.typeOf] at left_type right_type
      rw [left_type] at leftHolds ⊢
      rw [right_type] at rightHolds
      cases type <;> cases number <;> cases operator <;> cases isArithmetic <;>
        exact ⟨_, rfl, .binary rfl leftHolds rightHolds, rfl⟩
  | bitwise isBitwise left_type right_type =>
      rw [Ast.typeOf] at left_type right_type
      rw [left_type] at leftHolds ⊢
      rw [right_type] at rightHolds
      cases operator <;> cases isBitwise <;>
        exact ⟨_, rfl, .binary rfl leftHolds rightHolds, rfl⟩
  | logical isLogical => rw [strict] at isLogical; cases isLogical
  | comparison isComparison _ left_type right_type =>
      rw [Ast.typeOf] at left_type right_type
      rw [left_type] at leftHolds ⊢
      rw [right_type] at rightHolds
      generalize Ir.ValueType.ofTy _ = operandType at leftHolds rightHolds ⊢
      cases operator <;> cases isComparison <;> cases operandType <;>
        exact ⟨_, rfl, .compare rfl leftHolds rightHolds, rfl⟩

end Operations

/-- Whether a function at the top of a program has a name and a signature. -/
def Program.Calls (program : Program) (name : String) (signature : Ir.Signature) : Prop :=
  ∃ id ∈ program.declarations, (program.ast.decl id).name = name ∧
    ∃ result types parameters body,
      program.ast.kindOf id = .function (.function result types) parameters body ∧
        signature = ⟨types.map .ofTy, .ofTy result⟩

namespace Lowering

/-- Whether a value stands for values of a type. -/
structure Fits (program : Program) (arguments : List Ir.ValueType) (builder : Builder)
    (value : Ir.Value) (type : Ty) : Prop where
  /-- The value has the type that stands for the type. -/
  holds : builder.Holds arguments value (.ofTy type)
  /-- The name of a function stands for the type of that function. -/
  calls : ∀ name result types, value = .function name → type = .function result types →
    program.Calls name ⟨types.map .ofTy, .ofTy result⟩

/-- Whether everything in a function under construction is typed, and the values of names fit. -/
structure Typed (program : Program) (signature : Ir.Signature) (builder : Builder) : Prop where
  /-- Instructions and terminators are typed. -/
  wellTyped : builder.WellTyped signature program.Calls
  /-- The values of names fit the types of the names. -/
  local_fits : ∀ declaration value type, builder.local? declaration = some value →
    program.ast.HasType (.name declaration) type →
    Fits program signature.arguments builder value type

/-- A value that fits a type comes out of building that keeps a function typed. -/
structure GivesTyped (program : Program) (signature : Ir.Signature) (type : Ty) (value : Ir.Value)
    (after : Builder) : Prop where
  /-- The function is typed. -/
  typed : Typed program signature after
  /-- The value fits. -/
  fits : Fits program signature.arguments after value type

/-- A function that lowers an expression to typed instructions wherever its names are available. -/
structure LowersTyped (program : Program) (signature : Ir.Signature)
    (lower : ExprId → Build Ir.Value) (id : ExprId) : Prop where
  /-- The expression is lowered. -/
  lowers : LowersExpr program lower id
  /-- What comes out is typed. -/
  types : ∀ before : Builder, Typed program signature before →
    program.ast.Names (Available program before) id →
    Builds (lower id) before (GivesTyped program signature (program.ast.typeOf id)) fun _ => True

variable {program : Program} {signature : Ir.Signature} {lower : ExprId → Build Ir.Value}
  {before middle after : Builder} {value : Ir.Value} {type : Ty}

namespace Fits

variable {arguments : List Ir.ValueType}

theorem mono (fits : Fits program arguments before value type) (includes : before.Includes after) :
    Fits program arguments after value type :=
  ⟨fits.holds.mono includes, fits.calls⟩

/-- Whatever is not the name of a function fits by its type. -/
theorem of_holds (holds : before.Holds arguments value (.ofTy type))
    (notFunction : ∀ name, value ≠ .function name) : Fits program arguments before value type :=
  ⟨holds, fun name _ _ isFunction => absurd isFunction (notFunction name)⟩

end Fits

namespace Typed

theorem valid (typed : Typed program signature before) : before.Valid := typed.wellTyped.valid

/-- A function stays typed if no name gets a value. -/
theorem onward (typed : Typed program signature before) (includes : before.Includes after)
    (locals_eq : after.locals = before.locals)
    (wellTyped : after.WellTyped signature program.Calls) : Typed program signature after := by
  refine ⟨wellTyped, fun declaration value type found named => ?_⟩
  rw [Builder.local?, locals_eq] at found
  exact (typed.local_fits declaration value type found named).mono includes

theorem resume (typed : Typed program signature before) : Typed program signature before.resume :=
  typed.onward typed.wellTyped.includes_resume before.resume_locals typed.wellTyped.resume

/-- The open block is left for one that has awaited being built. -/
theorem leave (typed : Typed program signature before) (target : Nat) {next : Nat}
    (awaits : before.Awaits next) : Typed program signature (before.leave target next) :=
  typed.onward (.leave typed.valid.wellFormed target next) (before.leave_locals target next)
    (typed.wellTyped.leave target awaits)

/-- A typed instruction without a result may be added. -/
theorem perform (typed : Typed program signature before) {operation : Ir.Operation}
    (operands : operation.WellTyped (before.Holds signature.arguments) program.Calls) :
    Typed program signature (before.perform operation) :=
  typed.onward ((Builder.Grows.refl.performed (Builder.WellTyped.operand_below operands)).includes
    typed.valid.wellFormed) (before.perform_locals operation) (typed.wellTyped.perform operands)

/-- The block that building goes on in may be closed by a typed terminator. -/
theorem endWith (typed : Typed program signature before) {terminator : Ir.Terminator}
    (operands : terminator.WellTyped (before.Holds signature.arguments) signature.result) :
    Typed program signature (before.endWith terminator) := by
  have closed : before.resume.Includes (before.endWith terminator) :=
    .close typed.resume.valid.wellFormed before.resume_current terminator
  exact typed.onward (typed.wellTyped.includes_resume.trans closed)
    (before.endWith_locals terminator) (typed.wellTyped.endWith operands)

section Branches

variable (typed : Typed program signature before) {condition : Ir.Value}
  (holds : before.Holds signature.arguments condition .i1)

include typed holds

theorem splitLogical (isOr : Bool) :
    Typed program signature (before.splitLogical isOr condition) :=
  typed.onward ((Builder.Grows.refl.splitLogical typed.valid isOr holds.below).includes
    typed.valid.wellFormed) (before.splitLogical_locals condition isOr)
    (typed.wellTyped.splitLogical holds isOr)

theorem splitTwo (first second : BlockRole) :
    Typed program signature (before.splitTwo first second condition) :=
  typed.onward ((Builder.Grows.refl.splitTwo typed.valid first second holds.below).includes
    typed.valid.wellFormed) (before.splitTwo_locals condition first second)
    (typed.wellTyped.splitTwo holds first second)

theorem splitThree (first second third : BlockRole) :
    Typed program signature (before.splitThree first second third condition) :=
  typed.onward ((Builder.Grows.refl.splitThree typed.valid first second third holds.below).includes
    typed.valid.wellFormed) (before.splitThree_locals condition first second third)
    (typed.wellTyped.splitThree holds first second third)

end Branches

theorem startLoop (typed : Typed program signature before) :
    Typed program signature before.startLoop :=
  typed.onward ((Builder.Grows.refl.startLoop typed.valid).includes typed.valid.wellFormed)
    before.startLoop_locals typed.wellTyped.startLoop

end Typed

/-- What an expression is lowered to is typed, and nothing else changes. -/
theorem LowersTyped.builds {id : ExprId} (lowers : LowersTyped program signature lower id)
    (typed : Typed program signature before)
    (names : program.ast.Names (Available program before) id) :
    Builds (lower id) before (fun value after => GivesValue before value after ∧
      GivesTyped program signature (program.ast.typeOf id) value after) fun _ => True :=
  ((lowers.lowers before typed.valid names).and (lowers.types before typed names)).mono
    (fun _ _ both => both) fun _ _ => trivial

/-- An expression is lowered behind other ones. -/
theorem LowersTyped.behind {id : ExprId} (lowers : LowersTyped program signature lower id)
    (typed : Typed program signature middle)
    (names : program.ast.Names (Available program before) id)
    (locals_eq : middle.locals = before.locals) :
    Builds (lower id) middle (fun value after => GivesValue middle value after ∧
      GivesTyped program signature (program.ast.typeOf id) value after) fun _ => True :=
  lowers.builds typed (available_of_locals_eq locals_eq ▸ names)

/-- The result of a typed instruction fits the type that the type of the instruction stands for. -/
theorem emit_typed (typed : Typed program signature before) {operation : Ir.Operation}
    (operands : operation.WellTyped (before.Holds signature.arguments) program.Calls)
    (type_eq : operation.type? = some (.ofTy type)) :
    Builds (emit operation) before (GivesTyped program signature type) fun _ => True := by
  rw [builds_emit]
  refine ⟨typed.onward ?_ (before.emit_locals operation) (typed.wellTyped.emit operands),
    .of_holds (typed.wellTyped.emit_holds type_eq) (by simp)⟩
  exact (Builder.Grows.refl.emitted (Builder.WellTyped.operand_below operands)).includes
    typed.valid.wellFormed

section Forms

variable (typed : Typed program signature before)

include typed

/-- The value of a name fits its type. -/
theorem lowerName_typed (coherent : program.Coherent) {declaration : DeclId}
    (available : Available program before declaration)
    (named : program.ast.HasType (.name declaration) type)
    (lowers : ∀ initializer,
      (program.ast.kindOf declaration).isConstant = true →
      (program.ast.kindOf declaration).initializer? = some initializer →
      LowersTyped program signature lower initializer) :
    Builds (lowerName program lower declaration) before (GivesTyped program signature type)
      fun _ => True := by
  cases available.form coherent with
  | bound found =>
      rw [builds_lowerName_of_local found]
      exact ⟨typed, typed.local_fits declaration _ type found named⟩
  | @function result parameters _ unbound atTop kind_eq =>
      rw [builds_lowerName_of_function unbound atTop kind_eq]
      obtain rfl : .function result (Analysis.typesOf program.ast parameters) = type := by
        cases named with
        | «variable» isVariable => rw [kind_eq] at isVariable; cases isVariable
        | name _ declared => rw [kind_eq] at declared; exact Option.some.inj declared
      refine ⟨typed, .function _, ?_⟩
      rintro name result types ⟨rfl⟩ ⟨rfl⟩
      exact ⟨declaration, atTop, rfl, _, _, _, _, kind_eq, rfl⟩
  | @global declaredType _ unbound atTop kind_eq =>
      rw [builds_lowerName_of_variable unbound atTop kind_eq]
      obtain rfl : declaredType.referenceTo = type := by
        cases named with
        | «variable» _ declared =>
            rw [kind_eq] at declared
            rw [Option.some.inj declared]
        | name notVariable => rw [kind_eq] at notVariable; cases notVariable
      refine ⟨typed, .of_holds ?_ (by simp)⟩
      rw [Ir.ValueType.ofTy_referenceTo]
      exact .global _
  | constant unbound atTop constant =>
      rw [builds_lowerName_of_constant unbound atTop constant.kind_eq constant.different]
      obtain rfl := constant.typeOf_eq coherent.sound named
      exact ((lowers _ constant.isConstant constant.initialized).builds typed
        (constant.names.mono fun other member => .inr member)).mono
        (fun _ _ both => both.2) fun _ => id

/-- Truth values meet behind a logical operator. -/
theorem lowerLogical_typed (isOr : Bool) {left right : ExprId}
    (lowersLeft : LowersTyped program signature lower left)
    (lowersRight : LowersTyped program signature lower right)
    (leftNames : program.ast.Names (Available program before) left)
    (rightNames : program.ast.Names (Available program before) right)
    (left_type : program.ast.typeOf left = .bool) (right_type : program.ast.typeOf right = .bool) :
    Builds (lowerLogical lower isOr left right) before (GivesTyped program signature .bool)
      fun _ => True := by
  rw [builds_lowerLogical]
  refine (lowersLeft.builds typed leftNames).mono ?_ fun _ => id
  rintro leftValue split ⟨givesLeft, typedLeft⟩
  rw [left_type] at typedLeft
  have splitTyped := typedLeft.typed.splitLogical typedLeft.fits.holds isOr
  refine (lowersRight.behind splitTyped rightNames (by simp [givesLeft.locals_eq])).mono ?_
    fun _ => id
  rintro rightValue joined ⟨givesRight, typedRight⟩
  rw [right_type] at typedRight
  have awaits := ((Builder.Awaits.splitLogical typedLeft.typed.valid isOr leftValue).of_grows
    givesRight.grows).resume
  have joinedTyped := typedRight.typed.resume
  have rightHolds := (typedRight.fits.mono typedRight.typed.wellTyped.includes_resume).mono
    (.leave joinedTyped.valid.wellFormed (split.resume.blocks.size + 1)
      (split.resume.blocks.size + 1))
  refine emit_typed (joinedTyped.leave _ awaits) (.phi ?_) rfl
  rw [List.map_cons, List.map_cons, List.map_nil, List.forall_mem_cons, List.forall_mem_singleton]
  exact ⟨.const (.bool isOr), rightHolds.holds⟩

/-- The values of both branches meet behind a choice. -/
theorem lowerConditional_typed {guard whenTrue whenFalse : ExprId}
    (lowersGuard : LowersTyped program signature lower guard)
    (lowersTrue : LowersTyped program signature lower whenTrue)
    (lowersFalse : LowersTyped program signature lower whenFalse)
    (guardNames : program.ast.Names (Available program before) guard)
    (trueNames : program.ast.Names (Available program before) whenTrue)
    (falseNames : program.ast.Names (Available program before) whenFalse)
    (guard_type : program.ast.typeOf guard = .bool) (true_type : program.ast.typeOf whenTrue = type)
    (false_type : program.ast.typeOf whenFalse = type) :
    Builds (lowerConditional lower (.ofTy type) guard whenTrue whenFalse) before
      (GivesTyped program signature type) fun _ => True := by
  rw [builds_lowerConditional]
  refine (lowersGuard.builds typed guardNames).mono ?_ fun _ => id
  rintro condition split ⟨givesGuard, typedGuard⟩
  rw [guard_type] at typedGuard
  have splitTyped := typedGuard.typed.splitThree typedGuard.fits.holds .condTrue .condFalse .condEnd
  obtain ⟨awaitsFalse, awaitsEnd⟩ := Builder.Awaits.splitThree typedGuard.typed.valid .condTrue
    .condFalse .condEnd condition
  refine (lowersTrue.behind splitTyped trueNames (by simp [givesGuard.locals_eq])).mono ?_
    fun _ => id
  rintro trueValue turned ⟨givesTrue, typedTrue⟩
  rw [true_type] at typedTrue
  replace awaitsFalse := (awaitsFalse.of_grows givesTrue.grows).resume
  replace awaitsEnd := (awaitsEnd.of_grows givesTrue.grows).resume
  have turnedTyped := typedTrue.typed.resume.leave (split.blocks.size + 2) awaitsFalse
  have trueFits := (typedTrue.fits.mono typedTrue.typed.wellTyped.includes_resume).mono
    (.leave typedTrue.typed.resume.valid.wellFormed (split.blocks.size + 2) (split.blocks.size + 1))
  refine (lowersFalse.behind turnedTyped falseNames
    (by simp [givesTrue.locals_eq, givesGuard.locals_eq])).mono ?_ fun _ => id
  rintro falseValue joined ⟨givesFalse, typedFalse⟩
  rw [false_type] at typedFalse
  replace awaitsEnd := ((awaitsEnd.leave (split.blocks.size + 2)
    (Nat.ne_of_lt (Nat.lt_succ_self _))).of_grows givesFalse.grows).resume
  have joinedTyped := typedFalse.typed.resume
  have joins : joined.Includes
      (joined.resume.leave (split.blocks.size + 2) (split.blocks.size + 2)) :=
    typedFalse.typed.wellTyped.includes_resume.trans (.leave joinedTyped.valid.wellFormed _ _)
  have trueJoined := (trueFits.mono (givesFalse.grows.includes turnedTyped.valid.wellFormed)).mono joins
  refine emit_typed (joinedTyped.leave _ awaitsEnd) (.phi ?_) rfl
  rw [List.map_cons, List.map_cons, List.map_nil, List.forall_mem_cons, List.forall_mem_singleton]
  exact ⟨trueJoined.holds, (typedFalse.fits.mono joins).holds⟩

/-- An operator that evaluates both operands is applied to values of its operand type. -/
theorem lowerBinary_typed {operator : BinaryOperator} {left right : ExprId}
    (lowersLeft : LowersTyped program signature lower left)
    (lowersRight : LowersTyped program signature lower right)
    (leftNames : program.ast.Names (Available program before) left)
    (rightNames : program.ast.Names (Available program before) right)
    (operator_typed : program.ast.HasType (.binary operator left right) type)
    (strict : operator.isLogical = false) :
    Builds (lowerBinary program.ast lower operator left right) before
      (GivesTyped program signature type) fun _ => True := by
  rw [lowerBinary, builds_bind]
  refine (lowersLeft.builds typed leftNames).mono ?_ fun _ => id
  rintro leftValue middle ⟨givesLeft, typedLeft⟩
  rw [builds_bind]
  refine (lowersRight.behind typedLeft.typed rightNames givesLeft.locals_eq).mono ?_ fun _ => id
  rintro rightValue after ⟨givesRight, typedRight⟩
  have leftFits := typedLeft.fits.mono (givesRight.grows.includes typedLeft.typed.valid.wellFormed)
  obtain ⟨operation, stands, wellTyped, type_eq⟩ := BinaryOperator.operation?_wellTyped
    program.Calls leftFits.holds typedRight.fits.holds operator_typed strict
  rw [stands]
  exact emit_typed typedRight.typed wellTyped type_eq

/-- Arguments have the types that go with them, which are those of the expressions. -/
theorem lowerArguments_typed {arguments : List ExprId}
    (lowers : ∀ argument ∈ arguments, LowersTyped program signature lower argument)
    (names : ∀ argument ∈ arguments, program.ast.Names (Available program before) argument) :
    Builds (lowerArguments program.ast lower arguments) before
      (fun values after => Typed program signature after ∧
        (∀ argument ∈ values, after.Holds signature.arguments argument.2 argument.1) ∧
        values.map Prod.fst = arguments.map (valueType program.ast)) fun _ => True := by
  induction arguments generalizing before with
  | nil =>
      rw [lowerArguments, builds_pure]
      exact ⟨typed, by simp, rfl⟩
  | cons argument arguments induction =>
      rw [List.forall_mem_cons] at lowers names
      rw [lowerArguments, builds_bind]
      refine (lowers.1.builds typed names.1).mono ?_ fun _ => id
      rintro value middle ⟨gives, typedValue⟩
      rw [builds_bind]
      rw [← available_of_locals_eq gives.locals_eq] at names
      refine ((lowerArguments_builds typedValue.typed.valid
        (fun other member => (lowers.2 other member).lowers) names.2).and
        (induction typedValue.typed lowers.2 names.2)).mono ?_ fun _ _ => trivial
      rintro values after ⟨givesRest, typedRest, holdsRest, types_eq⟩
      rw [builds_pure, List.forall_mem_cons, List.map_cons, List.map_cons, types_eq]
      have kept := typedValue.fits.mono
        (givesRest.grows.includes typedValue.typed.valid.wellFormed)
      exact ⟨typedRest, ⟨kept.holds, holdsRest⟩, rfl⟩

/-- A value is written to the storage of its type. -/
theorem lowerAssignment_typed {target value : ExprId} {object : Ty}
    (lowersTarget : LowersTyped program signature lower target)
    (lowersValue : LowersTyped program signature lower value)
    (targetNames : program.ast.Names (Available program before) target)
    (valueNames : program.ast.Names (Available program before) value)
    (target_type : program.ast.typeOf target = .reference object) :
    Builds (lowerAssignment program.ast lower target value) before
      (GivesTyped program signature (.reference object)) fun _ => True := by
  rw [lowerAssignment, builds_bind]
  refine (lowersTarget.builds typed targetNames).mono ?_ fun _ => id
  rintro pointer middle ⟨givesTarget, typedTarget⟩
  rw [target_type] at typedTarget
  rw [builds_bind]
  refine (lowersValue.behind typedTarget.typed valueNames givesTarget.locals_eq).mono ?_ fun _ => id
  rintro stored after ⟨givesValue, typedValue⟩
  rw [builds_bind, builds_perform, builds_pure]
  have pointerFits := typedTarget.fits.mono
    (givesValue.grows.includes typedTarget.typed.valid.wellFormed)
  have wellTyped : (Ir.Operation.store (valueType program.ast value) stored pointer).WellTyped
      (after.Holds signature.arguments) program.Calls :=
    .store typedValue.fits.holds pointerFits.holds
  refine ⟨typedValue.typed.perform wellTyped, pointerFits.mono ?_⟩
  exact (Builder.Grows.refl.performed (Builder.WellTyped.operand_below wellTyped)).includes
    typedValue.typed.valid.wellFormed

/-- A function is called with arguments of its parameter types. -/
theorem lowerCall_typed {callee : ExprId} {arguments : List ExprId} {result : Ty}
    {types : List Ty} (lowersCallee : LowersTyped program signature lower callee)
    (lowers : ∀ argument ∈ arguments, LowersTyped program signature lower argument)
    (calleeNames : program.ast.Names (Available program before) callee)
    (names : ∀ argument ∈ arguments, program.ast.Names (Available program before) argument)
    (callee_type : program.ast.typeOf callee = .function result types)
    (types_eq : arguments.map program.ast.typeOf = types) :
    Builds (do
      let callee ← lower callee
      let arguments ← lowerArguments program.ast lower arguments
      emit (.call (.ofTy result) callee arguments)) before
      (GivesTyped program signature result) fun _ => True := by
  rw [builds_bind]
  refine (lowersCallee.builds typed calleeNames).mono ?_ fun _ => id
  rintro function middle ⟨gives, typedCallee⟩
  rw [callee_type] at typedCallee
  rw [builds_bind]
  rw [← available_of_locals_eq gives.locals_eq] at names
  refine ((lowerArguments_builds typedCallee.typed.valid
    (fun other member => (lowers other member).lowers) names).and
    (lowerArguments_typed typedCallee.typed lowers names)).mono ?_ fun _ _ => trivial
  rintro values after ⟨givesRest, typedRest, holdsRest, values_eq⟩
  have calleeFits := typedCallee.fits.mono
    (givesRest.grows.includes typedCallee.typed.valid.wellFormed)
  refine emit_typed typedRest (.call calleeFits.holds holdsRest fun name isFunction => ?_) rfl
  have called := calleeFits.calls name result types isFunction rfl
  rw [← types_eq, List.map_map] at called
  rw [values_eq]
  exact called

end Forms

/-- One typed expression is lowered to typed instructions if its operands are, and if it is a name then the
initializer of the constant it leads to. -/
theorem lowerKind_typed (coherent : program.Coherent) {kind : ExprKind} {location : Location}
    (typed : Typed program signature before) (kind_typed : program.ast.HasType kind type)
    (available : ∀ declaration, kind = .name declaration →
      Available program before declaration)
    (names : ∀ operand ∈ kind.operands, program.ast.Names (Available program before) operand)
    (lowers : ∀ operand ∈ kind.operands, LowersTyped program signature lower operand)
    (lowersConstant : ∀ declaration initializer, kind = .name declaration →
      (program.ast.kindOf declaration).isConstant = true →
      (program.ast.kindOf declaration).initializer? = some initializer →
      LowersTyped program signature lower initializer) :
    Builds (lowerKind program lower ⟨kind, type, location⟩) before
      (GivesTyped program signature type) fun _ => True := by
  cases kind with
  | bool value =>
      cases kind_typed
      exact ⟨typed, .of_holds (.const (.bool value)) (by simp)⟩
  | int value =>
      cases kind_typed
      exact ⟨typed, .of_holds (.const (.int value)) (by simp)⟩
  | float value =>
      cases kind_typed
      exact ⟨typed, .of_holds (.const (.float value)) (by simp)⟩
  | char value =>
      cases kind_typed
      exact ⟨typed, .of_holds (.const (.char value)) (by simp)⟩
  | name declaration =>
      exact lowerName_typed typed coherent (available declaration rfl) kind_typed
        (fun initializer => lowersConstant declaration initializer rfl)
  | unary operator operand =>
      rw [ExprKind.operands, List.forall_mem_singleton] at names lowers
      rw [lowerKind, builds_bind]
      refine (lowers.builds typed names).mono ?_ fun _ => id
      rintro value middle ⟨-, typedValue⟩
      obtain ⟨wellTyped, type_eq⟩ := UnaryOperator.operation_wellTyped program.Calls
        Builder.Holds.const typedValue.fits.holds kind_typed
      exact emit_typed typedValue.typed wellTyped type_eq
  | binary operator left right =>
      rw [ExprKind.operands, List.forall_mem_cons, List.forall_mem_singleton] at names lowers
      by_cases isLogical : operator.isLogical = true
      · have operands : type = .bool ∧ program.ast.typeOf left = .bool ∧
            program.ast.typeOf right = .bool := by
          cases kind_typed with
          | logical _ left_type right_type => exact ⟨rfl, left_type, right_type⟩
          | arithmetic other | bitwise other | comparison other =>
              cases operator <;> cases isLogical <;> cases other
        obtain ⟨rfl, left_type, right_type⟩ := operands
        cases operator <;> cases isLogical
        · exact lowerLogical_typed typed false lowers.1 lowers.2 names.1 names.2 left_type right_type
        · exact lowerLogical_typed typed true lowers.1 lowers.2 names.1 names.2 left_type right_type
      · have builds := lowerBinary_typed typed lowers.1 lowers.2 names.1 names.2 kind_typed
          (by simpa using isLogical)
        cases operator <;> first | exact builds | exact absurd rfl isLogical
  | call callee arguments =>
      rw [ExprKind.operands, List.forall_mem_cons] at names lowers
      cases kind_typed with
      | call callee_type types_eq =>
          exact lowerCall_typed typed lowers.1 lowers.2 names.1 names.2 callee_type types_eq
  | index => cases kind_typed
  | cast operand =>
      rw [ExprKind.operands, List.forall_mem_singleton] at names lowers
      cases kind_typed with
      | cast operand_type => exact operand_type ▸ lowers.types before typed names
  | assign target value =>
      rw [ExprKind.operands, List.forall_mem_cons, List.forall_mem_singleton] at names lowers
      cases kind_typed with
      | assign target_type _ =>
          exact lowerAssignment_typed typed lowers.1 lowers.2 names.1 names.2 target_type
  | conditional guard whenTrue whenFalse =>
      rw [ExprKind.operands, List.forall_mem_cons, List.forall_mem_cons,
        List.forall_mem_singleton] at names lowers
      cases kind_typed with
      | conditional guard_type true_type false_type =>
          exact lowerConditional_typed typed lowers.1 lowers.2.1 lowers.2.2 names.1 names.2.1
            names.2.2 guard_type true_type false_type
  | convert conversion operand =>
      rw [ExprKind.operands, List.forall_mem_singleton] at names lowers
      rw [lowerKind, builds_bind]
      refine (lowers.builds typed names).mono ?_ fun _ => id
      rintro value middle ⟨-, typedValue⟩
      obtain ⟨wellTyped, type_eq⟩ := Conversion.operation_wellTyped program.Calls
        Builder.Holds.const typedValue.fits.holds kind_typed
      exact emit_typed typedValue.typed wellTyped type_eq

/-- Expressions are lowered to typed instructions wherever their names are available. -/
theorem lowerExpr_typed (coherent : program.Coherent) {id : ExprId}
    (bound : id.index < program.ast.exprs.size) :
    LowersTyped program signature (lowerExpr program) id := by
  refine lowerExprWithin_induction (LowersTyped program signature) coherent.sound ?_
    (Nat.lt_succ_of_lt bound) bound
  intro fuel id enough bound lowers lowersConstant
  refine ⟨lowerExprWithin_builds coherent enough, fun before typed names => ?_⟩
  exact lowerKind_typed coherent typed (coherent.sound.expr_typed id bound)
    (fun declaration named => names.visible_of_name named)
    (fun operand member => names.operand member) lowers lowersConstant

end Lowering

end Minilang
