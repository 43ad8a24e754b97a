import Minilang.Proofs.Analysis.PlainTypes
import Minilang.Proofs.Lowering.Addresses
import Minilang.Proofs.Lowering.Expressions

/-!
# Addresses in lowered expressions

The value that comes out of an expression is an address of storage if the expression designates storage, and
only then. Where an expression is used for its value, its storage has been read before.
-/

namespace Minilang

section Operations

variable {ast : Ast} {type : Ty} {ranks : Ir.Value → Bool → Prop} {left right : ExprId}
  {leftValue rightValue : Ir.Value} (leftRanks : ranks leftValue (ast.typeOf left).isReference)

include leftRanks

theorem UnaryOperator.operation_ranked (constant : ∀ constant, ranks (.const constant) false)
    {operator : UnaryOperator} (typed : ast.HasType (.unary operator left) type) :
    (operator.operation leftValue).Ranked ranks ∧
      (operator.operation leftValue).GivesRank ranks type.isReference := by
  cases typed with
  | bitNot left_type | logicalNot left_type =>
      rw [left_type] at leftRanks
      exact ⟨⟨leftRanks, constant _⟩, rfl⟩

/-- Storage is read where a value is needed, and what has been read is no address. -/
theorem Conversion.operation_ranked (constant : ∀ constant, ranks (.const constant) false)
    {conversion : Conversion}
    (operand_plain : (ast.typeOf left).objectType.isPlain = true)
    (typed : ast.HasType (.convert conversion left) type) (source target : Ir.ValueType) :
    (conversion.operation source target leftValue).Ranked ranks ∧
      (conversion.operation source target leftValue).GivesRank ranks type.isReference := by
  cases typed with
  | load left_type =>
      rw [left_type] at leftRanks operand_plain
      exact ⟨leftRanks, Ty.isReference_of_isPlain operand_plain⟩
  | convert leads =>
      generalize ast.typeOf left = source at leads leftRanks
      cases leads with
      | charToBool | intToBool | floatToBool => exact ⟨⟨leftRanks, constant _⟩, rfl⟩
      | intToChar | boolToInt | charToInt | floatToInt | intToFloat => exact ⟨leftRanks, rfl⟩

/-- Operators combine values that are no addresses. -/
theorem BinaryOperator.operation?_ranked {operator : BinaryOperator}
    (rightRanks : ranks rightValue (ast.typeOf right).isReference)
    (typed : ast.HasType (.binary operator left right) type) {operation : Ir.Operation}
    {operandType : Ir.ValueType}
    (stands : operator.operation? operandType leftValue rightValue = some operation) :
    operation.Ranked ranks ∧ operation.GivesRank ranks type.isReference := by
  have values : ranks leftValue false ∧ ranks rightValue false ∧ type.isReference = false := by
    cases typed with
    | arithmetic _ number left_type right_type =>
        have value : type.isReference = false := by cases type <;> first | rfl | cases number
        rw [left_type, value] at leftRanks
        rw [right_type, value] at rightRanks
        exact ⟨leftRanks, rightRanks, value⟩
    | bitwise _ left_type right_type | logical _ left_type right_type =>
        rw [left_type] at leftRanks
        rw [right_type] at rightRanks
        exact ⟨leftRanks, rightRanks, rfl⟩
    | @comparison _ _ _ operand _ scalar left_type right_type =>
        have value : operand.isReference = false := by cases operand <;> first | rfl | cases scalar
        rw [left_type, value] at leftRanks
        rw [right_type, value] at rightRanks
        exact ⟨leftRanks, rightRanks, rfl⟩
  obtain ⟨leftRanks, rightRanks, value⟩ := values
  rw [operation?] at stands
  split at stands
  · cases stands
    exact ⟨⟨leftRanks, rightRanks⟩, value⟩
  · obtain ⟨_, -, rfl⟩ := Option.map_eq_some_iff.1 stands
    exact ⟨⟨leftRanks, rightRanks⟩, value⟩

end Operations

namespace Lowering

/-- Whether a program is coherent and declares plain types, so that references do not nest. -/
structure Storing (program : Program) : Prop where
  /-- The program is coherent. -/
  coherent : program.Coherent
  /-- Declared types are plain. -/
  plain : program.ast.DeclaresPlain

/-- Whether all that has been built has operands of the ranks it needs, and the values of names are
addresses if the names designate storage, and only then. -/
structure Ranked (program : Program) (builder : Builder) : Prop where
  /-- Instructions and terminators have operands of the ranks they need. -/
  ranked : builder.Ranked
  /-- The values of names have the ranks of the names. -/
  local_ranks : ∀ declaration value type, builder.local? declaration = some value →
    program.ast.HasType (.name declaration) type → builder.Ranks value type.isReference

/-- A value of the rank of a type comes out. -/
structure GivesRanked (program : Program) (type : Ty) (value : Ir.Value) (after : Builder) : Prop where
  /-- What has been built is ranked. -/
  ranked : Ranked program after
  /-- The value has the rank of the type. -/
  ranks : after.Ranks value type.isReference

/-- A function that lowers an expression to a value of its rank. -/
structure LowersRanked (program : Program) (lower : ExprId → Build Ir.Value) (id : ExprId) : Prop where
  /-- The expression is lowered. -/
  lowers : LowersExpr program lower id
  /-- What comes out is ranked. -/
  ranks : ∀ before : Builder, Ranked program before →
    program.ast.Names (Available program before) id →
    Builds (lower id) before (GivesRanked program (program.ast.typeOf id)) fun _ => True

variable {program : Program} {lower : ExprId → Build Ir.Value} {before middle after : Builder}
  {value : Ir.Value} {type : Ty}

namespace Ranked

theorem valid (ranked : Ranked program before) : before.Valid := ranked.ranked.valid

/-- A function stays ranked if no name gets a value. -/
theorem onward (ranked : Ranked program before) (includes : before.Includes after)
    (locals_eq : after.locals = before.locals) (after_ranked : after.Ranked) :
    Ranked program after := by
  refine ⟨after_ranked, fun declaration value type found named => ?_⟩
  rw [Builder.local?, locals_eq] at found
  exact (ranked.local_ranks declaration value type found named).mono includes

theorem resume (ranked : Ranked program before) : Ranked program before.resume :=
  ranked.onward ranked.ranked.includes_resume before.resume_locals ranked.ranked.resume

/-- The open block is left for one that has awaited being built. -/
theorem leave (ranked : Ranked program before) (target : Nat) {next : Nat}
    (awaits : before.Awaits next) : Ranked program (before.leave target next) :=
  ranked.onward (.leave ranked.valid.wellFormed target next) (before.leave_locals target next)
    (ranked.ranked.leave target awaits)

/-- An instruction without a result may be added over values of the ranks it needs. -/
theorem perform (ranked : Ranked program before) {operation : Ir.Operation}
    (operands : operation.Ranked before.Ranks) : Ranked program (before.perform operation) :=
  ranked.onward ((Builder.Grows.refl.performed (Builder.Ranked.operand_below operands)).includes
    ranked.valid.wellFormed) (before.perform_locals operation) (ranked.ranked.perform operands)

/-- The block that building goes on in may be closed. -/
theorem endWith (ranked : Ranked program before) {terminator : Ir.Terminator}
    (operands : terminator.Ranked before.Ranks) : Ranked program (before.endWith terminator) := by
  have closed : before.resume.Includes (before.endWith terminator) :=
    .close ranked.resume.valid.wellFormed before.resume_current terminator
  exact ranked.onward (ranked.ranked.includes_resume.trans closed)
    (before.endWith_locals terminator) (ranked.ranked.endWith operands)

section Branches

variable (ranked : Ranked program before) {condition : Ir.Value} (ranks : before.Ranks condition false)

include ranked ranks

theorem splitLogical (isOr : Bool) : Ranked program (before.splitLogical isOr condition) :=
  ranked.onward ((Builder.Grows.refl.splitLogical ranked.valid isOr ranks.value_below).includes
    ranked.valid.wellFormed) (before.splitLogical_locals condition isOr)
    (ranked.ranked.splitLogical ranks isOr)

theorem splitTwo (first second : BlockRole) :
    Ranked program (before.splitTwo first second condition) :=
  ranked.onward ((Builder.Grows.refl.splitTwo ranked.valid first second ranks.value_below).includes
    ranked.valid.wellFormed) (before.splitTwo_locals condition first second)
    (ranked.ranked.splitTwo ranks first second)

theorem splitThree (first second third : BlockRole) :
    Ranked program (before.splitThree first second third condition) :=
  ranked.onward ((Builder.Grows.refl.splitThree ranked.valid first second third
    ranks.value_below).includes ranked.valid.wellFormed)
    (before.splitThree_locals condition first second third)
    (ranked.ranked.splitThree ranks first second third)

end Branches

theorem startLoop (ranked : Ranked program before) : Ranked program before.startLoop :=
  ranked.onward ((Builder.Grows.refl.startLoop ranked.valid).includes ranked.valid.wellFormed)
    before.startLoop_locals ranked.ranked.startLoop

end Ranked

/-- What an expression is lowered to is ranked, and nothing else changes. -/
theorem LowersRanked.builds {id : ExprId} (lowers : LowersRanked program lower id)
    (ranked : Ranked program before) (names : program.ast.Names (Available program before) id) :
    Builds (lower id) before (fun value after => GivesValue before value after ∧
      GivesRanked program (program.ast.typeOf id) value after) fun _ => True :=
  ((lowers.lowers before ranked.valid names).and (lowers.ranks before ranked names)).mono
    (fun _ _ both => both) fun _ _ => trivial

/-- An expression is lowered behind other ones. -/
theorem LowersRanked.behind {id : ExprId} (lowers : LowersRanked program lower id)
    (ranked : Ranked program middle) (names : program.ast.Names (Available program before) id)
    (locals_eq : middle.locals = before.locals) :
    Builds (lower id) middle (fun value after => GivesValue middle value after ∧
      GivesRanked program (program.ast.typeOf id) value after) fun _ => True :=
  lowers.builds ranked (available_of_locals_eq locals_eq ▸ names)

/-- The result of an instruction has the rank that the instruction gives it. -/
theorem emit_ranked (ranked : Ranked program before) {operation : Ir.Operation}
    (operands : operation.Ranked before.Ranks)
    (gives : operation.GivesRank before.Ranks type.isReference) :
    Builds (emit operation) before (GivesRanked program type) fun _ => True := by
  rw [builds_emit]
  refine ⟨ranked.onward ?_ (before.emit_locals operation) (ranked.ranked.emit operands),
    ranked.ranked.emit_ranks operands gives⟩
  exact (Builder.Grows.refl.emitted (Builder.Ranked.operand_below operands)).includes
    ranked.valid.wellFormed

section Forms

variable (ranked : Ranked program before)

include ranked

/-- The value of a name is an address if the name designates storage, and only then. -/
theorem lowerName_ranked (storing : Storing program) {declaration : DeclId}
    (available : Available program before declaration)
    (named : program.ast.HasType (.name declaration) type)
    (lowers : ∀ initializer,
      (program.ast.kindOf declaration).isConstant = true →
      (program.ast.kindOf declaration).initializer? = some initializer →
      LowersRanked program lower initializer) :
    Builds (lowerName program lower declaration) before (GivesRanked program type) fun _ => True := by
  cases available.form storing.coherent with
  | bound found =>
      rw [builds_lowerName_of_local found]
      exact ⟨ranked, ranked.local_ranks declaration _ type found named⟩
  | function unbound atTop kind_eq =>
      rw [builds_lowerName_of_function unbound atTop kind_eq]
      cases named with
      | «variable» isVariable => rw [kind_eq] at isVariable; cases isVariable
      | name _ declared =>
          rw [kind_eq] at declared
          cases declared
          exact ⟨ranked, .function _⟩
  | global unbound atTop kind_eq =>
      rw [builds_lowerName_of_variable unbound atTop kind_eq]
      cases named with
      | «variable» _ declared =>
          refine ⟨ranked, ?_⟩
          rw [Ty.isReference_referenceTo]
          exact .global _
      | name notVariable => rw [kind_eq] at notVariable; cases notVariable
  | constant unbound atTop constant =>
      rw [builds_lowerName_of_constant unbound atTop constant.kind_eq constant.different]
      obtain rfl := constant.typeOf_eq storing.coherent.sound named
      exact ((lowers _ constant.isConstant constant.initialized).builds ranked
        (constant.names.mono fun other member => .inr member)).mono
        (fun _ _ both => both.2) fun _ => id

/-- Truth values meet behind a logical operator. -/
theorem lowerLogical_ranked (isOr : Bool) {left right : ExprId}
    (lowersLeft : LowersRanked program lower left) (lowersRight : LowersRanked program lower right)
    (leftNames : program.ast.Names (Available program before) left)
    (rightNames : program.ast.Names (Available program before) right)
    (left_type : program.ast.typeOf left = .bool) (right_type : program.ast.typeOf right = .bool) :
    Builds (lowerLogical lower isOr left right) before (GivesRanked program .bool) fun _ => True := by
  rw [builds_lowerLogical]
  refine (lowersLeft.builds ranked leftNames).mono ?_ fun _ => id
  rintro leftValue split ⟨givesLeft, rankedLeft⟩
  rw [left_type] at rankedLeft
  have splitRanked := rankedLeft.ranked.splitLogical rankedLeft.ranks isOr
  refine (lowersRight.behind splitRanked rightNames (by simp [givesLeft.locals_eq])).mono ?_
    fun _ => id
  rintro rightValue joined ⟨givesRight, rankedRight⟩
  rw [right_type] at rankedRight
  have awaits := ((Builder.Awaits.splitLogical rankedLeft.ranked.valid isOr leftValue).of_grows
    givesRight.grows).resume
  have joinedRanked := rankedRight.ranked.resume
  have rightRanks := (rankedRight.ranks.mono rankedRight.ranked.ranked.includes_resume).mono
    (.leave joinedRanked.valid.wellFormed (split.resume.blocks.size + 1)
      (split.resume.blocks.size + 1))
  have incoming : ∀ value ∈ [.const (.bool isOr), rightValue],
      (joined.resume.leave (split.resume.blocks.size + 1)
        (split.resume.blocks.size + 1)).Ranks value false := by
    rw [List.forall_mem_cons, List.forall_mem_singleton]
    exact ⟨.const _, rightRanks⟩
  exact emit_ranked (joinedRanked.leave _ awaits) ⟨false, incoming⟩
    ⟨List.cons_ne_nil _ _, incoming⟩

/-- The values of both branches meet behind a choice. -/
theorem lowerConditional_ranked {guard whenTrue whenFalse : ExprId}
    (lowersGuard : LowersRanked program lower guard)
    (lowersTrue : LowersRanked program lower whenTrue)
    (lowersFalse : LowersRanked program lower whenFalse)
    (guardNames : program.ast.Names (Available program before) guard)
    (trueNames : program.ast.Names (Available program before) whenTrue)
    (falseNames : program.ast.Names (Available program before) whenFalse)
    (guard_type : program.ast.typeOf guard = .bool) (true_type : program.ast.typeOf whenTrue = type)
    (false_type : program.ast.typeOf whenFalse = type) :
    Builds (lowerConditional lower (.ofTy type) guard whenTrue whenFalse) before
      (GivesRanked program type) fun _ => True := by
  rw [builds_lowerConditional]
  refine (lowersGuard.builds ranked guardNames).mono ?_ fun _ => id
  rintro condition split ⟨givesGuard, rankedGuard⟩
  rw [guard_type] at rankedGuard
  have splitRanked := rankedGuard.ranked.splitThree rankedGuard.ranks .condTrue .condFalse .condEnd
  obtain ⟨awaitsFalse, awaitsEnd⟩ := Builder.Awaits.splitThree rankedGuard.ranked.valid .condTrue
    .condFalse .condEnd condition
  refine (lowersTrue.behind splitRanked trueNames (by simp [givesGuard.locals_eq])).mono ?_
    fun _ => id
  rintro trueValue turned ⟨givesTrue, rankedTrue⟩
  rw [true_type] at rankedTrue
  replace awaitsFalse := (awaitsFalse.of_grows givesTrue.grows).resume
  replace awaitsEnd := (awaitsEnd.of_grows givesTrue.grows).resume
  have turnedRanked := rankedTrue.ranked.resume.leave (split.blocks.size + 2) awaitsFalse
  have trueRanks := (rankedTrue.ranks.mono rankedTrue.ranked.ranked.includes_resume).mono
    (.leave rankedTrue.ranked.resume.valid.wellFormed (split.blocks.size + 2)
      (split.blocks.size + 1))
  refine (lowersFalse.behind turnedRanked falseNames
    (by simp [givesTrue.locals_eq, givesGuard.locals_eq])).mono ?_ fun _ => id
  rintro falseValue joined ⟨givesFalse, rankedFalse⟩
  rw [false_type] at rankedFalse
  replace awaitsEnd := ((awaitsEnd.leave (split.blocks.size + 2)
    (Nat.ne_of_lt (Nat.lt_succ_self _))).of_grows givesFalse.grows).resume
  have joinedRanked := rankedFalse.ranked.resume
  have joins : joined.Includes
      (joined.resume.leave (split.blocks.size + 2) (split.blocks.size + 2)) :=
    rankedFalse.ranked.ranked.includes_resume.trans (.leave joinedRanked.valid.wellFormed _ _)
  have trueJoined :=
    (trueRanks.mono (givesFalse.grows.includes turnedRanked.valid.wellFormed)).mono joins
  have incoming : ∀ value ∈ [trueValue, falseValue],
      (joined.resume.leave (split.blocks.size + 2) (split.blocks.size + 2)).Ranks value
        type.isReference := by
    rw [List.forall_mem_cons, List.forall_mem_singleton]
    exact ⟨trueJoined, rankedFalse.ranks.mono joins⟩
  exact emit_ranked (joinedRanked.leave _ awaitsEnd) ⟨_, incoming⟩
    ⟨List.cons_ne_nil _ _, incoming⟩

/-- An operator that evaluates both operands is applied to values. -/
theorem lowerBinary_ranked {operator : BinaryOperator} {left right : ExprId}
    (lowersLeft : LowersRanked program lower left) (lowersRight : LowersRanked program lower right)
    (leftNames : program.ast.Names (Available program before) left)
    (rightNames : program.ast.Names (Available program before) right)
    (operator_typed : program.ast.HasType (.binary operator left right) type) :
    Builds (lowerBinary program.ast lower operator left right) before (GivesRanked program type)
      fun _ => True := by
  rw [lowerBinary, builds_bind]
  refine (lowersLeft.builds ranked leftNames).mono ?_ fun _ => id
  rintro leftValue middle ⟨givesLeft, rankedLeft⟩
  rw [builds_bind]
  refine (lowersRight.behind rankedLeft.ranked rightNames givesLeft.locals_eq).mono ?_ fun _ => id
  rintro rightValue after ⟨givesRight, rankedRight⟩
  have leftRanks :=
    rankedLeft.ranks.mono (givesRight.grows.includes rankedLeft.ranked.valid.wellFormed)
  split
  · next operation stands =>
    obtain ⟨operands, gives⟩ := BinaryOperator.operation?_ranked leftRanks rankedRight.ranks
      operator_typed stands
    exact emit_ranked rankedRight.ranked operands gives
  · trivial

/-- Arguments are values. -/
theorem lowerArguments_ranked {arguments : List ExprId}
    (lowers : ∀ argument ∈ arguments, LowersRanked program lower argument)
    (names : ∀ argument ∈ arguments, program.ast.Names (Available program before) argument)
    (values : ∀ argument ∈ arguments, (program.ast.typeOf argument).isReference = false) :
    Builds (lowerArguments program.ast lower arguments) before
      (fun lowered after => Ranked program after ∧
        ∀ argument ∈ lowered, after.Ranks argument.2 false) fun _ => True := by
  induction arguments generalizing before with
  | nil =>
      rw [lowerArguments, builds_pure]
      exact ⟨ranked, by simp⟩
  | cons argument arguments induction =>
      rw [List.forall_mem_cons] at lowers names values
      rw [lowerArguments, builds_bind]
      refine (lowers.1.builds ranked names.1).mono ?_ fun _ => id
      rintro value middle ⟨gives, rankedValue⟩
      have valueRanks := rankedValue.ranks
      rw [values.1] at valueRanks
      rw [builds_bind]
      rw [← available_of_locals_eq gives.locals_eq] at names
      refine ((lowerArguments_builds rankedValue.ranked.valid
        (fun other member => (lowers.2 other member).lowers) names.2).and
        (induction rankedValue.ranked lowers.2 names.2 values.2)).mono ?_ fun _ _ => trivial
      rintro lowered after ⟨givesRest, rankedRest, ranksRest⟩
      rw [builds_pure, List.forall_mem_cons]
      exact ⟨rankedRest, valueRanks.mono
        (givesRest.grows.includes rankedValue.ranked.valid.wellFormed), ranksRest⟩

/-- A value is written to storage, and the address of the storage comes out. -/
theorem lowerAssignment_ranked {target value : ExprId} {object : Ty}
    (lowersTarget : LowersRanked program lower target)
    (lowersValue : LowersRanked program lower value)
    (targetNames : program.ast.Names (Available program before) target)
    (valueNames : program.ast.Names (Available program before) value)
    (target_type : program.ast.typeOf target = .reference object)
    (isValue : (program.ast.typeOf value).isReference = false) :
    Builds (lowerAssignment program.ast lower target value) before
      (GivesRanked program (.reference object)) fun _ => True := by
  rw [lowerAssignment, builds_bind]
  refine (lowersTarget.builds ranked targetNames).mono ?_ fun _ => id
  rintro pointer middle ⟨givesTarget, rankedTarget⟩
  rw [target_type] at rankedTarget
  rw [builds_bind]
  refine (lowersValue.behind rankedTarget.ranked valueNames givesTarget.locals_eq).mono ?_
    fun _ => id
  rintro stored after ⟨givesValue, rankedValue⟩
  have valueRanks := rankedValue.ranks
  rw [isValue] at valueRanks
  rw [builds_bind, builds_perform, builds_pure]
  have pointerRanks := rankedTarget.ranks.mono
    (givesValue.grows.includes rankedTarget.ranked.valid.wellFormed)
  have operands : (Ir.Operation.store (valueType program.ast value) stored pointer).Ranked
      after.Ranks := ⟨valueRanks, pointerRanks⟩
  refine ⟨rankedValue.ranked.perform operands, pointerRanks.mono ?_⟩
  exact (Builder.Grows.refl.performed (Builder.Ranked.operand_below operands)).includes
    rankedValue.ranked.valid.wellFormed

/-- A function is called with values. -/
theorem lowerCall_ranked {callee : ExprId} {arguments : List ExprId} {result : Ty}
    {types : List Ty} (lowersCallee : LowersRanked program lower callee)
    (lowers : ∀ argument ∈ arguments, LowersRanked program lower argument)
    (calleeNames : program.ast.Names (Available program before) callee)
    (names : ∀ argument ∈ arguments, program.ast.Names (Available program before) argument)
    (callee_type : program.ast.typeOf callee = .function result types)
    (types_eq : arguments.map program.ast.typeOf = types)
    (callee_plain : (program.ast.typeOf callee).objectType.isPlain = true) :
    Builds (do
      let callee ← lower callee
      let arguments ← lowerArguments program.ast lower arguments
      emit (.call (.ofTy result) callee arguments)) before (GivesRanked program result)
      fun _ => True := by
  rw [callee_type] at callee_plain
  obtain ⟨result_plain, types_plain⟩ := Ty.isPlain_function.1 callee_plain
  have values : ∀ argument ∈ arguments, (program.ast.typeOf argument).isReference = false := by
    intro argument member
    refine Ty.isReference_of_isPlain (types_plain _ ?_)
    rw [← types_eq]
    exact List.mem_map_of_mem member
  rw [builds_bind]
  refine (lowersCallee.builds ranked calleeNames).mono ?_ fun _ => id
  rintro function middle ⟨gives, rankedCallee⟩
  rw [callee_type] at rankedCallee
  rw [builds_bind]
  rw [← available_of_locals_eq gives.locals_eq] at names
  refine ((lowerArguments_builds rankedCallee.ranked.valid
    (fun other member => (lowers other member).lowers) names).and
    (lowerArguments_ranked rankedCallee.ranked lowers names values)).mono ?_ fun _ _ => trivial
  rintro lowered after ⟨givesRest, rankedRest, ranksRest⟩
  have calleeRanks := rankedCallee.ranks.mono
    (givesRest.grows.includes rankedCallee.ranked.valid.wellFormed)
  exact emit_ranked rankedRest ⟨calleeRanks, ranksRest⟩ (Ty.isReference_of_isPlain result_plain)

end Forms

/-- The value of one expression has the rank of its type if those of its operands have theirs, and if it is
a name then the initializer of the constant it leads to has its own. -/
theorem lowerKind_ranked (storing : Storing program) {kind : ExprKind} {location : Location}
    (ranked : Ranked program before) (kind_typed : program.ast.HasType kind type)
    (plain : type.objectType.isPlain = true)
    (operand_plain : ∀ operand ∈ kind.operands,
      (program.ast.typeOf operand).objectType.isPlain = true)
    (available : ∀ declaration, kind = .name declaration → Available program before declaration)
    (names : ∀ operand ∈ kind.operands, program.ast.Names (Available program before) operand)
    (lowers : ∀ operand ∈ kind.operands, LowersRanked program lower operand)
    (lowersConstant : ∀ declaration initializer, kind = .name declaration →
      (program.ast.kindOf declaration).isConstant = true →
      (program.ast.kindOf declaration).initializer? = some initializer →
      LowersRanked program lower initializer) :
    Builds (lowerKind program lower ⟨kind, type, location⟩) before
      (GivesRanked program type) fun _ => True := by
  cases kind with
  | bool value | int value | float value | char value =>
      cases kind_typed
      exact ⟨ranked, .const _⟩
  | name declaration =>
      exact lowerName_ranked ranked storing (available declaration rfl) kind_typed
        (fun initializer => lowersConstant declaration initializer rfl)
  | unary operator operand =>
      rw [ExprKind.operands, List.forall_mem_singleton] at names lowers
      rw [lowerKind, builds_bind]
      refine (lowers.builds ranked names).mono ?_ fun _ => id
      rintro value middle ⟨-, rankedValue⟩
      obtain ⟨operands, gives⟩ :=
        UnaryOperator.operation_ranked rankedValue.ranks .const kind_typed
      exact emit_ranked rankedValue.ranked operands gives
  | binary operator left right =>
      rw [ExprKind.operands, List.forall_mem_cons, List.forall_mem_singleton] at names lowers
      by_cases isLogical : operator.isLogical = true
      · have operands : type = .bool ∧ program.ast.typeOf left = .bool ∧
            program.ast.typeOf right = .bool := by
          cases kind_typed with
          | logical _ left_type right_type => exact ⟨rfl, left_type, right_type⟩
          | arithmetic other | bitwise other | comparison other =>
              cases operator <;> cases isLogical <;> cases other
        obtain ⟨rfl, left_type, right_type⟩ := operands
        cases operator <;> cases isLogical
        · exact lowerLogical_ranked ranked false lowers.1 lowers.2 names.1 names.2 left_type
            right_type
        · exact lowerLogical_ranked ranked true lowers.1 lowers.2 names.1 names.2 left_type
            right_type
      · have builds := lowerBinary_ranked ranked lowers.1 lowers.2 names.1 names.2 kind_typed
        cases operator <;> first | exact builds | exact absurd rfl isLogical
  | call callee arguments =>
      rw [ExprKind.operands, List.forall_mem_cons] at names lowers operand_plain
      cases kind_typed with
      | call callee_type types_eq =>
          exact lowerCall_ranked ranked lowers.1 lowers.2 names.1 names.2 callee_type types_eq
            operand_plain.1
  | index => cases kind_typed
  | cast operand =>
      rw [ExprKind.operands, List.forall_mem_singleton] at names lowers
      cases kind_typed with
      | cast operand_type => exact operand_type ▸ lowers.ranks before ranked names
  | assign target value =>
      rw [ExprKind.operands, List.forall_mem_cons, List.forall_mem_singleton] at names lowers
      cases kind_typed with
      | assign target_type value_type =>
          have isValue : (program.ast.typeOf value).isReference = false :=
            value_type ▸ Ty.isReference_of_isPlain plain
          exact lowerAssignment_ranked ranked lowers.1 lowers.2 names.1 names.2 target_type isValue
  | conditional guard whenTrue whenFalse =>
      rw [ExprKind.operands, List.forall_mem_cons, List.forall_mem_cons,
        List.forall_mem_singleton] at names lowers
      cases kind_typed with
      | conditional guard_type true_type false_type =>
          exact lowerConditional_ranked ranked lowers.1 lowers.2.1 lowers.2.2 names.1 names.2.1
            names.2.2 guard_type true_type false_type
  | convert conversion operand =>
      rw [ExprKind.operands, List.forall_mem_singleton] at names lowers operand_plain
      rw [lowerKind, builds_bind]
      refine (lowers.builds ranked names).mono ?_ fun _ => id
      rintro value middle ⟨-, rankedValue⟩
      obtain ⟨operands, gives⟩ := Conversion.operation_ranked rankedValue.ranks .const
        operand_plain kind_typed (valueType program.ast operand) (.ofTy type)
      exact emit_ranked rankedValue.ranked operands gives

/-- The values of expressions have the ranks of their types wherever their names are available. -/
theorem lowerExpr_ranked (storing : Storing program) {id : ExprId}
    (bound : id.index < program.ast.exprs.size) : LowersRanked program (lowerExpr program) id := by
  have coherent := storing.coherent
  refine lowerExprWithin_induction (LowersRanked program) coherent.sound ?_
    (Nat.lt_succ_of_lt bound) bound
  intro fuel id enough bound lowers lowersConstant
  refine ⟨lowerExprWithin_builds coherent enough, fun before ranked names => ?_⟩
  have plain {other : ExprId} (other_lt : other.index < program.ast.exprs.size) :=
    storing.plain.objectType_typeOf coherent.sound other_lt
  have older := (coherent.sound.expr_grounded id bound).operand_lt
  exact lowerKind_ranked storing ranked (coherent.sound.expr_typed id bound) (plain bound)
    (fun operand member => plain ((older operand member).trans bound))
    (fun declaration named => names.visible_of_name named)
    (fun operand member => names.operand member) lowers lowersConstant

end Lowering

end Minilang
