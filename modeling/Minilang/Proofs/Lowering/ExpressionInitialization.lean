import Minilang.Proofs.Lowering.Expressions
import Minilang.Proofs.Lowering.Initialization

/-!
# Expressions that leave room alone

An expression that names no variable in the room of a temporary is lowered aside from that room: it is not
read, its address does not come out, and control comes to no block that was there.
-/

namespace Minilang

open Builder (Aside)

/-- Operators on one value read nothing. -/
theorem UnaryOperator.read?_operation (operator : UnaryOperator) (operand : Ir.Value) :
    (operator.operation operand).read? = none := by
  cases operator <;> rfl

/-- Operators on two values read nothing. -/
theorem BinaryOperator.read?_of_operation? {operator : BinaryOperator} {type : Ir.ValueType}
    {left right : Ir.Value} {operation : Ir.Operation}
    (stands : operator.operation? type left right = some operation) : operation.read? = none := by
  rw [operation?] at stands
  split at stands
  · cases stands
    rfl
  · obtain ⟨_, -, rfl⟩ := Option.map_eq_some_iff.1 stands
    rfl

/-- A conversion reads nothing but the room of its operand. -/
theorem Conversion.eq_of_read?_operation {conversion : Conversion} {source target : Ir.ValueType}
    {operand : Ir.Value} {slot : Nat}
    (reads : (conversion.operation source target operand).read? = some slot) :
    operand = .temp slot := by
  cases conversion with
  | load => cases operand <;> cases reads; rfl
  | toBool | toChar | toInt | truncate | toFloat => cases reads

/-- Whether no instruction in a block gives a temporary. -/
def Builder.Spares (builder : Builder) (slot : Nat) : Prop :=
  ∀ (index : Nat) (block : OpenBlock), builder.blocks[index]? = some block →
    ∀ instruction ∈ block.instructions.toList, instruction.result ≠ some slot

theorem Builder.Spares.of_includes {before after : Builder} {slot : Nat} (spares : after.Spares slot)
    (includes : before.Includes after) : before.Spares slot := by
  intro index block found instruction member
  obtain ⟨later, later_found, grows⟩ := includes.block_grows index block found
  exact spares index later later_found instruction (grows.instructions_le.subset member)

namespace Lowering

/-- Whether a name can be lowered aside from the room of a temporary: it is available, and it does not
stand for that room. -/
structure Apart (program : Program) (before : Builder) (slot : Nat) (declaration : DeclId) : Prop where
  available : Available program before declaration
  elsewhere : before.local? declaration ≠ some (.temp slot)

/-- A value that is not the address of the room of a temporary comes out without reading that room. -/
structure Bypasses (slot : Nat) (before : Builder) (value : Ir.Value) (after : Builder) : Prop where
  aside : Aside slot before after
  value_ne : value ≠ .temp slot

/-- A function that lowers an expression aside from the room of a temporary, if it is room, wherever the
names are apart from it. -/
structure BypassesExpr (program : Program) (slot : Nat) (lower : ExprId → Build Ir.Value)
    (id : ExprId) : Prop where
  /-- The expression is lowered. -/
  lowers : LowersExpr program lower id
  /-- The room is left alone. -/
  bypasses : ∀ before : Builder, before.Valid →
    (∀ declaration ∈ program.declarations, before.local? declaration = none) →
    program.ast.Names (Apart program before slot) id →
    Builds (lower id) before
      (fun value after => after.Spares slot → Bypasses slot before value after) fun _ => True

variable {program : Program} {slot : Nat} {lower : ExprId → Build Ir.Value}
  {before middle after : Builder} {operation : Ir.Operation}

/-- Names stay apart as long as no name gets a value. -/
theorem apart_of_locals_eq (same : after.locals = before.locals) :
    Apart program after slot = Apart program before slot := by
  funext declaration
  have local_eq : after.local? declaration = before.local? declaration := by
    rw [Builder.local?, same, Builder.local?]
  refine propext ⟨fun apart => ⟨?_, ?_⟩, fun apart => ⟨?_, ?_⟩⟩
  · rw [← available_of_locals_eq same]
    exact apart.1
  · rw [← local_eq]
    exact apart.2
  · rw [available_of_locals_eq same]
    exact apart.1
  · rw [local_eq]
    exact apart.2

theorem BypassesExpr.builds {id : ExprId} (bypasses : BypassesExpr program slot lower id)
    (valid : before.Valid)
    (unbound : ∀ declaration ∈ program.declarations, before.local? declaration = none)
    (names : program.ast.Names (Apart program before slot) id) :
    Builds (lower id) before (fun value after => GivesValue before value after ∧
      (after.Spares slot → Bypasses slot before value after)) fun _ => True :=
  ((bypasses.lowers before valid (names.mono fun _ apart => apart.available)).and
    (bypasses.bypasses before valid unbound names)).mono (fun _ _ both => both) fun _ _ => trivial

/-- An expression is lowered behind other ones. -/
theorem BypassesExpr.behind {id : ExprId} (bypasses : BypassesExpr program slot lower id)
    (valid : middle.Valid)
    (unbound : ∀ declaration ∈ program.declarations, before.local? declaration = none)
    (names : program.ast.Names (Apart program before slot) id)
    (locals_eq : middle.locals = before.locals) :
    Builds (lower id) middle (fun value after => GivesValue middle value after ∧
      (after.Spares slot → Bypasses slot middle value after)) fun _ => True := by
  refine bypasses.builds valid ?_ (apart_of_locals_eq locals_eq ▸ names)
  intro declaration atTop
  rw [Builder.local?, locals_eq]
  exact unbound declaration atTop

/-- What an instruction gives that does not read the room is not its address. -/
theorem emit_bypasses (valid : middle.Valid)
    (below : ∀ value ∈ operation.operands, value.Below middle.temporaries)
    (aside : middle.Spares slot → Aside slot before middle ∧ operation.read? ≠ some slot) :
    Builds (emit operation) middle
      (fun value after => after.Spares slot → Bypasses slot before value after) fun _ => True := by
  rw [builds_emit]
  intro spares
  have grows := (Builder.Grows.refl : middle.Grows middle).emitted below
  obtain ⟨behind, reads⟩ := aside (spares.of_includes (grows.includes valid.wellFormed))
  refine ⟨behind.emit reads, ?_⟩
  rintro ⟨rfl⟩
  obtain ⟨open', found, _⟩ := valid.resume.wellFormed _ middle.resume_current
  refine spares middle.currentIndex { open' with
    instructions := open'.instructions.push ⟨some middle.temporaries, operation⟩ } ?_
    ⟨some middle.temporaries, operation⟩ (by simp) rfl
  rw [Builder.emit, Builder.push, Array.getElem?_modify, if_pos rfl,
    Builder.countTemporary_blocks, found]
  rfl

section Forms

variable (valid : before.Valid)
  (unbound : ∀ declaration ∈ program.declarations, before.local? declaration = none)

include valid unbound

theorem lowerName_bypasses (coherent : program.Coherent) {declaration : DeclId}
    (apart : Apart program before slot declaration)
    (bypasses : ∀ initializer,
      (program.ast.kindOf declaration).isConstant = true →
      (program.ast.kindOf declaration).initializer? = some initializer →
      BypassesExpr program slot lower initializer) :
    Builds (lowerName program lower declaration) before
      (fun value after => after.Spares slot → Bypasses slot before value after) fun _ => True := by
  cases apart.available.form coherent with
  | bound found =>
      rw [builds_lowerName_of_local found]
      exact fun _ => ⟨.refl, fun same => apart.elsewhere (same ▸ found)⟩
  | function notLocal atTop kind_eq =>
      rw [builds_lowerName_of_function notLocal atTop kind_eq]
      exact fun _ => ⟨.refl, fun same => by cases same⟩
  | global notLocal atTop kind_eq =>
      rw [builds_lowerName_of_variable notLocal atTop kind_eq]
      exact fun _ => ⟨.refl, fun same => by cases same⟩
  | constant notLocal atTop constant =>
      rw [builds_lowerName_of_constant notLocal atTop constant.kind_eq constant.different]
      refine (bypasses _ constant.isConstant constant.initialized).bypasses before valid unbound ?_
      refine constant.names.mono fun other member => ⟨.inr member, ?_⟩
      rw [unbound other member]
      exact nofun

theorem lowerLogical_bypasses (isOr : Bool) {left right : ExprId}
    (bypassesLeft : BypassesExpr program slot lower left)
    (bypassesRight : BypassesExpr program slot lower right)
    (leftNames : program.ast.Names (Apart program before slot) left)
    (rightNames : program.ast.Names (Apart program before slot) right) :
    Builds (lowerLogical lower isOr left right) before
      (fun value after => after.Spares slot → Bypasses slot before value after) fun _ => True := by
  rw [builds_lowerLogical]
  refine (bypassesLeft.builds valid unbound leftNames).mono ?_ fun _ => id
  rintro leftValue split ⟨givesLeft, asideLeft⟩
  have splitValid := valid.of_grows givesLeft.grows
  have splitGrows : split.Grows (split.splitLogical isOr leftValue) :=
    Builder.Grows.refl.splitLogical splitValid isOr givesLeft.below
  refine (bypassesRight.behind (splitValid.of_grows splitGrows) unbound rightNames
    (by simp [givesLeft.locals_eq])).mono ?_ fun _ => id
  rintro rightValue joined ⟨givesRight, asideRight⟩
  have awaits := ((Builder.Awaits.splitLogical splitValid isOr leftValue).of_grows
    givesRight.grows).resume
  have joinedValid := (splitValid.of_grows splitGrows).of_grows givesRight.grows
  have joins : joined.Includes (joined.resume.leave (split.resume.blocks.size + 1)
      (split.resume.blocks.size + 1)) :=
    (Builder.Grows.refl.resume.includes joinedValid.wellFormed).trans
      (.leave joinedValid.resume.wellFormed _ _)
  refine emit_bypasses (joinedValid.resume.leave awaits _) ?_ fun spares => ⟨?_, fun same => by cases same⟩
  · simp only [Ir.Operation.operands, List.map_cons, List.map_nil, List.forall_mem_cons]
    exact ⟨trivial, by simpa using givesRight.below, List.forall_mem_nil _⟩
  · have joinedSpares := spares.of_includes joins
    have splitSpares := joinedSpares.of_includes
      ((splitGrows.trans givesRight.grows).includes splitValid.wellFormed)
    have right := ((asideLeft splitSpares).aside.trans (.splitLogical split slot isOr leftValue)).trans
      (asideRight joinedSpares).aside
    have new : before.blocks.size ≤ split.resume.blocks.size + 1 :=
      (givesLeft.grows.resume.size_le).trans (Nat.le_succ _)
    exact right.resume.leave new awaits.fresh.lt_size _

theorem lowerConditional_bypasses (type : Ir.ValueType) {guard whenTrue whenFalse : ExprId}
    (bypassesGuard : BypassesExpr program slot lower guard)
    (bypassesTrue : BypassesExpr program slot lower whenTrue)
    (bypassesFalse : BypassesExpr program slot lower whenFalse)
    (guardNames : program.ast.Names (Apart program before slot) guard)
    (trueNames : program.ast.Names (Apart program before slot) whenTrue)
    (falseNames : program.ast.Names (Apart program before slot) whenFalse) :
    Builds (lowerConditional lower type guard whenTrue whenFalse) before
      (fun value after => after.Spares slot → Bypasses slot before value after) fun _ => True := by
  rw [builds_lowerConditional]
  refine (bypassesGuard.builds valid unbound guardNames).mono ?_ fun _ => id
  rintro condition split ⟨givesGuard, asideGuard⟩
  have splitValid := valid.of_grows givesGuard.grows
  have splitGrows : split.Grows (split.splitThree .condTrue .condFalse .condEnd condition) :=
    Builder.Grows.refl.splitThree splitValid _ _ _ givesGuard.below
  obtain ⟨awaitsFalse, awaitsEnd⟩ :=
    Builder.Awaits.splitThree splitValid .condTrue .condFalse .condEnd condition
  have trueValid := splitValid.of_grows splitGrows
  refine (bypassesTrue.behind trueValid unbound trueNames (by simp [givesGuard.locals_eq])).mono ?_
    fun _ => id
  rintro trueValue turned ⟨givesTrue, asideTrue⟩
  replace awaitsFalse := (awaitsFalse.of_grows givesTrue.grows).resume
  replace awaitsEnd := (awaitsEnd.of_grows givesTrue.grows).resume
  have turnedValid := trueValid.of_grows givesTrue.grows
  have turnedIncludes : turned.Includes (turned.resume.leave (split.blocks.size + 2)
      (split.blocks.size + 1)) :=
    (Builder.Grows.refl.resume.includes turnedValid.wellFormed).trans
      (.leave turnedValid.resume.wellFormed _ _)
  have falseValid := turnedValid.resume.leave awaitsFalse (split.blocks.size + 2)
  refine (bypassesFalse.behind falseValid unbound falseNames
    (by simp [givesTrue.locals_eq, givesGuard.locals_eq])).mono ?_ fun _ => id
  rintro falseValue joined ⟨givesFalse, asideFalse⟩
  have end_lt := awaitsEnd.fresh.lt_size
  replace awaitsEnd := ((awaitsEnd.leave (split.blocks.size + 2)
    (Nat.ne_of_lt (Nat.lt_succ_self _))).of_grows givesFalse.grows).resume
  have joinedValid := falseValid.of_grows givesFalse.grows
  have joins : joined.Includes (joined.resume.leave (split.blocks.size + 2)
      (split.blocks.size + 2)) :=
    (Builder.Grows.refl.resume.includes joinedValid.wellFormed).trans
      (.leave joinedValid.resume.wellFormed _ _)
  refine emit_bypasses (joinedValid.resume.leave awaitsEnd _) ?_ fun spares => ⟨?_, fun same => by cases same⟩
  · simp only [Ir.Operation.operands, List.map_cons, List.map_nil, List.forall_mem_cons]
    have trueBelow := givesTrue.below.mono
      (by simpa using givesFalse.grows.temporaries_le : turned.temporaries ≤ joined.temporaries)
    exact ⟨by simpa using trueBelow, by simpa using givesFalse.below, List.forall_mem_nil _⟩
  · have joinedSpares := spares.of_includes joins
    have turnedSpares := joinedSpares.of_includes
      (turnedIncludes.trans (givesFalse.grows.includes falseValid.wellFormed))
    have splitSpares := turnedSpares.of_includes
      ((splitGrows.trans givesTrue.grows).includes splitValid.wellFormed)
    have new : before.blocks.size ≤ split.blocks.size := givesGuard.grows.size_le
    have chosen := ((asideGuard splitSpares).aside.trans
      (.splitThree split slot .condTrue .condFalse .condEnd condition)).trans
      (asideTrue turnedSpares).aside
    have both := (chosen.resume.leave (new.trans (Nat.le_add_right _ 2)) end_lt
      (split.blocks.size + 1)).trans (asideFalse joinedSpares).aside
    exact both.resume.leave (new.trans (Nat.le_add_right _ 2)) awaitsEnd.fresh.lt_size _

theorem lowerBinary_bypasses {operator : BinaryOperator} {left right : ExprId}
    (bypassesLeft : BypassesExpr program slot lower left)
    (bypassesRight : BypassesExpr program slot lower right)
    (leftNames : program.ast.Names (Apart program before slot) left)
    (rightNames : program.ast.Names (Apart program before slot) right)
    (stands : ∀ leftValue rightValue, ∃ operation,
      operator.operation? (valueType program.ast left) leftValue rightValue = some operation ∧
        operation.operands = [leftValue, rightValue] ∧ operation.incoming = []) :
    Builds (lowerBinary program.ast lower operator left right) before
      (fun value after => after.Spares slot → Bypasses slot before value after) fun _ => True := by
  rw [lowerBinary, builds_bind]
  refine (bypassesLeft.builds valid unbound leftNames).mono ?_ fun _ => id
  rintro leftValue middle ⟨givesLeft, asideLeft⟩
  have middleValid := valid.of_grows givesLeft.grows
  rw [builds_bind]
  refine (bypassesRight.behind middleValid unbound rightNames givesLeft.locals_eq).mono ?_
    fun _ => id
  rintro rightValue after ⟨givesRight, asideRight⟩
  obtain ⟨operation, operation_eq, operands_eq, _⟩ := stands leftValue rightValue
  rw [operation_eq]
  refine emit_bypasses (middleValid.of_grows givesRight.grows) ?_ fun spares => ⟨?_, ?_⟩
  · rw [operands_eq, List.forall_mem_cons, List.forall_mem_singleton]
    exact ⟨givesLeft.below_later givesRight, givesRight.below⟩
  · exact (asideLeft (spares.of_includes (givesRight.grows.includes middleValid.wellFormed))).aside.trans
      (asideRight spares).aside
  · rw [BinaryOperator.read?_of_operation? operation_eq]
    exact fun same => by cases same

theorem lowerArguments_bypasses {arguments : List ExprId}
    (bypasses : ∀ argument ∈ arguments, BypassesExpr program slot lower argument)
    (names : ∀ argument ∈ arguments, program.ast.Names (Apart program before slot) argument) :
    Builds (lowerArguments program.ast lower arguments) before
      (fun _ after => after.Spares slot → Aside slot before after) fun _ => True := by
  induction arguments generalizing before with
  | nil =>
      rw [lowerArguments, builds_pure]
      exact fun _ => .refl
  | cons argument arguments induction =>
      rw [List.forall_mem_cons] at bypasses names
      rw [lowerArguments, builds_bind]
      refine (bypasses.1.builds valid unbound names.1).mono ?_ fun _ => id
      rintro value middle ⟨gives, aside⟩
      have middleValid := valid.of_grows gives.grows
      have middleUnbound : ∀ declaration ∈ program.declarations,
          middle.local? declaration = none := by
        intro declaration atTop
        rw [Builder.local?, gives.locals_eq]
        exact unbound declaration atTop
      rw [← apart_of_locals_eq gives.locals_eq] at names
      rw [builds_bind]
      refine ((lowerArguments_builds middleValid (fun other member => (bypasses.2 other member).lowers)
        fun other member => (names.2 other member).mono fun _ apart => apart.available).and
        (induction middleValid middleUnbound bypasses.2 names.2)).mono ?_ fun _ _ => trivial
      rintro lowered after ⟨givesRest, asideRest⟩
      rw [builds_pure]
      exact fun spares => (aside (spares.of_includes
        (givesRest.grows.includes middleValid.wellFormed))).aside.trans (asideRest spares)

theorem lowerAssignment_bypasses {target value : ExprId}
    (bypassesTarget : BypassesExpr program slot lower target)
    (bypassesValue : BypassesExpr program slot lower value)
    (targetNames : program.ast.Names (Apart program before slot) target)
    (valueNames : program.ast.Names (Apart program before slot) value) :
    Builds (lowerAssignment program.ast lower target value) before
      (fun value after => after.Spares slot → Bypasses slot before value after) fun _ => True := by
  rw [lowerAssignment, builds_bind]
  refine (bypassesTarget.builds valid unbound targetNames).mono ?_ fun _ => id
  rintro pointer middle ⟨givesTarget, asideTarget⟩
  have middleValid := valid.of_grows givesTarget.grows
  rw [builds_bind]
  refine (bypassesValue.behind middleValid unbound valueNames givesTarget.locals_eq).mono ?_
    fun _ => id
  rintro stored after ⟨givesValue, asideValue⟩
  have afterValid := middleValid.of_grows givesValue.grows
  rw [builds_bind, builds_perform, builds_pure]
  intro spares
  have stores : after.Grows (after.perform
      (.store (valueType program.ast value) stored pointer)) := by
    refine Builder.Grows.refl.performed ?_
    rw [Ir.Operation.operands, List.forall_mem_cons, List.forall_mem_singleton]
    exact ⟨givesValue.below, givesTarget.below_later givesValue⟩
  have afterSpares := spares.of_includes (stores.includes afterValid.wellFormed)
  have bypasses := asideTarget
    (afterSpares.of_includes (givesValue.grows.includes middleValid.wellFormed))
  exact ⟨(bypasses.aside.trans (asideValue afterSpares).aside).perform (fun same => by cases same),
    bypasses.value_ne⟩

theorem lowerCall_bypasses {callee : ExprId} {arguments : List ExprId} {result : Ir.ValueType}
    (bypassesCallee : BypassesExpr program slot lower callee)
    (bypasses : ∀ argument ∈ arguments, BypassesExpr program slot lower argument)
    (calleeNames : program.ast.Names (Apart program before slot) callee)
    (names : ∀ argument ∈ arguments, program.ast.Names (Apart program before slot) argument) :
    Builds (do
      let callee ← lower callee
      let arguments ← lowerArguments program.ast lower arguments
      emit (.call result callee arguments)) before
      (fun value after => after.Spares slot → Bypasses slot before value after) fun _ => True := by
  rw [builds_bind]
  refine (bypassesCallee.builds valid unbound calleeNames).mono ?_ fun _ => id
  rintro function middle ⟨gives, aside⟩
  have middleValid := valid.of_grows gives.grows
  have middleUnbound : ∀ declaration ∈ program.declarations, middle.local? declaration = none := by
    intro declaration atTop
    rw [Builder.local?, gives.locals_eq]
    exact unbound declaration atTop
  rw [← apart_of_locals_eq gives.locals_eq] at names
  rw [builds_bind]
  refine ((lowerArguments_builds middleValid (fun other member => (bypasses other member).lowers)
    fun other member => (names other member).mono fun _ apart => apart.available).and
    (lowerArguments_bypasses middleValid middleUnbound bypasses names)).mono ?_ fun _ _ => trivial
  rintro lowered after ⟨givesRest, asideRest⟩
  refine emit_bypasses (middleValid.of_grows givesRest.grows) ?_ fun spares => ⟨?_, fun same => by cases same⟩
  · rw [Ir.Operation.operands, List.forall_mem_cons]
    exact ⟨gives.below.mono givesRest.grows.temporaries_le, givesRest.below⟩
  · exact (aside (spares.of_includes (givesRest.grows.includes middleValid.wellFormed))).aside.trans
      (asideRest spares)

end Forms

/-- One expression leaves room alone if its operands do, and if it is a name then the initializer of the
constant it leads to does. -/
theorem lowerKind_bypasses (coherent : program.Coherent) {kind : ExprKind} {type : Ty}
    (location : Location) (valid : before.Valid)
    (unbound : ∀ declaration ∈ program.declarations, before.local? declaration = none)
    (typed : program.ast.HasType kind type)
    (apart : ∀ declaration, kind = .name declaration → Apart program before slot declaration)
    (names : ∀ operand ∈ kind.operands, program.ast.Names (Apart program before slot) operand)
    (bypasses : ∀ operand ∈ kind.operands, BypassesExpr program slot lower operand)
    (bypassesConstant : ∀ declaration initializer, kind = .name declaration →
      (program.ast.kindOf declaration).isConstant = true →
      (program.ast.kindOf declaration).initializer? = some initializer →
      BypassesExpr program slot lower initializer) :
    Builds (lowerKind program lower ⟨kind, type, location⟩) before
      (fun value after => after.Spares slot → Bypasses slot before value after) fun _ => True := by
  cases kind with
  | bool | int | float | char =>
      rw [lowerKind, builds_pure]
      exact fun _ => ⟨.refl, fun same => by cases same⟩
  | name declaration =>
      exact lowerName_bypasses valid unbound coherent (apart declaration rfl)
        (fun initializer => bypassesConstant declaration initializer rfl)
  | unary operator operand =>
      rw [ExprKind.operands, List.forall_mem_singleton] at names bypasses
      rw [lowerKind, builds_bind]
      refine (bypasses.builds valid unbound names).mono ?_ fun _ => id
      rintro value middle ⟨gives, aside⟩
      refine emit_bypasses (valid.of_grows gives.grows) ?_ fun spares => ⟨(aside spares).aside, ?_⟩
      · cases operator <;>
          simpa [UnaryOperator.operation, Ir.Operation.operands, Ir.Value.Below] using gives.below
      · rw [UnaryOperator.read?_operation]
        exact fun same => by cases same
  | binary operator left right =>
      rw [ExprKind.operands, List.forall_mem_cons, List.forall_mem_singleton] at names bypasses
      by_cases isLogical : operator.isLogical = true
      · cases operator <;> cases isLogical
        · exact lowerLogical_bypasses valid unbound false bypasses.1 bypasses.2 names.1 names.2
        · exact lowerLogical_bypasses valid unbound true bypasses.1 bypasses.2 names.1 names.2
      · have stands := BinaryOperator.operation?_of_typed typed (by simpa using isLogical)
        have builds :=
          lowerBinary_bypasses valid unbound bypasses.1 bypasses.2 names.1 names.2 stands
        cases operator <;> first | exact builds | exact absurd rfl isLogical
  | call callee arguments =>
      rw [ExprKind.operands, List.forall_mem_cons] at names bypasses
      exact lowerCall_bypasses valid unbound bypasses.1 bypasses.2 names.1 names.2
  | index => cases typed
  | cast operand =>
      rw [ExprKind.operands, List.forall_mem_singleton] at names bypasses
      exact bypasses.bypasses before valid unbound names
  | assign target value =>
      rw [ExprKind.operands, List.forall_mem_cons, List.forall_mem_singleton] at names bypasses
      exact lowerAssignment_bypasses valid unbound bypasses.1 bypasses.2 names.1 names.2
  | conditional guard whenTrue whenFalse =>
      rw [ExprKind.operands, List.forall_mem_cons, List.forall_mem_cons,
        List.forall_mem_singleton] at names bypasses
      exact lowerConditional_bypasses valid unbound _ bypasses.1 bypasses.2.1 bypasses.2.2 names.1
        names.2.1 names.2.2
  | convert conversion operand =>
      rw [ExprKind.operands, List.forall_mem_singleton] at names bypasses
      rw [lowerKind, builds_bind]
      refine (bypasses.builds valid unbound names).mono ?_ fun _ => id
      rintro value middle ⟨gives, aside⟩
      refine emit_bypasses (valid.of_grows gives.grows) ?_ fun spares => ⟨(aside spares).aside, ?_⟩
      · cases conversion <;>
          simpa [Conversion.operation, Ir.Operation.operands, Ir.Value.Below] using gives.below
      · exact fun reads => (aside spares).value_ne (Conversion.eq_of_read?_operation reads)

/-- Expressions leave room alone that their names are apart from. -/
theorem lowerExpr_bypasses (coherent : program.Coherent) (slot : Nat) {id : ExprId}
    (bound : id.index < program.ast.exprs.size) :
    BypassesExpr program slot (lowerExpr program) id := by
  refine lowerExprWithin_induction (BypassesExpr program slot) coherent.sound ?_
    (Nat.lt_succ_of_lt bound) bound
  intro fuel id enough bound lowers lowersConstant
  refine ⟨lowerExprWithin_builds coherent enough, fun before valid unbound names => ?_⟩
  exact lowerKind_bypasses coherent (program.ast.expr id).location valid unbound
    (coherent.sound.expr_typed id bound)
    (fun declaration named => names.visible_of_name named)
    (fun operand member => names.operand member) lowers lowersConstant

end Lowering

end Minilang
