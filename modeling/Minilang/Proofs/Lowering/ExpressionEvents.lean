import Minilang.Proofs.Analysis.Inlining
import Minilang.Proofs.Lowering.Events
import Minilang.Proofs.Lowering.Expressions

/-!
# Events of expressions

Lowering an expression takes exactly the effects of the expression, in the order of its operands, and makes
neither room nor loops. The instructions work on constants, on results of each other and on the values of
the names in the expression.
-/

namespace Minilang

/-- Whether an event may take place within an expression whose instructions work on certain values. -/
def Event.IsWithin (serves : Ir.Value → Prop) : Event → Prop
  | block role => role.isLoop = false
  | instruction operation =>
    (∀ type, operation ≠ .alloca type) ∧ ∀ value ∈ operation.operands, serves value
  | room _ => False
  | jump role _ => role.isLoop = false
  | fork condition => serves condition
  | leave _ => False

theorem Event.IsWithin.mono {serves larger : Ir.Value → Prop} {event : Event}
    (within : event.IsWithin serves) (weaker : ∀ value, serves value → larger value) :
    event.IsWithin larger := by
  cases event with
  | block | jump | room | leave => exact within
  | instruction operation =>
      exact ⟨within.1, fun value operand => weaker value (within.2 value operand)⟩
  | fork condition => exact weaker condition within

/-- The operation that an operator serves for only computes a value. -/
theorem BinaryOperator.effect?_of_operation? {operator : BinaryOperator} {type : Ir.ValueType}
    {left right : Ir.Value} {operation : Ir.Operation}
    (serves : operator.operation? type left right = some operation) :
    operation.effect? = none ∧ ∀ room, operation ≠ .alloca room := by
  rw [BinaryOperator.operation?] at serves
  split at serves
  · cases serves
    exact ⟨rfl, by simp⟩
  · obtain ⟨instruction, -, rfl⟩ := Option.map_eq_some_iff.1 serves
    exact ⟨rfl, by simp⟩

/-- The operation that an operator on one value serves for works on that value and on constants. -/
theorem UnaryOperator.operands_operation (operator : UnaryOperator) (value : Ir.Value) :
    ∀ other ∈ (operator.operation value).operands,
      other = value ∨ ∃ constant, other = .const constant := by
  cases operator <;> simp [operation, Ir.Operation.operands]

/-- The operation that a conversion serves for works on the converted value and on constants. -/
theorem Conversion.operands_operation (conversion : Conversion) (source target : Ir.ValueType)
    (value : Ir.Value) :
    ∀ other ∈ (conversion.operation source target value).operands,
      other = value ∨ ∃ constant, other = .const constant := by
  cases conversion <;> simp [operation, Ir.Operation.operands]

/-- Behind a terminator, a new block may be needed for what comes next. -/
theorem Event.isWithin_unreachable (serves : Ir.Value → Prop) :
    (Event.block .unreachable).IsWithin serves := rfl

/-- The value of a name: that in the function, else that in the module. -/
def Builder.valueOf? (builder : Builder) (program : Program) (declaration : DeclId) :
    Option Ir.Value :=
  (builder.local? declaration).or (program.symbol? declaration)

namespace Lowering

open Builder (Valid Records)

/-- The values that the instructions for an expression work on. -/
inductive Serves (program : Program) (before : Builder) (id : ExprId) : Ir.Value → Prop
  | const (constant : Ir.Constant) : Serves program before id (.const constant)
  /-- The result of an instruction for the expression. -/
  | new {temporary : Nat} :
      before.temporaries ≤ temporary → Serves program before id (.temp temporary)
  /-- The value of a name in the expression. -/
  | named {inner : ExprId} {declaration : DeclId} {value : Ir.Value} :
      inner ∈ program.unfolded id → (program.ast.expr inner).kind = .name declaration →
      before.valueOf? program declaration = some value → Serves program before id value

/-- An expression has been lowered: its effects have been added, the value that comes out is one of those
that its instructions work on, and no block is open only if none was and there was nothing to do. -/
structure Evaluates (program : Program) (id : ExprId) (before : Builder) (value : Ir.Value)
    (after : Builder) : Prop where
  /-- The effects have been added. -/
  records : Records (Event.IsWithin (Serves program before id)) (program.ast.effects id) [] [] []
    before after
  /-- The value is a constant, a new one or that of a name. -/
  serves : Serves program before id value
  /-- A block is open if one was or if there was something to do. -/
  current_eq : after.current.isSome = (before.current.isSome || !program.isSilent id)

/-- A function that lowers an expression, wherever its names are available and nothing at the top has
another value, with its effects and no others. -/
def EvaluatesExpr (program : Program) (lower : ExprId → Build Ir.Value) (id : ExprId) : Prop :=
  ∀ before : Builder, before.Valid → program.ast.Names (Available program before) id →
    (∀ declaration ∈ program.declarations, before.local? declaration = none) →
    Builds (lower id) before
      (fun value after => GivesValue before value after ∧ Evaluates program id before value after)
      fun _ => False

variable {program : Program} {lower : ExprId → Build Ir.Value} {before middle after : Builder}
  {id part : ExprId}

theorem Serves.of_part {value : Ir.Value} (serves : Serves program middle part value)
    (sound : program.ast.Sound) (bound : id.index < program.ast.exprs.size)
    (member : part ∈ program.parts id) (locals_eq : middle.locals = before.locals)
    (temporaries_le : before.temporaries ≤ middle.temporaries) :
    Serves program before id value := by
  cases serves with
  | const constant => exact .const constant
  | new later => exact .new (temporaries_le.trans later)
  | named inside named found =>
      rw [Builder.valueOf?, Builder.local?, locals_eq] at found
      exact .named (Program.mem_unfolded_of_part sound bound member inside) named found

/-- What it takes to lower an expression from its parts. -/
structure Lowers (program : Program) (lower : ExprId → Build Ir.Value) (id : ExprId)
    (before : Builder) : Prop where
  /-- The program is sound. -/
  sound : program.ast.Sound
  /-- The expression is there. -/
  bound : id.index < program.ast.exprs.size
  /-- Building may go on. -/
  valid : before.Valid
  /-- Nothing at the top has another value in the function. -/
  clear : ∀ declaration ∈ program.declarations, before.local? declaration = none
  /-- The names in the parts are available. -/
  names : ∀ part ∈ program.parts id, program.ast.Names (Available program before) part
  /-- The parts are lowered with their effects and no others. -/
  evaluates : ∀ part ∈ program.parts id, EvaluatesExpr program lower part

/-- What has been lowered for an expression when one of its parts is lowered. -/
structure Reached (program : Program) (id : ExprId) (effects : List Effect) (before after : Builder) :
    Prop where
  /-- The function has grown. -/
  grows : before.Grows after
  /-- No name has got a value. -/
  locals_eq : after.locals = before.locals
  /-- Some effects have been added. -/
  records : Records (Event.IsWithin (Serves program before id)) effects [] [] [] before after

section Steps

variable {effects : List Effect} (lowers : Lowers program lower id before)

theorem Reached.refl (program : Program) (id : ExprId) (before : Builder) :
    Reached program id [] before before :=
  ⟨.refl, rfl, .refl _ _⟩

theorem Reached.resume (reached : Reached program id effects before after) :
    Reached program id effects before after.resume :=
  ⟨reached.grows.resume, by simp [reached.locals_eq],
    reached.records.andThen (Builder.records_resume (Event.isWithin_unreachable _))⟩

/-- The open block is left for one outside of every loop. -/
theorem Reached.leave (reached : Reached program id effects before after) (valid : after.Valid)
    {target next : Nat} (awaits : after.Awaits next) (new : before.blocks.size ≤ next)
    {place : BlockRole × Nat} (found : after.places[target]? = some place)
    (plain : place.1.isLoop = false) :
    Reached program id effects before (after.leave target next) := by
  have target_lt : target < after.blocks.size := by
    rw [← Builder.places_length]
    exact (List.getElem?_eq_some_iff.1 found).1
  exact ⟨reached.grows.leave target_lt awaits new, by simp [reached.locals_eq],
    reached.records.andThen (Builder.records_leavePlain valid found plain plain next)⟩

include lowers

/-- The next part is lowered. -/
theorem Lowers.lowerPart (reached : Reached program id effects before middle)
    (member : part ∈ program.parts id) :
    Builds (lower part) middle (fun value after =>
      Reached program id (effects ++ program.ast.effects part) before after ∧ after.Valid ∧
        GivesValue middle value after ∧ Serves program before id value ∧
        ∀ (index : Nat) (place : BlockRole × Nat), middle.places[index]? = some place →
          after.places[index]? = some place) fun _ => False := by
  have valid := lowers.valid.of_grows reached.grows
  have names := available_of_locals_eq reached.locals_eq ▸ lowers.names part member
  refine (lowers.evaluates part member middle valid names ?_).mono ?_ fun _ => False.elim
  · intro declaration atTop
    rw [Builder.local?, reached.locals_eq]
    exact lowers.clear declaration atTop
  rintro value after ⟨gives, evaluated⟩
  have weaker (value : Ir.Value) (serves : Serves program middle part value) :
      Serves program before id value :=
    serves.of_part lowers.sound lowers.bound member reached.locals_eq reached.grows.temporaries_le
  exact ⟨⟨reached.grows.trans gives.grows, gives.locals_eq.trans reached.locals_eq,
    reached.records.trans (evaluated.records.mono fun _ within => within.mono weaker)⟩,
    valid.of_grows gives.grows, gives, weaker value evaluated.serves,
    fun _ _ => evaluated.records.place_eq⟩

/-- The last step is an instruction whose result is the value of the expression. -/
theorem Lowers.emit (reached : Reached program id effects before after) {operation : Ir.Operation}
    (computed : (program.ast.expr id).kind.isSilent = false)
    (effects_eq : program.ast.effects id = effects ++ operation.effect?.toList)
    (notRoom : ∀ type, operation ≠ .alloca type)
    (operands : ∀ value ∈ operation.operands, Serves program before id value) :
    Builds (Lowering.emit operation) after (Evaluates program id before) fun _ => False := by
  rw [builds_emit]
  refine ⟨?_, .new reached.grows.temporaries_le, ?_⟩
  · rw [effects_eq]
    exact reached.records.trans (Builder.records_emit (lowers.valid.of_grows reached.grows)
      (Event.isWithin_unreachable _) ⟨notRoom, operands⟩)
  · rw [Builder.emit_current, Program.isSilent_eq lowers.sound lowers.bound, computed]
    simp

/-- An expression whose value is that of its only part is lowered like the part. -/
theorem Lowers.passOn (parts_eq : program.parts id = [part])
    (silent : (program.ast.expr id).kind.isSilent = true)
    (effects_eq : program.ast.effects id = program.ast.effects part) :
    Builds (lower part) before (Evaluates program id before) fun _ => False := by
  have member : part ∈ program.parts id := by simp [parts_eq]
  refine (lowers.evaluates part member before lowers.valid (lowers.names part member)
    lowers.clear).mono ?_ fun _ => False.elim
  rintro value after ⟨-, evaluated⟩
  have weaker (value : Ir.Value) (serves : Serves program before part value) :
      Serves program before id value :=
    serves.of_part lowers.sound lowers.bound member rfl le_rfl
  refine ⟨?_, weaker value evaluated.serves, ?_⟩
  · rw [effects_eq]
    exact evaluated.records.mono fun _ within => within.mono weaker
  · rw [evaluated.current_eq, Program.isSilent_eq lowers.sound lowers.bound, parts_eq, silent]
    simp

/-- A value that is there already needs nothing. -/
theorem Lowers.atOnce (parts_eq : program.parts id = [])
    (silent : (program.ast.expr id).kind.isSilent = true) (effects_eq : program.ast.effects id = [])
    {value : Ir.Value} (serves : Serves program before id value) :
    Evaluates program id before value before := by
  refine ⟨effects_eq ▸ .refl _ _, serves, ?_⟩
  rw [Program.isSilent_eq lowers.sound lowers.bound, parts_eq, silent]
  simp

/-- Arguments are lowered one after another. -/
theorem Lowers.lowerArguments {arguments : List ExprId}
    (reached : Reached program id effects before middle)
    (members : ∀ argument ∈ arguments, argument ∈ program.parts id) :
    Builds (Lowering.lowerArguments program.ast lower arguments) middle (fun values after =>
      Reached program id (effects ++ arguments.flatMap program.ast.effects) before after ∧
        ∀ value ∈ values.map Prod.snd, Serves program before id value) fun _ => False := by
  induction arguments generalizing middle effects with
  | nil =>
      rw [Lowering.lowerArguments, builds_pure, List.flatMap_nil, List.append_nil]
      exact ⟨reached, by simp⟩
  | cons argument arguments induction =>
      rw [List.forall_mem_cons] at members
      rw [Lowering.lowerArguments, builds_bind]
      refine (lowers.lowerPart reached members.1).mono ?_ fun _ => False.elim
      rintro value middle ⟨reached, -, -, serves, -⟩
      rw [builds_bind]
      refine (induction reached members.2).mono ?_ fun _ => False.elim
      rintro values after ⟨reached, all_stand⟩
      rw [builds_pure, List.flatMap_cons, ← List.append_assoc]
      refine ⟨reached, ?_⟩
      rw [List.map_cons, List.forall_mem_cons]
      exact ⟨serves, all_stand⟩

end Steps

section Forms

variable (lowers : Lowers program lower id before)
  (computed : (program.ast.expr id).kind.isSilent = false)

include lowers computed

/-- Both operands of a logical operator are lowered, the right one in a block of its own. -/
theorem lowerLogical_evaluates (isOr : Bool) {left right : ExprId}
    (parts_eq : program.parts id = [left, right])
    (effects_eq : program.ast.effects id = program.ast.effects left ++ program.ast.effects right) :
    Builds (lowerLogical lower isOr left right) before (Evaluates program id before)
      fun _ => False := by
  rw [builds_lowerLogical]
  refine (lowers.lowerPart (.refl program id before) (by simp [parts_eq])).mono ?_
    fun _ => False.elim
  rintro leftValue split ⟨reached, valid, gives, serves, -⟩
  have awaits := Builder.Awaits.splitLogical valid isOr leftValue
  have started : Reached program id (program.ast.effects left) before
      (split.splitLogical isOr leftValue) :=
    ⟨reached.grows.splitLogical valid isOr gives.below, by simp [reached.locals_eq],
      reached.records.andThen (Builder.records_splitLogical valid (Event.isWithin_unreachable _) isOr
        (by cases isOr <;> exact rfl) (by cases isOr <;> exact rfl) serves)⟩
  refine (lowers.lowerPart started (by simp [parts_eq])).mono ?_ fun _ => False.elim
  rintro rightValue joined ⟨turned, turned_valid, givesRight, standsRight, kept⟩
  have resumed : Reached program id (program.ast.effects left ++ program.ast.effects right) before
      joined.resume := turned.resume
  replace awaits := (awaits.of_grows givesRight.grows).resume
  have place := Builder.place_resume (kept _ _ (Builder.place_splitLogical isOr leftValue))
  have left := resumed.leave turned_valid.resume awaits
    (Nat.le_succ_of_le reached.grows.resume.size_le) place (by cases isOr <;> rfl)
  refine lowers.emit left computed (by simpa [Ir.Operation.effect?] using effects_eq) (by simp) ?_
  simp only [Ir.Operation.operands, List.map_cons, List.map_nil, List.forall_mem_cons]
  exact ⟨.const _, standsRight, by simp⟩

/-- All three parts of a choice are lowered, two of them in blocks of their own. -/
theorem lowerConditional_evaluates (type : Ir.ValueType) {guard whenTrue whenFalse : ExprId}
    (parts_eq : program.parts id = [guard, whenTrue, whenFalse])
    (effects_eq : program.ast.effects id = program.ast.effects guard ++
      program.ast.effects whenTrue ++ program.ast.effects whenFalse) :
    Builds (lowerConditional lower type guard whenTrue whenFalse) before
      (Evaluates program id before) fun _ => False := by
  rw [builds_lowerConditional]
  refine (lowers.lowerPart (.refl program id before) (by simp [parts_eq])).mono ?_
    fun _ => False.elim
  rintro condition split ⟨reached, valid, gives, serves, -⟩
  obtain ⟨awaitsFalse, awaitsEnd⟩ := Builder.Awaits.splitThree valid .condTrue .condFalse
    .condEnd condition
  have started : Reached program id (program.ast.effects guard) before
      (split.splitThree .condTrue .condFalse .condEnd condition) :=
    ⟨reached.grows.splitThree valid _ _ _ gives.below, by simp [reached.locals_eq],
      reached.records.andThen (Builder.records_splitThree valid (Event.isWithin_unreachable _)
        rfl rfl rfl rfl rfl rfl serves)⟩
  refine (lowers.lowerPart started (by simp [parts_eq])).mono ?_ fun _ => False.elim
  rintro trueValue turned ⟨reachedTrue, turned_valid, givesTrue, standsTrue, keptTrue⟩
  replace awaitsFalse := (awaitsFalse.of_grows givesTrue.grows).resume
  replace awaitsEnd := (awaitsEnd.of_grows givesTrue.grows).resume
  have place := Builder.place_resume (keptTrue _ _
    (Builder.place_splitThree .condTrue .condFalse .condEnd condition))
  have left := reachedTrue.resume.leave turned_valid.resume awaitsFalse
    (Nat.le_succ_of_le reached.grows.size_le) place rfl
  refine (lowers.lowerPart left (by simp [parts_eq])).mono ?_ fun _ => False.elim
  rintro falseValue joined ⟨reachedFalse, joined_valid, givesFalse, standsFalse, keptFalse⟩
  replace awaitsEnd := ((awaitsEnd.leave _ (Nat.ne_of_lt (Nat.lt_succ_self _))).of_grows
    givesFalse.grows).resume
  replace place := Builder.place_resume (keptFalse _ _ (Builder.place_leave place _ _))
  replace left := reachedFalse.resume.leave joined_valid.resume awaitsEnd
    (Nat.le_add_right_of_le reached.grows.size_le) place rfl
  refine lowers.emit left computed (by simpa [Ir.Operation.effect?] using effects_eq) (by simp) ?_
  simp only [Ir.Operation.operands, List.map_cons, List.map_nil, List.forall_mem_cons]
  exact ⟨standsTrue, standsFalse, by simp⟩

/-- Both operands of an operator are lowered, and the operation on their values has no effect. -/
theorem lowerBinary_evaluates {operator : BinaryOperator} {left right : ExprId}
    (parts_eq : program.parts id = [left, right])
    (effects_eq : program.ast.effects id = program.ast.effects left ++ program.ast.effects right)
    (serves : ∀ leftValue rightValue, ∃ operation,
      operator.operation? (valueType program.ast left) leftValue rightValue = some operation ∧
        operation.operands = [leftValue, rightValue] ∧ operation.incoming = []) :
    Builds (lowerBinary program.ast lower operator left right) before (Evaluates program id before)
      fun _ => False := by
  rw [lowerBinary, builds_bind]
  refine (lowers.lowerPart (.refl program id before) (by simp [parts_eq])).mono ?_
    fun _ => False.elim
  rintro leftValue middle ⟨reached, -, -, standsLeft, -⟩
  rw [builds_bind]
  refine (lowers.lowerPart reached (by simp [parts_eq])).mono ?_ fun _ => False.elim
  rintro rightValue after ⟨reachedRight, -, -, standsRight, -⟩
  obtain ⟨operation, operation_eq, operands_eq, -⟩ := serves leftValue rightValue
  obtain ⟨effect_eq, notRoom⟩ := operator.effect?_of_operation? operation_eq
  rw [operation_eq]
  refine lowers.emit reachedRight computed (by simpa [effect_eq] using effects_eq) notRoom ?_
  rw [operands_eq, List.forall_mem_cons, List.forall_mem_singleton]
  exact ⟨standsLeft, standsRight⟩

/-- An operand is lowered, and one operation is applied to its value. -/
theorem lowerOperand_evaluates {operand : ExprId} {operation : Ir.Value → Ir.Operation}
    (parts_eq : program.parts id = [operand])
    (effects_eq : ∀ value, program.ast.effects id =
      program.ast.effects operand ++ (operation value).effect?.toList)
    (notRoom : ∀ value type, operation value ≠ .alloca type)
    (operands : ∀ value, ∀ other ∈ (operation value).operands,
      other = value ∨ ∃ constant, other = .const constant) :
    Builds (do Lowering.emit (operation (← lower operand))) before (Evaluates program id before)
      fun _ => False := by
  rw [builds_bind]
  refine (lowers.lowerPart (.refl program id before) (by simp [parts_eq])).mono ?_
    fun _ => False.elim
  rintro value middle ⟨reached, -, -, serves, -⟩
  refine lowers.emit reached computed (effects_eq value) (notRoom value) fun other member => ?_
  obtain rfl | ⟨constant, rfl⟩ := operands value other member
  · exact serves
  · exact .const constant

/-- A callee and its arguments are lowered, and the call is an effect of its own. -/
theorem lowerCall_evaluates {callee : ExprId} {arguments : List ExprId} (type : Ir.ValueType)
    (parts_eq : program.parts id = callee :: arguments)
    (effects_eq : program.ast.effects id = program.ast.effects callee ++
      arguments.flatMap program.ast.effects ++ [.call]) :
    Builds (do
      let callee ← lower callee
      let arguments ← lowerArguments program.ast lower arguments
      Lowering.emit (.call type callee arguments)) before (Evaluates program id before)
      fun _ => False := by
  rw [builds_bind]
  refine (lowers.lowerPart (.refl program id before) (by simp [parts_eq])).mono ?_
    fun _ => False.elim
  rintro function middle ⟨reached, -, -, serves, -⟩
  rw [builds_bind]
  refine (lowers.lowerArguments reached fun argument member => ?_).mono ?_ fun _ => False.elim
  · rw [parts_eq]
    exact List.mem_cons_of_mem _ member
  rintro values after ⟨reached, all_stand⟩
  refine lowers.emit reached computed effects_eq (by simp) ?_
  rw [Ir.Operation.operands, List.forall_mem_cons]
  exact ⟨serves, all_stand⟩

/-- The target and the value of an assignment are lowered, and storing the value is an effect. -/
theorem lowerAssignment_evaluates {target value : ExprId}
    (parts_eq : program.parts id = [target, value])
    (effects_eq : program.ast.effects id =
      program.ast.effects target ++ program.ast.effects value ++ [.store]) :
    Builds (lowerAssignment program.ast lower target value) before (Evaluates program id before)
      fun _ => False := by
  rw [lowerAssignment, builds_bind]
  refine (lowers.lowerPart (.refl program id before) (by simp [parts_eq])).mono ?_
    fun _ => False.elim
  rintro pointer middle ⟨reached, -, -, standsPointer, -⟩
  rw [builds_bind]
  refine (lowers.lowerPart reached (by simp [parts_eq])).mono ?_ fun _ => False.elim
  rintro stored after ⟨reached, valid, -, standsStored, -⟩
  rw [builds_bind, builds_perform, builds_pure]
  refine ⟨?_, standsPointer, ?_⟩
  · rw [effects_eq]
    refine reached.records.trans (Builder.records_perform valid (Event.isWithin_unreachable _)
      ⟨by simp, ?_⟩)
    rw [Ir.Operation.operands, List.forall_mem_cons, List.forall_mem_singleton]
    exact ⟨standsStored, standsPointer⟩
  · rw [Builder.perform_current, Program.isSilent_eq lowers.sound lowers.bound, computed]
    simp

end Forms

/-- A name has no effect, not even if it leads to a constant at the top. -/
theorem lowerName_evaluates (coherent : program.Coherent) (lowers : Lowers program lower id before)
    {declaration : DeclId} (named : (program.ast.expr id).kind = .name declaration)
    (available : Available program before declaration) :
    Builds (lowerName program lower declaration) before (Evaluates program id before)
      fun _ => False := by
  have silent : (program.ast.expr id).kind.isSilent = true := by rw [named]; rfl
  have effects_eq : program.ast.effects id = [] := by
    rw [Ast.effects_eq lowers.sound lowers.bound, named]
    rfl
  have serves {value : Ir.Value} (found : before.valueOf? program declaration = some value) :
      Serves program before id value :=
    .named (Program.mem_unfolded_self lowers.sound lowers.bound) named found
  have serves_symbol {value : Ir.Value} (unbound : before.local? declaration = none)
      (found : program.symbol? declaration = some value) : Serves program before id value :=
    serves (by rw [Builder.valueOf?, unbound, Option.none_or, found])
  cases available.form coherent with
  | bound found =>
      have parts_eq := Program.parts_of_name named fun atTop => by
        rw [lowers.clear declaration atTop] at found
        cases found
      rw [builds_lowerName_of_local found]
      exact lowers.atOnce parts_eq silent effects_eq (serves (by rw [Builder.valueOf?, found]; rfl))
  | function unbound atTop kind_eq =>
      have parts_eq := Program.parts_of_name named fun _ => by rw [kind_eq]; rfl
      rw [builds_lowerName_of_function unbound atTop kind_eq]
      rw [Ast.kindOf] at kind_eq
      refine lowers.atOnce parts_eq silent effects_eq (serves_symbol unbound ?_)
      rw [Program.symbol?, if_pos atTop]
      dsimp only
      rw [kind_eq]
  | global unbound atTop kind_eq =>
      have parts_eq := Program.parts_of_name named fun _ => by rw [kind_eq]; rfl
      rw [builds_lowerName_of_variable unbound atTop kind_eq]
      rw [Ast.kindOf] at kind_eq
      refine lowers.atOnce parts_eq silent effects_eq (serves_symbol unbound ?_)
      rw [Program.symbol?, if_pos atTop]
      dsimp only
      rw [kind_eq]
  | constant unbound atTop constant =>
      have parts_eq := Program.parts_of_constant named atTop constant.isConstant constant.initialized
      rw [builds_lowerName_of_constant unbound atTop constant.kind_eq constant.different]
      refine lowers.passOn parts_eq silent ?_
      rw [effects_eq, constant.pure.effects_eq_nil lowers.sound]

/-- Every form of expression is lowered with its effects and no others. -/
theorem lowerKind_evaluates (coherent : program.Coherent) (lowers : Lowers program lower id before)
    (available : ∀ declaration, (program.ast.expr id).kind = .name declaration →
      Available program before declaration) :
    Builds (lowerKind program lower (program.ast.expr id)) before (Evaluates program id before)
      fun _ => False := by
  have typed := lowers.sound.expr_typed id lowers.bound
  have effects_eq := Ast.effects_eq lowers.sound lowers.bound
  have parts_eq := @Program.parts_eq_operands program id
  rw [lowerKind]
  cases kind_eq : (program.ast.expr id).kind with
  | bool | int | float | char =>
      rw [kind_eq] at effects_eq parts_eq
      rw [builds_pure]
      exact lowers.atOnce (parts_eq (by simp)) (by rw [kind_eq]; rfl) effects_eq (.const _)
  | name declaration => exact lowerName_evaluates coherent lowers kind_eq (available _ kind_eq)
  | unary operator operand =>
      rw [kind_eq] at effects_eq parts_eq
      refine lowerOperand_evaluates lowers (by rw [kind_eq]; rfl) (parts_eq (by simp)) ?_ ?_ ?_
      · intro value
        have effect_eq : (operator.operation value).effect? = none := by cases operator <;> rfl
        simpa [ExprKind.operands, ExprKind.effect?, effect_eq] using effects_eq
      · intro value
        cases operator <;> simp [UnaryOperator.operation]
      · exact operator.operands_operation
  | binary operator left right =>
      rw [kind_eq] at effects_eq parts_eq typed
      have computed : (program.ast.expr id).kind.isSilent = false := by rw [kind_eq]; rfl
      replace effects_eq : program.ast.effects id =
          program.ast.effects left ++ program.ast.effects right := by
        simpa [ExprKind.operands, ExprKind.effect?] using effects_eq
      by_cases isLogical : operator.isLogical = true
      · cases operator <;> cases isLogical
        · exact lowerLogical_evaluates lowers computed false (parts_eq (by simp)) effects_eq
        · exact lowerLogical_evaluates lowers computed true (parts_eq (by simp)) effects_eq
      · have serves := BinaryOperator.operation?_of_typed typed (by simpa using isLogical)
        have builds := lowerBinary_evaluates lowers computed (parts_eq (by simp)) effects_eq serves
        cases operator <;> first | exact builds | exact absurd rfl isLogical
  | call callee arguments =>
      rw [kind_eq] at effects_eq parts_eq
      exact lowerCall_evaluates lowers (by rw [kind_eq]; rfl) _ (parts_eq (by simp))
        (by simpa [ExprKind.operands, ExprKind.effect?] using effects_eq)
  | index =>
      rw [kind_eq] at typed
      cases typed
  | cast operand =>
      rw [kind_eq] at effects_eq parts_eq
      exact lowers.passOn (parts_eq (by simp)) (by rw [kind_eq]; rfl)
        (by simpa [ExprKind.operands, ExprKind.effect?] using effects_eq)
  | assign target value =>
      rw [kind_eq] at effects_eq parts_eq
      exact lowerAssignment_evaluates lowers (by rw [kind_eq]; rfl) (parts_eq (by simp))
        (by simpa [ExprKind.operands, ExprKind.effect?] using effects_eq)
  | conditional guard whenTrue whenFalse =>
      rw [kind_eq] at effects_eq parts_eq
      exact lowerConditional_evaluates lowers (by rw [kind_eq]; rfl) _ (parts_eq (by simp))
        (by simpa [ExprKind.operands, ExprKind.effect?] using effects_eq)
  | convert conversion operand =>
      rw [kind_eq] at effects_eq parts_eq
      refine lowerOperand_evaluates lowers (by rw [kind_eq]; rfl) (parts_eq (by simp)) ?_ ?_ ?_
      · intro value
        have effect_eq : (conversion.operation (valueType program.ast operand)
            (.ofTy (program.ast.expr id).type) value).effect? =
              (ExprKind.convert conversion operand).effect? := by
          cases conversion <;> rfl
        simpa [ExprKind.operands, effect_eq] using effects_eq
      · intro value
        cases conversion <;> simp [Conversion.operation]
      · exact conversion.operands_operation _ _

/-- Expressions are lowered with their effects and no others, if there is enough fuel. -/
theorem lowerExprWithin_evaluates (coherent : program.Coherent) {fuel : Nat} {id : ExprId}
    (enough : id.index < fuel) : EvaluatesExpr program (lowerExprWithin program fuel) id := by
  intro before valid names clear
  refine lowerExprWithin_induction (EvaluatesExpr program) coherent.sound ?_ enough names.index_lt
    before valid names clear
  intro fuel id enough bound operands constants before valid names clear
  have gives := lowerExprWithin_builds coherent enough before valid names
  have lowers : Lowers program (lowerExprWithin program fuel) id before := by
    refine ⟨coherent.sound, bound, valid, clear, fun part member => ?_, fun part member => ?_⟩
    all_goals obtain operand | ⟨declaration, atTop, named, isConstant, initialized⟩ :=
      Program.mem_parts member
    · exact names.operand operand
    · exact (coherent.initializer_pure atTop isConstant initialized).2.mono
        fun other member => .inr member
    · exact operands part operand
    · exact constants declaration part named isConstant initialized
  exact (gives.and (lowerKind_evaluates coherent lowers
    fun declaration named => names.visible_of_name named)).mono (fun _ _ both => both)
    fun _ => And.left

end Lowering

end Minilang
