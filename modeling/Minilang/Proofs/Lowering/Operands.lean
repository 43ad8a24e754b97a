import Minilang.Proofs.Ir.Dominance
import Minilang.Proofs.Lowering.Finishing
import Minilang.Proofs.Lowering.Programs

/-!
# Operands of lowered functions

The operands of instructions and terminators are results, arguments, addresses of what stands at the top,
and constants, and among these only floating-point numbers are taken from the program. So whatever is true
of all of these values is true of every operand in a lowered program.
-/

namespace Minilang

/-- Whether a property is true of all values that a program can be lowered to. -/
structure Program.Admits (program : Program) (admits : Ir.Value → Prop) : Prop where
  /-- It is true of results. -/
  temp (index : Nat) : admits (.temp index)
  /-- It is true of arguments. -/
  arg (index : Nat) : admits (.arg index)
  /-- It is true of constants that are no floating-point numbers. -/
  const (constant : Ir.Constant) :
    (∀ value, constant ≠ .float value) → admits (.const constant)
  /-- It is true of zeros. -/
  zero (type : Ir.ValueType) : admits (.const (.zero type))
  /-- It is true of the floating-point numbers in the program. -/
  float (id : ExprId) (value : Binary64) :
    (program.ast.expr id).kind = .float value → admits (.const (.float value))
  /-- It is true of the addresses of what stands at the top. -/
  symbol (id : DeclId) (value : Ir.Value) : program.symbol? id = some value → admits value

/-- Whether all operands in a block are admitted. -/
structure OpenBlock.Uses (admits : Ir.Value → Prop) (block : OpenBlock) : Prop where
  /-- The operands of instructions are. -/
  instruction : ∀ instruction ∈ block.instructions.toList,
    ∀ value ∈ instruction.operation.operands, admits value
  /-- The operands of the terminator are. -/
  terminator : ∀ terminator ∈ block.terminator, ∀ value ∈ terminator.operands, admits value

namespace Builder

/-- Whether all operands in a function and all values of its names are admitted. -/
structure Uses (admits : Ir.Value → Prop) (builder : Builder) : Prop where
  /-- The operands in blocks are. -/
  block (index : Nat) (block : OpenBlock) :
    builder.blocks[index]? = some block → block.Uses admits
  /-- The operands of the instructions that make room are. -/
  room : ∀ instruction ∈ builder.allocas.toList,
    ∀ value ∈ instruction.operation.operands, admits value
  /-- The values of names are. -/
  named (declaration : DeclId) (value : Ir.Value) :
    builder.local? declaration = some value → admits value

namespace Uses

variable {admits : Ir.Value → Prop} {builder : Builder} {operation : Ir.Operation}

theorem empty : Builder.empty.Uses admits := by
  constructor <;> simp [Builder.empty, local?]

/-- A block is changed into one whose operands are admitted. -/
theorem modify {before after : Builder} (uses : before.Uses admits) {index : Nat}
    (change : OpenBlock → OpenBlock) (blocks_eq : after.blocks = before.blocks.modify index change)
    (allocas_eq : after.allocas = before.allocas) (locals_eq : after.locals = before.locals)
    (changed : ∀ block : OpenBlock, block.Uses admits → (change block).Uses admits) :
    after.Uses admits := by
  refine ⟨fun other block found => ?_, by rw [allocas_eq]; exact uses.room, ?_⟩
  swap
  · intro declaration value found
    rw [local?, locals_eq] at found
    exact uses.named declaration value found
  rw [blocks_eq, Array.getElem?_modify] at found
  split at found
  · obtain ⟨earlier, earlier_found, rfl⟩ := Option.map_eq_some_iff.1 found
    exact changed earlier (uses.block other earlier earlier_found)
  · exact uses.block other block found

theorem addBlock (uses : builder.Uses admits) (role : BlockRole) :
    (builder.addBlock role).Uses admits := by
  refine ⟨fun index block found => ?_, uses.room, uses.named⟩
  rw [Builder.addBlock, Array.getElem?_push] at found
  split at found
  · cases found
    constructor <;> simp
  · exact uses.block index block found

theorem goTo (uses : builder.Uses admits) (block : Nat) : (builder.goTo block).Uses admits :=
  ⟨uses.block, uses.room, uses.named⟩

theorem resume (uses : builder.Uses admits) : builder.resume.Uses admits := by
  rw [Builder.resume]
  cases builder.current with
  | none => exact (uses.addBlock .unreachable).goTo _
  | some block => exact uses

theorem push (uses : builder.Uses admits) (block : Nat) (result : Option Nat)
    (operands : ∀ value ∈ operation.operands, admits value) :
    (builder.push block ⟨result, operation⟩).Uses admits := by
  refine uses.modify (fun open' =>
    { open' with instructions := open'.instructions.push ⟨result, operation⟩ }) rfl rfl rfl
    fun earlier own => ⟨?_, own.terminator⟩
  rw [Array.toList_push, List.forall_mem_append, List.forall_mem_singleton]
  exact ⟨own.instruction, operands⟩

theorem close (uses : builder.Uses admits) (block : Nat) {terminator : Ir.Terminator}
    (operands : ∀ value ∈ terminator.operands, admits value) :
    (builder.close block terminator).Uses admits := by
  refine uses.modify (fun open' => { open' with terminator := some terminator }) rfl rfl rfl
    fun earlier own => ⟨own.instruction, ?_⟩
  rintro _ ⟨rfl⟩
  exact operands

theorem emit (uses : builder.Uses admits) (operands : ∀ value ∈ operation.operands, admits value) :
    (builder.emit operation).Uses admits :=
  have counted : builder.resume.countTemporary.Uses admits :=
    ⟨uses.resume.block, uses.resume.room, uses.resume.named⟩
  counted.push _ _ operands

theorem addAlloca (uses : builder.Uses admits) (type : Ir.ValueType) :
    (builder.addAlloca type).Uses admits := by
  refine ⟨uses.block, ?_, uses.named⟩
  rw [Builder.addAlloca, Array.toList_push, List.forall_mem_append, List.forall_mem_singleton]
  exact ⟨uses.room, List.forall_mem_nil _⟩

theorem bind (uses : builder.Uses admits) (declaration : DeclId) {value : Ir.Value}
    (admitted : admits value) : (builder.bind declaration value).Uses admits := by
  refine ⟨uses.block, uses.room, fun other found found_eq => ?_⟩
  rw [local?, bind_locals, List.lookup_cons] at found_eq
  split at found_eq
  · cases found_eq
    exact admitted
  · exact uses.named other found found_eq

/-- The operands of a finished function are admitted. -/
theorem finish (uses : builder.Uses admits) {result : Ir.ValueType}
    (zero : admits (.const (.zero result))) :
    ∀ block ∈ builder.finish result,
      (∀ instruction ∈ block.instructions, ∀ value ∈ instruction.operation.operands, admits value) ∧
        ∀ value ∈ block.terminator.operands, admits value := by
  intro block member
  obtain ⟨index, found⟩ := List.mem_iff_getElem?.1 member
  rw [finish_getElem?] at found
  obtain ⟨own, own_found, rfl⟩ := Option.map_eq_some_iff.1 found
  have own_uses := uses.block index own own_found
  constructor
  · intro instruction instruction_mem
    rcases List.mem_append.1 instruction_mem with isLead | isOwn
    · rw [lead] at isLead
      split at isLead
      · exact uses.room instruction isLead
      · cases isLead
    · exact own_uses.instruction instruction isOwn
  · rw [finished]
    cases closed : own.terminator with
    | some terminator => exact own_uses.terminator terminator closed
    | none => exact List.forall_mem_singleton.2 zero

end Uses

end Builder

namespace Lowering

/-- Whether a step uses only admitted values, and what it gives is of a kind. -/
structure UsesOnly {α : Type} (admits : Ir.Value → Prop) (gives : α → Prop) (step : Build α) :
    Prop where
  /-- This holds behind the step, from wherever it is taken. -/
  builds (before : Builder) : before.Uses admits →
    Builds step before (fun result after => after.Uses admits ∧ gives result) fun _ => True

namespace UsesOnly

variable {α β : Type} {admits : Ir.Value → Prop} {gives : α → Prop} {given : β → Prop}

theorem pure {result : α} (gives_result : gives result) : UsesOnly admits gives (pure result) :=
  ⟨fun _ uses => ⟨uses, gives_result⟩⟩

theorem bind {first : Build β} {next : β → Build α} (first_uses : UsesOnly admits given first)
    (next_uses : ∀ result, given result → UsesOnly admits gives (next result)) :
    UsesOnly admits gives (first >>= next) := by
  refine ⟨fun before uses => ?_⟩
  rw [builds_bind]
  refine (first_uses.builds before uses).mono (fun result middle outcome => ?_) fun _ _ => trivial
  exact (next_uses result outcome.2).builds middle outcome.1

theorem throw (error : Diagnostic) : UsesOnly admits gives (throw error : Build α) :=
  ⟨fun _ _ => trivial⟩

theorem get : UsesOnly admits (Builder.Uses admits) get := ⟨fun _ uses => ⟨uses, uses⟩⟩

theorem newBlock (role : BlockRole) : UsesOnly admits (fun _ => True) (newBlock role) :=
  ⟨fun _ uses => ⟨uses.addBlock role, trivial⟩⟩

theorem switchTo (block : Nat) : UsesOnly admits (fun _ => True) (switchTo block) :=
  ⟨fun _ uses => ⟨uses.goTo block, trivial⟩⟩

theorem currentBlock : UsesOnly admits (fun _ => True) currentBlock := by
  refine ⟨fun before uses => ?_⟩
  rw [builds_currentBlock]
  exact ⟨uses.resume, trivial⟩

theorem terminate {terminator : Ir.Terminator}
    (operands : ∀ value ∈ terminator.operands, admits value) :
    UsesOnly admits (fun _ => True) (terminate terminator) := by
  refine ⟨fun before uses => ?_⟩
  rw [builds_terminate]
  exact ⟨uses.resume.close _ operands, trivial⟩

theorem branch (target : Nat) : UsesOnly admits (fun _ => True) (branch target) := by
  refine ⟨fun before uses => ?_⟩
  rw [builds_branch, Builder.branchTo]
  cases before.current with
  | none => exact ⟨uses, trivial⟩
  | some block => exact ⟨uses.close block (List.forall_mem_nil _), trivial⟩

theorem perform {operation : Ir.Operation} (operands : ∀ value ∈ operation.operands, admits value) :
    UsesOnly admits (fun _ => True) (perform operation) := by
  refine ⟨fun before uses => ?_⟩
  rw [builds_perform]
  exact ⟨uses.resume.push _ _ operands, trivial⟩

theorem bindLocal (declaration : DeclId) {value : Ir.Value} (admitted : admits value) :
    UsesOnly admits (fun _ => True) (bindLocal declaration value) :=
  ⟨fun _ uses => ⟨uses.bind declaration admitted, trivial⟩⟩

section Program

variable {program : Program} (admitted : program.Admits admits)

include admitted

theorem emit {operation : Ir.Operation} (operands : ∀ value ∈ operation.operands, admits value) :
    UsesOnly admits admits (emit operation) := by
  refine ⟨fun before uses => ?_⟩
  rw [builds_emit]
  exact ⟨uses.emit operands, admitted.temp _⟩

theorem allocate (type : Ir.ValueType) : UsesOnly admits admits (allocate type) :=
  ⟨fun _ uses => ⟨uses.addAlloca type, admitted.temp _⟩⟩

/-! ## Expressions -/

section Expressions

variable {lower : ExprId → Build Ir.Value} (parts : ∀ id, UsesOnly admits admits (lower id))

include parts

theorem lowerName (id : DeclId) : UsesOnly admits admits (lowerName program lower id) := by
  refine get.bind fun before uses => ?_
  split
  · next value found => exact pure (uses.named id value found)
  · next value _ found => exact pure (admitted.symbol id value found)
  · dsimp only
    split
    · unfold initializer
      split
      · exact (pure trivial).bind fun _ (_ : True) => parts _
      · exact .throw _
      · exact .throw _
    · exact .throw _

theorem lowerLogical (isOr : Bool) (left right : ExprId) :
    UsesOnly admits admits (lowerLogical lower isOr left right) := by
  refine (parts left).bind fun leftValue leftAdmitted => currentBlock.bind fun leftBlock _ =>
    (newBlock _).bind fun start _ => (newBlock _).bind fun last _ => ?_
  refine (terminate ?_).bind fun _ _ => (switchTo _).bind fun _ _ =>
    (parts right).bind fun rightValue rightAdmitted => currentBlock.bind fun rightEnd _ =>
      (branch _).bind fun _ _ => (switchTo _).bind fun _ _ => emit admitted ?_
  · cases isOr <;> simpa [Ir.Terminator.operands] using leftAdmitted
  · have known : admits (.const (.bool isOr)) := admitted.const _ (by simp)
    simp [Ir.Operation.operands, known, rightAdmitted]

theorem lowerConditional (type : Ir.ValueType) (guard whenTrue whenFalse : ExprId) :
    UsesOnly admits admits (lowerConditional lower type guard whenTrue whenFalse) := by
  refine (parts guard).bind fun condition conditionAdmitted => (newBlock _).bind fun _ _ =>
    (newBlock _).bind fun _ _ => (newBlock _).bind fun _ _ => (terminate ?_).bind fun _ _ => ?_
  · simpa [Ir.Terminator.operands] using conditionAdmitted
  refine (switchTo _).bind fun _ _ => (parts whenTrue).bind fun trueValue trueAdmitted =>
    currentBlock.bind fun _ _ => (branch _).bind fun _ _ => (switchTo _).bind fun _ _ =>
      (parts whenFalse).bind fun falseValue falseAdmitted => currentBlock.bind fun _ _ =>
        (branch _).bind fun _ _ => (switchTo _).bind fun _ _ => emit admitted ?_
  simp [Ir.Operation.operands, trueAdmitted, falseAdmitted]

theorem lowerBinary (operator : BinaryOperator) (left right : ExprId) :
    UsesOnly admits admits (lowerBinary program.ast lower operator left right) := by
  refine (parts left).bind fun leftValue leftAdmitted =>
    (parts right).bind fun rightValue rightAdmitted => ?_
  split
  · next operation stands =>
    refine emit admitted ?_
    rw [BinaryOperator.operation?] at stands
    split at stands
    · cases stands
      simp [Ir.Operation.operands, leftAdmitted, rightAdmitted]
    · obtain ⟨instruction, -, rfl⟩ := Option.map_eq_some_iff.1 stands
      simp [Ir.Operation.operands, leftAdmitted, rightAdmitted]
  · exact .throw _

omit admitted in
theorem lowerArguments (arguments : List ExprId) :
    UsesOnly admits (fun lowered => ∀ argument ∈ lowered, admits argument.2)
      (lowerArguments program.ast lower arguments) := by
  induction arguments with
  | nil => exact pure (List.forall_mem_nil _)
  | cons argument arguments induction =>
      refine (parts argument).bind fun value valueAdmitted => induction.bind fun rest restAdmitted => ?_
      exact pure (List.forall_mem_cons.2 ⟨valueAdmitted, restAdmitted⟩)

omit admitted in
theorem lowerAssignment (target value : ExprId) :
    UsesOnly admits admits (lowerAssignment program.ast lower target value) := by
  refine (parts target).bind fun pointer pointerAdmitted =>
    (parts value).bind fun stored storedAdmitted => (perform ?_).bind fun _ _ => pure pointerAdmitted
  simp [Ir.Operation.operands, pointerAdmitted, storedAdmitted]

theorem lowerKind (id : ExprId) :
    UsesOnly admits admits (lowerKind program lower (program.ast.expr id)) := by
  unfold Lowering.lowerKind
  split
  · exact pure (admitted.const _ (by simp))
  · exact pure (admitted.const _ (by simp))
  · next value kind_eq => exact pure (admitted.float id value kind_eq)
  · exact pure (admitted.const _ (by simp))
  · exact lowerName admitted parts _
  · next operator operand kind_eq =>
    refine (parts operand).bind fun value valueAdmitted => emit admitted ?_
    have known : admits (.const (.int (-1))) ∧ admits (.const (.bool true)) :=
      ⟨admitted.const _ (by simp), admitted.const _ (by simp)⟩
    cases operator <;> simp [UnaryOperator.operation, Ir.Operation.operands, valueAdmitted, known]
  · exact lowerLogical admitted parts ..
  · exact lowerLogical admitted parts ..
  · exact lowerBinary admitted parts ..
  · next callee arguments kind_eq =>
    refine (parts callee).bind fun called calledAdmitted =>
      (lowerArguments parts arguments).bind fun lowered loweredAdmitted => emit admitted ?_
    exact List.forall_mem_cons.2 ⟨calledAdmitted, List.forall_mem_map.2 loweredAdmitted⟩
  · exact .throw _
  · exact parts _
  · exact lowerAssignment parts ..
  · exact lowerConditional admitted parts ..
  · next conversion operand kind_eq =>
    refine (parts operand).bind fun value valueAdmitted => emit admitted ?_
    cases conversion <;>
      simp [Conversion.operation, Ir.Operation.operands, valueAdmitted, admitted.zero]

end Expressions

theorem lowerExpr (id : ExprId) : UsesOnly admits admits (lowerExpr program id) := by
  rw [Lowering.lowerExpr]
  generalize program.ast.exprs.size + 1 = fuel
  induction fuel generalizing id with
  | zero => exact .throw _
  | succ fuel induction => exact lowerKind admitted induction id

/-! ## Statements -/

theorem lowerLocal (id : DeclId) : UsesOnly admits (fun _ => True) (lowerLocal program id) := by
  have initializes (decl : Decl) : UsesOnly admits (fun _ => True) (initializer decl) := by
    unfold initializer
    split
    · exact pure trivial
    · exact .throw _
    · exact .throw _
  unfold Lowering.lowerLocal
  dsimp only
  split
  · refine (allocate admitted _).bind fun slot slotAdmitted => (bindLocal id slotAdmitted).bind fun _ _ =>
      (initializes _).bind fun _ _ => (lowerExpr admitted _).bind fun value valueAdmitted => perform ?_
    simp [Ir.Operation.operands, slotAdmitted, valueAdmitted]
  · exact (initializes _).bind fun _ _ => (lowerExpr admitted _).bind fun _ valueAdmitted =>
      bindLocal id valueAdmitted
  · exact .throw _

theorem lowerWhen (guard : ExprId) {body : Build Unit} (inner : UsesOnly admits (fun _ => True) body) :
    UsesOnly admits (fun _ => True) (lowerWhen program guard body) := by
  refine (lowerExpr admitted guard).bind fun condition conditionAdmitted => (newBlock _).bind fun _ _ =>
    (newBlock _).bind fun _ _ => (terminate ?_).bind fun _ _ => (switchTo _).bind fun _ _ =>
      inner.bind fun _ _ => (branch _).bind fun _ _ => switchTo _
  simpa [Ir.Terminator.operands] using conditionAdmitted

theorem lowerIf (guard : ExprId) {whenTrue whenFalse : Build Unit}
    (left : UsesOnly admits (fun _ => True) whenTrue)
    (right : UsesOnly admits (fun _ => True) whenFalse) :
    UsesOnly admits (fun _ => True) (lowerIf program guard whenTrue whenFalse) := by
  refine (lowerExpr admitted guard).bind fun condition conditionAdmitted => (newBlock _).bind fun _ _ =>
    (newBlock _).bind fun _ _ => (newBlock _).bind fun _ _ => (terminate ?_).bind fun _ _ =>
      (switchTo _).bind fun _ _ => left.bind fun _ _ => (branch _).bind fun _ _ =>
        (switchTo _).bind fun _ _ => right.bind fun _ _ => (branch _).bind fun _ _ => switchTo _
  simpa [Ir.Terminator.operands] using conditionAdmitted

theorem lowerWhile (guard : ExprId) {body : LoopTargets → Build Unit}
    (inner : ∀ targets, UsesOnly admits (fun _ => True) (body targets)) :
    UsesOnly admits (fun _ => True) (lowerWhile program guard body) := by
  refine (newBlock _).bind fun _ _ => (newBlock _).bind fun _ _ => (newBlock _).bind fun _ _ =>
    (terminate (List.forall_mem_nil _)).bind fun _ _ => (switchTo _).bind fun _ _ =>
      (lowerExpr admitted guard).bind fun condition conditionAdmitted => (terminate ?_).bind fun _ _ =>
        (switchTo _).bind fun _ _ => (inner _).bind fun _ _ => (branch _).bind fun _ _ => switchTo _
  simpa [Ir.Terminator.operands] using conditionAdmitted

omit admitted in
theorem lowerJump (loop : Option LoopTargets) (target : LoopTargets → Nat) (location : Location)
    (error : SemanticError) :
    UsesOnly admits (fun _ => True) (lowerJump loop target location error) := by
  cases loop with
  | none => exact .throw _
  | some targets => exact terminate (List.forall_mem_nil _)

theorem lowerStmt (result : Ir.ValueType) (id : StmtId) :
    UsesOnly admits (fun _ => True) (lowerStmt program result id) := by
  rw [Lowering.lowerStmt]
  generalize program.ast.stmts.size + 1 = fuel
  generalize (none : Option LoopTargets) = loop
  induction fuel generalizing loop id with
  | zero => exact .throw _
  | succ fuel induction =>
      rw [lowerStmtWithin]
      cases program.ast.stmt id with
      | block statements =>
          rw [lowerForm]
          induction statements with
          | nil => exact pure trivial
          | cons statement statements rest => exact (induction statement loop).bind fun _ _ => rest
      | whenTrue guard body => exact lowerWhen admitted guard (induction body loop)
      | ifElse guard left right =>
          exact lowerIf admitted guard (induction left loop) (induction right loop)
      | whileTrue guard body =>
          rw [lowerForm]
          exact lowerWhile admitted guard fun targets => induction body (some targets)
      | breakLoop location | continueLoop location =>
          rw [lowerForm]
          exact lowerJump loop _ location _
      | returnValue value =>
          refine (lowerExpr admitted value).bind fun returned returnedAdmitted => terminate ?_
          simpa [Ir.Terminator.operands] using returnedAdmitted
      | declaration declaration => exact lowerLocal admitted declaration
      | expression expression => exact (lowerExpr admitted expression).bind fun _ _ => pure trivial

/-! ## Functions -/

theorem lowerParameters (index : Nat) (ids : List DeclId) :
    UsesOnly admits (fun _ => True) (lowerParameters program index ids) := by
  have one (index : Nat) (id : DeclId) :
      UsesOnly admits (fun _ => True) (lowerParameter program index id) := by
    unfold lowerParameter
    dsimp only
    split
    · refine (allocate admitted _).bind fun slot slotAdmitted => (perform ?_).bind fun _ _ =>
        (bindLocal id slotAdmitted).bind fun _ _ => pure trivial
      simp [Ir.Operation.operands, slotAdmitted, admitted.arg]
    · exact .throw _
  induction ids generalizing index with
  | nil => exact pure trivial
  | cons id ids induction =>
      exact (one index id).bind fun _ _ => (induction (index + 1)).bind fun _ _ => pure trivial

theorem buildFunction (result : Ir.ValueType) (decl : Decl) :
    UsesOnly admits (fun _ => True) (buildFunction program result decl) := by
  have body : UsesOnly admits (fun _ => True) (functionBody decl) := by
    unfold functionBody
    split
    · exact pure trivial
    · exact .throw _
    · exact .throw _
  exact (newBlock _).bind fun _ _ => (switchTo _).bind fun _ _ =>
    (lowerParameters admitted 0 _).bind fun _ _ => body.bind fun _ _ =>
      (lowerStmt admitted result _).bind fun _ _ => pure trivial

end Program

end UsesOnly

variable {program : Program} {admits : Ir.Value → Prop}

/-- Whatever is true of the values that a program can be lowered to is true of the operands in its
functions. -/
theorem lowerFunction_uses (admitted : program.Admits admits) {id : DeclId} {function : Ir.Function}
    (lowered : lowerFunction program id = .ok function) :
    ∀ block ∈ function.blocks,
      (∀ instruction ∈ block.instructions, ∀ value ∈ instruction.operation.operands, admits value) ∧
        ∀ value ∈ block.terminator.operands, admits value := by
  rw [lowerFunction] at lowered
  dsimp only at lowered
  split at lowered
  · next result types typed =>
    have uses := (UsesOnly.buildFunction admitted (.ofTy result) (program.ast.decl id)).builds .empty
      .empty
    cases run : (buildFunction program (.ofTy result) (program.ast.decl id)).run .empty with
    | error error =>
        rw [run] at lowered
        cases lowered
    | ok built =>
        rw [run] at lowered
        cases lowered
        exact (uses.result run).1.finish (admitted.zero _)
  · cases lowered

end Lowering

end Minilang
