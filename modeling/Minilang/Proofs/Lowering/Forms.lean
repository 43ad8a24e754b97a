import Minilang.Lowering.Statement
import Minilang.Proofs.Lowering.Outcome

/-!
# What lowered forms build

Each form of expression and statement is lowered by building its parts in blocks prepared for them. The
states in which the parts are built get names, so that all that is proved about lowering follows the same
steps.
-/

namespace Minilang

namespace Builder

/-- The function that goes on in the block of the right operand of a logical operator. -/
def splitLogical (builder : Builder) (isOr : Bool) (left : Ir.Value) : Builder :=
  let start := builder.resume.blocks.size
  (((builder.resume.addBlock (if isOr then .orRhs else .andRhs)).addBlock
      (if isOr then .orEnd else .andEnd)).endWith
    (if isOr then .condBranch left (start + 1) start else .condBranch left start (start + 1))).goTo
    start

/-- The function that goes on in the first of two blocks, where a condition leads to either. -/
def splitTwo (builder : Builder) (first second : BlockRole) (condition : Ir.Value) : Builder :=
  let start := builder.blocks.size
  (((builder.addBlock first).addBlock second).endWith
    (.condBranch condition start (start + 1))).goTo start

/-- The function that goes on in the first of three blocks, where a condition leads to one of the first
two. -/
def splitThree (builder : Builder) (first second third : BlockRole) (condition : Ir.Value) :
    Builder :=
  let start := builder.blocks.size
  ((((builder.addBlock first).addBlock second).addBlock third).endWith
    (.condBranch condition start (start + 1))).goTo start

/-- The function that goes on in the block that tests the guard of a loop. -/
def startLoop (builder : Builder) : Builder :=
  ((((builder.addBlock .whileCond).addBlock .whileBody).addBlock .whileEnd).endWith
    (.branch builder.blocks.size)).goTo builder.blocks.size

/-- The function that leaves the open block for one block and goes on in another one. -/
def leave (builder : Builder) (target next : Nat) : Builder := (builder.branchTo target).goTo next

section Fields

variable (builder : Builder) (condition value : Ir.Value) (isOr : Bool)
  (first second third : BlockRole) (target next : Nat)

@[simp] theorem splitLogical_current :
    (builder.splitLogical isOr value).current = some builder.resume.blocks.size := rfl

@[simp] theorem splitLogical_locals :
    (builder.splitLogical isOr value).locals = builder.locals := by simp [splitLogical]

@[simp] theorem splitLogical_temporaries :
    (builder.splitLogical isOr value).temporaries = builder.temporaries := by simp [splitLogical]

@[simp] theorem splitTwo_current :
    (builder.splitTwo first second condition).current = some builder.blocks.size := rfl

@[simp] theorem splitTwo_locals :
    (builder.splitTwo first second condition).locals = builder.locals := by simp [splitTwo]

@[simp] theorem splitTwo_temporaries :
    (builder.splitTwo first second condition).temporaries = builder.temporaries := by
  simp [splitTwo]

@[simp] theorem splitThree_current :
    (builder.splitThree first second third condition).current = some builder.blocks.size := rfl

@[simp] theorem splitThree_locals :
    (builder.splitThree first second third condition).locals = builder.locals := by
  simp [splitThree]

@[simp] theorem splitThree_temporaries :
    (builder.splitThree first second third condition).temporaries = builder.temporaries := by
  simp [splitThree]

@[simp] theorem startLoop_current :
    builder.startLoop.current = some builder.blocks.size := rfl

@[simp] theorem startLoop_locals : builder.startLoop.locals = builder.locals := by
  simp [startLoop]

@[simp] theorem startLoop_temporaries : builder.startLoop.temporaries = builder.temporaries := by
  simp [startLoop]

@[simp] theorem leave_current : (builder.leave target next).current = some next := rfl

@[simp] theorem leave_locals : (builder.leave target next).locals = builder.locals := by
  simp [leave]

@[simp] theorem leave_allocas : (builder.leave target next).allocas = builder.allocas := by
  simp [leave]

@[simp] theorem leave_temporaries :
    (builder.leave target next).temporaries = builder.temporaries := by simp [leave]

end Fields

end Builder

namespace Lowering

variable {before : Builder} {onError : Diagnostic → Prop} {lower : ExprId → Build Ir.Value}
  {program : Program}

section Names

variable {declaration : DeclId} {type : Ty} {onResult : Ir.Value → Builder → Prop}

theorem builds_lowerName_of_local {value : Ir.Value}
    (found : before.local? declaration = some value) :
    Builds (lowerName program lower declaration) before onResult onError ↔
      onResult value before := by
  rw [lowerName, builds_bind, builds_get, found]
  exact builds_pure value

variable (unbound : before.local? declaration = none) (atTop : declaration ∈ program.declarations)

include unbound atTop

theorem builds_lowerName_of_variable {initializer : Option ExprId}
    (kind_eq : (program.ast.decl declaration).kind = .object .var type initializer) :
    Builds (lowerName program lower declaration) before onResult onError ↔
      onResult (.global (program.ast.decl declaration).name) before := by
  rw [lowerName, builds_bind, builds_get, unbound, Program.symbol?, if_pos atTop]
  dsimp only
  rw [kind_eq]
  exact builds_pure _

theorem builds_lowerName_of_function {parameters : List DeclId} {body : Option StmtId}
    (kind_eq : (program.ast.decl declaration).kind = .function type parameters body) :
    Builds (lowerName program lower declaration) before onResult onError ↔
      onResult (.function (program.ast.decl declaration).name) before := by
  rw [lowerName, builds_bind, builds_get, unbound, Program.symbol?, if_pos atTop]
  dsimp only
  rw [kind_eq]
  exact builds_pure _

theorem builds_lowerName_of_constant {objectKind : ObjectKind} {initializer : ExprId}
    (kind_eq : (program.ast.decl declaration).kind = .object objectKind type (some initializer))
    (isConstant : objectKind ≠ .var) :
    Builds (lowerName program lower declaration) before onResult onError ↔
      Builds (lower initializer) before onResult onError := by
  rw [lowerName, builds_bind, builds_get, unbound, Program.symbol?, if_pos atTop]
  dsimp only
  rw [kind_eq]
  cases objectKind with
  | var => exact absurd rfl isConstant
  | const | value =>
      dsimp only
      rw [DeclKind.isConstant, if_pos rfl, builds_bind, Lowering.initializer, kind_eq]
      exact builds_pure _

end Names

theorem builds_lowerLogical {isOr : Bool} {left right : ExprId}
    {onResult : Ir.Value → Builder → Prop} :
    Builds (lowerLogical lower isOr left right) before onResult onError ↔
      Builds (lower left) before (fun leftValue split =>
        Builds (lower right) (split.splitLogical isOr leftValue) (fun rightValue joined =>
          Builds (emit (.phi .i1
              [(.const (.bool isOr), split.currentIndex), (rightValue, joined.currentIndex)]))
            (joined.resume.leave (split.resume.blocks.size + 1) (split.resume.blocks.size + 1))
            onResult onError) onError) onError := by
  simp only [lowerLogical, builds_bind, builds_currentBlock, builds_newBlock, builds_terminate,
    builds_switchTo, builds_branch, Builder.addBlock_size]
  exact Iff.rfl

theorem builds_lowerConditional {type : Ir.ValueType} {guard whenTrue whenFalse : ExprId}
    {onResult : Ir.Value → Builder → Prop} :
    Builds (lowerConditional lower type guard whenTrue whenFalse) before onResult onError ↔
      Builds (lower guard) before (fun condition split =>
        Builds (lower whenTrue) (split.splitThree .condTrue .condFalse .condEnd condition)
          (fun trueValue turned =>
            Builds (lower whenFalse)
              (turned.resume.leave (split.blocks.size + 2) (split.blocks.size + 1))
              (fun falseValue joined =>
                Builds (emit (.phi type
                    [(trueValue, turned.currentIndex), (falseValue, joined.currentIndex)]))
                  (joined.resume.leave (split.blocks.size + 2) (split.blocks.size + 2))
                  onResult onError) onError) onError) onError := by
  simp only [lowerConditional, builds_bind, builds_currentBlock, builds_newBlock, builds_terminate,
    builds_switchTo, builds_branch, Builder.addBlock_size]
  exact Iff.rfl

theorem builds_lowerWhen {guard : ExprId} {body : Build Unit} {onResult : Unit → Builder → Prop} :
    Builds (lowerWhen program guard body) before onResult onError ↔
      Builds (lowerExpr program guard) before (fun condition split =>
        Builds body (split.splitTwo .whenThen .whenEnd condition) (fun _ joined =>
          onResult () (joined.leave (split.blocks.size + 1) (split.blocks.size + 1))) onError)
        onError := by
  simp only [lowerWhen, builds_bind, builds_newBlock, builds_terminate, builds_switchTo,
    builds_branch, Builder.addBlock_size]
  exact Iff.rfl

theorem builds_lowerIf {guard : ExprId} {whenTrue whenFalse : Build Unit}
    {onResult : Unit → Builder → Prop} :
    Builds (lowerIf program guard whenTrue whenFalse) before onResult onError ↔
      Builds (lowerExpr program guard) before (fun condition split =>
        Builds whenTrue (split.splitThree .ifThen .ifElse .ifEnd condition) (fun _ turned =>
          Builds whenFalse (turned.leave (split.blocks.size + 2) (split.blocks.size + 1))
            (fun _ joined =>
              onResult () (joined.leave (split.blocks.size + 2) (split.blocks.size + 2)))
            onError) onError) onError := by
  simp only [lowerIf, builds_bind, builds_newBlock, builds_terminate, builds_switchTo,
    builds_branch, Builder.addBlock_size]
  exact Iff.rfl

theorem builds_lowerWhile {guard : ExprId} {body : LoopTargets → Build Unit}
    {onResult : Unit → Builder → Prop} :
    Builds (lowerWhile program guard body) before onResult onError ↔
      Builds (lowerExpr program guard) before.startLoop (fun condition tested =>
        Builds (body ⟨before.blocks.size, before.blocks.size + 2⟩)
          ((tested.endWith (.condBranch condition (before.blocks.size + 1)
            (before.blocks.size + 2))).goTo (before.blocks.size + 1))
          (fun _ turned =>
            onResult () (turned.leave before.blocks.size (before.blocks.size + 2))) onError)
        onError := by
  simp only [lowerWhile, builds_bind, builds_newBlock, builds_terminate, builds_switchTo,
    builds_branch, Builder.addBlock_size]
  exact Iff.rfl

section Locals

variable {id : DeclId} {type : Ty} {initializer : ExprId} {onResult : Unit → Builder → Prop}

theorem builds_lowerLocal_of_variable
    (kind_eq : (program.ast.decl id).kind = .object .var type (some initializer)) :
    Builds (lowerLocal program id) before onResult onError ↔
      Builds (lowerExpr program initializer)
        ((before.addAlloca (.ofTy type)).bind id (.temp before.temporaries))
        (fun value stored =>
          onResult () (stored.perform (.store (.ofTy type) value (.temp before.temporaries))))
        onError := by
  rw [lowerLocal, kind_eq]
  dsimp only
  rw [builds_bind, builds_allocate, builds_bind, builds_bindLocal, builds_bind,
    Lowering.initializer, kind_eq]
  dsimp only
  rw [builds_pure, builds_bind]
  simp only [builds_perform]

theorem builds_lowerLocal_of_constant {objectKind : ObjectKind} (isConstant : objectKind ≠ .var)
    (kind_eq : (program.ast.decl id).kind = .object objectKind type (some initializer)) :
    Builds (lowerLocal program id) before onResult onError ↔
      Builds (lowerExpr program initializer) before
        (fun value after => onResult () (after.bind id value)) onError := by
  rw [lowerLocal, kind_eq]
  cases objectKind with
  | var => exact absurd rfl isConstant
  | const | value =>
      dsimp only
      rw [builds_bind, Lowering.initializer, kind_eq]
      exact builds_bind _ _

end Locals

end Lowering

end Minilang
