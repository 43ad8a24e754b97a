import Mathlib.Logic.Function.Iterate
import Minilang.Proofs.Analysis.Runs
import Minilang.Proofs.Lowering.Forms

/-!
# Recursion over programs

Every function that walks a program calls itself for older nodes only: for operands, for statements within
a statement, and for the initializer of a constant where the constant is named. However often such a
recursion is unfolded beyond the index of a node, what stands for the calls that are left is never asked.
-/

namespace Minilang

/-! ## Unfolding a recursion -/

section Unfolding

variable {ι α : Type} {step : (ι → α) → ι → α} {index : ι → Nat} {bound : Nat}

/-- Whether one unfolding of a recursion calls it for smaller indices only. -/
def Descends (step : (ι → α) → ι → α) (index : ι → Nat) (bound : Nat) : Prop :=
  ∀ (first second : ι → α) (id : ι), index id < bound →
    (∀ other, index other < index id → first other = second other) → step first id = step second id

/-- A recursion that descends comes to the same however often it is unfolded beyond the index, and whatever
stands for the calls that are left. -/
theorem Descends.iterate_eq (descends : Descends step index bound) {fuel otherFuel : Nat}
    {exhausted other : ι → α} {id : ι} (id_lt : index id < bound) (enough : index id < fuel)
    (otherEnough : index id < otherFuel) : step^[fuel] exhausted id = step^[otherFuel] other id := by
  induction fuel generalizing otherFuel id with
  | zero => exact absurd enough (Nat.not_lt_zero _)
  | succ fuel induction =>
      obtain ⟨otherFuel, rfl⟩ := Nat.exists_eq_succ_of_ne_zero (Nat.ne_zero_of_lt otherEnough)
      rw [Function.iterate_succ_apply', Function.iterate_succ_apply']
      apply descends _ _ id id_lt
      intro smaller less
      apply induction
      · exact less.trans id_lt
      · omega
      · omega

end Unfolding

/-! ## Constant expressions -/

namespace Ast

variable {ast : Ast}

/-- One unfolding of whether an expression reads no storage and calls nothing. Operands are looked at from
left to right, up to one that settles the answer, and there is no answer where a call has none. -/
def constantStep (ast : Ast) (isConstant : ExprId → Option Bool) (id : ExprId) : Option Bool :=
  match (ast.expr id).kind with
  | .bool _ | .int _ | .float _ | .char _ => some true
  | .name declaration =>
    let kind := (ast.decl declaration).kind
    some (kind.isConstant || kind.isFunction)
  | .convert .load _ => some false
  | .unary _ operand | .cast operand | .convert _ operand => isConstant operand
  | .binary _ left right => do
    if ← isConstant left then isConstant right else return false
  | .conditional guard whenTrue whenFalse => do
    if ← isConstant guard then
      if ← isConstant whenTrue then isConstant whenFalse else return false
    else return false
  | .call _ _ | .index _ _ | .assign _ _ => some false

/-- A recursion without an answer counts as one that says no. -/
theorem isConstantWithin_eq (ast : Ast) (fuel : Nat) (id : ExprId) :
    ast.isConstantWithin fuel id = (ast.constantStep^[fuel] (fun _ => none) id).getD false := by
  induction fuel generalizing id with
  | zero => rfl
  | succ fuel induction =>
      rw [Function.iterate_succ_apply', isConstantWithin, constantStep]
      cases (ast.expr id).kind with
      | bool | int | float | char | name | call | index | assign => rfl
      | unary | cast => exact induction _
      | convert conversion operand =>
          cases conversion with
          | load => rfl
          | _ => exact induction _
      | binary operator left right =>
          dsimp only
          rw [induction left, induction right]
          cases ast.constantStep^[fuel] (fun _ => none) left with
          | none => rfl
          | some answer => cases answer <;> rfl
      | conditional guard whenTrue whenFalse =>
          dsimp only
          rw [induction guard, induction whenTrue, induction whenFalse]
          cases ast.constantStep^[fuel] (fun _ => none) guard with
          | none => rfl
          | some answer =>
              cases answer with
              | false => rfl
              | true =>
                  cases ast.constantStep^[fuel] (fun _ => none) whenTrue with
                  | none => rfl
                  | some answer => cases answer <;> rfl

theorem constantStep_congr {first second : ExprId → Option Bool} {id : ExprId}
    (same : ∀ operand ∈ (ast.expr id).kind.operands, first operand = second operand) :
    ast.constantStep first id = ast.constantStep second id := by
  rw [constantStep, constantStep]
  cases kind_eq : (ast.expr id).kind with
  | bool | int | float | char | name | call | index | assign => rfl
  | unary | cast =>
      simp only [kind_eq, ExprKind.operands, List.forall_mem_singleton] at same
      exact same
  | convert conversion operand =>
      simp only [kind_eq, ExprKind.operands, List.forall_mem_singleton] at same
      cases conversion with
      | load => rfl
      | _ => exact same
  | binary operator left right =>
      simp only [kind_eq, ExprKind.operands, List.forall_mem_cons] at same
      dsimp only
      rw [same.1, same.2.1]
  | conditional guard whenTrue whenFalse =>
      simp only [kind_eq, ExprKind.operands, List.forall_mem_cons] at same
      dsimp only
      rw [same.1, same.2.1, same.2.2.1]

/-- There is an answer where all calls have one. -/
theorem isSome_constantStep {answers : ExprId → Option Bool}
    (answered : ∀ id, (answers id).isSome = true) (id : ExprId) :
    (ast.constantStep answers id).isSome = true := by
  have given (id : ExprId) : ∃ answer, answers id = some answer :=
    Option.isSome_iff_exists.1 (answered id)
  rw [constantStep]
  cases (ast.expr id).kind with
  | bool | int | float | char | name | call | index | assign => rfl
  | unary operator operand | cast operand => exact answered operand
  | convert conversion operand =>
      cases conversion with
      | load => rfl
      | _ => exact answered operand
  | binary operator left right =>
      obtain ⟨answer, found⟩ := given left
      dsimp only
      rw [found]
      cases answer with
      | false => rfl
      | true => exact answered right
  | conditional guard whenTrue whenFalse =>
      obtain ⟨answer, found⟩ := given guard
      obtain ⟨also, foundAlso⟩ := given whenTrue
      dsimp only
      rw [found, foundAlso]
      cases answer with
      | false => rfl
      | true =>
          cases also with
          | false => rfl
          | true => exact answered whenFalse

/-- In a sound program, whether an expression is constant is asked of older expressions only. -/
theorem Sound.constantStep_descends (sound : ast.Sound) :
    Descends ast.constantStep ExprId.index ast.exprs.size := by
  intro first second id id_lt same
  exact constantStep_congr fun operand member =>
    same operand ((sound.expr_grounded id id_lt).operand_lt operand member)

/-- In a sound program it is always known whether an expression is constant. -/
theorem Sound.constantStep_eq (sound : ast.Sound) {id : ExprId} (id_lt : id.index < ast.exprs.size)
    {fuel : Nat} (enough : id.index < fuel) (exhausted : ExprId → Option Bool) :
    ast.constantStep^[fuel] exhausted id = some (ast.isConstant id) := by
  have known {fuel : Nat} (enough : id.index < fuel) (exhausted : ExprId → Option Bool) :
      ast.constantStep^[fuel] exhausted id =
        ast.constantStep^[ast.exprs.size] (fun _ => none) id :=
    sound.constantStep_descends.iterate_eq id_lt enough id_lt
  have answered (fuel : Nat) (other : ExprId) :
      (ast.constantStep^[fuel] (fun _ => some false) other).isSome = true := by
    induction fuel generalizing other with
    | zero => rfl
    | succ fuel induction =>
        rw [Function.iterate_succ_apply']
        exact isSome_constantStep induction other
  obtain ⟨answer, found⟩ := Option.isSome_iff_exists.1 (answered ast.exprs.size id)
  rw [isConstant, isConstantWithin_eq, known enough, ← known id_lt fun _ => some false, found]
  rfl

end Ast

namespace Lowering

variable {program : Program}

/-! ## Expressions -/

/-- One unfolding of the lowering of expressions. -/
def exprStep (program : Program) (lower : ExprId → Build Ir.Value) (id : ExprId) : Build Ir.Value :=
  lowerKind program lower (program.ast.expr id)

theorem lowerExprWithin_eq (program : Program) (fuel : Nat) :
    lowerExprWithin program fuel =
      (exprStep program)^[fuel] fun _ => refuse .nestingTooDeep := by
  induction fuel with
  | zero => rfl
  | succ fuel induction =>
      rw [Function.iterate_succ_apply', ← induction]
      rfl

section Congruence

variable {first second : ExprId → Build Ir.Value}

theorem lowerArguments_congr (ast : Ast) {arguments : List ExprId}
    (same : ∀ argument ∈ arguments, first argument = second argument) :
    lowerArguments ast first arguments = lowerArguments ast second arguments := by
  induction arguments with
  | nil => rfl
  | cons argument arguments induction =>
      rw [List.forall_mem_cons] at same
      rw [lowerArguments, lowerArguments, same.1, induction same.2]

theorem lowerName_congr {declaration : DeclId}
    (same : (program.ast.kindOf declaration).isConstant = true → ∀ initializer,
      (program.ast.kindOf declaration).initializer? = some initializer →
        first initializer = second initializer) :
    lowerName program first declaration = lowerName program second declaration := by
  rw [lowerName, lowerName]
  congr 1
  funext builder
  cases builder.local? declaration with
  | some value => rfl
  | none =>
      cases program.symbol? declaration with
      | some value => rfl
      | none =>
          dsimp only
          rw [Ast.kindOf] at same
          split
          · next isConstant =>
            have same := same isConstant
            rw [initializer]
            cases kind_eq : (program.ast.decl declaration).kind with
            | object objectKind type given =>
                cases given with
                | none => rfl
                | some given =>
                    rw [kind_eq] at same
                    dsimp only
                    rw [pure_bind, pure_bind]
                    exact same given rfl
            | parameter | function | program => rfl
          · rfl

/-- How an expression is lowered depends on how its operands and the initializers of named constants are. -/
theorem lowerKind_congr {expr : Expr}
    (operands : ∀ operand ∈ expr.kind.operands, first operand = second operand)
    (initializers : ∀ declaration initializer, expr.kind = .name declaration →
      (program.ast.kindOf declaration).isConstant = true →
      (program.ast.kindOf declaration).initializer? = some initializer →
        first initializer = second initializer) :
    lowerKind program first expr = lowerKind program second expr := by
  obtain ⟨kind, type, location⟩ := expr
  cases kind with
  | bool | int | float | char | index => rfl
  | name declaration =>
      exact lowerName_congr fun isConstant initializer => initializers declaration initializer rfl isConstant
  | unary | cast | convert =>
      rw [ExprKind.operands, List.forall_mem_singleton] at operands
      simp only [lowerKind, operands]
  | binary operator left right =>
      simp only [ExprKind.operands, List.forall_mem_cons] at operands
      cases operator <;>
        simp only [lowerKind, lowerLogical, lowerBinary, operands.1, operands.2.1]
  | call callee arguments =>
      rw [ExprKind.operands, List.forall_mem_cons] at operands
      simp only [lowerKind, operands.1, lowerArguments_congr program.ast operands.2]
  | assign target value =>
      simp only [ExprKind.operands, List.forall_mem_cons] at operands
      simp only [lowerKind, lowerAssignment, operands.1, operands.2.1]
  | conditional guard whenTrue whenFalse =>
      simp only [ExprKind.operands, List.forall_mem_cons] at operands
      simp only [lowerKind, lowerConditional, operands.1, operands.2.1, operands.2.2.1]

end Congruence

/-- In a sound program, lowering an expression lowers older expressions only. -/
theorem exprStep_descends (sound : program.ast.Sound) :
    Descends (exprStep program) ExprId.index program.ast.exprs.size := by
  intro first second id id_lt same
  have grounded := sound.expr_grounded id id_lt
  apply lowerKind_congr
  · exact fun operand member => same operand (grounded.operand_lt operand member)
  · exact fun declaration initializer named isConstant initialized => same initializer
      (grounded.initializer_lt declaration initializer named isConstant initialized)

/-! ## Statements -/

/-- One unfolding of the lowering of statements. -/
def stmtStep (program : Program) (result : Ir.ValueType)
    (lower : StmtId → Option LoopTargets → Build Unit) (id : StmtId) (loop : Option LoopTargets) :
    Build Unit :=
  lowerForm program result (fun loop id => lower id loop) loop (program.ast.stmt id)

theorem lowerStmtWithin_eq (program : Program) (result : Ir.ValueType) (fuel : Nat)
    (loop : Option LoopTargets) (id : StmtId) :
    lowerStmtWithin program result fuel loop id =
      (stmtStep program result)^[fuel] (fun _ _ => refuse .nestingTooDeep) id loop := by
  induction fuel generalizing loop id with
  | zero => rfl
  | succ fuel induction =>
      rw [Function.iterate_succ_apply', lowerStmtWithin, stmtStep]
      simp only [← induction]

theorem lowerSequence_congr {first second : StmtId → Build Unit} {statements : List StmtId}
    (same : ∀ statement ∈ statements, first statement = second statement) :
    lowerSequence first statements = lowerSequence second statements := by
  induction statements with
  | nil => rfl
  | cons statement statements induction =>
      rw [List.forall_mem_cons] at same
      rw [lowerSequence, lowerSequence, same.1, induction same.2]

/-- How a statement is lowered depends on how the statements within it are. -/
theorem lowerForm_congr {result : Ir.ValueType}
    {first second : Option LoopTargets → StmtId → Build Unit} {loop : Option LoopTargets} {stmt : Stmt}
    (same : ∀ child ∈ stmt.children, ∀ loop, first loop child = second loop child) :
    lowerForm program result first loop stmt = lowerForm program result second loop stmt := by
  cases stmt with
  | block statements =>
      exact lowerSequence_congr fun statement member => same statement member loop
  | whenTrue | whileTrue =>
      rw [Stmt.children, List.forall_mem_singleton] at same
      simp only [lowerForm, same]
  | ifElse guard whenTrue whenFalse =>
      simp only [Stmt.children, List.forall_mem_cons] at same
      simp only [lowerForm, same.1, same.2.1]
  | breakLoop | continueLoop | returnValue | declaration | expression => rfl

/-- In a sound program, lowering a statement lowers older statements only. -/
theorem stmtStep_descends (sound : program.ast.Sound) (result : Ir.ValueType) :
    Descends (stmtStep program result) StmtId.index program.ast.stmts.size := by
  intro first second id id_lt same
  funext loop
  apply lowerForm_congr
  intro child member loop
  rw [same child (sound.child_lt id id_lt child member)]

/-! ## Nesting -/

/-- Whether a step is never refused because of its nesting. -/
def Shallow {α : Type} (step : Build α) : Prop :=
  ∀ before, Builds step before (fun _ _ => True) (· ≠ .internal .nestingTooDeep)

section Nesting

variable {α : Type} {step : Build α} {before : Builder}

theorem Shallow.through {onResult : α → Builder → Prop} (shallow : Shallow step)
    (behind : ∀ result after, onResult result after) :
    Builds step before onResult (· ≠ .internal .nestingTooDeep) :=
  (shallow before).mono (fun result after _ => behind result after) fun _ other => other

theorem shallow_refuse (error : InternalError) (other : error ≠ .nestingTooDeep) :
    Shallow (refuse error : Build α) :=
  fun _ same => other (Diagnostic.internal.inj same)

theorem shallow_initializer (decl : Decl) : Shallow (initializer decl) := by
  rw [initializer]
  split
  · exact fun _ => trivial
  · exact shallow_refuse .objectNeverDefined (by simp)
  · exact shallow_refuse .declarationNotObject (by simp)

variable {lower : ExprId → Build Ir.Value} (lowers : ∀ id, Shallow (lower id))

include lowers

theorem shallow_lowerName (declaration : DeclId) : Shallow (lowerName program lower declaration) := by
  intro before
  rw [lowerName, builds_bind, builds_get]
  cases before.local? declaration with
  | some value => trivial
  | none =>
      cases program.symbol? declaration with
      | some value => trivial
      | none =>
          dsimp only
          split
          · rw [builds_bind]
            exact (shallow_initializer _).through fun initializer after => lowers initializer after
          · exact shallow_refuse (.noStorage _) (by simp) before

theorem shallow_lowerArguments (ast : Ast) (arguments : List ExprId) :
    Shallow (lowerArguments ast lower arguments) := by
  induction arguments with
  | nil => exact fun _ => trivial
  | cons argument arguments induction =>
      intro before
      rw [lowerArguments, builds_bind]
      refine (lowers argument).through fun value middle => ?_
      rw [builds_bind]
      exact induction.through fun values after => trivial

theorem shallow_lowerBinary (ast : Ast) (operator : BinaryOperator) (left right : ExprId) :
    Shallow (lowerBinary ast lower operator left right) := by
  intro before
  rw [lowerBinary, builds_bind]
  refine (lowers left).through fun leftValue split => ?_
  rw [builds_bind]
  refine (lowers right).through fun rightValue joined => ?_
  split
  · rw [builds_emit]
    trivial
  · exact shallow_refuse (.noInstruction _) (by simp) joined

/-- The lowering of an expression is not refused because of its nesting where that of others is not. -/
theorem shallow_lowerKind (expr : Expr) : Shallow (lowerKind program lower expr) := by
  obtain ⟨kind, type, location⟩ := expr
  intro before
  cases kind with
  | bool | int | float | char => trivial
  | name declaration => exact shallow_lowerName lowers declaration before
  | unary operator operand | convert operator operand =>
      rw [lowerKind]
      dsimp only
      rw [builds_bind]
      refine (lowers operand).through fun value after => ?_
      rw [builds_emit]
      trivial
  | binary operator left right =>
      have strict := shallow_lowerBinary lowers program.ast operator left right before
      have logical (isOr : Bool) : Builds (lowerLogical lower isOr left right) before (fun _ _ => True)
          (· ≠ .internal .nestingTooDeep) := by
        rw [builds_lowerLogical]
        refine (lowers left).through fun leftValue split => ?_
        refine (lowers right).through fun rightValue joined => ?_
        rw [builds_emit]
        trivial
      cases operator with
      | logicalAnd => exact logical false
      | logicalOr => exact logical true
      | _ => exact strict
  | call callee arguments =>
      rw [lowerKind]
      dsimp only
      rw [builds_bind]
      refine (lowers callee).through fun value middle => ?_
      rw [builds_bind]
      refine (shallow_lowerArguments lowers program.ast arguments).through fun values after => ?_
      rw [builds_emit]
      trivial
  | index base arguments => exact shallow_refuse .indexExpression (by simp) before
  | cast operand => exact lowers operand before
  | assign target value =>
      rw [lowerKind]
      dsimp only
      rw [lowerAssignment, builds_bind]
      refine (lowers target).through fun pointer middle => ?_
      rw [builds_bind]
      refine (lowers value).through fun stored after => ?_
      rw [builds_bind, builds_perform]
      trivial
  | conditional guard whenTrue whenFalse =>
      rw [lowerKind]
      dsimp only
      rw [builds_lowerConditional]
      refine (lowers guard).through fun condition split => ?_
      refine (lowers whenTrue).through fun trueValue turned => ?_
      refine (lowers whenFalse).through fun falseValue joined => ?_
      rw [builds_emit]
      trivial

end Nesting

/-- In a sound program no expression is refused because of its nesting. -/
theorem shallow_lowerExpr (sound : program.ast.Sound) {id : ExprId}
    (id_lt : id.index < program.ast.exprs.size) : Shallow (lowerExpr program id) := by
  have unfolded (fuel : Nat) (other : ExprId) :
      Shallow ((exprStep program)^[fuel] (fun _ => refuse .indexExpression) other) := by
    induction fuel generalizing other with
    | zero => exact shallow_refuse .indexExpression (by simp)
    | succ fuel induction =>
        rw [Function.iterate_succ_apply']
        exact shallow_lowerKind induction _
  rw [lowerExpr, lowerExprWithin_eq,
    (exprStep_descends sound).iterate_eq id_lt (Nat.lt_succ_of_lt id_lt) (Nat.lt_succ_of_lt id_lt)]
  exact unfolded _ id

end Lowering

/-! ## Programs that are built by actions -/

namespace Analysis

open Lowering

/-- Whatever actions build a program, and whether they succeed or fail, the recursions over it end. Operands
and the statements within a statement have smaller indices, and constants that are named have initializers
with smaller ones. If the recursion is unfolded more often than the index of a node says, it does not
matter what stands for the calls that are left: whether an expression is constant has an answer, which is
the one that is given, and expressions and statements are lowered as they are. -/
theorem recursions_end (actions : List Action) (allocated : AllAllocated actions .initial) :
    let ast := (runAll actions .initial).2.ast
    (∀ id : ExprId, id.index < ast.exprs.size →
      ∀ operand ∈ (ast.expr id).kind.operands, operand.index < id.index) ∧
    (∀ id : StmtId, id.index < ast.stmts.size →
      ∀ child ∈ (ast.stmt id).children, child.index < id.index) ∧
    (∀ (id : ExprId) (declaration : DeclId), id.index < ast.exprs.size →
      (ast.expr id).kind = .name declaration → (ast.kindOf declaration).isConstant = true →
        ∃ initializer, (ast.kindOf declaration).initializer? = some initializer ∧
          initializer.index < id.index) ∧
    (∀ (id : ExprId) (fuel : Nat) (exhausted : ExprId → Option Bool),
      id.index < ast.exprs.size → id.index < fuel →
        ast.constantStep^[fuel] exhausted id = some (ast.isConstant id)) ∧
    ∀ program : Program, program.ast = ast →
      (∀ (id : ExprId) (fuel : Nat) (exhausted : ExprId → Build Ir.Value),
        id.index < ast.exprs.size → id.index < fuel →
          (exprStep program)^[fuel] exhausted id = lowerExpr program id ∧
            ∀ builder, (lowerExpr program id).run builder ≠ .error (.internal .nestingTooDeep)) ∧
      ∀ (id : StmtId) (result : Ir.ValueType) (fuel : Nat)
        (exhausted : StmtId → Option LoopTargets → Build Unit),
        id.index < ast.stmts.size → id.index < fuel →
          (stmtStep program result)^[fuel] exhausted id none = lowerStmt program result id := by
  intro ast
  have sound : ast.Sound := (runAll_grows allocated).sound .empty
  refine ⟨fun id id_lt => (sound.expr_grounded id id_lt).operand_lt, sound.child_lt,
    fun id declaration id_lt named isConstant => sound.named_initialized id_lt named isConstant,
    fun id fuel exhausted id_lt enough => sound.constantStep_eq id_lt enough exhausted, ?_⟩
  rintro program same
  rw [← same] at sound ⊢
  refine ⟨fun id fuel exhausted id_lt enough => ⟨?_, fun builder failed => ?_⟩,
    fun id result fuel exhausted id_lt enough => ?_⟩
  · rw [lowerExpr, lowerExprWithin_eq]
    exact (exprStep_descends sound).iterate_eq id_lt enough (Nat.lt_succ_of_lt id_lt)
  · exact (shallow_lowerExpr sound id_lt builder).error failed rfl
  · rw [lowerStmt, lowerStmtWithin_eq]
    exact congrFun ((stmtStep_descends sound result).iterate_eq id_lt enough
      (Nat.lt_succ_of_lt id_lt)) none

/-- A constant is followed to its initializer where it is used, and the recursion ends there. -/
theorem recursions_end_of_constant :
    let built := runAll [.enterGlobalScope, .declareObject .const ⟨.identifier "a", .unknown⟩ .int,
      .integerLiteral ⟨.integer 1 .decimal, .unknown⟩, .defineObject ⟨0⟩ ⟨0⟩,
      .name ⟨.identifier "a", .unknown⟩] .initial
    let program : Program := ⟨built.2.ast, ⟨0⟩⟩
    (∃ initializer, (built.2.ast.kindOf ⟨0⟩).initializer? = some initializer ∧
      initializer.index < 1) ∧
    built.2.ast.constantStep^[2] (fun _ => none) ⟨1⟩ = some (built.2.ast.isConstant ⟨1⟩) ∧
    (exprStep program)^[2] (fun _ => Lowering.refuse .nestingTooDeep) ⟨1⟩ = lowerExpr program ⟨1⟩ := by
  intro built program
  obtain ⟨-, -, named, constant, lowered⟩ := recursions_end [.enterGlobalScope,
    .declareObject .const ⟨.identifier "a", .unknown⟩ .int,
    .integerLiteral ⟨.integer 1 .decimal, .unknown⟩, .defineObject ⟨0⟩ ⟨0⟩,
    .name ⟨.identifier "a", .unknown⟩] (by decide +kernel)
  have there : 1 < built.2.ast.exprs.size := by decide +kernel
  exact ⟨named ⟨1⟩ ⟨0⟩ there (by decide +kernel) (by decide +kernel),
    constant ⟨1⟩ 2 _ there (by decide), ((lowered program rfl).1 ⟨1⟩ 2 _ there (by decide)).1⟩

end Analysis

end Minilang
