import Minilang.Proofs.Lowering.Mirroring
import Minilang.Proofs.Lowering.Programs

/-!
# Programs that correspond are lowered alike

A program that is found again in another one is lowered there to the same functions and global objects, up to
what they are called. Lowering asks for the forms and types of nodes and which name is which, but neither how
names are spelled nor where anything stands.
-/

namespace Minilang

/-- Whether a program is found again in another one, which may go on behind it. Errors are the same if both
programs are of the same size. -/
structure Correspondence.Programs (correspondence : Correspondence) (alike : Prop)
    (program other : Program) : Prop where
  /-- The other program has as many expressions. -/
  exprs_le : program.ast.exprs.size ≤ other.ast.exprs.size
  /-- The other program has as many statements. -/
  stmts_le : program.ast.stmts.size ≤ other.ast.stmts.size
  /-- The other program may not go on. -/
  sizes_eq : alike → other.ast.exprs.size = program.ast.exprs.size ∧
    other.ast.stmts.size = program.ast.stmts.size
  /-- The expressions are there. -/
  expr : ∀ id, id.index < program.ast.exprs.size →
    correspondence.Exprs (program.ast.expr id) (other.ast.expr (correspondence.expr id))
  /-- The statements are there. -/
  stmt : ∀ id, id.index < program.ast.stmts.size →
    correspondence.Stmts (program.ast.stmt id) (other.ast.stmt (correspondence.stmt id))
  /-- What has a type is declared there. -/
  decl : ∀ id type, (program.ast.kindOf id).type? = some type →
    correspondence.Decls (program.ast.decl id) (other.ast.decl (correspondence.decl id))
  /-- What has no type is declared there as well. -/
  kindOf_eq : alike → ∀ id,
    other.ast.kindOf (correspondence.decl id) = correspondence.declKind (program.ast.kindOf id)
  /-- The same declarations are at the top. -/
  top_iff : ∀ id type, (program.ast.kindOf id).type? = some type →
    (correspondence.decl id ∈ other.declarations ↔ id ∈ program.declarations)

namespace Lowering

variable {correspondence : Correspondence} {alike : Prop} {program other : Program}
  {lowerExpr' otherLower : ExprId → Build Ir.Value}

section Expressions

variable (programs : correspondence.Programs alike program other)

include programs

theorem valueType_mirrored {id : ExprId} (id_lt : id.index < program.ast.exprs.size) :
    valueType other.ast (correspondence.expr id) = valueType program.ast id := by
  rw [valueType, valueType, (programs.expr id id_lt).type_eq]

theorem symbol?_mirrored {id : DeclId} {type : Ty}
    (typed : (program.ast.kindOf id).type? = some type) :
    other.symbol? (correspondence.decl id) = (program.symbol? id).map correspondence.value := by
  have decls := programs.decl id type typed
  simp only [Program.symbol?, programs.top_iff id type typed, decls.kind_eq, decls.names.2]
  split
  · cases (program.ast.decl id).kind with
    | object kind => cases kind <;> rfl
    | parameter | function | program => rfl
  · rfl

omit programs in
/-- What follows the initializer of an object, if it has one. -/
theorem initializer_bind_mirrors {decl otherDecl : Decl}
    (kind_eq : otherDecl.kind = correspondence.declKind decl.kind) {α β : Type}
    {next : ExprId → Build α} {otherNext : ExprId → Build β} {image : α → β}
    (mirrorsNext : ∀ initializer, decl.kind.initializer? = some initializer →
      Mirrors correspondence alike (next initializer)
        (otherNext (correspondence.expr initializer)) image) :
    Mirrors correspondence alike (initializer decl >>= next) (initializer otherDecl >>= otherNext)
      image := by
  rw [initializer, initializer, kind_eq]
  cases introduced : decl.kind with
  | object kind type initialized =>
      cases initialized with
      | none => exact .refuse_bind _ _
      | some initializer => exact mirrorsNext initializer (by rw [introduced]; rfl)
  | parameter | function | program => exact .refuse_bind _ _

theorem lowerName_mirrors {id : DeclId} {type : Ty}
    (typed : (program.ast.kindOf id).type? = some type)
    (lowers : ∀ initializer, (program.ast.kindOf id).isConstant = true →
      (program.ast.kindOf id).initializer? = some initializer →
      Mirrors correspondence alike (lowerExpr' initializer)
        (otherLower (correspondence.expr initializer)) correspondence.value) :
    Mirrors correspondence alike (lowerName program lowerExpr' id)
      (lowerName other otherLower (correspondence.decl id)) correspondence.value := by
  have decls := programs.decl id type typed
  refine Mirrors.get.bind fun builder => ?_
  rw [Builder.builder_local?, symbol?_mirrored programs typed]
  cases builder.local? id with
  | some value => exact .pure rfl
  | none =>
      cases program.symbol? id with
      | some value => exact .pure rfl
      | none =>
          dsimp only [Option.map_none]
          rw [decls.kind_eq, Correspondence.isConstant_declKind]
          by_cases isConstant : (program.ast.decl id).kind.isConstant = true
          · rw [if_pos isConstant, if_pos isConstant]
            exact initializer_bind_mirrors decls.kind_eq fun initializer =>
              lowers initializer isConstant
          · rw [if_neg isConstant, if_neg isConstant]
            exact .refuse _ _

omit programs in
theorem lowerLogical_mirrors (isOr : Bool) {left right : ExprId}
    (lowersLeft : Mirrors correspondence alike (lowerExpr' left)
      (otherLower (correspondence.expr left)) correspondence.value)
    (lowersRight : Mirrors correspondence alike (lowerExpr' right)
      (otherLower (correspondence.expr right)) correspondence.value) :
    Mirrors correspondence alike (lowerLogical lowerExpr' isOr left right)
      (lowerLogical otherLower isOr (correspondence.expr left) (correspondence.expr right))
      correspondence.value := by
  refine lowersLeft.bind fun leftValue => Mirrors.currentBlock.bind fun leftBlock => ?_
  refine (Mirrors.newBlock _).bind fun rightStart => (Mirrors.newBlock _).bind fun endBlock => ?_
  have decides : Mirrors correspondence alike
      (terminate (if isOr then .condBranch leftValue endBlock rightStart
        else .condBranch leftValue rightStart endBlock))
      (terminate (if isOr then .condBranch (correspondence.value leftValue) endBlock rightStart
        else .condBranch (correspondence.value leftValue) rightStart endBlock)) id := by
    cases isOr
    · exact .terminate (.condBranch leftValue rightStart endBlock)
    · exact .terminate (.condBranch leftValue endBlock rightStart)
  refine decides.bind fun _ => (Mirrors.switchTo rightStart).bind fun _ => ?_
  refine lowersRight.bind fun rightValue => Mirrors.currentBlock.bind fun rightEnd => ?_
  refine (Mirrors.branch endBlock).bind fun _ => (Mirrors.switchTo endBlock).bind fun _ => ?_
  exact .emit (.phi .i1 [(.const (.bool isOr), leftBlock), (rightValue, rightEnd)])

omit programs in
theorem lowerConditional_mirrors (type : Ir.ValueType) {guard whenTrue whenFalse : ExprId}
    (lowersGuard : Mirrors correspondence alike (lowerExpr' guard)
      (otherLower (correspondence.expr guard)) correspondence.value)
    (lowersTrue : Mirrors correspondence alike (lowerExpr' whenTrue)
      (otherLower (correspondence.expr whenTrue)) correspondence.value)
    (lowersFalse : Mirrors correspondence alike (lowerExpr' whenFalse)
      (otherLower (correspondence.expr whenFalse)) correspondence.value) :
    Mirrors correspondence alike (lowerConditional lowerExpr' type guard whenTrue whenFalse)
      (lowerConditional otherLower type (correspondence.expr guard)
        (correspondence.expr whenTrue) (correspondence.expr whenFalse)) correspondence.value := by
  refine lowersGuard.bind fun condition => (Mirrors.newBlock _).bind fun trueStart => ?_
  refine (Mirrors.newBlock _).bind fun falseStart => (Mirrors.newBlock _).bind fun endBlock => ?_
  refine Mirrors.bind (.terminate (.condBranch condition trueStart falseStart)) fun _ => ?_
  refine (Mirrors.switchTo trueStart).bind fun _ => lowersTrue.bind fun trueValue => ?_
  refine Mirrors.currentBlock.bind fun trueEnd => (Mirrors.branch endBlock).bind fun _ => ?_
  refine (Mirrors.switchTo falseStart).bind fun _ => lowersFalse.bind fun falseValue => ?_
  refine Mirrors.currentBlock.bind fun falseEnd => (Mirrors.branch endBlock).bind fun _ => ?_
  refine (Mirrors.switchTo endBlock).bind fun _ => ?_
  exact .emit (.phi type [(trueValue, trueEnd), (falseValue, falseEnd)])

omit programs in
theorem operation?_rename (operator : BinaryOperator) (type : Ir.ValueType)
    (left right : Ir.Value) :
    operator.operation? type (correspondence.value left) (correspondence.value right) =
      (operator.operation? type left right).map (Ir.Operation.rename correspondence.rename) := by
  rw [BinaryOperator.operation?, BinaryOperator.operation?]
  cases operator.predicate? type.isFloat with
  | some predicate => rfl
  | none => cases operator.instruction? type.isFloat <;> rfl

theorem lowerBinary_mirrors (operator : BinaryOperator) {left right : ExprId}
    (left_lt : left.index < program.ast.exprs.size)
    (lowersLeft : Mirrors correspondence alike (lowerExpr' left)
      (otherLower (correspondence.expr left)) correspondence.value)
    (lowersRight : Mirrors correspondence alike (lowerExpr' right)
      (otherLower (correspondence.expr right)) correspondence.value) :
    Mirrors correspondence alike (lowerBinary program.ast lowerExpr' operator left right)
      (lowerBinary other.ast otherLower operator (correspondence.expr left)
        (correspondence.expr right)) correspondence.value := by
  refine lowersLeft.bind fun leftValue => lowersRight.bind fun rightValue => ?_
  rw [valueType_mirrored programs left_lt, operation?_rename]
  cases operator.operation? (valueType program.ast left) leftValue rightValue with
  | none => exact .refuse _ _
  | some operation => exact .emit operation

theorem lowerArguments_mirrors {arguments : List ExprId}
    (arguments_lt : ∀ argument ∈ arguments, argument.index < program.ast.exprs.size)
    (lowers : ∀ argument ∈ arguments, Mirrors correspondence alike (lowerExpr' argument)
      (otherLower (correspondence.expr argument)) correspondence.value) :
    Mirrors correspondence alike (lowerArguments program.ast lowerExpr' arguments)
      (lowerArguments other.ast otherLower (arguments.map correspondence.expr))
      (List.map fun argument => (argument.1, correspondence.value argument.2)) := by
  induction arguments with
  | nil => exact .pure rfl
  | cons argument arguments induction =>
      rw [List.forall_mem_cons] at arguments_lt lowers
      refine lowers.1.bind fun value => (induction arguments_lt.2 lowers.2).bind fun rest => ?_
      rw [valueType_mirrored programs arguments_lt.1]
      exact .pure rfl

theorem lowerAssignment_mirrors {target value : ExprId}
    (value_lt : value.index < program.ast.exprs.size)
    (lowersTarget : Mirrors correspondence alike (lowerExpr' target)
      (otherLower (correspondence.expr target)) correspondence.value)
    (lowersValue : Mirrors correspondence alike (lowerExpr' value)
      (otherLower (correspondence.expr value)) correspondence.value) :
    Mirrors correspondence alike (lowerAssignment program.ast lowerExpr' target value)
      (lowerAssignment other.ast otherLower (correspondence.expr target)
        (correspondence.expr value)) correspondence.value := by
  refine lowersTarget.bind fun pointer => lowersValue.bind fun stored => ?_
  rw [valueType_mirrored programs value_lt]
  exact Mirrors.bind (.perform (.store (valueType program.ast value) stored pointer)) fun _ =>
    .pure rfl

theorem lowerKind_mirrors {expr otherExpr : Expr}
    (exprs : correspondence.Exprs expr otherExpr)
    (operands_lt : ∀ operand ∈ expr.kind.operands, operand.index < program.ast.exprs.size)
    (lowers : ∀ operand ∈ expr.kind.operands, Mirrors correspondence alike (lowerExpr' operand)
      (otherLower (correspondence.expr operand)) correspondence.value)
    (named : ∀ id, expr.kind = .name id → Mirrors correspondence alike
      (lowerName program lowerExpr' id) (lowerName other otherLower (correspondence.decl id))
      correspondence.value) :
    Mirrors correspondence alike (lowerKind program lowerExpr' expr)
      (lowerKind other otherLower otherExpr) correspondence.value := by
  rw [lowerKind, lowerKind, exprs.kind_eq, exprs.type_eq]
  cases kind_eq : expr.kind with
  | bool | int | float | char => exact .pure rfl
  | name id => exact named id kind_eq
  | unary operator operand =>
      rw [kind_eq, ExprKind.operands, List.forall_mem_singleton] at lowers
      refine lowers.bind fun value => ?_
      cases operator <;> exact .emit _
  | binary operator left right =>
      simp only [kind_eq, ExprKind.operands, List.forall_mem_cons] at lowers operands_lt
      cases operator with
      | logicalAnd => exact lowerLogical_mirrors false lowers.1 lowers.2.1
      | logicalOr => exact lowerLogical_mirrors true lowers.1 lowers.2.1
      | _ => exact lowerBinary_mirrors programs _ operands_lt.1 lowers.1 lowers.2.1
  | call callee arguments =>
      rw [kind_eq, ExprKind.operands, List.forall_mem_cons] at lowers operands_lt
      refine lowers.1.bind fun calleeValue => ?_
      refine (lowerArguments_mirrors programs operands_lt.2 lowers.2).bind fun values => ?_
      exact .emit (.call (.ofTy expr.type) calleeValue values)
  | index base arguments => exact .refuse _ _
  | cast operand =>
      rw [kind_eq, ExprKind.operands, List.forall_mem_singleton] at lowers
      exact lowers
  | assign target value =>
      simp only [kind_eq, ExprKind.operands, List.forall_mem_cons] at lowers operands_lt
      exact lowerAssignment_mirrors programs operands_lt.2.1 lowers.1 lowers.2.1
  | conditional guard whenTrue whenFalse =>
      simp only [kind_eq, ExprKind.operands, List.forall_mem_cons] at lowers
      exact lowerConditional_mirrors _ lowers.1 lowers.2.1 lowers.2.2.1
  | convert conversion operand =>
      rw [kind_eq, ExprKind.operands, List.forall_mem_singleton] at lowers operands_lt
      refine lowers.bind fun value => ?_
      rw [valueType_mirrored programs operands_lt]
      cases conversion <;> exact .emit _

/-- An expression is lowered alike where there is at least as much fuel. -/
theorem lowerExprWithin_mirrors (sound : program.ast.Sound) {fuel otherFuel : Nat}
    (fuel_le : fuel ≤ otherFuel) (same : alike → otherFuel = fuel) {id : ExprId}
    (id_lt : id.index < program.ast.exprs.size) :
    Mirrors correspondence alike (lowerExprWithin program fuel id)
      (lowerExprWithin other otherFuel (correspondence.expr id)) correspondence.value := by
  induction fuel generalizing otherFuel id with
  | zero =>
      intro before alike'
      rw [same alike']
      exact .internal _ _
  | succ fuel induction =>
      obtain ⟨otherFuel, rfl⟩ := Nat.exists_eq_succ_of_ne_zero (Nat.ne_zero_of_lt fuel_le)
      have lowers {operand : ExprId} (operand_lt : operand.index < program.ast.exprs.size) :
          Mirrors correspondence alike (lowerExprWithin program fuel operand)
            (lowerExprWithin other otherFuel (correspondence.expr operand))
            correspondence.value :=
        induction (Nat.le_of_succ_le_succ fuel_le) (fun holds => Nat.succ.inj (same holds))
          operand_lt
      have operands_lt (operand : ExprId) (member : operand ∈ (program.ast.expr id).kind.operands) :
          operand.index < program.ast.exprs.size :=
        ((sound.expr_grounded id id_lt).operand_lt operand member).trans id_lt
      refine lowerKind_mirrors programs (programs.expr id id_lt) operands_lt
        (fun operand member => lowers (operands_lt operand member)) fun name named => ?_
      have typed := sound.expr_typed id id_lt
      rw [named] at typed
      obtain ⟨type, declared⟩ := typed.of_name.1
      exact lowerName_mirrors programs declared fun initializer _ initialized =>
        lowers (sound.initializer_typed name initializer initialized).1

theorem lowerExpr_mirrors (sound : program.ast.Sound) {id : ExprId}
    (id_lt : id.index < program.ast.exprs.size) :
    Mirrors correspondence alike (lowerExpr program id)
      (lowerExpr other (correspondence.expr id)) correspondence.value :=
  lowerExprWithin_mirrors programs sound (Nat.succ_le_succ programs.exprs_le)
    (fun holds => congrArg Nat.succ (programs.sizes_eq holds).1) id_lt

end Expressions

section Statements

variable (programs : correspondence.Programs alike program other) (sound : program.ast.Sound)

include programs sound

theorem lowerLocal_mirrors (id : DeclId) :
    Mirrors correspondence alike (lowerLocal program id)
      (lowerLocal other (correspondence.decl id)) fun result => result := by
  rw [lowerLocal, lowerLocal]
  have declared {type : Ty} (typed : (program.ast.decl id).kind.type? = some type) :=
    (programs.decl id type typed).kind_eq
  cases kind_eq : (program.ast.decl id).kind with
  | program declarations =>
      intro before alike'
      have otherKind := programs.kindOf_eq alike' id
      rw [Ast.kindOf, Ast.kindOf, kind_eq] at otherKind
      rw [otherKind]
      exact .internal _ _
  | parameter type | function type =>
      rw [declared (by rw [kind_eq]; rfl), kind_eq]
      exact .refuse _ _
  | object kind type initialized =>
      have otherKind := declared (by rw [kind_eq]; rfl)
      have lowers (initializer : ExprId)
          (found : (program.ast.decl id).kind.initializer? = some initializer) :
          Mirrors correspondence alike (lowerExpr program initializer)
            (lowerExpr other (correspondence.expr initializer)) correspondence.value :=
        lowerExpr_mirrors programs sound (sound.initializer_typed id initializer found).1
      rw [otherKind, kind_eq]
      cases kind with
      | var =>
          refine (Mirrors.allocate _).bind fun slot => (Mirrors.bindLocal id slot).bind fun _ => ?_
          refine initializer_bind_mirrors otherKind fun initializer found => ?_
          refine (lowers initializer found).bind fun value => ?_
          exact .perform (.store (.ofTy type) value slot)
      | const | value =>
          refine initializer_bind_mirrors otherKind fun initializer found => ?_
          exact (lowers initializer found).bind fun value => .bindLocal id value

section Guarded

variable {guard : ExprId} (guard_lt : guard.index < program.ast.exprs.size)

include guard_lt

theorem lowerWhen_mirrors {body otherBody : Build Unit}
    (bodies : Mirrors correspondence alike body otherBody id) :
    Mirrors correspondence alike (lowerWhen program guard body)
      (lowerWhen other (correspondence.expr guard) otherBody) id := by
  refine (lowerExpr_mirrors programs sound guard_lt).bind fun condition => ?_
  refine (Mirrors.newBlock _).bind fun thenBlock => (Mirrors.newBlock _).bind fun endBlock => ?_
  refine Mirrors.bind (.terminate (.condBranch condition thenBlock endBlock)) fun _ => ?_
  refine (Mirrors.switchTo thenBlock).bind fun _ => bodies.bind fun _ => ?_
  exact (Mirrors.branch endBlock).bind fun _ => .switchTo endBlock

theorem lowerIf_mirrors {whenTrue whenFalse otherTrue otherFalse : Build Unit}
    (trues : Mirrors correspondence alike whenTrue otherTrue id)
    (falses : Mirrors correspondence alike whenFalse otherFalse id) :
    Mirrors correspondence alike (lowerIf program guard whenTrue whenFalse)
      (lowerIf other (correspondence.expr guard) otherTrue otherFalse) id := by
  refine (lowerExpr_mirrors programs sound guard_lt).bind fun condition => ?_
  refine (Mirrors.newBlock _).bind fun thenBlock => (Mirrors.newBlock _).bind fun elseBlock => ?_
  refine (Mirrors.newBlock _).bind fun endBlock => ?_
  refine Mirrors.bind (.terminate (.condBranch condition thenBlock elseBlock)) fun _ => ?_
  refine (Mirrors.switchTo thenBlock).bind fun _ => trues.bind fun _ => ?_
  refine (Mirrors.branch endBlock).bind fun _ => (Mirrors.switchTo elseBlock).bind fun _ => ?_
  exact falses.bind fun _ => (Mirrors.branch endBlock).bind fun _ => .switchTo endBlock

theorem lowerWhile_mirrors {body otherBody : LoopTargets → Build Unit}
    (bodies : ∀ targets, Mirrors correspondence alike (body targets) (otherBody targets) id) :
    Mirrors correspondence alike (lowerWhile program guard body)
      (lowerWhile other (correspondence.expr guard) otherBody) id := by
  refine (Mirrors.newBlock _).bind fun condBlock => (Mirrors.newBlock _).bind fun bodyBlock => ?_
  refine (Mirrors.newBlock _).bind fun endBlock => ?_
  refine Mirrors.bind (.terminate (.branch condBlock)) fun _ => ?_
  refine (Mirrors.switchTo condBlock).bind fun _ => ?_
  refine (lowerExpr_mirrors programs sound guard_lt).bind fun condition => ?_
  refine Mirrors.bind (.terminate (.condBranch condition bodyBlock endBlock)) fun _ => ?_
  refine (Mirrors.switchTo bodyBlock).bind fun _ => (bodies ⟨condBlock, endBlock⟩).bind fun _ => ?_
  exact (Mirrors.branch condBlock).bind fun _ => .switchTo endBlock

end Guarded

omit programs sound in
theorem lowerJump_mirrors (loop : Option LoopTargets) (target : LoopTargets → Nat)
    {location otherLocation : Location} (places : correspondence.places location otherLocation)
    {error : SemanticError} (nameless : error.name? = none) :
    Mirrors correspondence alike (lowerJump loop target location error)
      (lowerJump loop target otherLocation error) id := by
  cases loop with
  | none => exact .throw (.nameless places nameless)
  | some targets => exact .terminate (.branch (target targets))

omit programs sound in
theorem lowerSequence_mirrors {lowerStmt' otherLower : StmtId → Build Unit}
    {statements : List StmtId} (lowers : ∀ id ∈ statements, Mirrors correspondence alike
      (lowerStmt' id) (otherLower (correspondence.stmt id)) fun result => result) :
    Mirrors correspondence alike (lowerSequence lowerStmt' statements)
      (lowerSequence otherLower (statements.map correspondence.stmt)) id := by
  induction statements with
  | nil => exact .pure rfl
  | cons statement statements induction =>
      rw [List.forall_mem_cons] at lowers
      exact lowers.1.bind fun _ => induction lowers.2

theorem lowerForm_mirrors (result : Ir.ValueType)
    {lowerStmt' otherLower : Option LoopTargets → StmtId → Build Unit}
    (loop : Option LoopTargets) {stmt otherStmt : Stmt}
    (stmts : correspondence.Stmts stmt otherStmt)
    (expressions_lt : ∀ id ∈ stmt.expressions, id.index < program.ast.exprs.size)
    (lowers : ∀ loop, ∀ id ∈ stmt.children, Mirrors correspondence alike (lowerStmt' loop id)
      (otherLower loop (correspondence.stmt id)) fun result => result) :
    Mirrors correspondence alike (lowerForm program result lowerStmt' loop stmt)
      (lowerForm other result otherLower loop otherStmt) id := by
  cases stmts with
  | block statements => exact lowerSequence_mirrors (lowers loop)
  | whenTrue guard body =>
      exact lowerWhen_mirrors programs sound (expressions_lt guard (List.mem_singleton_self _))
        (lowers loop body (List.mem_singleton_self _))
  | ifElse guard whenTrue whenFalse =>
      exact lowerIf_mirrors programs sound (expressions_lt guard (List.mem_singleton_self _))
        (lowers loop whenTrue (by simp [Stmt.children]))
        (lowers loop whenFalse (by simp [Stmt.children]))
  | whileTrue guard body =>
      have bodies (targets : LoopTargets) := lowers (some targets) body (List.mem_singleton_self _)
      rw [lowerForm, lowerForm]
      exact lowerWhile_mirrors programs sound (expressions_lt guard (List.mem_singleton_self _))
        bodies
  | breakLoop places =>
      have nameless : SemanticError.breakOutsideLoop.name? = none := rfl
      exact lowerJump_mirrors loop LoopTargets.breakBlock places nameless
  | continueLoop places =>
      have nameless : SemanticError.continueOutsideLoop.name? = none := rfl
      exact lowerJump_mirrors loop LoopTargets.continueBlock places nameless
  | returnValue value =>
      refine (lowerExpr_mirrors programs sound
        (expressions_lt value (List.mem_singleton_self _))).bind fun returned => ?_
      exact .terminate (.ret result returned)
  | declaration declaration => exact lowerLocal_mirrors programs sound declaration
  | expression expression =>
      exact (lowerExpr_mirrors programs sound
        (expressions_lt expression (List.mem_singleton_self _))).bind fun _ => .pure rfl

/-- A statement is lowered alike where there is at least as much fuel. -/
theorem lowerStmtWithin_mirrors (result : Ir.ValueType) {fuel otherFuel : Nat}
    (fuel_le : fuel ≤ otherFuel) (same : alike → otherFuel = fuel) (loop : Option LoopTargets)
    {id : StmtId} (id_lt : id.index < program.ast.stmts.size) :
    Mirrors correspondence alike (lowerStmtWithin program result fuel loop id)
      (lowerStmtWithin other result otherFuel loop (correspondence.stmt id))
      fun result => result := by
  induction fuel generalizing otherFuel loop id with
  | zero =>
      intro before alike'
      rw [same alike']
      exact .internal _ _
  | succ fuel induction =>
      obtain ⟨otherFuel, rfl⟩ := Nat.exists_eq_succ_of_ne_zero (Nat.ne_zero_of_lt fuel_le)
      refine lowerForm_mirrors programs sound result loop (programs.stmt id id_lt)
        (sound.stmt_typed id id_lt).expression_lt fun loop child member => ?_
      exact induction (Nat.le_of_succ_le_succ fuel_le) (fun holds => Nat.succ.inj (same holds))
        loop ((sound.child_lt id id_lt child member).trans id_lt)

theorem lowerStmt_mirrors (result : Ir.ValueType) {id : StmtId}
    (id_lt : id.index < program.ast.stmts.size) :
    Mirrors correspondence alike (lowerStmt program result id)
      (lowerStmt other result (correspondence.stmt id)) fun result => result :=
  lowerStmtWithin_mirrors programs sound result (Nat.succ_le_succ programs.stmts_le)
    (fun holds => congrArg Nat.succ (programs.sizes_eq holds).2) none id_lt

end Statements

section Functions

variable (programs : correspondence.Programs alike program other)

include programs

theorem lowerParameter_mirrors (index : Nat) {id : DeclId} {type : Ty}
    (typed : (program.ast.kindOf id).type? = some type) :
    Mirrors correspondence alike (lowerParameter program index id)
      (lowerParameter other index (correspondence.decl id))
      (Ir.Parameter.rename correspondence.rename) := by
  have decls := programs.decl id type typed
  rw [Ast.kindOf] at typed
  rw [lowerParameter, lowerParameter, decls.kind_eq, Correspondence.type?_declKind, typed]
  refine (Mirrors.allocate _).bind fun slot => ?_
  refine Mirrors.bind (.perform (.store (.ofTy type) (.arg index) slot)) fun _ => ?_
  refine (Mirrors.bindLocal id slot).bind fun _ => ?_
  rw [decls.names.2]
  exact .pure rfl

theorem lowerParameters_mirrors (index : Nat) {ids : List DeclId}
    (typed : ∀ id ∈ ids, ∃ type, (program.ast.kindOf id).type? = some type) :
    Mirrors correspondence alike (lowerParameters program index ids)
      (lowerParameters other index (ids.map correspondence.decl))
      (List.map (Ir.Parameter.rename correspondence.rename)) := by
  induction ids generalizing index with
  | nil => exact .pure rfl
  | cons id ids induction =>
      rw [List.forall_mem_cons] at typed
      obtain ⟨⟨type, typed⟩, rest_typed⟩ := typed
      refine (lowerParameter_mirrors programs index typed).bind fun first => ?_
      exact (induction (index + 1) rest_typed).bind fun rest => .pure rfl

variable (coherent : program.Coherent)

include coherent

/-- The blocks of a complete function are built alike. -/
theorem buildFunction_mirrors {id : DeclId} {result : Ty} {parameters : List DeclId} {body : StmtId}
    {next : Nat} (complete : CompleteFunction program id result parameters body next) :
    Mirrors correspondence alike
      (buildFunction program (.ofTy result) (program.ast.decl id))
      (buildFunction other (.ofTy result) (other.ast.decl (correspondence.decl id)))
      (List.map (Ir.Parameter.rename correspondence.rename)) := by
  have kind_eq := complete.kind_eq
  have otherKind := (programs.decl id _ (by rw [kind_eq]; rfl)).kind_eq
  rw [Ast.kindOf] at kind_eq
  rw [kind_eq] at otherKind
  have typed (parameter : DeclId) (member : parameter ∈ parameters) :
      ∃ type, (program.ast.kindOf parameter).type? = some type := by
    obtain ⟨type, parameter_kind⟩ := complete.typed parameter member
    exact ⟨type, by rw [parameter_kind]; rfl⟩
  rw [buildFunction, buildFunction, functionBody, functionBody, kind_eq, otherKind]
  refine (Mirrors.newBlock .entry).bind fun entry => (Mirrors.switchTo entry).bind fun _ => ?_
  refine (lowerParameters_mirrors programs 0 typed).bind fun lowered => ?_
  have body_lowered := lowerStmt_mirrors programs coherent.sound (.ofTy result)
    complete.returns.index_lt
  change Mirrors correspondence alike (lowerStmt program (.ofTy result) body >>= fun _ =>
    pure lowered) (lowerStmt other (.ofTy result) (correspondence.stmt body) >>= fun _ =>
    pure (lowered.map (Ir.Parameter.rename correspondence.rename))) _
  exact body_lowered.bind fun _ => .pure rfl

/-- A function is lowered alike, with the names of the other program. -/
theorem lowerFunction_mirrored {id : DeclId} (atTop : id ∈ program.declarations)
    (isFunction : (program.ast.kindOf id).isFunction = true) :
    match lowerFunction program id with
    | .ok function =>
      lowerFunction other (correspondence.decl id) = .ok (function.rename correspondence.rename)
    | .error error => alike → ∃ otherError,
      lowerFunction other (correspondence.decl id) = .error otherError ∧
        correspondence.Diagnostics error otherError := by
  obtain ⟨result, parameters, body, next, complete⟩ := exists_completeFunction coherent atTop isFunction
  have decls := programs.decl id _ (by rw [complete.kind_eq]; rfl)
  have otherKind := decls.kind_eq
  rw [← Ast.kindOf, ← Ast.kindOf, complete.kind_eq] at otherKind
  have outcome := buildFunction_mirrors programs coherent complete .empty
  have empty_eq : correspondence.builder .empty = .empty := by
    simp [Correspondence.builder, Builder.empty]
  rw [empty_eq] at outcome
  rw [lowerFunction_eq complete.kind_eq, lowerFunction_eq otherKind]
  unfold Builds at outcome
  split at outcome
  · next lowered after run =>
    rw [run]
    split at outcome
    · next otherLowered otherAfter otherRun =>
      obtain ⟨rfl, rfl⟩ := outcome
      rw [otherRun]
      simp only [Except.map, Ir.Function.rename, Builder.finish_builder, decls.names.2]
    · exact outcome.elim
  · next error run =>
    rw [run]
    intro alike'
    have fails := outcome alike'
    split at fails
    · exact fails.elim
    · next otherError otherRun =>
      exact ⟨otherError, by rw [otherRun]; rfl, fails⟩

theorem lowerFunctions_mirrored {ids : List DeclId}
    (functions : ∀ id ∈ ids,
      id ∈ program.declarations ∧ (program.ast.kindOf id).isFunction = true) :
    match lowerFunctions program ids with
    | .ok functions => lowerFunctions other (ids.map correspondence.decl) =
      .ok (functions.map (Ir.Function.rename correspondence.rename))
    | .error error => alike → ∃ otherError,
      lowerFunctions other (ids.map correspondence.decl) = .error otherError ∧
        correspondence.Diagnostics error otherError := by
  induction ids with
  | nil => rfl
  | cons id ids induction =>
      rw [List.forall_mem_cons] at functions
      have first := lowerFunction_mirrored programs coherent functions.1.1 functions.1.2
      have rest := induction functions.2
      rw [List.map_cons, lowerFunctions_cons, lowerFunctions_cons]
      cases lowered : lowerFunction program id with
      | error error =>
          rw [lowered] at first
          intro alike'
          obtain ⟨otherError, otherLowered, diagnostics⟩ := first alike'
          exact ⟨otherError, by rw [otherLowered]; rfl, diagnostics⟩
      | ok function =>
          rw [lowered] at first
          simp only [first, Except.bind]
          cases lowered : lowerFunctions program ids with
          | error error =>
              rw [lowered] at rest
              intro alike'
              obtain ⟨otherError, otherLowered, diagnostics⟩ := rest alike'
              exact ⟨otherError, by rw [otherLowered]; rfl, diagnostics⟩
          | ok functions =>
              rw [lowered] at rest
              rw [rest]
              rfl

omit programs coherent in
/-- The global object of a variable is the same but for its name. -/
theorem lowerGlobal?_mirrored {decl otherDecl : Decl}
    (decls : correspondence.Decls decl otherDecl) :
    lowerGlobal? otherDecl = (lowerGlobal? decl).map (Ir.Global.rename correspondence.rename) := by
  rw [lowerGlobal?, lowerGlobal?, decls.kind_eq, decls.names.2]
  cases decl.kind with
  | object kind => cases kind <;> rfl
  | parameter | function | program => rfl

/-- The global objects of declarations at the top are the same but for their names. -/
theorem lowerGlobals_mirrored {ids : List DeclId} (atTop : ∀ id ∈ ids, id ∈ program.declarations) :
    ((ids.map correspondence.decl).map other.ast.decl).filterMap lowerGlobal? =
      ((ids.map program.ast.decl).filterMap lowerGlobal?).map
        (Ir.Global.rename correspondence.rename) := by
  induction ids with
  | nil => rfl
  | cons id ids induction =>
      rw [List.forall_mem_cons] at atTop
      obtain ⟨type, typed⟩ := (coherent.topLevel id atTop.1).typed
      simp only [List.map_cons, List.filterMap_cons,
        lowerGlobal?_mirrored (programs.decl id type typed), induction atTop.2]
      cases lowerGlobal? (program.ast.decl id) <;> rfl

/-- Which declarations at the top are functions is the same. -/
theorem filter_isFunction_mirrored {ids : List DeclId}
    (atTop : ∀ id ∈ ids, id ∈ program.declarations) :
    (ids.map correspondence.decl).filter (fun id => (other.ast.decl id).kind.isFunction) =
      (ids.filter fun id => (program.ast.decl id).kind.isFunction).map correspondence.decl := by
  rw [List.filter_map]
  congr 1
  refine List.filter_congr fun id member => ?_
  obtain ⟨type, typed⟩ := (coherent.topLevel id (atTop id member)).typed
  rw [Function.comp_apply, (programs.decl id type typed).kind_eq,
    Correspondence.isFunction_declKind]

end Functions

end Lowering

/-- Programs that correspond are lowered to the same module, up to what it and its parts are called, or fail
alike. -/
theorem lower_mirrored {correspondence : Correspondence} {program other : Program}
    (programs : correspondence.Programs True program other) (coherent : program.Coherent)
    (otherCoherent : other.Coherent)
    (declarations_eq : other.declarations = program.declarations.map correspondence.decl) :
    match lower program with
    | .ok module => ∃ otherModule, lower other = .ok otherModule ∧
      otherModule = { module.rename correspondence.rename with name := otherModule.name }
    | .error error => ∃ otherError, lower other = .error otherError ∧
      correspondence.Diagnostics error otherError := by
  have functions := Lowering.lowerFunctions_mirrored programs coherent
    (fun id (member : id ∈ program.declarations.filter fun id =>
      (program.ast.decl id).kind.isFunction) => List.mem_filter.1 member)
  rw [Lowering.lower_eq coherent, Lowering.lower_eq otherCoherent, declarations_eq,
    Lowering.filter_isFunction_mirrored programs coherent fun _ member => member,
    Lowering.lowerGlobals_mirrored programs coherent fun _ member => member]
  cases lowered : Lowering.lowerFunctions program
      (program.declarations.filter fun id => (program.ast.decl id).kind.isFunction) with
  | ok lowered' =>
      rw [lowered] at functions
      rw [functions]
      exact ⟨_, rfl, rfl⟩
  | error error =>
      rw [lowered] at functions
      obtain ⟨otherError, otherLowered, diagnostics⟩ := functions trivial
      exact ⟨otherError, by rw [otherLowered]; rfl, diagnostics⟩

end Minilang
