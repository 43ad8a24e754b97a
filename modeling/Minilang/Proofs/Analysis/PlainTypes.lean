import Minilang.Proofs.Analysis.Declarations

/-!
# Plain types

References stand for storage and cannot be written down: every declared type is plain, which means that it
holds no reference at any depth. So an expression has a plain type or designates storage for an object of
one, and references never nest.
-/

namespace Minilang

namespace Ty

mutual

/-- Whether a type holds no reference at any depth. -/
def isPlain : Ty → Bool
  | bool | char | int | float => true
  | pointer target => isPlain target
  | reference _ => false
  | function result parameters => isPlain result && arePlain parameters

/-- Whether types hold no references. -/
def arePlain : List Ty → Bool
  | [] => true
  | type :: types => isPlain type && arePlain types

end

theorem arePlain_iff {types : List Ty} :
    arePlain types = true ↔ ∀ type ∈ types, type.isPlain = true := by
  induction types with
  | nil => simp [arePlain]
  | cons type types induction =>
      rw [arePlain, Bool.and_eq_true, induction, List.forall_mem_cons]

@[simp] theorem isPlain_ofBasic (basic : BasicType) : (ofBasic basic).isPlain = true := by
  cases basic <;> rfl

theorem isPlain_function {result : Ty} {parameters : List Ty} :
    (function result parameters).isPlain = true ↔
      result.isPlain = true ∧ ∀ parameter ∈ parameters, parameter.isPlain = true := by
  rw [isPlain, Bool.and_eq_true, arePlain_iff]

/-- A plain type is no reference. -/
theorem isReference_of_isPlain {type : Ty} (plain : type.isPlain = true) :
    type.isReference = false := by
  cases type with
  | reference object => rw [isPlain] at plain; cases plain
  | _ => rfl

theorem objectType_of_isPlain {type : Ty} (plain : type.isPlain = true) :
    type.objectType = type := by
  cases type with
  | reference object => rw [isPlain] at plain; cases plain
  | _ => rfl

end Ty

namespace Ast

/-- Whether every declared type is plain. -/
def DeclaresPlain (ast : Ast) : Prop :=
  ∀ id type, (ast.kindOf id).type? = some type → type.isPlain = true

namespace DeclaresPlain

variable {ast : Ast}

theorem empty : DeclaresPlain .empty := by
  intro id type declared
  exact absurd (index_lt_of_type? declared) (Nat.not_lt_zero _)

theorem of_decls_eq {after : Ast} (plain : ast.DeclaresPlain) (decls_eq : after.decls = ast.decls) :
    after.DeclaresPlain := by
  intro id type declared
  rw [kindOf, decl, decls_eq] at declared
  exact plain id type declared

/-- A declaration of a plain type may be added. -/
theorem addDecl (plain : ast.DeclaresPlain) {decl : Decl}
    (added : ∀ type, decl.kind.type? = some type → type.isPlain = true) :
    (ast.addDecl decl).2.DeclaresPlain := by
  intro id type declared
  by_cases earlier : id.index < ast.decls.size
  · rw [kindOf, decl_addDecl_of_lt earlier] at declared
    exact plain id type declared
  · have bound := index_lt_of_type? declared
    simp only [Ast.addDecl, Array.size_push] at bound
    obtain rfl : id = (ast.addDecl decl).1 :=
      congrArg DeclId.mk (Nat.eq_of_lt_succ_of_not_lt bound earlier)
    rw [kindOf, decl_addDecl_self] at declared
    exact added type declared

/-- A declaration may be completed. -/
theorem setDeclKind (plain : ast.DeclaresPlain) {id : DeclId} {kind : DeclKind}
    (same : kind.type? = (ast.kindOf id).type?) : (ast.setDeclKind id kind).DeclaresPlain := by
  intro other type declared
  by_cases bound : id.index < ast.decls.size
  · rw [kindOf, decl_setDeclKind ast id other kind bound] at declared
    split at declared
    · next is_same => exact plain id type (same ▸ declared)
    · exact plain other type declared
  · have unchanged : (ast.setDeclKind id kind).decls = ast.decls := by
      simp [Ast.setDeclKind, Array.modify, Array.modifyM, bound]
    exact plain.of_decls_eq unchanged other type declared

/-- An expression has a plain type, or it designates storage for an object of one. -/
theorem objectType_typeOf (plain : ast.DeclaresPlain) (sound : ast.Sound) {id : ExprId}
    (bound : id.index < ast.exprs.size) : (ast.typeOf id).objectType.isPlain = true := by
  induction order : id.index using Nat.strongRecOn generalizing id with
  | _ index induction =>
      subst order
      have operand_plain {operand : ExprId} (member : operand ∈ (ast.expr id).kind.operands) :
          (ast.typeOf operand).objectType.isPlain = true :=
        have older := (sound.expr_grounded id bound).operand_lt operand member
        induction operand.index older (older.trans bound) rfl
      have typed := sound.expr_typed id bound
      generalize (ast.expr id).kind = kind at typed operand_plain
      generalize ast.typeOf id = type at typed
      cases typed with
      | bool | int | float | char | bitNot | logicalNot | bitwise | logical | comparison => rfl
      | @«variable» declaration declared _ is_declared =>
          have declared_plain := plain declaration declared is_declared
          rw [Ty.objectType_referenceTo, Ty.objectType_of_isPlain declared_plain]
          exact declared_plain
      | @name declaration _ _ is_declared =>
          have declared_plain := plain declaration _ is_declared
          rw [Ty.objectType_of_isPlain declared_plain]
          exact declared_plain
      | arithmetic _ number => cases type <;> first | rfl | cases number
      | call callee_type =>
          have callee_plain := operand_plain (by exact List.mem_cons_self)
          rw [callee_type] at callee_plain
          have result_plain := (Ty.isPlain_function.1 callee_plain).1
          rw [Ty.objectType_of_isPlain result_plain]
          exact result_plain
      | cast operand_type =>
          exact operand_type ▸ operand_plain (by exact List.mem_cons_self)
      | assign target_type =>
          have target_plain := operand_plain (by exact List.mem_cons_self)
          rw [target_type] at target_plain
          exact target_plain
      | conditional _ true_type =>
          exact true_type ▸ operand_plain (by simp [ExprKind.operands])
      | load operand_type =>
          have operand_plain := operand_plain (by exact List.mem_cons_self)
          rw [operand_type] at operand_plain
          replace operand_plain : type.isPlain = true := operand_plain
          rw [Ty.objectType_of_isPlain operand_plain]
          exact operand_plain
      | @convert _ operand _ leads =>
          generalize ast.typeOf operand = source at leads
          cases leads <;> rfl

end DeclaresPlain

end Ast

namespace Analysis

open Ast (DeclaresPlain)

/-! ## Steps that declare nothing -/

/-- Whether a step that gives a result has left all declarations alone. -/
def LeavesDecls {α : Type} (step : Check α) : Prop :=
  ∀ before, Ensures step before (fun _ after => after.ast.decls = before.ast.decls) fun _ _ => True

namespace LeavesDecls

variable {α β : Type}

theorem pure (result : α) : LeavesDecls (pure result) := fun _ => rfl

theorem reject (location : Location) (error : SemanticError) :
    LeavesDecls (reject location error : Check α) := fun _ => trivial

theorem refuse (error : InternalError) : LeavesDecls (refuse error : Check α) := fun _ => trivial

theorem get : LeavesDecls get := fun _ => rfl

theorem expr (id : ExprId) : LeavesDecls (expr id) := fun _ => rfl

theorem decl (id : DeclId) : LeavesDecls (decl id) := fun _ => rfl

theorem addExpr (kind : ExprKind) (type : Ty) (location : Location) :
    LeavesDecls (addExpr kind type location) := fun _ => rfl

theorem addStmt (stmt : Stmt) : LeavesDecls (addStmt stmt) := fun _ => rfl

theorem setScopes (scopes : ScopeChain) : LeavesDecls (setScopes scopes) := fun _ => rfl

theorem bind {first : Check β} {next : β → Check α} (first_leaves : LeavesDecls first)
    (next_leaves : ∀ result, LeavesDecls (next result)) : LeavesDecls (first >>= next) := by
  intro before
  rw [ensures_bind]
  refine (first_leaves before).mono ?_ fun _ _ => id
  intro result middle same
  exact (next_leaves result middle).mono (fun _ _ other => other.trans same) fun _ _ => id

theorem of_if {condition : Prop} [Decidable condition] {first second : Check α}
    (first_leaves : LeavesDecls first) (second_leaves : LeavesDecls second) :
    LeavesDecls (if condition then first else second) := by
  split
  · exact first_leaves
  · exact second_leaves

/-- A step that is taken under a condition, in front of another one. -/
theorem guarded {condition : Prop} [Decidable condition] {first : Check PUnit}
    {next : Check α} (first_leaves : LeavesDecls first) (next_leaves : LeavesDecls next) :
    LeavesDecls (if condition then first >>= fun _ => next else next) :=
  .of_if (first_leaves.bind fun _ => next_leaves) next_leaves

theorem nameOf (token : Token) : LeavesDecls (nameOf token) := by
  unfold Analysis.nameOf
  split
  · exact .pure _
  · exact .refuse _

theorem convert (conversion : Conversion) (operand : ExprId) (type : Ty) :
    LeavesDecls (convert conversion operand type) :=
  (expr operand).bind fun _ => .addExpr _ _ _

theorem rejectConversion (id : ExprId) (target : Ty) : LeavesDecls (rejectConversion id target) :=
  (expr id).bind fun _ => .reject _ _

theorem load (id : ExprId) : LeavesDecls (load id) := by
  refine (expr id).bind fun value => ?_
  split
  · exact convert _ _ _
  · exact .pure _

theorem requireReference (id : ExprId) : LeavesDecls (requireReference id) :=
  (expr id).bind fun _ => .of_if (.pure _) (.reject _ _)

theorem requireCategory (category : Category) (id : ExprId) :
    LeavesDecls (requireCategory category id) :=
  (load id).bind fun value => (expr value).bind fun _ => .of_if (.pure _) (.reject _ _)

theorem requireSame (expected : Ty) (id : ExprId) : LeavesDecls (requireSame expected id) :=
  (expr id).bind fun _ => .of_if (.pure _) (.reject _ _)

theorem commonType (left right : Ty) (location : Location) :
    LeavesDecls (commonType left right location) := by
  unfold Analysis.commonType
  split
  · exact .pure _
  · exact .reject _ _

theorem convertToBasic (target : BasicType) (id : ExprId) :
    LeavesDecls (convertToBasic target id) := by
  refine (load id).bind fun value => (expr value).bind fun operand => .of_if (.pure _) ?_
  split
  · exact convert _ _ _
  · exact rejectConversion _ _

theorem convertTo (id : ExprId) (type : Ty) : LeavesDecls (convertTo id type) := by
  have convert (operand : ExprId) : LeavesDecls (convertOperand type operand) := by
    refine (expr operand).bind fun value => .of_if (.pure _) ?_
    split
    · exact convertToBasic _ _
    · exact rejectConversion _ _
  rw [convertTo_eq]
  exact .of_if ((load id).bind convert) ((LeavesDecls.pure id).bind convert)

theorem addBinary (token : Token) (operator : BinaryOperator) (left right : ExprId) (type : Ty) :
    LeavesDecls (addBinary token operator left right type) := .addExpr _ _ _

theorem logical (operator : BinaryOperator) (token : Token) (left right : ExprId) :
    LeavesDecls (logical operator token left right) :=
  (requireCategory _ _).bind fun _ => (requireCategory _ _).bind fun _ => addBinary _ _ _ _ _

theorem bitwise (operator : BinaryOperator) (token : Token) (left right : ExprId) :
    LeavesDecls (bitwise operator token left right) :=
  (requireCategory _ _).bind fun _ => (requireCategory _ _).bind fun _ => addBinary _ _ _ _ _

theorem requireAlike (category : Category) (left right : ExprId) :
    LeavesDecls (requireAlike category left right) :=
  (requireCategory _ _).bind fun left => (requireCategory _ _).bind fun _ =>
    (expr left).bind fun _ => (requireSame _ _).bind fun _ => .pure _

theorem arithmetic (operator : BinaryOperator) (token : Token) (left right : ExprId) :
    LeavesDecls (arithmetic operator token left right) :=
  (requireAlike _ _ _).bind fun _ => addBinary _ _ _ _ _

theorem comparison (category : Category) (token : Token) (left right : ExprId) :
    LeavesDecls (comparison category token left right) := by
  have compare (operator : BinaryOperator) :
      LeavesDecls (compare category operator token left right) :=
    (requireAlike _ _ _).bind fun _ => addBinary _ _ _ _ _
  unfold Analysis.comparison
  split
  case h_7 => exact (LeavesDecls.refuse _).bind compare
  all_goals exact (LeavesDecls.pure _).bind compare

theorem combine (level : OperatorLevel) (token : Token) (left right : ExprId) :
    LeavesDecls (level.combine token left right) := by
  cases level with
  | logicalOr | logicalAnd => exact logical _ _ _ _
  | bitwiseOr | bitwiseXor | bitwiseAnd => exact bitwise _ _ _ _
  | equality | relational => exact comparison _ _ _ _
  | shift =>
      change LeavesDecls (Analysis.shift token left right)
      unfold Analysis.shift
      split
      · exact bitwise _ _ _ _
      · exact bitwise _ _ _ _
      · exact .refuse _
  | additive =>
      change LeavesDecls (Analysis.additive token left right)
      unfold Analysis.additive
      split
      · exact arithmetic _ _ _ _
      · exact arithmetic _ _ _ _
      · exact .refuse _
  | multiplicative =>
      change LeavesDecls (Analysis.multiplicative token left right)
      unfold Analysis.multiplicative
      split
      · exact arithmetic _ _ _ _
      · exact arithmetic _ _ _ _
      · exact arithmetic _ _ _ _
      · exact .refuse _

theorem assignment (target value : ExprId) : LeavesDecls (assignment target value) :=
  (requireReference _).bind fun target => (load _).bind fun _ => (expr target).bind fun _ =>
    (requireSame _ _).bind fun _ => .addExpr _ _ _

theorem conditional (guard whenTrue whenFalse : ExprId) :
    LeavesDecls (conditional guard whenTrue whenFalse) :=
  (requireCategory _ _).bind fun guard => (expr guard).bind fun _ => (expr whenTrue).bind fun _ =>
    (expr whenFalse).bind fun _ => (commonType _ _ _).bind fun _ => (convertTo _ _).bind fun _ =>
      (convertTo _ _).bind fun _ => .addExpr _ _ _

theorem cast (operand : ExprId) (type : Ty) : LeavesDecls (cast operand type) :=
  (expr operand).bind fun _ => (convertTo _ _).bind fun _ => .addExpr _ _ _

theorem unary (token : Token) (operand : ExprId) : LeavesDecls (unary token operand) := by
  unfold Analysis.unary
  split
  · exact requireCategory _ _
  · exact (requireCategory _ _).bind fun operand => (expr operand).bind fun _ =>
      (addExpr _ _ _).bind fun _ => addBinary _ _ _ _ _
  · exact (requireCategory _ _).bind fun _ => .addExpr _ _ _
  · exact (requireCategory _ _).bind fun _ => .addExpr _ _ _
  · exact .reject _ _
  · exact .reject _ _
  · exact .refuse _

theorem convertArguments (position : Nat) (arguments : List ExprId) (parameters : List Ty) :
    LeavesDecls (convertArguments position arguments parameters) := by
  induction arguments generalizing position parameters with
  | nil => unfold Analysis.convertArguments; exact .pure _
  | cons argument arguments induction =>
      cases parameters with
      | nil => unfold Analysis.convertArguments; exact .pure _
      | cons parameter parameters =>
          unfold Analysis.convertArguments
          refine (load _).bind fun value => (expr value).bind fun loaded => ?_
          have rest : LeavesDecls (do
              let rest ← Analysis.convertArguments (position + 1) arguments parameters
              return value :: rest) :=
            (induction _ _).bind fun _ => .pure _
          split
          · exact (LeavesDecls.reject _ _).bind fun _ => rest
          · exact rest

theorem call (callee : ExprId) (arguments : List ExprId) : LeavesDecls (call callee arguments) := by
  refine (requireCategory _ _).bind fun callee => (expr callee).bind fun function => ?_
  split
  · next result parameters _ =>
    have called : LeavesDecls (do
        let arguments ← Analysis.convertArguments 1 arguments parameters
        Analysis.addExpr (.call callee arguments) result function.location) :=
      (convertArguments _ _ _).bind fun _ => .addExpr _ _ _
    have enough : LeavesDecls (do
        if arguments.length < parameters.length then
          Analysis.reject function.location (.tooFewArguments parameters.length arguments.length)
        let arguments ← Analysis.convertArguments 1 arguments parameters
        Analysis.addExpr (.call callee arguments) result function.location) := by
      split
      · exact (LeavesDecls.reject _ _).bind fun _ => called
      · exact called
    exact .of_if ((LeavesDecls.reject _ _).bind fun _ => enough) enough
  · exact .refuse _

theorem index (base : ExprId) (arguments : List ExprId) : LeavesDecls (index base arguments) :=
  (expr base).bind fun _ => .reject _ _

theorem addInteger (value : Int64) (checkedAt location : Location) :
    LeavesDecls (addInteger value checkedAt location) :=
  .of_if (.addExpr _ _ _) (.reject _ _)

theorem integerLiteral (token : Token) : LeavesDecls (integerLiteral token) := by
  unfold Analysis.integerLiteral
  split
  · exact addInteger _ _ _
  · exact .refuse _

theorem negatedIntegerLiteral (sign token : Token) :
    LeavesDecls (negatedIntegerLiteral sign token) := by
  unfold Analysis.negatedIntegerLiteral
  split
  · exact addInteger _ _ _
  · exact .refuse _

theorem booleanLiteral (token : Token) : LeavesDecls (booleanLiteral token) := by
  unfold Analysis.booleanLiteral
  split
  · exact .addExpr _ _ _
  · exact .refuse _

theorem floatLiteral (token : Token) : LeavesDecls (floatLiteral token) := by
  unfold Analysis.floatLiteral
  split
  · exact .addExpr _ _ _
  · exact .refuse _

theorem characterLiteral (token : Token) : LeavesDecls (characterLiteral token) := by
  unfold Analysis.characterLiteral
  split
  · exact .of_if (.addExpr _ _ _) (.reject _ _)
  · exact .refuse _

theorem stringLiteral (token : Token) : LeavesDecls (stringLiteral token) := .reject _ _

theorem name (token : Token) : LeavesDecls (name token) := by
  refine (nameOf token).bind fun text => get.bind fun analysis => ?_
  split
  · exact .reject _ _
  · next id _ =>
    refine (decl id).bind fun declared => ?_
    refine .guarded (.reject _ _) ?_
    split
    · exact .refuse _
    · exact .addExpr _ _ _

theorem ifElse (guard : ExprId) (whenTrue whenFalse : StmtId) :
    LeavesDecls (ifElse guard whenTrue whenFalse) :=
  (requireCategory _ _).bind fun _ => .addStmt _

theorem whenTrue (guard : ExprId) (body : StmtId) : LeavesDecls (whenTrue guard body) :=
  (requireCategory _ _).bind fun _ => .addStmt _

theorem whileTrue (guard : ExprId) (body : StmtId) : LeavesDecls (whileTrue guard body) :=
  (requireCategory _ _).bind fun _ => .addStmt _

theorem returnValue (value : ExprId) : LeavesDecls (returnValue value) := by
  refine (load _).bind fun value => get.bind fun analysis => ?_
  split
  · exact .refuse _
  · next function _ =>
    refine (decl function).bind fun declared => ?_
    split
    · exact .refuse _
    · exact (requireSame _ _).bind fun _ => .addStmt _

theorem enterGlobalScope : LeavesDecls enterGlobalScope := by
  refine get.bind fun analysis => ?_
  have enters := setScopes (analysis.scopes.push .global)
  dsimp only
  split
  · exact (LeavesDecls.refuse _).bind fun _ => enters
  · exact enters

theorem enterParameterScope : LeavesDecls enterParameterScope := get.bind fun _ => .setScopes _

theorem enterBlockScope : LeavesDecls enterBlockScope := get.bind fun _ => .setScopes _

theorem leaveScope : LeavesDecls leaveScope := by
  refine get.bind fun analysis => ?_
  split
  · exact .setScopes _
  · exact .refuse _

theorem declare (id : DeclId) : LeavesDecls (declare id) := by
  refine (decl id).bind fun declared => get.bind fun analysis => ?_
  split
  · exact .setScopes _
  · exact .reject _ _

theorem startBlock : LeavesDecls startBlock := by
  have declares (ids : List DeclId) : LeavesDecls (ids.forM Analysis.declare) := by
    induction ids with
    | nil => exact .pure _
    | cons id ids induction => exact (declare id).bind fun _ => induction
  refine get.bind fun analysis => ?_
  refine .of_if (.pure _) ?_
  split
  · exact .pure _
  · exact declares _

end LeavesDecls

/-! ## Steps that declare -/

/-- Whether a step keeps all declared types plain. -/
def KeepsPlain {α : Type} (step : Check α) : Prop :=
  ∀ before, before.ast.DeclaresPlain →
    Ensures step before (fun _ after => after.ast.DeclaresPlain) fun _ _ => True

namespace KeepsPlain

variable {α β : Type}

theorem of_leavesDecls {step : Check α} (leaves : LeavesDecls step) : KeepsPlain step :=
  fun before plain => (leaves before).mono (fun _ _ same => plain.of_decls_eq same) fun _ _ => id

theorem bind {first : Check β} {next : β → Check α} (first_keeps : KeepsPlain first)
    (next_keeps : ∀ result, KeepsPlain (next result)) : KeepsPlain (first >>= next) := by
  intro before plain
  rw [ensures_bind]
  exact (first_keeps before plain).mono (fun result middle => next_keeps result middle) fun _ _ => id

theorem addDecl (name : String) (location : Location) {kind : DeclKind}
    (added : ∀ type, kind.type? = some type → type.isPlain = true) :
    KeepsPlain (addDecl name location kind) :=
  fun _ plain => plain.addDecl added

theorem declareNew (token : Token) {kind : DeclKind}
    (added : ∀ type, kind.type? = some type → type.isPlain = true) :
    KeepsPlain (declareNew token kind) :=
  (of_leavesDecls (.nameOf _)).bind fun _ => (addDecl _ _ added).bind fun _ =>
    (of_leavesDecls (.declare _)).bind fun _ => of_leavesDecls (.pure _)

theorem declareObject (kind : ObjectKind) (token : Token) {type : Ty} (plain : type.isPlain = true) :
    KeepsPlain (declareObject kind token type) :=
  declareNew token fun _ declared => Option.some.inj declared ▸ plain

theorem declareParameter (token : Token) {type : Ty} (plain : type.isPlain = true) :
    KeepsPlain (declareParameter token type) :=
  declareNew token fun _ declared => Option.some.inj declared ▸ plain

theorem declareFunction (token : Token) (parameters : List DeclId) {result : Ty}
    (plain : result.isPlain = true) : KeepsPlain (declareFunction token parameters result) := by
  intro before declares
  refine (declareFunction_ensures token parameters result).mono ?_ fun _ _ _ => trivial
  rintro id after ⟨name, scopes, -, -, -, -, rfl⟩
  refine (declares.addDecl ?_).of_decls_eq rfl
  rintro type ⟨rfl⟩
  refine Ty.isPlain_function.2 ⟨plain, fun parameter member => ?_⟩
  obtain ⟨declaration, -, declared⟩ := List.mem_filterMap.1 member
  exact declares declaration parameter declared

theorem defineObject (id : DeclId) (initializer : ExprId) :
    KeepsPlain (defineObject id initializer) := by
  refine (of_leavesDecls (.load _)).bind fun value before plain => ?_
  rw [ensures_bind, ensures_decl]
  set declared := before.ast.decl id with declared_eq
  cases kind_eq : declared.kind with
  | program => exact trivial
  | parameter type | function type =>
      have same := @requireSame_ensures 0 before type value
      rw [DeclKind.type?, ensures_bind]
      refine same.mono ?_ fun _ _ _ => trivial
      rintro _ _ ⟨rfl, -⟩
      rw [ensures_bind, ensures_get]
      dsimp only
      split
      · trivial
      · trivial
  | object kind type initializer =>
      have same := @requireSame_ensures 0 before type value
      rw [DeclKind.type?, ensures_bind]
      refine same.mono ?_ fun _ _ _ => trivial
      rintro _ _ ⟨rfl, -⟩
      rw [ensures_bind, ensures_get]
      cases initializer with
      | some =>
          dsimp only
          split
          · trivial
          · trivial
      | none =>
          dsimp only
          split
          · trivial
          · exact plain.setDeclKind (by rw [Ast.kindOf, ← declared_eq, kind_eq]; rfl)

theorem defineFunction (id : DeclId) (body : StmtId) : KeepsPlain (defineFunction id body) := by
  intro before plain
  refine (defineFunction_ensures id body).mono ?_ fun _ _ _ => trivial
  rintro _ after ⟨type, parameters, -, kind_eq, -, rfl⟩
  exact (plain.setDeclKind (by rw [kind_eq]; rfl)).of_decls_eq rfl

theorem addProgram (title : String) (declarations : List DeclId) :
    KeepsPlain (addProgram title declarations) :=
  addDecl _ _ nofun

end KeepsPlain

end Analysis

end Minilang
