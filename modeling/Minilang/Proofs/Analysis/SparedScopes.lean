import Minilang.Proofs.Analysis.Outcome
import Minilang.Proofs.Parsing.LexicalScopes

/-!
# Steps that leave scopes alone

Expressions and statements are put together from expressions that are there. None of these steps opens a
scope, declares anything or uses a name, and none fails for a name.
-/

namespace Minilang

/-- Whether a failure is about neither names nor characters. -/
def Diagnostic.IsOther (error : Diagnostic) : Prop :=
  error.isScoping = false ∧ error.isLexical = false

/-- Whether an expression is the use of a name. -/
def ExprKind.isUse : ExprKind → Bool
  | name _ => true
  | _ => false

namespace Analysis

/-- Whether scopes, declarations and uses of names have stayed as they were. -/
structure Spares (before after : Analysis) : Prop where
  /-- The same scopes are open. -/
  scopes_eq : after.scopes = before.scopes
  /-- The same function is being defined. -/
  function_eq : after.function = before.function
  /-- The same things are declared. -/
  decls_eq : after.ast.decls = before.ast.decls
  /-- Uses of names were there before. -/
  use_eq (id : ExprId) (declaration : DeclId) :
    (after.ast.expr id).kind = .name declaration → after.ast.expr id = before.ast.expr id

namespace Spares

theorem refl (analysis : Analysis) : analysis.Spares analysis := ⟨rfl, rfl, rfl, fun _ _ _ => rfl⟩

theorem trans {before middle after : Analysis} (first : before.Spares middle)
    (second : middle.Spares after) : before.Spares after where
  scopes_eq := second.scopes_eq.trans first.scopes_eq
  function_eq := second.function_eq.trans first.function_eq
  decls_eq := second.decls_eq.trans first.decls_eq
  use_eq id declaration used :=
    have later := second.use_eq id declaration used
    later.trans (first.use_eq id declaration (later ▸ used))

end Spares

variable {α β : Type}

/-- Whether a step leaves scopes, declarations and uses of names as they are, and does not fail for a
name. -/
structure SparesScopes (step : Check α) : Prop where
  /-- This holds behind the step, from wherever it is taken. -/
  ensures (before : Analysis) :
    Ensures step before (fun _ after => before.Spares after) fun error _ => error.IsOther

namespace SparesScopes

theorem pure (result : α) : SparesScopes (pure result) := ⟨fun before => .refl before⟩

theorem bind {first : Check β} {next : β → Check α} (first_spares : SparesScopes first)
    (next_spares : ∀ result, SparesScopes (next result)) : SparesScopes (first >>= next) := by
  refine ⟨fun before => ?_⟩
  rw [ensures_bind]
  refine (first_spares.ensures before).mono (fun result middle spared => ?_) fun _ _ => id
  exact ((next_spares result).ensures middle).mono (fun _ _ => spared.trans) fun _ _ => id

theorem reject (location : Location) {error : SemanticError} (unscoped : error.isScoping = false) :
    SparesScopes (reject location error : Check α) :=
  ⟨fun _ => ⟨unscoped, rfl⟩⟩

theorem refuse (error : InternalError) : SparesScopes (refuse error : Check α) :=
  ⟨fun _ => ⟨rfl, rfl⟩⟩

theorem get : SparesScopes (get : Check Analysis) := ⟨fun before => .refl before⟩

theorem expr (id : ExprId) : SparesScopes (expr id) := ⟨fun before => .refl before⟩

theorem decl (id : DeclId) : SparesScopes (decl id) := ⟨fun before => .refl before⟩

/-- An expression that is no use of a name is added. -/
theorem addExpr {kind : ExprKind} (unused : kind.isUse = false) (type : Ty) (location : Location) :
    SparesScopes (addExpr kind type location) := by
  refine ⟨fun before => ⟨rfl, rfl, rfl, fun id declaration used => ?_⟩⟩
  by_cases earlier : id.index < before.ast.exprs.size
  · exact Ast.expr_addExpr_of_lt earlier _
  · dsimp only at used
    simp only [Ast.expr] at used
    by_cases added : id.index = before.ast.exprs.size
    · rw [added, Array.getElem?_push_size, Option.getD_some] at used
      subst used
      cases unused
    · rw [Array.getElem?_eq_none (by rw [Array.size_push]; omega)] at used
      cases used

theorem addStmt (stmt : Stmt) : SparesScopes (addStmt stmt) :=
  ⟨fun _ => ⟨rfl, rfl, rfl, fun _ _ _ => rfl⟩⟩

theorem ite {condition : Prop} [Decidable condition] {left right : Check α}
    (left_spares : SparesScopes left) (right_spares : SparesScopes right) :
    SparesScopes (if condition then left else right) := by
  split
  · exact left_spares
  · exact right_spares

/-- A step that is taken under a condition, in front of the others. -/
theorem guarded {condition : Prop} [Decidable condition] {first : Check PUnit}
    {next : PUnit → Check α} (first_spares : SparesScopes first)
    (next_spares : ∀ result, SparesScopes (next result)) :
    SparesScopes (if condition then first >>= next else next ⟨⟩) :=
  .ite (first_spares.bind next_spares) (next_spares ⟨⟩)

/-! ## Conversions -/

theorem convert (conversion : Conversion) (id : ExprId) (type : Ty) :
    SparesScopes (convert conversion id type) :=
  (expr id).bind fun _ => .addExpr rfl _ _

theorem rejectConversion (id : ExprId) (target : Ty) : SparesScopes (rejectConversion id target) :=
  (expr id).bind fun _ => .reject _ rfl

theorem load (id : ExprId) : SparesScopes (load id) := by
  refine (expr id).bind fun expr => ?_
  split
  · exact convert ..
  · exact .pure _

theorem requireReference (id : ExprId) : SparesScopes (requireReference id) :=
  (expr id).bind fun _ => .ite (.pure _) (.reject _ rfl)

theorem requireCategory (category : Category) (id : ExprId) :
    SparesScopes (requireCategory category id) :=
  (load id).bind fun value => (expr value).bind fun _ => .ite (.pure _) (.reject _ rfl)

theorem requireSame (expected : Ty) (id : ExprId) : SparesScopes (requireSame expected id) :=
  (expr id).bind fun _ => .ite (.pure _) (.reject _ rfl)

theorem commonType (left right : Ty) (location : Location) :
    SparesScopes (commonType left right location) := by
  unfold Analysis.commonType
  split
  · exact .pure _
  · exact .reject _ rfl

theorem convertToBasic (target : BasicType) (id : ExprId) :
    SparesScopes (convertToBasic target id) := by
  refine (load id).bind fun value => (expr value).bind fun _ => .ite (.pure _) ?_
  split
  · exact convert ..
  · exact rejectConversion ..

theorem convertTo (id : ExprId) (type : Ty) : SparesScopes (convertTo id type) := by
  unfold Analysis.convertTo
  extract_lets converts
  have converts_spares (operand : ExprId) : SparesScopes (converts operand) := by
    refine (expr operand).bind fun _ => .ite (.pure _) ?_
    split
    · exact convertToBasic ..
    · exact rejectConversion ..
  exact .ite ((load id).bind converts_spares) (.bind (.pure id) converts_spares)

/-! ## Expressions -/

theorem refuseToken (token : Token) : SparesScopes (refuseToken token : Check α) := .refuse _

theorem addBinary (token : Token) (operator : BinaryOperator) (left right : ExprId) (type : Ty) :
    SparesScopes (addBinary token operator left right type) := addExpr rfl ..

theorem logical (operator : BinaryOperator) (token : Token) (left right : ExprId) :
    SparesScopes (logical operator token left right) :=
  (requireCategory _ left).bind fun _ => (requireCategory _ right).bind fun _ => addBinary ..

theorem bitwise (operator : BinaryOperator) (token : Token) (left right : ExprId) :
    SparesScopes (bitwise operator token left right) :=
  (requireCategory _ left).bind fun _ => (requireCategory _ right).bind fun _ => addBinary ..

theorem requireAlike (category : Category) (left right : ExprId) :
    SparesScopes (requireAlike category left right) :=
  (requireCategory category left).bind fun left => (requireCategory category right).bind fun right =>
    (expr left).bind fun _ => (requireSame _ right).bind fun _ => .pure _

theorem arithmetic (operator : BinaryOperator) (token : Token) (left right : ExprId) :
    SparesScopes (arithmetic operator token left right) :=
  (requireAlike _ left right).bind fun _ => addBinary ..

theorem comparison (category : Category) (token : Token) (left right : ExprId) :
    SparesScopes (comparison category token left right) := by
  unfold Analysis.comparison
  extract_lets adds
  have adds_spares (operator : BinaryOperator) : SparesScopes (adds operator) :=
    (requireAlike category left right).bind fun _ => addBinary ..
  split
  case h_7 => exact (refuseToken token).bind adds_spares
  all_goals exact adds_spares _

theorem shift (token : Token) (left right : ExprId) : SparesScopes (shift token left right) := by
  unfold Analysis.shift
  split
  · exact bitwise ..
  · exact bitwise ..
  · exact refuseToken token

theorem additive (token : Token) (left right : ExprId) :
    SparesScopes (additive token left right) := by
  unfold Analysis.additive
  split
  · exact arithmetic ..
  · exact arithmetic ..
  · exact refuseToken token

theorem multiplicative (token : Token) (left right : ExprId) :
    SparesScopes (multiplicative token left right) := by
  unfold Analysis.multiplicative
  split
  · exact arithmetic ..
  · exact arithmetic ..
  · exact arithmetic ..
  · exact refuseToken token

theorem combine (level : OperatorLevel) (token : Token) (left right : ExprId) :
    SparesScopes (level.combine token left right) := by
  cases level with
  | logicalOr | logicalAnd => exact logical ..
  | bitwiseOr | bitwiseXor | bitwiseAnd => exact bitwise ..
  | equality | relational => exact comparison ..
  | shift => exact shift ..
  | additive => exact additive ..
  | multiplicative => exact multiplicative ..

theorem assignment (target value : ExprId) : SparesScopes (assignment target value) :=
  (requireReference target).bind fun target => (load value).bind fun value =>
    (expr target).bind fun _ => (requireSame _ value).bind fun _ => addExpr rfl ..

theorem conditional (guard whenTrue whenFalse : ExprId) :
    SparesScopes (conditional guard whenTrue whenFalse) :=
  (requireCategory _ guard).bind fun guard => (expr guard).bind fun _ =>
    (expr whenTrue).bind fun _ => (expr whenFalse).bind fun _ => (commonType ..).bind fun type =>
      (convertTo whenTrue type).bind fun _ => (convertTo whenFalse type).bind fun _ => addExpr rfl ..

theorem cast (operand : ExprId) (type : Ty) : SparesScopes (cast operand type) :=
  (expr operand).bind fun _ => (convertTo operand type).bind fun _ => addExpr rfl ..

theorem negation (token : Token) (operand : ExprId) : SparesScopes (negation token operand) := by
  refine (requireCategory _ operand).bind fun operand => (expr operand).bind fun read =>
    (addExpr ?_ ..).bind fun _ => addBinary ..
  unfold zeroOf
  split <;> rfl

theorem unary (token : Token) (operand : ExprId) : SparesScopes (unary token operand) := by
  unfold Analysis.unary
  split
  · exact requireCategory _ operand
  · exact negation token operand
  · exact (requireCategory _ operand).bind fun _ => addExpr rfl ..
  · exact (requireCategory _ operand).bind fun _ => addExpr rfl ..
  · exact .reject _ rfl
  · exact .reject _ rfl
  · exact refuseToken token

theorem convertArguments (position : Nat) (arguments : List ExprId) (parameters : List Ty) :
    SparesScopes (convertArguments position arguments parameters) := by
  induction arguments generalizing position parameters with
  | nil => exact .pure _
  | cons argument arguments induction =>
      cases parameters with
      | nil => exact .pure _
      | cons parameter parameters =>
          exact (load argument).bind fun value => (expr value).bind fun _ =>
            guarded (.reject _ rfl) fun _ =>
              (induction (position + 1) parameters).bind fun _ => .pure _

theorem call (callee : ExprId) (arguments : List ExprId) : SparesScopes (call callee arguments) := by
  refine (requireCategory _ callee).bind fun callee => (expr callee).bind fun _ => ?_
  split
  · exact guarded (.reject _ rfl) fun _ => guarded (.reject _ rfl) fun _ =>
      (convertArguments ..).bind fun _ => addExpr rfl ..
  · exact .refuse _

theorem index (base : ExprId) (arguments : List ExprId) : SparesScopes (index base arguments) :=
  (expr base).bind fun _ => .reject _ rfl

theorem addInteger (value : Int64) (checkedAt location : Location) :
    SparesScopes (addInteger value checkedAt location) :=
  .ite (addExpr rfl ..) (.reject _ rfl)

theorem integerLiteral (token : Token) : SparesScopes (integerLiteral token) := by
  unfold Analysis.integerLiteral
  split
  · exact addInteger ..
  · exact refuseToken token

theorem negatedIntegerLiteral (sign token : Token) :
    SparesScopes (negatedIntegerLiteral sign token) := by
  unfold Analysis.negatedIntegerLiteral
  split
  · exact addInteger ..
  · exact refuseToken token

theorem booleanLiteral (token : Token) : SparesScopes (booleanLiteral token) := by
  unfold Analysis.booleanLiteral
  split
  · exact addExpr rfl ..
  · exact refuseToken token

theorem floatLiteral (token : Token) : SparesScopes (floatLiteral token) := by
  unfold Analysis.floatLiteral
  split
  · exact addExpr rfl ..
  · exact refuseToken token

theorem characterLiteral (token : Token) : SparesScopes (characterLiteral token) := by
  unfold Analysis.characterLiteral
  split
  · exact .ite (addExpr rfl ..) (.reject _ rfl)
  · exact refuseToken token

theorem stringLiteral (token : Token) : SparesScopes (stringLiteral token) := .reject _ rfl

/-! ## Statements -/

theorem block (statements : List StmtId) : SparesScopes (block statements) := addStmt _

theorem ifElse (guard : ExprId) (left right : StmtId) : SparesScopes (ifElse guard left right) :=
  (requireCategory _ guard).bind fun _ => addStmt _

theorem whenTrue (guard : ExprId) (body : StmtId) : SparesScopes (whenTrue guard body) :=
  (requireCategory _ guard).bind fun _ => addStmt _

theorem whileTrue (guard : ExprId) (body : StmtId) : SparesScopes (whileTrue guard body) :=
  (requireCategory _ guard).bind fun _ => addStmt _

theorem breakLoop (token : Token) : SparesScopes (breakLoop token) := addStmt _

theorem continueLoop (token : Token) : SparesScopes (continueLoop token) := addStmt _

theorem returnValue (value : ExprId) : SparesScopes (returnValue value) := by
  refine (load value).bind fun value => get.bind fun analysis => ?_
  split
  · exact .refuse _
  · refine (decl _).bind fun decl => ?_
    split
    · exact .refuse _
    · exact (requireSame _ value).bind fun _ => addStmt _

theorem declarationStatement (declaration : DeclId) :
    SparesScopes (declarationStatement declaration) := addStmt _

theorem expressionStatement (expression : ExprId) :
    SparesScopes (expressionStatement expression) := addStmt _

end SparesScopes

end Analysis

end Minilang
