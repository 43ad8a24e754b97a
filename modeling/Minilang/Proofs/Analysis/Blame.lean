import Minilang.Proofs.Analysis.Outcome

/-!
# What analysis blames

Analysis rejects what a program means. It never rejects how the program is spelled: no step fails for want
of another token, whatever state it starts from.
-/

namespace Minilang.Analysis

variable {α β : Type}

/-- Whether a step fails only with something else than a token that does not fit the grammar. -/
structure BlamesMeaning (step : Check α) : Prop where
  /-- The error of the step is no such failure. -/
  ensures (before : Analysis) : Ensures step before (fun _ _ => True)
    fun error _ => ∀ location expected found, error ≠ .unexpected location expected found

namespace BlamesMeaning

theorem pure (result : α) : BlamesMeaning (pure result) := ⟨fun _ => trivial⟩

theorem bind {first : Check β} {next : β → Check α} (first_blames : BlamesMeaning first)
    (next_blames : ∀ result, BlamesMeaning (next result)) : BlamesMeaning (first >>= next) := by
  refine ⟨fun before => ?_⟩
  rw [ensures_bind]
  exact (first_blames.ensures before).mono
    (fun result after _ => (next_blames result).ensures after) fun _ _ blames => blames

theorem reject (location : Location) (error : SemanticError) :
    BlamesMeaning (reject location error : Check α) :=
  ⟨fun _ _ _ _ => nofun⟩

theorem refuse (error : InternalError) : BlamesMeaning (refuse error : Check α) :=
  ⟨fun _ _ _ _ => nofun⟩

theorem get : BlamesMeaning (get : Check Analysis) := ⟨fun _ => trivial⟩

theorem expr (id : ExprId) : BlamesMeaning (expr id) := ⟨fun _ => trivial⟩

theorem decl (id : DeclId) : BlamesMeaning (decl id) := ⟨fun _ => trivial⟩

theorem addExpr (kind : ExprKind) (type : Ty) (location : Location) :
    BlamesMeaning (addExpr kind type location) := ⟨fun _ => trivial⟩

theorem addStmt (stmt : Stmt) : BlamesMeaning (addStmt stmt) := ⟨fun _ => trivial⟩

theorem addDecl (name : String) (location : Location) (kind : DeclKind) :
    BlamesMeaning (addDecl name location kind) := ⟨fun _ => trivial⟩

theorem setDeclKind (id : DeclId) (kind : DeclKind) : BlamesMeaning (setDeclKind id kind) :=
  ⟨fun _ => trivial⟩

theorem setScopes (scopes : ScopeChain) : BlamesMeaning (setScopes scopes) := ⟨fun _ => trivial⟩

theorem setFunction (function : Option DeclId) : BlamesMeaning (setFunction function) :=
  ⟨fun _ => trivial⟩

theorem ite {condition : Prop} [Decidable condition] {left right : Check α}
    (left_blames : BlamesMeaning left) (right_blames : BlamesMeaning right) :
    BlamesMeaning (if condition then left else right) := by
  split
  · exact left_blames
  · exact right_blames

/-- A step that is taken under a condition, in front of the others. -/
theorem guarded {condition : Prop} [Decidable condition] {first : Check PUnit}
    {next : PUnit → Check α} (first_blames : BlamesMeaning first)
    (next_blames : ∀ result, BlamesMeaning (next result)) :
    BlamesMeaning (if condition then first >>= next else next ⟨⟩) :=
  .ite (first_blames.bind next_blames) (next_blames ⟨⟩)

theorem nameOf (token : Token) : BlamesMeaning (nameOf token) := by
  unfold Analysis.nameOf
  split
  · exact .pure _
  · exact .refuse _

/-! ## Conversions -/

theorem convert (conversion : Conversion) (id : ExprId) (type : Ty) :
    BlamesMeaning (convert conversion id type) :=
  (expr id).bind fun _ => addExpr ..

theorem rejectConversion (id : ExprId) (target : Ty) : BlamesMeaning (rejectConversion id target) :=
  (expr id).bind fun _ => .reject _ _

theorem load (id : ExprId) : BlamesMeaning (load id) := by
  refine (expr id).bind fun expr => ?_
  split
  · exact convert ..
  · exact .pure _

theorem requireReference (id : ExprId) : BlamesMeaning (requireReference id) :=
  (expr id).bind fun _ => .ite (.pure _) (.reject _ _)

theorem requireCategory (category : Category) (id : ExprId) :
    BlamesMeaning (requireCategory category id) :=
  (load id).bind fun value => (expr value).bind fun _ => .ite (.pure _) (.reject _ _)

theorem requireSame (expected : Ty) (id : ExprId) : BlamesMeaning (requireSame expected id) :=
  (expr id).bind fun _ => .ite (.pure _) (.reject _ _)

theorem commonType (left right : Ty) (location : Location) :
    BlamesMeaning (commonType left right location) := by
  unfold Analysis.commonType
  split
  · exact .pure _
  · exact .reject _ _

theorem convertToBasic (target : BasicType) (id : ExprId) :
    BlamesMeaning (convertToBasic target id) := by
  refine (load id).bind fun value => (expr value).bind fun _ => .ite (.pure _) ?_
  split
  · exact convert ..
  · exact rejectConversion ..

theorem convertTo (id : ExprId) (type : Ty) : BlamesMeaning (convertTo id type) := by
  unfold Analysis.convertTo
  extract_lets converts
  have converts_blames (operand : ExprId) : BlamesMeaning (converts operand) := by
    refine (expr operand).bind fun _ => .ite (.pure _) ?_
    split
    · exact convertToBasic ..
    · exact rejectConversion ..
  exact .ite ((load id).bind converts_blames) (.bind (.pure id) converts_blames)

/-! ## Expressions -/

theorem refuseToken (token : Token) : BlamesMeaning (refuseToken token : Check α) := .refuse _

theorem logical (operator : BinaryOperator) (token : Token) (left right : ExprId) :
    BlamesMeaning (logical operator token left right) :=
  (requireCategory _ left).bind fun _ => (requireCategory _ right).bind fun _ => addExpr ..

theorem bitwise (operator : BinaryOperator) (token : Token) (left right : ExprId) :
    BlamesMeaning (bitwise operator token left right) :=
  (requireCategory _ left).bind fun _ => (requireCategory _ right).bind fun _ => addExpr ..

theorem requireAlike (category : Category) (left right : ExprId) :
    BlamesMeaning (requireAlike category left right) :=
  (requireCategory category left).bind fun left => (requireCategory category right).bind fun right =>
    (expr left).bind fun _ => (requireSame _ right).bind fun _ => .pure _

theorem arithmetic (operator : BinaryOperator) (token : Token) (left right : ExprId) :
    BlamesMeaning (arithmetic operator token left right) :=
  (requireAlike _ left right).bind fun _ => addExpr ..

theorem comparison (category : Category) (token : Token) (left right : ExprId) :
    BlamesMeaning (comparison category token left right) := by
  unfold Analysis.comparison
  extract_lets adds
  have adds_blames (operator : BinaryOperator) : BlamesMeaning (adds operator) :=
    (requireAlike category left right).bind fun _ => addExpr ..
  split
  case h_7 => exact (refuseToken token).bind adds_blames
  all_goals exact adds_blames _

theorem shift (token : Token) (left right : ExprId) : BlamesMeaning (shift token left right) := by
  unfold Analysis.shift
  split
  · exact bitwise ..
  · exact bitwise ..
  · exact refuseToken token

theorem additive (token : Token) (left right : ExprId) :
    BlamesMeaning (additive token left right) := by
  unfold Analysis.additive
  split
  · exact arithmetic ..
  · exact arithmetic ..
  · exact refuseToken token

theorem multiplicative (token : Token) (left right : ExprId) :
    BlamesMeaning (multiplicative token left right) := by
  unfold Analysis.multiplicative
  split
  · exact arithmetic ..
  · exact arithmetic ..
  · exact arithmetic ..
  · exact refuseToken token

theorem combine (level : OperatorLevel) (token : Token) (left right : ExprId) :
    BlamesMeaning (level.combine token left right) := by
  cases level with
  | logicalOr | logicalAnd => exact logical ..
  | bitwiseOr | bitwiseXor | bitwiseAnd => exact bitwise ..
  | equality | relational => exact comparison ..
  | shift => exact shift ..
  | additive => exact additive ..
  | multiplicative => exact multiplicative ..

theorem assignment (target value : ExprId) : BlamesMeaning (assignment target value) :=
  (requireReference target).bind fun target => (load value).bind fun value =>
    (expr target).bind fun _ => (requireSame _ value).bind fun _ => addExpr ..

theorem conditional (guard whenTrue whenFalse : ExprId) :
    BlamesMeaning (conditional guard whenTrue whenFalse) :=
  (requireCategory _ guard).bind fun guard => (expr guard).bind fun _ =>
    (expr whenTrue).bind fun _ => (expr whenFalse).bind fun _ => (commonType ..).bind fun type =>
      (convertTo whenTrue type).bind fun _ => (convertTo whenFalse type).bind fun _ => addExpr ..

theorem cast (operand : ExprId) (type : Ty) : BlamesMeaning (cast operand type) :=
  (expr operand).bind fun _ => (convertTo operand type).bind fun _ => addExpr ..

theorem negation (token : Token) (operand : ExprId) : BlamesMeaning (negation token operand) :=
  (requireCategory _ operand).bind fun operand => (expr operand).bind fun _ =>
    (addExpr ..).bind fun _ => addExpr ..

theorem unary (token : Token) (operand : ExprId) : BlamesMeaning (unary token operand) := by
  unfold Analysis.unary
  split
  · exact requireCategory _ operand
  · exact negation token operand
  · exact (requireCategory _ operand).bind fun _ => addExpr ..
  · exact (requireCategory _ operand).bind fun _ => addExpr ..
  · exact .reject _ _
  · exact .reject _ _
  · exact refuseToken token

theorem convertArguments (position : Nat) (arguments : List ExprId) (parameters : List Ty) :
    BlamesMeaning (convertArguments position arguments parameters) := by
  induction arguments generalizing position parameters with
  | nil => exact .pure _
  | cons argument arguments induction =>
      cases parameters with
      | nil => exact .pure _
      | cons parameter parameters =>
          exact (load argument).bind fun value => (expr value).bind fun _ =>
            guarded (.reject _ _) fun _ =>
              (induction (position + 1) parameters).bind fun _ => .pure _

theorem call (callee : ExprId) (arguments : List ExprId) : BlamesMeaning (call callee arguments) := by
  refine (requireCategory _ callee).bind fun callee => (expr callee).bind fun _ => ?_
  split
  · exact guarded (.reject _ _) fun _ => guarded (.reject _ _) fun _ =>
      (convertArguments ..).bind fun _ => addExpr ..
  · exact .refuse _

theorem index (base : ExprId) (arguments : List ExprId) : BlamesMeaning (index base arguments) :=
  (expr base).bind fun _ => .reject _ _

theorem addInteger (value : Int64) (checkedAt location : Location) :
    BlamesMeaning (addInteger value checkedAt location) :=
  .ite (addExpr ..) (.reject _ _)

theorem integerLiteral (token : Token) : BlamesMeaning (integerLiteral token) := by
  unfold Analysis.integerLiteral
  split
  · exact addInteger ..
  · exact refuseToken token

theorem negatedIntegerLiteral (sign token : Token) :
    BlamesMeaning (negatedIntegerLiteral sign token) := by
  unfold Analysis.negatedIntegerLiteral
  split
  · exact addInteger ..
  · exact refuseToken token

theorem booleanLiteral (token : Token) : BlamesMeaning (booleanLiteral token) := by
  unfold Analysis.booleanLiteral
  split
  · exact addExpr ..
  · exact refuseToken token

theorem floatLiteral (token : Token) : BlamesMeaning (floatLiteral token) := by
  unfold Analysis.floatLiteral
  split
  · exact addExpr ..
  · exact refuseToken token

theorem characterLiteral (token : Token) : BlamesMeaning (characterLiteral token) := by
  unfold Analysis.characterLiteral
  split
  · exact .ite (addExpr ..) (.reject _ _)
  · exact refuseToken token

theorem stringLiteral (token : Token) : BlamesMeaning (stringLiteral token) := .reject _ _

theorem name (token : Token) : BlamesMeaning (name token) := by
  refine (nameOf token).bind fun text => get.bind fun analysis => ?_
  split
  · exact .reject _ _
  · refine (decl _).bind fun decl => guarded (.reject _ _) fun _ => ?_
    split
    · exact .refuse _
    · exact addExpr ..

/-! ## Declarations -/

theorem enterGlobalScope : BlamesMeaning enterGlobalScope :=
  get.bind fun _ => guarded (.refuse _) fun _ => setScopes _

theorem enterParameterScope : BlamesMeaning enterParameterScope := get.bind fun _ => setScopes _

theorem enterBlockScope : BlamesMeaning enterBlockScope := get.bind fun _ => setScopes _

theorem leaveScope : BlamesMeaning leaveScope := by
  refine get.bind fun analysis => ?_
  split
  · exact setScopes _
  · exact .refuse _

theorem declare (id : DeclId) : BlamesMeaning (declare id) := by
  refine (decl id).bind fun decl => get.bind fun analysis => ?_
  split
  · exact setScopes _
  · exact .reject _ _

theorem declareNew (token : Token) (kind : DeclKind) : BlamesMeaning (declareNew token kind) :=
  (nameOf token).bind fun _ => (addDecl ..).bind fun id => (declare id).bind fun _ => .pure _

theorem declareObject (kind : ObjectKind) (token : Token) (type : Ty) :
    BlamesMeaning (declareObject kind token type) := declareNew ..

theorem declareParameter (token : Token) (type : Ty) :
    BlamesMeaning (declareParameter token type) := declareNew ..

theorem defineObject (id : DeclId) (initializer : ExprId) :
    BlamesMeaning (defineObject id initializer) := by
  refine (load initializer).bind fun value => (decl id).bind fun decl => ?_
  extract_lets returns stores completes
  have stores_blames (result : PUnit) : BlamesMeaning (stores result) := by
    unfold stores
    split
    · exact (setDeclKind ..).bind fun _ => .pure _
    · exact .bind (.refuse _) fun _ => .pure _
    · exact .bind (.refuse _) fun _ => .pure _
  have completes_blames (result : PUnit) : BlamesMeaning (completes result) :=
    get.bind fun _ =>
      .ite ((expr value).bind fun _ => .bind (.reject _ _) stores_blames) (stores_blames ⟨⟩)
  split
  · exact .bind (.refuse _) completes_blames
  · exact (requireSame ..).bind completes_blames

theorem declareFunction (token : Token) (parameters : List DeclId) (result : Ty) :
    BlamesMeaning (declareFunction token parameters result) :=
  (nameOf token).bind fun _ => get.bind fun _ => guarded (.reject _ _) fun _ =>
    (addDecl ..).bind fun id => (declare id).bind fun _ => (setFunction _).bind fun _ => .pure _

theorem defineFunction (id : DeclId) (body : StmtId) : BlamesMeaning (defineFunction id body) := by
  refine get.bind fun analysis => guarded (.refuse _) fun _ =>
    (decl id).bind fun decl => ?_
  extract_lets leaves
  have leaves_blames (result : PUnit) : BlamesMeaning (leaves result) :=
    (setFunction _).bind fun _ => .pure _
  split
  · exact (setDeclKind ..).bind leaves_blames
  · exact .bind (.refuse _) leaves_blames
  · exact .bind (.refuse _) leaves_blames

theorem addProgram (title : String) (declarations : List DeclId) :
    BlamesMeaning (addProgram title declarations) := addDecl ..

/-! ## Statements -/

theorem forM {items : List β} {step : β → Check PUnit} (blames : ∀ item, BlamesMeaning (step item)) :
    BlamesMeaning (items.forM step) := by
  induction items with
  | nil => exact .pure _
  | cons item items induction => exact (blames item).bind fun _ => induction

theorem startBlock : BlamesMeaning startBlock := by
  refine get.bind fun analysis => .ite (.pure _) ?_
  split
  · exact .pure _
  · exact forM declare

theorem block (statements : List StmtId) : BlamesMeaning (block statements) := addStmt _

theorem ifElse (guard : ExprId) (left right : StmtId) : BlamesMeaning (ifElse guard left right) :=
  (requireCategory _ guard).bind fun _ => addStmt _

theorem whenTrue (guard : ExprId) (body : StmtId) : BlamesMeaning (whenTrue guard body) :=
  (requireCategory _ guard).bind fun _ => addStmt _

theorem whileTrue (guard : ExprId) (body : StmtId) : BlamesMeaning (whileTrue guard body) :=
  (requireCategory _ guard).bind fun _ => addStmt _

theorem breakLoop (token : Token) : BlamesMeaning (breakLoop token) := addStmt _

theorem continueLoop (token : Token) : BlamesMeaning (continueLoop token) := addStmt _

theorem returnValue (value : ExprId) : BlamesMeaning (returnValue value) := by
  refine (load value).bind fun value => get.bind fun analysis => ?_
  split
  · exact .refuse _
  · refine (decl _).bind fun decl => ?_
    split
    · exact .refuse _
    · exact (requireSame _ value).bind fun _ => addStmt _

theorem declarationStatement (declaration : DeclId) :
    BlamesMeaning (declarationStatement declaration) := addStmt _

theorem expressionStatement (expression : ExprId) :
    BlamesMeaning (expressionStatement expression) := addStmt _

end BlamesMeaning

end Minilang.Analysis
