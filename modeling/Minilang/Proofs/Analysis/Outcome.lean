import Minilang.Analysis.Action

/-!
# Outcomes of analysis steps

`Ensures step before onResult onError` says what holds of the result of a step and of the state behind it,
and what holds of its error and of the state that it leaves when it fails. Every sequence of steps comes
apart at its binds, so each step needs one law.
-/

namespace Minilang.Analysis

/-- What holds behind a step that gives a result, and what holds behind one that fails. -/
def Ensures {α : Type} (step : Check α) (before : Analysis)
    (onResult : α → Analysis → Prop) (onError : Diagnostic → Analysis → Prop) : Prop :=
  match step.run before with
  | (.ok result, after) => onResult result after
  | (.error error, after) => onError error after

variable {α β : Type} {before : Analysis}

/-- Weaker conditions hold behind the same step. -/
theorem Ensures.mono {step : Check α} {onResult weakerResult : α → Analysis → Prop}
    {onError weakerError : Diagnostic → Analysis → Prop}
    (ensures : Ensures step before onResult onError)
    (result_imp : ∀ result after, onResult result after → weakerResult result after)
    (error_imp : ∀ error after, onError error after → weakerError error after) :
    Ensures step before weakerResult weakerError := by
  unfold Ensures at *
  split at ensures
  · exact result_imp _ _ ensures
  · exact error_imp _ _ ensures

/-- A step ensures together what it ensures apart. -/
theorem Ensures.and {step : Check α} {onResult alsoResult : α → Analysis → Prop}
    {onError alsoError : Diagnostic → Analysis → Prop}
    (ensures : Ensures step before onResult onError)
    (also : Ensures step before alsoResult alsoError) :
    Ensures step before (fun result after => onResult result after ∧ alsoResult result after)
      (fun error after => onError error after ∧ alsoError error after) := by
  unfold Ensures at *
  split at ensures
  · next run => rw [run] at also; exact ⟨ensures, also⟩
  · next run => rw [run] at also; exact ⟨ensures, also⟩

/-- What a step ensures holds of its result. -/
theorem Ensures.result {step : Check α} {onResult : α → Analysis → Prop}
    {onError : Diagnostic → Analysis → Prop} (ensures : Ensures step before onResult onError)
    {result : α} {after : Analysis} (run : step.run before = (.ok result, after)) :
    onResult result after := by
  simpa [Ensures, run] using ensures

/-- What a step ensures holds of its error. -/
theorem Ensures.error {step : Check α} {onResult : α → Analysis → Prop}
    {onError : Diagnostic → Analysis → Prop} (ensures : Ensures step before onResult onError)
    {error : Diagnostic} {after : Analysis} (run : step.run before = (.error error, after)) :
    onError error after := by
  simpa [Ensures, run] using ensures

section Laws

variable {onResult : α → Analysis → Prop} {onError : Diagnostic → Analysis → Prop}

@[simp] theorem ensures_pure (result : α) :
    Ensures (pure result) before onResult onError ↔ onResult result before := Iff.rfl

@[simp] theorem ensures_bind (first : Check β) (next : β → Check α) :
    Ensures (first >>= next) before onResult onError ↔
      Ensures first before (fun result after => Ensures (next result) after onResult onError)
        onError := by
  unfold Ensures
  simp only [ExceptT.run, bind, ExceptT.bind, ExceptT.mk, StateT.bind, ExceptT.bindCont]
  cases run : first before with
  | mk outcome after => cases outcome <;> rfl

@[simp] theorem ensures_map (function : β → α) (step : Check β) :
    Ensures (function <$> step) before onResult onError ↔
      Ensures step before (fun result after => onResult (function result) after) onError := by
  rw [← bind_pure_comp, ensures_bind]
  rfl

@[simp] theorem ensures_reject (location : Location) (error : SemanticError) :
    Ensures (reject location error : Check α) before onResult onError ↔
      onError (.semantic location error) before := Iff.rfl

@[simp] theorem ensures_refuse (error : InternalError) :
    Ensures (refuse error : Check α) before onResult onError ↔
      onError (.internal error) before := Iff.rfl

end Laws

section Primitives

variable {onError : Diagnostic → Analysis → Prop}

@[simp] theorem ensures_get {onResult : Analysis → Analysis → Prop} :
    Ensures get before onResult onError ↔ onResult before before := Iff.rfl

@[simp] theorem ensures_expr (id : ExprId) {onResult : Expr → Analysis → Prop} :
    Ensures (expr id) before onResult onError ↔ onResult (before.ast.expr id) before := Iff.rfl

@[simp] theorem ensures_decl (id : DeclId) {onResult : Decl → Analysis → Prop} :
    Ensures (decl id) before onResult onError ↔ onResult (before.ast.decl id) before := Iff.rfl

@[simp] theorem ensures_addExpr (kind : ExprKind) (type : Ty) (location : Location)
    {onResult : ExprId → Analysis → Prop} :
    Ensures (addExpr kind type location) before onResult onError ↔
      onResult ⟨before.ast.exprs.size⟩
        { before with ast := (before.ast.addExpr ⟨kind, type, location⟩).2 } := Iff.rfl

@[simp] theorem ensures_addStmt (stmt : Stmt) {onResult : StmtId → Analysis → Prop} :
    Ensures (addStmt stmt) before onResult onError ↔
      onResult ⟨before.ast.stmts.size⟩ { before with ast := (before.ast.addStmt stmt).2 } := Iff.rfl

@[simp] theorem ensures_addDecl (name : String) (location : Location) (kind : DeclKind)
    {onResult : DeclId → Analysis → Prop} :
    Ensures (addDecl name location kind) before onResult onError ↔
      onResult ⟨before.ast.decls.size⟩
        { before with ast := (before.ast.addDecl ⟨name, location, kind⟩).2 } := Iff.rfl

@[simp] theorem ensures_setDeclKind (id : DeclId) (kind : DeclKind)
    {onResult : Unit → Analysis → Prop} :
    Ensures (setDeclKind id kind) before onResult onError ↔
      onResult () { before with ast := before.ast.setDeclKind id kind } := Iff.rfl

@[simp] theorem ensures_setScopes (scopes : ScopeChain) {onResult : Unit → Analysis → Prop} :
    Ensures (setScopes scopes) before onResult onError ↔
      onResult () { before with scopes := scopes } := Iff.rfl

@[simp] theorem ensures_setFunction (function : Option DeclId)
    {onResult : Unit → Analysis → Prop} :
    Ensures (setFunction function) before onResult onError ↔
      onResult () { before with function := function } := Iff.rfl

end Primitives

/-- The name of a token is what it spells; only tokens that spell no name are refused. -/
theorem nameOf_ensures (token : Token) :
    Ensures (nameOf token) before
      (fun name after => token.kind = .identifier name ∧ after = before)
      (fun error after => (∀ name, token.kind ≠ .identifier name) ∧ after = before ∧
        error = .internal (.expectedIdentifier token.kind)) := by
  unfold nameOf
  split
  · next name spelled => exact ⟨spelled, rfl⟩
  · next kind unspelled => exact ⟨fun name spelled => unspelled name spelled, rfl, rfl⟩

end Minilang.Analysis
