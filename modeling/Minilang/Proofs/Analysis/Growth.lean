import Mathlib.Order.Lattice
import Mathlib.Tactic.Common
import Minilang.Analysis.Basic

/-!
# Growing programs

Analysis only ever adds nodes. What was there stays as it is, except that a declared object may get its
initializer and a declared function its body.
-/

namespace Minilang

namespace DeclKind

/-- What a declaration may turn into: itself, or the same with an initializer or a body. -/
inductive Completes : DeclKind → DeclKind → Prop
  | refl (kind : DeclKind) : Completes kind kind
  | initializer (kind : ObjectKind) (type : Ty) (initializer : ExprId) :
      Completes (.object kind type none) (.object kind type (some initializer))
  | body (type : Ty) (parameters : List DeclId) (body : StmtId) :
      Completes (.function type parameters none) (.function type parameters (some body))

namespace Completes

variable {before middle after : DeclKind}

theorem trans (first : Completes before middle) (second : Completes middle after) :
    Completes before after := by
  cases first with
  | refl => exact second
  | initializer => cases second; exact .initializer ..
  | body => cases second; exact .body ..

theorem type?_eq (completes : Completes before after) : after.type? = before.type? := by
  cases completes <;> rfl

theorem isVariable_eq (completes : Completes before after) :
    after.isVariable = before.isVariable := by
  cases completes with
  | refl => rfl
  | initializer kind => cases kind <;> rfl
  | body => rfl

theorem isConstant_eq (completes : Completes before after) :
    after.isConstant = before.isConstant := by
  cases completes with
  | refl => rfl
  | initializer kind => cases kind <;> rfl
  | body => rfl

theorem initializer?_eq (completes : Completes before after) {initializer : ExprId}
    (initialized : before.initializer? = some initializer) :
    after.initializer? = some initializer := by
  cases completes with
  | refl => exact initialized
  | initializer => cases initialized
  | body => cases initialized

/-- An initialized object stays what it is. -/
theorem eq_of_initialized {kind : ObjectKind} {type : Ty} {initializer : ExprId}
    (completes : Completes (.object kind type (some initializer)) after) :
    after = .object kind type (some initializer) := by
  cases completes
  rfl

/-- A defined function stays what it is. -/
theorem eq_of_defined {type : Ty} {parameters : List DeclId} {body : StmtId}
    (completes : Completes (.function type parameters (some body)) after) :
    after = .function type parameters (some body) := by
  cases completes
  rfl

/-- A parameter stays what it is. -/
theorem eq_of_parameter {type : Ty} (completes : Completes (.parameter type) after) :
    after = .parameter type := by
  cases completes
  rfl

end Completes

end DeclKind

namespace Ast

/-- The type of an expression. -/
def typeOf (ast : Ast) (id : ExprId) : Ty := (ast.expr id).type

/-- What a declaration introduces. -/
def kindOf (ast : Ast) (id : DeclId) : DeclKind := (ast.decl id).kind

/-- A handle that was never given out leads to no type. -/
theorem index_lt_of_type? {ast : Ast} {id : DeclId} {type : Ty}
    (typed : (ast.kindOf id).type? = some type) : id.index < ast.decls.size := by
  by_contra absent
  simp [kindOf, decl, noDecl, Array.getElem?_eq_none (Nat.le_of_not_lt absent),
    DeclKind.type?] at typed

/-- One store holds all that another one holds, and perhaps more. -/
structure Extends (before after : Ast) : Prop where
  /-- No expression is lost. -/
  exprs_le : before.exprs.size ≤ after.exprs.size
  /-- Expressions stay as they are. -/
  expr_eq (id : ExprId) : id.index < before.exprs.size → after.expr id = before.expr id
  /-- No statement is lost. -/
  stmts_le : before.stmts.size ≤ after.stmts.size
  /-- Statements stay as they are. -/
  stmt_eq (id : StmtId) : id.index < before.stmts.size → after.stmt id = before.stmt id
  /-- No declaration is lost. -/
  decls_le : before.decls.size ≤ after.decls.size
  /-- Declared names stay as they are. -/
  name_eq (id : DeclId) : id.index < before.decls.size →
    (after.decl id).name = (before.decl id).name
  /-- Declarations may only be completed. -/
  completes (id : DeclId) : id.index < before.decls.size →
    (before.kindOf id).Completes (after.kindOf id)

namespace Extends

variable {before middle after : Ast}

theorem refl (ast : Ast) : ast.Extends ast where
  exprs_le := le_rfl
  expr_eq _ _ := rfl
  stmts_le := le_rfl
  stmt_eq _ _ := rfl
  decls_le := le_rfl
  name_eq _ _ := rfl
  completes _ _ := .refl _

theorem trans (first : before.Extends middle) (second : middle.Extends after) :
    before.Extends after where
  exprs_le := first.exprs_le.trans second.exprs_le
  expr_eq id earlier :=
    (second.expr_eq id (earlier.trans_le first.exprs_le)).trans (first.expr_eq id earlier)
  stmts_le := first.stmts_le.trans second.stmts_le
  stmt_eq id earlier :=
    (second.stmt_eq id (earlier.trans_le first.stmts_le)).trans (first.stmt_eq id earlier)
  decls_le := first.decls_le.trans second.decls_le
  name_eq id earlier :=
    (second.name_eq id (earlier.trans_le first.decls_le)).trans (first.name_eq id earlier)
  completes id earlier :=
    (first.completes id earlier).trans (second.completes id (earlier.trans_le first.decls_le))

theorem typeOf_eq (extends' : before.Extends after) {id : ExprId}
    (earlier : id.index < before.exprs.size) : after.typeOf id = before.typeOf id := by
  rw [typeOf, extends'.expr_eq id earlier, typeOf]

/-- Declared types stay as they are. -/
theorem type?_eq (extends' : before.Extends after) {id : DeclId} {type : Ty}
    (typed : (before.kindOf id).type? = some type) : (after.kindOf id).type? = some type := by
  rw [(extends'.completes id (index_lt_of_type? typed)).type?_eq, typed]

theorem addExpr (ast : Ast) (expr : Expr) : ast.Extends (ast.addExpr expr).2 where
  exprs_le := by simp [Ast.addExpr]
  expr_eq _ earlier := expr_addExpr_of_lt earlier expr
  stmts_le := le_rfl
  stmt_eq _ _ := rfl
  decls_le := le_rfl
  name_eq _ _ := rfl
  completes _ _ := .refl _

theorem addStmt (ast : Ast) (stmt : Stmt) : ast.Extends (ast.addStmt stmt).2 where
  exprs_le := le_rfl
  expr_eq _ _ := rfl
  stmts_le := by simp [Ast.addStmt]
  stmt_eq _ earlier := stmt_addStmt_of_lt earlier stmt
  decls_le := le_rfl
  name_eq _ _ := rfl
  completes _ _ := .refl _

theorem addDecl (ast : Ast) (decl : Decl) : ast.Extends (ast.addDecl decl).2 where
  exprs_le := le_rfl
  expr_eq _ _ := rfl
  stmts_le := le_rfl
  stmt_eq _ _ := rfl
  decls_le := by simp [Ast.addDecl]
  name_eq id earlier := by rw [decl_addDecl_of_lt earlier]
  completes id earlier := by
    rw [kindOf, kindOf, decl_addDecl_of_lt earlier]
    exact .refl _

end Extends

theorem decl_setDeclKind (ast : Ast) (id other : DeclId) (kind : DeclKind)
    (declared : id.index < ast.decls.size) :
    (ast.setDeclKind id kind).decl other =
      if other = id then { ast.decl id with kind := kind } else ast.decl other := by
  by_cases same : other = id
  · subst same
    simp [setDeclKind, decl, Array.getElem_modify, declared]
  · have different : id.index ≠ other.index := fun equal => same (by cases id; cases other; simp_all)
    simp [setDeclKind, decl, Array.getElem?_modify, different, same]

theorem Extends.setDeclKind {ast : Ast} {id : DeclId} {kind : DeclKind}
    (declared : id.index < ast.decls.size) (completes : (ast.kindOf id).Completes kind) :
    ast.Extends (ast.setDeclKind id kind) where
  exprs_le := le_rfl
  expr_eq _ _ := rfl
  stmts_le := le_rfl
  stmt_eq _ _ := rfl
  decls_le := by simp [Ast.setDeclKind]
  name_eq other _ := by
    rw [decl_setDeclKind _ _ _ _ declared]
    split
    · next same => rw [same]
    · rfl
  completes other _ := by
    rw [kindOf, kindOf, decl_setDeclKind _ _ _ _ declared]
    split
    · next same => rw [same]; exact completes
    · exact .refl _

end Ast

end Minilang
