import Minilang.Proofs.Analysis.Growth

/-!
# Corresponding programs

Two programs correspond if they differ only in how things are called, in where they stand, and in what has
been added before. A name that is called otherwise stays different from all other names, and a handle in one
program is found in the other one behind the nodes that were there before.
-/

namespace Minilang

/-- The same token under another name, if it is one. -/
def TokenKind.rename (rename : String → String) : TokenKind → TokenKind
  | identifier name => identifier (rename name)
  | kind => kind

namespace SemanticError

/-- The name that an error is about. -/
def name? : SemanticError → Option String
  | undeclared name | redeclaration name | selfInitializer name | nonConstantInitializer name
  | nestedFunction name => some name
  | _ => none

/-- The same error about another name. -/
def rename (rename : String → String) : SemanticError → SemanticError
  | undeclared name => undeclared (rename name)
  | redeclaration name => redeclaration (rename name)
  | selfInitializer name => selfInitializer (rename name)
  | nonConstantInitializer name => nonConstantInitializer (rename name)
  | nestedFunction name => nestedFunction (rename name)
  | error => error

theorem rename_of_name?_eq_none {error : SemanticError} (nameless : error.name? = none)
    (function : String → String) : error.rename function = error := by
  cases error <;> first | rfl | cases nameless

end SemanticError

/-- How one program is found again in another one. -/
structure Correspondence where
  /-- What a name becomes. -/
  rename : String → String
  /-- The names that matter. -/
  names : String → Prop
  /-- Different names stay different. -/
  injective : ∀ name other, names name → names other → rename name = rename other → name = other
  /-- The places that belong together. -/
  places : Location → Location → Prop
  /-- The faults at which both texts end, if they cannot be read to their ends. -/
  fault? : Option (Diagnostic × Diagnostic)
  /-- The nodes that are there before. -/
  base : Ast
  /-- The names that are bound before. -/
  bound : List (String × DeclId)

namespace Correspondence

variable (correspondence : Correspondence)

/-- The number of expressions that are there before. -/
def exprs : Nat := correspondence.base.exprs.size

/-- The number of statements that are there before. -/
def stmts : Nat := correspondence.base.stmts.size

/-- The number of declarations that are there before. -/
def decls : Nat := correspondence.base.decls.size

/-- An expression in the other program. -/
def expr (id : ExprId) : ExprId := ⟨correspondence.exprs + id.index⟩

/-- A statement in the other program. -/
def stmt (id : StmtId) : StmtId := ⟨correspondence.stmts + id.index⟩

/-- A declaration in the other program. -/
def decl (id : DeclId) : DeclId := ⟨correspondence.decls + id.index⟩

/-- What an expression computes in the other program. -/
def exprKind : ExprKind → ExprKind
  | .bool value => .bool value
  | .int value => .int value
  | .float value => .float value
  | .char value => .char value
  | .name declaration => .name (correspondence.decl declaration)
  | .unary operator operand => .unary operator (correspondence.expr operand)
  | .binary operator left right =>
    .binary operator (correspondence.expr left) (correspondence.expr right)
  | .call callee arguments =>
    .call (correspondence.expr callee) (arguments.map correspondence.expr)
  | .index base arguments => .index (correspondence.expr base) (arguments.map correspondence.expr)
  | .cast operand => .cast (correspondence.expr operand)
  | .assign target value => .assign (correspondence.expr target) (correspondence.expr value)
  | .conditional guard whenTrue whenFalse =>
    .conditional (correspondence.expr guard) (correspondence.expr whenTrue)
      (correspondence.expr whenFalse)
  | .convert conversion operand => .convert conversion (correspondence.expr operand)

/-- What a declaration introduces in the other program. -/
def declKind : DeclKind → DeclKind
  | .object kind type initializer => .object kind type (initializer.map correspondence.expr)
  | .parameter type => .parameter type
  | .function type parameters body =>
    .function type (parameters.map correspondence.decl) (body.map correspondence.stmt)
  | .program declarations => .program (declarations.map correspondence.decl)

/-- Whether two names belong together. -/
def Names (name other : String) : Prop :=
  correspondence.names name ∧ other = correspondence.rename name

/-- Whether two kinds of tokens belong together. -/
def Kinds (kind other : TokenKind) : Prop :=
  (∀ name, kind = .identifier name → correspondence.names name) ∧
    other = kind.rename correspondence.rename

/-- Whether two tokens belong together. -/
structure Tokens (token other : Token) : Prop where
  /-- They are the same but for names. -/
  kinds : correspondence.Kinds token.kind other.kind
  /-- They stand at places that belong together. -/
  places : correspondence.places token.location other.location

/-- Whether two expressions belong together. -/
structure Exprs (expr other : Expr) : Prop where
  /-- They compute the same. -/
  kind_eq : other.kind = correspondence.exprKind expr.kind
  /-- They have the same type. -/
  type_eq : other.type = expr.type
  /-- They stand at places that belong together. -/
  places : correspondence.places expr.location other.location

/-- Whether two statements belong together. -/
inductive Stmts : Stmt → Stmt → Prop
  | block (statements : List StmtId) :
      Stmts (.block statements) (.block (statements.map correspondence.stmt))
  | whenTrue (guard : ExprId) (body : StmtId) :
      Stmts (.whenTrue guard body)
        (.whenTrue (correspondence.expr guard) (correspondence.stmt body))
  | ifElse (guard : ExprId) (whenTrue whenFalse : StmtId) :
      Stmts (.ifElse guard whenTrue whenFalse)
        (.ifElse (correspondence.expr guard) (correspondence.stmt whenTrue)
          (correspondence.stmt whenFalse))
  | whileTrue (guard : ExprId) (body : StmtId) :
      Stmts (.whileTrue guard body)
        (.whileTrue (correspondence.expr guard) (correspondence.stmt body))
  | breakLoop {location other : Location} :
      correspondence.places location other → Stmts (.breakLoop location) (.breakLoop other)
  | continueLoop {location other : Location} :
      correspondence.places location other → Stmts (.continueLoop location) (.continueLoop other)
  | returnValue (value : ExprId) :
      Stmts (.returnValue value) (.returnValue (correspondence.expr value))
  | declaration (declaration : DeclId) :
      Stmts (.declaration declaration) (.declaration (correspondence.decl declaration))
  | expression (expression : ExprId) :
      Stmts (.expression expression) (.expression (correspondence.expr expression))

/-- Whether two declarations belong together. -/
structure Decls (decl other : Decl) : Prop where
  /-- Their names belong together. -/
  names : correspondence.Names decl.name other.name
  /-- They introduce the same. -/
  kind_eq : other.kind = correspondence.declKind decl.kind
  /-- They stand at places that belong together. -/
  places : correspondence.places decl.location other.location

/-- Whether two errors belong together. -/
inductive Diagnostics : Diagnostic → Diagnostic → Prop
  | unexpected {location other : Location} {expected : Expectation} {found otherFound : TokenKind} :
      correspondence.places location other → correspondence.Kinds found otherFound →
      Diagnostics (.unexpected location expected found) (.unexpected other expected otherFound)
  | semantic {location other : Location} {error : SemanticError} :
      correspondence.places location other →
      (∀ name, error.name? = some name → correspondence.names name) →
      Diagnostics (.semantic location error)
        (.semantic other (error.rename correspondence.rename))
  | fault {error other : Diagnostic} :
      correspondence.fault? = some (error, other) → Diagnostics error other
  | internal (error other : InternalError) : Diagnostics (.internal error) (.internal other)

/-- Whether nothing is there before, so that programs that correspond fail alike. -/
def Exact : Prop := correspondence.exprs = 0 ∧ correspondence.bound = []

variable {correspondence}

@[simp] theorem decl_inj {id other : DeclId} :
    correspondence.decl id = correspondence.decl other ↔ id = other := by
  obtain ⟨index⟩ := id
  obtain ⟨index'⟩ := other
  simp [decl]

section Kinds

variable (kind : DeclKind)

@[simp] theorem type?_declKind : (correspondence.declKind kind).type? = kind.type? := by
  cases kind <;> rfl

@[simp] theorem isVariable_declKind :
    (correspondence.declKind kind).isVariable = kind.isVariable := by
  cases kind with
  | object kind => cases kind <;> rfl
  | parameter | function | program => rfl

@[simp] theorem isConstant_declKind :
    (correspondence.declKind kind).isConstant = kind.isConstant := by
  cases kind with
  | object kind => cases kind <;> rfl
  | parameter | function | program => rfl

@[simp] theorem isFunction_declKind :
    (correspondence.declKind kind).isFunction = kind.isFunction := by
  cases kind <;> rfl

@[simp] theorem initializer?_declKind :
    (correspondence.declKind kind).initializer? = kind.initializer?.map correspondence.expr := by
  cases kind <;> rfl

@[simp] theorem parameters_declKind :
    (correspondence.declKind kind).parameters = kind.parameters.map correspondence.decl := by
  cases kind <;> rfl

end Kinds

/-- Names that belong together are the same or different together. -/
theorem Names.eq_iff {name other name' other' : String} (names : correspondence.Names name other)
    (names' : correspondence.Names name' other') : other = other' ↔ name = name' := by
  rw [names.2, names'.2]
  exact ⟨correspondence.injective name name' names.1 names'.1, congrArg _⟩

/-- An error about a name. -/
theorem Diagnostics.of_name {location other : Location} {name otherName : String}
    {error : String → SemanticError} (places : correspondence.places location other)
    (names : correspondence.Names name otherName) (named : ∀ name, (error name).name? = some name)
    (renamed : ∀ rename name, (error name).rename rename = error (rename name)) :
    correspondence.Diagnostics (.semantic location (error name))
      (.semantic other (error otherName)) := by
  rw [names.2, ← renamed]
  refine .semantic places fun found same => ?_
  rw [named] at same
  exact Option.some.inj same ▸ names.1

/-- An error that is about no name. -/
theorem Diagnostics.nameless {location other : Location} {error : SemanticError}
    (places : correspondence.places location other) (nameless : error.name? = none) :
    correspondence.Diagnostics (.semantic location error) (.semantic other error) := by
  have renamed : correspondence.Diagnostics (.semantic location error)
      (.semantic other (error.rename correspondence.rename)) :=
    .semantic places fun name found => by
      rw [nameless] at found
      cases found
  rwa [error.rename_of_name?_eq_none nameless] at renamed

end Correspondence

namespace Ast

/-- Whether all that is in one store is in another one as it was. -/
structure Keeps (before after : Ast) : Prop where
  /-- Expressions stay as they are. -/
  expr_eq (id : ExprId) : id.index < before.exprs.size → after.expr id = before.expr id
  /-- Statements stay as they are. -/
  stmt_eq (id : StmtId) : id.index < before.stmts.size → after.stmt id = before.stmt id
  /-- Declarations stay as they are. -/
  decl_eq (id : DeclId) : id.index < before.decls.size → after.decl id = before.decl id

namespace Keeps

variable {before after : Ast}

theorem refl (ast : Ast) : ast.Keeps ast := ⟨fun _ _ => rfl, fun _ _ => rfl, fun _ _ => rfl⟩

theorem addExpr (keeps : before.Keeps after) (size_le : before.exprs.size ≤ after.exprs.size)
    (expr : Expr) : before.Keeps (after.addExpr expr).2 :=
  ⟨fun id earlier =>
    (expr_addExpr_of_lt (earlier.trans_le size_le) expr).trans (keeps.expr_eq id earlier),
    keeps.stmt_eq, keeps.decl_eq⟩

theorem addStmt (keeps : before.Keeps after) (size_le : before.stmts.size ≤ after.stmts.size)
    (stmt : Stmt) : before.Keeps (after.addStmt stmt).2 :=
  ⟨keeps.expr_eq, fun id earlier =>
    (stmt_addStmt_of_lt (earlier.trans_le size_le) stmt).trans (keeps.stmt_eq id earlier),
    keeps.decl_eq⟩

theorem addDecl (keeps : before.Keeps after) (size_le : before.decls.size ≤ after.decls.size)
    (decl : Decl) : before.Keeps (after.addDecl decl).2 :=
  ⟨keeps.expr_eq, keeps.stmt_eq, fun id earlier =>
    (decl_addDecl_of_lt (earlier.trans_le size_le) decl).trans (keeps.decl_eq id earlier)⟩

/-- A later declaration is completed. -/
theorem setDeclKind (keeps : before.Keeps after) {id : DeclId}
    (later : before.decls.size ≤ id.index) (declared : id.index < after.decls.size)
    (kind : DeclKind) : before.Keeps (after.setDeclKind id kind) := by
  refine ⟨keeps.expr_eq, keeps.stmt_eq, fun other earlier => ?_⟩
  rw [decl_setDeclKind _ _ _ _ declared, if_neg, keeps.decl_eq other earlier]
  rintro rfl
  exact absurd earlier (Nat.not_lt_of_le later)

end Keeps

end Ast

/-- Whether one program is found again in another one. -/
structure Correspondence.Asts (correspondence : Correspondence) (ast other : Ast) : Prop where
  /-- Only what was there before is in front of the expressions. -/
  exprs_size : other.exprs.size = correspondence.exprs + ast.exprs.size
  /-- Only what was there before is in front of the statements. -/
  stmts_size : other.stmts.size = correspondence.stmts + ast.stmts.size
  /-- Only what was there before is in front of the declarations. -/
  decls_size : other.decls.size = correspondence.decls + ast.decls.size
  /-- The expressions are there. -/
  expr : ∀ id, id.index < ast.exprs.size →
    correspondence.Exprs (ast.expr id) (other.expr (correspondence.expr id))
  /-- The statements are there. -/
  stmt : ∀ id, id.index < ast.stmts.size →
    correspondence.Stmts (ast.stmt id) (other.stmt (correspondence.stmt id))
  /-- The declarations are there. -/
  decl : ∀ id, id.index < ast.decls.size →
    correspondence.Decls (ast.decl id) (other.decl (correspondence.decl id))
  /-- What was there before has stayed as it was. -/
  keeps : correspondence.base.Keeps other
  /-- Parameters of functions are declarations. -/
  parameter_lt : ∀ id, ∀ parameter ∈ (ast.kindOf id).parameters,
    parameter.index < ast.decls.size

namespace Correspondence.Asts

variable {correspondence : Correspondence} {ast other : Ast}

/-- What an expression computes corresponds, whether it is there or not. -/
theorem exprKind_eq (asts : correspondence.Asts ast other) (id : ExprId) :
    (other.expr (correspondence.expr id)).kind = correspondence.exprKind (ast.expr id).kind := by
  by_cases bound : id.index < ast.exprs.size
  · exact (asts.expr id bound).kind_eq
  · have otherBound : ¬(correspondence.expr id).index < other.exprs.size := by
      rw [asts.exprs_size, Correspondence.expr]
      simpa using bound
    rw [Ast.expr, Ast.expr, Array.getElem?_eq_none (Nat.le_of_not_lt otherBound),
      Array.getElem?_eq_none (Nat.le_of_not_lt bound)]
    rfl

/-- What a declaration introduces corresponds, whether it is there or not. -/
theorem kindOf_eq (asts : correspondence.Asts ast other) (id : DeclId) :
    other.kindOf (correspondence.decl id) = correspondence.declKind (ast.kindOf id) := by
  by_cases bound : id.index < ast.decls.size
  · exact (asts.decl id bound).kind_eq
  · have otherBound : ¬(correspondence.decl id).index < other.decls.size := by
      rw [asts.decls_size, Correspondence.decl]
      simpa using bound
    rw [Ast.kindOf, Ast.kindOf, Ast.decl, Ast.decl,
      Array.getElem?_eq_none (Nat.le_of_not_lt otherBound),
      Array.getElem?_eq_none (Nat.le_of_not_lt bound)]
    rfl

theorem addExpr (asts : correspondence.Asts ast other) {expr otherExpr : Expr}
    (exprs : correspondence.Exprs expr otherExpr) :
    correspondence.Asts (ast.addExpr expr).2 (other.addExpr otherExpr).2 := by
  have size_le : correspondence.exprs ≤ other.exprs.size :=
    asts.exprs_size ▸ Nat.le_add_right _ _
  refine { asts with exprs_size := ?_, expr := ?_, keeps := asts.keeps.addExpr size_le otherExpr }
  · simp only [Ast.addExpr, Array.size_push, asts.exprs_size]
    omega
  · intro id bound
    by_cases earlier : id.index < ast.exprs.size
    · rw [Ast.expr_addExpr_of_lt earlier, Ast.expr_addExpr_of_lt]
      · exact asts.expr id earlier
      · rw [asts.exprs_size]
        exact Nat.add_lt_add_left earlier _
    · obtain ⟨index⟩ := id
      have same : index = ast.exprs.size := by
        simp only [Ast.addExpr, Array.size_push] at bound
        exact Nat.le_antisymm (Nat.le_of_lt_succ bound) (Nat.le_of_not_lt earlier)
      subst same
      have otherSame : correspondence.expr ⟨ast.exprs.size⟩ = (other.addExpr otherExpr).1 := by
        rw [Correspondence.expr, Ast.addExpr, asts.exprs_size]
      rw [otherSame, Ast.expr_addExpr_self]
      exact (Ast.expr_addExpr_self ast expr).symm ▸ exprs

theorem addStmt (asts : correspondence.Asts ast other) {stmt otherStmt : Stmt}
    (stmts : correspondence.Stmts stmt otherStmt) :
    correspondence.Asts (ast.addStmt stmt).2 (other.addStmt otherStmt).2 := by
  have size_le : correspondence.stmts ≤ other.stmts.size :=
    asts.stmts_size ▸ Nat.le_add_right _ _
  refine { asts with stmts_size := ?_, stmt := ?_, keeps := asts.keeps.addStmt size_le otherStmt }
  · simp only [Ast.addStmt, Array.size_push, asts.stmts_size]
    omega
  · intro id bound
    by_cases earlier : id.index < ast.stmts.size
    · rw [Ast.stmt_addStmt_of_lt earlier, Ast.stmt_addStmt_of_lt]
      · exact asts.stmt id earlier
      · rw [asts.stmts_size]
        exact Nat.add_lt_add_left earlier _
    · obtain ⟨index⟩ := id
      have same : index = ast.stmts.size := by
        simp only [Ast.addStmt, Array.size_push] at bound
        exact Nat.le_antisymm (Nat.le_of_lt_succ bound) (Nat.le_of_not_lt earlier)
      subst same
      have otherSame : correspondence.stmt ⟨ast.stmts.size⟩ = (other.addStmt otherStmt).1 := by
        rw [Correspondence.stmt, Ast.addStmt, asts.stmts_size]
      rw [otherSame, Ast.stmt_addStmt_self]
      exact (Ast.stmt_addStmt_self ast stmt).symm ▸ stmts

theorem addDecl (asts : correspondence.Asts ast other) {decl otherDecl : Decl}
    (decls : correspondence.Decls decl otherDecl)
    (parameter_lt : ∀ parameter ∈ decl.kind.parameters, parameter.index < ast.decls.size) :
    correspondence.Asts (ast.addDecl decl).2 (other.addDecl otherDecl).2 := by
  have size_eq : (ast.addDecl decl).2.decls.size = ast.decls.size + 1 := Array.size_push _
  have new {index : Nat} (bound : index < (ast.addDecl decl).2.decls.size)
      (later : ¬index < ast.decls.size) : index = ast.decls.size := by
    rw [size_eq] at bound
    exact Nat.le_antisymm (Nat.le_of_lt_succ bound) (Nat.le_of_not_lt later)
  have size_le : correspondence.decls ≤ other.decls.size :=
    asts.decls_size ▸ Nat.le_add_right _ _
  refine { asts with
    decls_size := ?_, decl := ?_, keeps := asts.keeps.addDecl size_le otherDecl, parameter_lt := ?_ }
  · simp only [Ast.addDecl, Array.size_push, asts.decls_size]
    omega
  · rintro ⟨index⟩ bound
    by_cases earlier : index < ast.decls.size
    · rw [Ast.decl_addDecl_of_lt earlier, Ast.decl_addDecl_of_lt]
      · exact asts.decl _ earlier
      · rw [asts.decls_size]
        exact Nat.add_lt_add_left earlier _
    · obtain rfl := new bound earlier
      have otherSame : correspondence.decl ⟨ast.decls.size⟩ = (other.addDecl otherDecl).1 := by
        rw [Correspondence.decl, Ast.addDecl, asts.decls_size]
      rw [otherSame, Ast.decl_addDecl_self]
      exact (Ast.decl_addDecl_self ast decl).symm ▸ decls
  · rintro ⟨index⟩ parameter member
    rw [size_eq]
    by_cases bound : index < (ast.addDecl decl).2.decls.size
    · by_cases earlier : index < ast.decls.size
      · rw [Ast.kindOf, Ast.decl_addDecl_of_lt earlier] at member
        exact Nat.lt_succ_of_lt (asts.parameter_lt _ parameter member)
      · obtain rfl := new bound earlier
        rw [Ast.kindOf, show (⟨ast.decls.size⟩ : DeclId) = (ast.addDecl decl).1 from rfl,
          Ast.decl_addDecl_self] at member
        exact Nat.lt_succ_of_lt (parameter_lt parameter member)
    · rw [Ast.kindOf, Ast.decl, Array.getElem?_eq_none (Nat.le_of_not_lt bound)] at member
      cases member

/-- A declaration is completed in both programs. -/
theorem setDeclKind (asts : correspondence.Asts ast other) {id : DeclId}
    (declared : id.index < ast.decls.size) {kind : DeclKind}
    (parameter_lt : ∀ parameter ∈ kind.parameters, parameter.index < ast.decls.size) :
    correspondence.Asts (ast.setDeclKind id kind)
      (other.setDeclKind (correspondence.decl id) (correspondence.declKind kind)) := by
  have size_eq (ast : Ast) (id : DeclId) (kind : DeclKind) :
      (ast.setDeclKind id kind).decls.size = ast.decls.size := Array.size_modify
  have otherDeclared : (correspondence.decl id).index < other.decls.size := by
    rw [asts.decls_size]
    exact Nat.add_lt_add_left declared _
  have later : correspondence.decls ≤ (correspondence.decl id).index := Nat.le_add_right _ _
  refine { asts with
    decls_size := ?_, decl := ?_, keeps := asts.keeps.setDeclKind later otherDeclared _,
    parameter_lt := ?_ }
  · rw [size_eq, size_eq, asts.decls_size]
  · intro declaration bound
    rw [size_eq] at bound
    rw [Ast.decl_setDeclKind _ _ _ _ declared, Ast.decl_setDeclKind _ _ _ _ otherDeclared]
    by_cases same : declaration = id
    · rw [if_pos same, if_pos (congrArg _ same)]
      obtain ⟨names, -, places⟩ := asts.decl id declared
      exact ⟨names, rfl, places⟩
    · rw [if_neg same, if_neg (mt decl_inj.1 same)]
      exact asts.decl declaration bound
  · intro declaration parameter member
    rw [Ast.kindOf, Ast.decl_setDeclKind _ _ _ _ declared] at member
    rw [size_eq]
    split at member
    · exact parameter_lt parameter member
    · exact asts.parameter_lt declaration parameter member

end Correspondence.Asts

end Minilang
