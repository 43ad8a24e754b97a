import Minilang.Binary64.Basic
import Minilang.Location
import Minilang.Operator
import Minilang.Ty

/-!
# Analyzed programs

An analyzed program is a store of expressions, statements and declarations that refer to one another by
handles. Handles count the nodes of their kind in the order in which they were added, and adding a node
leaves all earlier ones as they are.
-/

namespace Minilang

/-- Handle of an expression. -/
structure ExprId where
  /-- The number of expressions added before it. -/
  index : Nat
deriving DecidableEq, Repr

/-- Handle of a statement. -/
structure StmtId where
  /-- The number of statements added before it. -/
  index : Nat
deriving DecidableEq, Repr

/-- Handle of a declaration. -/
structure DeclId where
  /-- The number of declarations added before it. -/
  index : Nat
deriving DecidableEq, Repr

/-- What an expression computes. -/
inductive ExprKind where
  /-- A truth value. -/
  | bool (value : Bool)
  /-- An integer. -/
  | int (value : Int32)
  /-- A floating-point number. -/
  | float (value : Binary64)
  /-- A character. -/
  | char (value : UInt8)
  /-- A use of a declared name. -/
  | name (declaration : DeclId)
  /-- An operator on one value. -/
  | unary (operator : UnaryOperator) (operand : ExprId)
  /-- An operator on two values. -/
  | binary (operator : BinaryOperator) (left right : ExprId)
  /-- A call. -/
  | call (callee : ExprId) (arguments : List ExprId)
  /-- An index expression, which no analysis yields. -/
  | index (base : ExprId) (arguments : List ExprId)
  /-- A cast, whose operand already has the target type. -/
  | cast (operand : ExprId)
  /-- An assignment to the storage that the target designates. -/
  | assign (target value : ExprId)
  /-- A choice between two expressions of one type. -/
  | conditional (guard whenTrue whenFalse : ExprId)
  /-- A conversion inserted by analysis. -/
  | convert (conversion : Conversion) (operand : ExprId)
deriving DecidableEq, Repr

/-- An expression. -/
structure Expr where
  /-- What it computes. -/
  kind : ExprKind
  /-- Its type. -/
  type : Ty
  /-- Where it stands. -/
  location : Location
deriving DecidableEq, Repr

/-- A statement. -/
inductive Stmt where
  /-- Statements in braces. -/
  | block (statements : List StmtId)
  /-- A statement that runs if a guard holds. -/
  | whenTrue (guard : ExprId) (body : StmtId)
  /-- A choice between two statements. -/
  | ifElse (guard : ExprId) (whenTrue whenFalse : StmtId)
  /-- A statement that runs as long as a guard holds. -/
  | whileTrue (guard : ExprId) (body : StmtId)
  /-- Leave the innermost loop. -/
  | breakLoop (location : Location)
  /-- Go on with the next round of the innermost loop. -/
  | continueLoop (location : Location)
  /-- Leave the function with a value. -/
  | returnValue (value : ExprId)
  /-- A local declaration. -/
  | declaration (declaration : DeclId)
  /-- An expression whose value is not used. -/
  | expression (expression : ExprId)
deriving DecidableEq, Repr

/-- The three ways to declare an object. -/
inductive ObjectKind where
  /-- Storage that can be assigned, declared by `var`. -/
  | var
  /-- A constant declared by `let`. -/
  | const
  /-- A constant declared by `def`. -/
  | value
deriving DecidableEq, Repr

/-- What a declaration introduces. -/
inductive DeclKind where
  /-- An object with its initializer, once it has one. -/
  | object (kind : ObjectKind) (type : Ty) (initializer : Option ExprId)
  /-- A parameter of a function. -/
  | parameter (type : Ty)
  /-- A function with its body, once it has one. -/
  | function (type : Ty) (parameters : List DeclId) (body : Option StmtId)
  /-- The whole program. -/
  | program (declarations : List DeclId)
deriving DecidableEq, Repr

namespace DeclKind

/-- The declared type. -/
def type? : DeclKind → Option Ty
  | object _ type _ | parameter type | function type _ _ => some type
  | program _ => none

/-- Whether uses of a declaration designate storage. -/
def isVariable : DeclKind → Bool
  | object .var _ _ | parameter _ => true
  | _ => false

/-- Whether a declaration names a constant. -/
def isConstant : DeclKind → Bool
  | object .const _ _ | object .value _ _ => true
  | _ => false

/-- Whether a declaration names a function. -/
def isFunction : DeclKind → Bool
  | function _ _ _ => true
  | _ => false

/-- The parameters of a function; other declarations have none. -/
def parameters : DeclKind → List DeclId
  | function _ parameters _ => parameters
  | _ => []

/-- The initializer that an object has got. -/
def initializer? : DeclKind → Option ExprId
  | object _ _ initializer => initializer
  | _ => none

end DeclKind

/-- A declaration. -/
structure Decl where
  /-- The declared name. -/
  name : String
  /-- Where the name stands. -/
  location : Location
  /-- What is declared. -/
  kind : DeclKind
deriving DecidableEq, Repr

/-- The nodes of a program in the order in which they were added. -/
structure Ast where
  /-- All expressions. -/
  exprs : Array Expr
  /-- All statements. -/
  stmts : Array Stmt
  /-- All declarations. -/
  decls : Array Decl
deriving DecidableEq, Repr

namespace Ast

/-- The store without any node. -/
def empty : Ast := ⟨#[], #[], #[]⟩

/-- What stands for an expression that was never added. -/
def noExpr : Expr := ⟨.bool false, .bool, .unknown⟩

/-- What stands for a declaration that was never added. -/
def noDecl : Decl := ⟨"", .unknown, .program []⟩

/-- The expression behind a handle. -/
def expr (ast : Ast) (id : ExprId) : Expr := ast.exprs[id.index]?.getD noExpr

/-- The statement behind a handle. -/
def stmt (ast : Ast) (id : StmtId) : Stmt := ast.stmts[id.index]?.getD (.block [])

/-- The declaration behind a handle. -/
def decl (ast : Ast) (id : DeclId) : Decl := ast.decls[id.index]?.getD noDecl

/-- Add an expression. -/
def addExpr (ast : Ast) (expr : Expr) : ExprId × Ast :=
  (⟨ast.exprs.size⟩, { ast with exprs := ast.exprs.push expr })

/-- Add a statement. -/
def addStmt (ast : Ast) (stmt : Stmt) : StmtId × Ast :=
  (⟨ast.stmts.size⟩, { ast with stmts := ast.stmts.push stmt })

/-- Add a declaration. -/
def addDecl (ast : Ast) (decl : Decl) : DeclId × Ast :=
  (⟨ast.decls.size⟩, { ast with decls := ast.decls.push decl })

/-- Replace what a declaration introduces. -/
def setDeclKind (ast : Ast) (id : DeclId) (kind : DeclKind) : Ast :=
  { ast with decls := ast.decls.modify id.index fun decl => { decl with kind := kind } }

@[simp]
theorem expr_addExpr_self (ast : Ast) (expr : Expr) :
    (ast.addExpr expr).2.expr (ast.addExpr expr).1 = expr := by
  simp [addExpr, Ast.expr]

theorem expr_addExpr_of_lt {ast : Ast} {id : ExprId} (earlier : id.index < ast.exprs.size)
    (expr : Expr) : (ast.addExpr expr).2.expr id = ast.expr id := by
  simp [addExpr, Ast.expr, Array.getElem?_push, Nat.ne_of_lt earlier]

@[simp]
theorem stmt_addStmt_self (ast : Ast) (stmt : Stmt) :
    (ast.addStmt stmt).2.stmt (ast.addStmt stmt).1 = stmt := by
  simp [addStmt, Ast.stmt]

theorem stmt_addStmt_of_lt {ast : Ast} {id : StmtId} (earlier : id.index < ast.stmts.size)
    (stmt : Stmt) : (ast.addStmt stmt).2.stmt id = ast.stmt id := by
  simp [addStmt, Ast.stmt, Array.getElem?_push, Nat.ne_of_lt earlier]

@[simp]
theorem decl_addDecl_self (ast : Ast) (decl : Decl) :
    (ast.addDecl decl).2.decl (ast.addDecl decl).1 = decl := by
  simp [addDecl, Ast.decl]

theorem decl_addDecl_of_lt {ast : Ast} {id : DeclId} (earlier : id.index < ast.decls.size)
    (decl : Decl) : (ast.addDecl decl).2.decl id = ast.decl id := by
  simp [addDecl, Ast.decl, Array.getElem?_push, Nat.ne_of_lt earlier]

end Ast

/-- An analyzed program: its nodes and the declaration of the whole. -/
structure Program where
  /-- The nodes of the program. -/
  ast : Ast
  /-- The declaration of the whole program. -/
  root : DeclId
deriving DecidableEq, Repr

namespace Program

/-- The declarations at the top of a program. -/
def declarations (program : Program) : List DeclId :=
  match (program.ast.decl program.root).kind with
  | .program declarations => declarations
  | _ => []

end Program

end Minilang
