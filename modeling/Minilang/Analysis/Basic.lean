import Minilang.Diagnostic.Basic
import Minilang.Scope

/-!
# Analysis

Analysis builds a program out of checked nodes. Its state holds the nodes added so far, the scopes that
are open, and the function being defined. A step that fails keeps what it has added before it failed.
-/

namespace Minilang

/-- How far the analysis of a program has come. -/
structure Analysis where
  /-- The nodes added so far. -/
  ast : Ast
  /-- The scopes that are open. -/
  scopes : ScopeChain
  /-- The function that is declared but has no body yet. -/
  function : Option DeclId
deriving DecidableEq, Repr

/-- A step of analysis: it may fail, and it keeps its state either way. -/
abbrev Check (α : Type) : Type := ExceptT Diagnostic (StateM Analysis) α

namespace Analysis

/-- The state before anything has been analyzed. -/
def initial : Analysis := ⟨.empty, .empty, none⟩

/-- The analyzed program whose whole is the given declaration. -/
def program (analysis : Analysis) (root : DeclId) : Program := ⟨analysis.ast, root⟩

/-- Fail because the program has no meaning at a location. -/
def reject {α : Type} (location : Location) (error : SemanticError) : Check α :=
  throw (.semantic location error)

/-- Fail because a step was taken that the steps before rule out. -/
def refuse {α : Type} (error : InternalError) : Check α := throw (.internal error)

/-- The expression behind a handle. -/
def expr (id : ExprId) : Check Expr := return (← get).ast.expr id

/-- The declaration behind a handle. -/
def decl (id : DeclId) : Check Decl := return (← get).ast.decl id

/-- Add an expression. -/
def addExpr (kind : ExprKind) (type : Ty) (location : Location) : Check ExprId :=
  modifyGet fun analysis =>
    let (id, ast) := analysis.ast.addExpr ⟨kind, type, location⟩
    (id, { analysis with ast })

/-- Add a statement. -/
def addStmt (stmt : Stmt) : Check StmtId :=
  modifyGet fun analysis =>
    let (id, ast) := analysis.ast.addStmt stmt
    (id, { analysis with ast })

/-- Add a declaration. -/
def addDecl (name : String) (location : Location) (kind : DeclKind) : Check DeclId :=
  modifyGet fun analysis =>
    let (id, ast) := analysis.ast.addDecl ⟨name, location, kind⟩
    (id, { analysis with ast })

/-- Replace what a declaration introduces. -/
def setDeclKind (id : DeclId) (kind : DeclKind) : Check Unit :=
  modify fun analysis => { analysis with ast := analysis.ast.setDeclKind id kind }

/-- Replace the open scopes. -/
def setScopes (scopes : ScopeChain) : Check Unit :=
  modify fun analysis => { analysis with scopes }

/-- Replace the function being defined. -/
def setFunction (function : Option DeclId) : Check Unit :=
  modify fun analysis => { analysis with function }

/-- The name that a token spells. -/
def nameOf (token : Token) : Check String :=
  match token.kind with
  | .identifier name => pure name
  | kind => refuse (.expectedIdentifier kind)

end Analysis

end Minilang
