import Minilang.Analysis.Conversion

/-!
# Analysis of declarations

A name is declared in the innermost scope first and gets its initializer or body afterwards, so that
functions can call themselves and constants cannot use themselves. Initializers of global constants have
to be computable without any storage.
-/

namespace Minilang

namespace Ast

/-- Whether an expression reads no storage and calls nothing, looked into as deep as the fuel goes. -/
def isConstantWithin (ast : Ast) : Nat → ExprId → Bool
  | 0, _ => false
  | fuel + 1, id =>
    match (ast.expr id).kind with
    | .bool _ | .int _ | .float _ | .char _ => true
    | .name declaration =>
      let kind := (ast.decl declaration).kind
      kind.isConstant || kind.isFunction
    | .convert .load _ => false
    | .unary _ operand | .cast operand | .convert _ operand => isConstantWithin ast fuel operand
    | .binary _ left right => isConstantWithin ast fuel left && isConstantWithin ast fuel right
    | .conditional guard whenTrue whenFalse =>
      isConstantWithin ast fuel guard && isConstantWithin ast fuel whenTrue &&
        isConstantWithin ast fuel whenFalse
    | .call _ _ | .index _ _ | .assign _ _ => false

/-- Whether an expression reads no storage and calls nothing. Operands are older than what they are
operands of, so an expression is at most as deep as there are expressions. -/
def isConstant (ast : Ast) (id : ExprId) : Bool := ast.isConstantWithin ast.exprs.size id

end Ast

namespace Analysis

/-- Open the scope of the whole program, which is the outermost one. -/
def enterGlobalScope : Check Unit := do
  let scopes := (← get).scopes
  if scopes.depth ≠ 0 then refuse .globalScopeEnteredTwice
  setScopes (scopes.push .global)

/-- Open the scope of a parameter list. -/
def enterParameterScope : Check Unit := do setScopes ((← get).scopes.push .parameter)

/-- Open the scope of a block. -/
def enterBlockScope : Check Unit := do setScopes ((← get).scopes.push .block)

/-- Close the innermost scope. -/
def leaveScope : Check Unit := do
  match (← get).scopes.pop? with
  | some (_, outer) => setScopes outer
  | none => refuse .scopeNeverEntered

/-- Bind the name of a declaration in the innermost scope. -/
def declare (id : DeclId) : Check Unit := do
  let decl ← decl id
  match (← get).scopes.declare decl.name id with
  | .ok scopes => setScopes scopes
  | .error _ => reject decl.location (.redeclaration decl.name)

/-- What a name means in the innermost scope. -/
def lookup (name : String) : Check (Option DeclId) := return (← get).scopes.lookup name

/-- Add a declaration and bind its name. The declaration stays even if the name is taken. -/
def declareNew (token : Token) (kind : DeclKind) : Check DeclId := do
  let name ← nameOf token
  let id ← addDecl name token.location kind
  declare id
  return id

/-- Declare an object, which has no initializer yet. -/
def declareObject (kind : ObjectKind) (token : Token) (type : Ty) : Check DeclId :=
  declareNew token (.object kind type none)

/-- Declare a parameter. -/
def declareParameter (token : Token) (type : Ty) : Check DeclId :=
  declareNew token (.parameter type)

/-- Give an object its initializer. -/
def defineObject (id : DeclId) (initializer : ExprId) : Check DeclId := do
  let value ← load initializer
  let decl ← decl id
  match decl.kind.type? with
  | none => refuse .objectWithoutType
  | some type => requireSame type value
  let analysis ← get
  if decl.kind.isConstant ∧ analysis.scopes.currentKind? = some .global ∧
      analysis.ast.isConstant value = false then
    reject (← expr value).location (.nonConstantInitializer decl.name)
  match decl.kind with
  | .object kind type none => setDeclKind id (.object kind type (some value))
  | .object _ _ (some _) => refuse .objectDefinedTwice
  | _ => refuse .declarationNotObject
  return id

/-- Declare a function, which has no body yet. Functions do not nest. -/
def declareFunction (token : Token) (parameters : List DeclId) (result : Ty) : Check DeclId := do
  let name ← nameOf token
  let analysis ← get
  if analysis.function.isSome then reject token.location (.nestedFunction name)
  let types := parameters.filterMap fun parameter => (analysis.ast.decl parameter).kind.type?
  let id ← addDecl name token.location (.function (.function result types) parameters none)
  declare id
  setFunction (some id)
  return id

/-- Give the function being defined its body. -/
def defineFunction (id : DeclId) (body : StmtId) : Check DeclId := do
  if (← get).function ≠ some id then refuse .notCurrentFunction
  match (← decl id).kind with
  | .function type parameters none => setDeclKind id (.function type parameters (some body))
  | .function _ _ (some _) => refuse .functionDefinedTwice
  | _ => refuse .declarationNotFunction
  setFunction none
  return id

/-- Add the declaration of the whole program. -/
def addProgram (name : String) (declarations : List DeclId) : Check DeclId :=
  addDecl name .unknown (.program declarations)

end Analysis

end Minilang
