import Minilang.Lowering.Statement

/-!
# Lowering programs

Variables at the top of a program become global objects that hold zero at first, and functions become
functions. Constants at the top have no storage and leave no trace of their own.
-/

namespace Minilang

namespace Lowering

/-- Put a parameter, given by its place, into storage of its own, since it can be assigned. -/
def lowerParameter (program : Program) (index : Nat) (id : DeclId) : Build Ir.Parameter := do
  let decl := program.ast.decl id
  match decl.kind.type? with
  | some type =>
    let slot ← allocate (.ofTy type)
    perform (.store (.ofTy type) (.arg index) slot)
    bindLocal id slot
    return ⟨decl.name, .ofTy type⟩
  | none => refuse .parameterWithoutType

/-- Put parameters into storage, the first of which has the given place. -/
def lowerParameters (program : Program) : (index : Nat) → List DeclId → Build (List Ir.Parameter)
  | _, [] => return []
  | index, id :: ids => do
    let first ← lowerParameter program index id
    let rest ← lowerParameters program (index + 1) ids
    return first :: rest

/-- The body that a function has to have by now. -/
def functionBody (decl : Decl) : Build StmtId :=
  match decl.kind with
  | .function _ _ (some body) => pure body
  | .function _ _ none => refuse .functionNeverDefined
  | _ => refuse .declarationNotFunction

/-- Build the blocks of a function, giving its parameters. -/
def buildFunction (program : Program) (result : Ir.ValueType) (decl : Decl) :
    Build (List Ir.Parameter) := do
  switchTo (← newBlock .entry)
  let parameters ← lowerParameters program 0 decl.kind.parameters
  lowerStmt program result (← functionBody decl)
  return parameters

/-- Lower a function. -/
def lowerFunction (program : Program) (id : DeclId) : Except Diagnostic Ir.Function := do
  let decl := program.ast.decl id
  match decl.kind.type? with
  | some (.function result _) =>
    let result := Ir.ValueType.ofTy result
    let (parameters, builder) ← StateT.run (buildFunction program result decl) .empty
    return ⟨decl.name, parameters, result, builder.finish result⟩
  | _ => throw (.internal (.notAFunction decl.name))

/-- Check that a declaration may stand at the top of a program. -/
def checkTopLevel (decl : Decl) : Except Diagnostic Unit :=
  match decl.kind with
  | .object _ _ _ | .function _ _ _ => return
  | .parameter _ | .program _ => throw (.internal (.unexpectedTopLevel decl.name))

/-- The global object of a variable; other declarations have none. -/
def lowerGlobal? (decl : Decl) : Option Ir.Global :=
  match decl.kind with
  | .object .var type _ => some ⟨decl.name, .ofTy type, .zero (.ofTy type)⟩
  | _ => none

/-- Lower functions one after another. -/
def lowerFunctions (program : Program) : List DeclId → Except Diagnostic (List Ir.Function)
  | [] => return []
  | id :: ids => do
    let first ← lowerFunction program id
    let rest ← lowerFunctions program ids
    return first :: rest

end Lowering

/-- Lower an analyzed program to a module of the same name. -/
def lower (program : Program) : Except Diagnostic Ir.Module := do
  let decls := program.declarations.map program.ast.decl
  decls.forM Lowering.checkTopLevel
  let functions := program.declarations.filter fun id => (program.ast.decl id).kind.isFunction
  let functions ← Lowering.lowerFunctions program functions
  return ⟨(program.ast.decl program.root).name, decls.filterMap Lowering.lowerGlobal?, functions⟩

end Minilang
