import Minilang.Proofs.Analysis.Bodies
import Minilang.Proofs.Analysis.DefiniteBinding

/-!
# Definite assignment

A variable of a function is written where it is declared, and a parameter where the function begins. As with
constants, control may come to a place where a variable is in scope without passing its declaration. The
variables that are written on every way to a place are computed statement by statement.
-/

namespace Minilang

namespace Program

/-- Whether the variables and parameters of a function that an expression names are written. -/
def usesWritten (program : Program) (flow : Flow) (id : ExprId) : Bool :=
  match flow with
  | .unreachable => true
  | .reachable written =>
    (program.ast.namesWithin (program.ast.exprs.size + 1) id).all fun declaration =>
      (program.ast.kindOf declaration).isVariable = false ∨ declaration ∈ program.declarations ∨
        declaration ∈ written

/-- What is declared on every way behind a statement, if its expressions pass a test where they stand; what
is declared behind the statements within it is given by a function. -/
def flowFormBy (program : Program) (uses : Flow → ExprId → Bool)
    (flowStmt : Flow → StmtId → Option Flow) (flow : Flow) : Stmt → Option Flow
  | .block statements => flowSequence flowStmt flow statements
  | .whenTrue guard body | .whileTrue guard body =>
    if uses flow guard then (flowStmt flow body).map fun _ => flow else none
  | .ifElse guard whenTrue whenFalse =>
    if uses flow guard then
      (flowStmt flow whenTrue).bind fun first => (flowStmt flow whenFalse).map first.join
    else none
  | .breakLoop _ | .continueLoop _ => some .unreachable
  | .returnValue value => if uses flow value then some .unreachable else none
  | .declaration declaration =>
    match (program.ast.kindOf declaration).initializer? with
    | some initializer => if uses flow initializer then some (flow.declare declaration) else none
    | none => none
  | .expression expression => if uses flow expression then some flow else none

/-- What is declared on every way behind a statement whose nesting is at most the fuel. -/
def flowStmtBy (program : Program) (uses : Flow → ExprId → Bool) :
    (fuel : Nat) → Flow → StmtId → Option Flow
  | 0, _, _ => none
  | fuel + 1, flow, id =>
    program.flowFormBy uses (program.flowStmtBy uses fuel) flow (program.ast.stmt id)

/-- Whether a function names its variables only where they are written on every way. -/
def writesDefinitely (program : Program) (id : DeclId) : Bool :=
  match program.ast.kindOf id with
  | .function _ parameters (some body) =>
    (program.flowStmtBy program.usesWritten (program.ast.stmts.size + 1) (.reachable parameters)
      body).isSome
  | _ => true

variable {program : Program} {uses : Flow → ExprId → Bool}

/-- The flow through a sequence goes through its first statement, which takes one unit of fuel. -/
theorem flowSequence_cons_by {fuel : Nat} {flow last : Flow} {id : StmtId} {rest : List StmtId}
    (flows : flowSequence (program.flowStmtBy uses fuel) flow (id :: rest) = some last) :
    ∃ less middle, fuel = less + 1 ∧
      program.flowFormBy uses (program.flowStmtBy uses less) flow (program.ast.stmt id) =
        some middle ∧
      flowSequence (program.flowStmtBy uses fuel) middle rest = some last := by
  obtain ⟨middle, first, rest⟩ := Option.bind_eq_some_iff.1 flows
  cases fuel with
  | zero => cases first
  | succ less => exact ⟨less, middle, rfl, first, rest⟩

/-- The flow through one statement takes one unit of fuel. -/
theorem flowForm_of_singleton {fuel : Nat} {flow last : Flow} {id : StmtId}
    (flows : flowSequence (program.flowStmtBy uses fuel) flow [id] = some last) :
    ∃ less, program.flowFormBy uses (program.flowStmtBy uses less) flow (program.ast.stmt id) =
      some last := by
  obtain ⟨less, middle, -, head, tail⟩ := flowSequence_cons_by flows
  cases tail
  exact ⟨less, head⟩

end Program

/-- The parameters of a function and the declarations made in it so far. -/
def FunctionScope.Declares (scope : FunctionScope) (count : Nat) (declaration : DeclId) : Prop :=
  declaration ∈ scope.parameters ∨
    scope.function.index < declaration.index ∧ declaration.index < count

theorem FunctionScope.Declares.mono {scope : FunctionScope} {count more : Nat}
    {declaration : DeclId} (declares : scope.Declares count declaration) (count_le : count ≤ more) :
    scope.Declares more declaration :=
  declares.imp_right fun inside => ⟨inside.1, inside.2.trans_le count_le⟩

namespace Flow

/-- Whether everything that is declared on every way is among some declarations. -/
def Within (declared : DeclId → Prop) : Flow → Prop
  | unreachable => True
  | reachable names => ∀ declaration ∈ names, declared declaration

variable {declared more : DeclId → Prop} {flow other : Flow}

theorem Within.mono (within : flow.Within declared)
    (imp : ∀ declaration, declared declaration → more declaration) : flow.Within more := by
  cases flow with
  | unreachable => trivial
  | reachable names => exact fun declaration member => imp _ (within declaration member)

theorem Within.join (left : flow.Within declared) (right : other.Within declared) :
    (flow.join other).Within declared := by
  cases flow with
  | unreachable => exact right
  | reachable names =>
      cases other with
      | unreachable => exact left
      | reachable names' =>
          exact fun declaration member => left declaration (List.mem_filter.1 member).1

theorem Within.declare (within : flow.Within declared)
    (imp : ∀ declaration, declared declaration → more declaration) {id : DeclId} (new : more id) :
    (flow.declare id).Within more := by
  cases flow with
  | unreachable => trivial
  | reachable names => exact List.forall_mem_cons.2 ⟨new, within.mono imp⟩

end Flow

end Minilang
