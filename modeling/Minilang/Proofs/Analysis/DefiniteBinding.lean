import Minilang.Proofs.Analysis.Scoping

/-!
# Definite binding

A constant of a function is bound where it is declared. As a declaration may stand alone behind a guard,
its name can be in scope where control comes without passing it. The constants that are bound on every way
to a place are computed statement by statement.
-/

namespace Minilang

/-- The constants that are bound on every way to a place. -/
inductive Flow where
  /-- No way leads to the place. -/
  | unreachable
  | reachable (bound : List DeclId)
deriving DecidableEq, Repr

namespace Flow

/-- What is bound where two ways meet. -/
def join : Flow → Flow → Flow
  | unreachable, other => other
  | other, unreachable => other
  | reachable first, reachable second => reachable (first.filter (· ∈ second))

/-- What is bound behind a declaration. -/
def declare (id : DeclId) : Flow → Flow
  | unreachable => unreachable
  | reachable bound => reachable (id :: bound)

/-- Behind the first of two ways, at least what is bound where they meet is bound. -/
theorem join_left {first second : Flow} {bound : List DeclId} (reaches : first = reachable bound) :
    ∃ both, first.join second = reachable both ∧ both ⊆ bound := by
  subst reaches
  cases second with
  | unreachable => exact ⟨bound, rfl, fun _ member => member⟩
  | reachable other => exact ⟨_, rfl, fun _ member => (List.mem_filter.1 member).1⟩

/-- Behind the second of two ways, at least what is bound where they meet is bound. -/
theorem join_right {first second : Flow} {bound : List DeclId} (reaches : second = reachable bound) :
    ∃ both, first.join second = reachable both ∧ both ⊆ bound := by
  subst reaches
  cases first with
  | unreachable => exact ⟨bound, rfl, fun _ member => member⟩
  | reachable other =>
      refine ⟨_, rfl, fun declaration member => ?_⟩
      simpa using (List.mem_filter.1 member).2

end Flow

namespace Ast

/-- The declarations that the names in an expression lead to. -/
def namesWithin (ast : Ast) : (fuel : Nat) → ExprId → List DeclId
  | 0, _ => []
  | fuel + 1, id =>
    match (ast.expr id).kind with
    | .name declaration => [declaration]
    | kind => kind.operands.flatMap (ast.namesWithin fuel)

theorem Names.of_namesWithin {ast : Ast} (sound : ast.Sound) {visible holds : DeclId → Prop}
    {id : ExprId} (names : ast.Names visible id) {fuel : Nat} (enough : id.index < fuel)
    (all : ∀ declaration ∈ ast.namesWithin fuel id, visible declaration → holds declaration) :
    ast.Names holds id := by
  induction fuel generalizing id with
  | zero => exact absurd enough (Nat.not_lt_zero _)
  | succ fuel induction =>
      have bound := names.index_lt
      have grounded := sound.expr_grounded id bound
      rw [namesWithin] at all
      refine .expr bound ?_ ?_
      · intro declaration named
        rw [named] at all
        exact all declaration (List.mem_singleton.2 rfl) (names.visible_of_name named)
      · intro operand member
        refine induction (names.operand member) ((grounded.operand_lt operand member).trans_le
          (Nat.le_of_lt_succ enough)) fun declaration inside => all declaration ?_
        split
        · next declaration named =>
          rw [named] at member
          cases member
        · exact List.mem_flatMap.2 ⟨operand, member, inside⟩

end Ast

namespace Program

/-- Whether the constants of a function that an expression names are bound. -/
def usesBound (program : Program) (flow : Flow) (id : ExprId) : Bool :=
  match flow with
  | .unreachable => true
  | .reachable bound =>
    (program.ast.namesWithin (program.ast.exprs.size + 1) id).all fun declaration =>
      (program.ast.kindOf declaration).isConstant = false ∨ declaration ∈ program.declarations ∨
        declaration ∈ bound

/-- What is bound behind statements one after another, if all of them use only what is bound. -/
def flowSequence (flowStmt : Flow → StmtId → Option Flow) : Flow → List StmtId → Option Flow
  | flow, [] => some flow
  | flow, statement :: statements =>
    (flowStmt flow statement).bind fun next => flowSequence flowStmt next statements

/-- What is bound behind a statement if it uses only what is bound; what is bound behind the statements
within it is given by a function. What runs under a guard may not run at all. -/
def flowForm (program : Program) (flowStmt : Flow → StmtId → Option Flow) (flow : Flow) :
    Stmt → Option Flow
  | .block statements => flowSequence flowStmt flow statements
  | .whenTrue guard body | .whileTrue guard body =>
    if program.usesBound flow guard then (flowStmt flow body).map fun _ => flow else none
  | .ifElse guard whenTrue whenFalse =>
    if program.usesBound flow guard then
      (flowStmt flow whenTrue).bind fun first => (flowStmt flow whenFalse).map first.join
    else none
  | .breakLoop _ | .continueLoop _ => some .unreachable
  | .returnValue value => if program.usesBound flow value then some .unreachable else none
  | .declaration declaration =>
    match (program.ast.kindOf declaration).initializer? with
    | some initializer =>
      if program.usesBound flow initializer then some (flow.declare declaration) else none
    | none => none
  | .expression expression => if program.usesBound flow expression then some flow else none

/-- What is bound behind a statement whose nesting is at most the fuel. -/
def flowStmtWithin (program : Program) : (fuel : Nat) → Flow → StmtId → Option Flow
  | 0, _, _ => none
  | fuel + 1, flow, id =>
    program.flowForm (program.flowStmtWithin fuel) flow (program.ast.stmt id)

/-- Whether all functions use their constants only where they are bound on every way. -/
def bindsDefinitely (program : Program) : Bool :=
  program.declarations.all fun id =>
    match program.ast.kindOf id with
    | .function _ _ (some body) =>
      (program.flowStmtWithin (program.ast.stmts.size + 1) (.reachable []) body).isSome
    | _ => true

theorem flowSequence_singleton (flowStmt : Flow → StmtId → Option Flow) (flow : Flow)
    (id : StmtId) : flowSequence flowStmt flow [id] = flowStmt flow id := by
  rw [flowSequence]
  cases flowStmt flow id with
  | none => rfl
  | some next => rfl

/-- The flow through a sequence goes through its first statement, which takes one unit of fuel. -/
theorem flowSequence_cons {program : Program} {fuel : Nat} {flow last : Flow} {id : StmtId}
    {rest : List StmtId}
    (flows : flowSequence (program.flowStmtWithin fuel) flow (id :: rest) = some last) :
    ∃ less middle, fuel = less + 1 ∧
      program.flowForm (program.flowStmtWithin less) flow (program.ast.stmt id) = some middle ∧
      flowSequence (program.flowStmtWithin fuel) middle rest = some last := by
  obtain ⟨middle, first, rest⟩ := Option.bind_eq_some_iff.1 flows
  cases fuel with
  | zero => cases first
  | succ less => exact ⟨less, middle, rfl, first, rest⟩

end Program

end Minilang
