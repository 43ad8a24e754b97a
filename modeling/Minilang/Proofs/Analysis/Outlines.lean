import Minilang.Proofs.Analysis.Inlining

/-!
# Outlines of statements

The outline of a statement holds the statements in it in place of their handles. What a statement does, which
variables it declares and which loops its jumps belong to are read off the outline, in the order of the text.
-/

namespace Minilang

/-- A statement with the statements in it. Braces make no difference: what is in them is a sequence. -/
inductive Outline where
  /-- Nothing. -/
  | skip
  /-- One statement after another. -/
  | sequence (first rest : Outline)
  /-- A statement under a guard. -/
  | whenTrue (guard : ExprId) (body : Outline)
  /-- A choice between two statements. -/
  | ifElse (guard : ExprId) (whenTrue whenFalse : Outline)
  /-- A loop. -/
  | whileTrue (guard : ExprId) (body : Outline)
  /-- Leave the innermost loop. -/
  | breakLoop (location : Location)
  /-- Go on with the next round of the innermost loop. -/
  | continueLoop (location : Location)
  /-- Leave the function with a value. -/
  | returnValue (value : ExprId)
  /-- A declared object with its initializer. -/
  | object (kind : ObjectKind) (type : Ty) (initializer : ExprId)
  /-- An expression whose value is not used. -/
  | expression (value : ExprId)
deriving DecidableEq, Repr

/-- Statements one after another. -/
def Outline.ofList : List Outline → Outline := List.foldr sequence skip

namespace Ast

/-- The outline of a statement, where those of the statements in it are given. -/
def outlineForm (ast : Ast) (outline : StmtId → Outline) : Stmt → Outline
  | .block statements => .ofList (statements.map outline)
  | .whenTrue guard body => .whenTrue guard (outline body)
  | .ifElse guard whenTrue whenFalse => .ifElse guard (outline whenTrue) (outline whenFalse)
  | .whileTrue guard body => .whileTrue guard (outline body)
  | .breakLoop location => .breakLoop location
  | .continueLoop location => .continueLoop location
  | .returnValue value => .returnValue value
  | .declaration declaration =>
    match ast.kindOf declaration with
    | .object kind type (some initializer) => .object kind type initializer
    | _ => .skip
  | .expression value => .expression value

/-- The outline of a statement whose nesting is at most the fuel. -/
def outlineWithin (ast : Ast) : (fuel : Nat) → StmtId → Outline
  | 0, _ => .skip
  | fuel + 1, id => ast.outlineForm (ast.outlineWithin fuel) (ast.stmt id)

/-- The outline of a statement. Nesting is at most the number of older statements, as statements are added
before the statements they belong to. -/
def outline (ast : Ast) (id : StmtId) : Outline := ast.outlineWithin (id.index + 1) id

/-- The outline of statements one after another. -/
def outlines (ast : Ast) (ids : List StmtId) : Outline := .ofList (ids.map ast.outline)

section Outlines

variable {ast : Ast} {id : StmtId} {form : Stmt}

@[simp] theorem outlines_nil : ast.outlines [] = .skip := rfl

@[simp] theorem outlines_cons {ids : List StmtId} :
    ast.outlines (id :: ids) = .sequence (ast.outline id) (ast.outlines ids) := rfl

theorem outlineForm_congr {outline other : StmtId → Outline}
    (same : ∀ child ∈ form.children, outline child = other child) :
    ast.outlineForm outline form = ast.outlineForm other form := by
  cases form with
  | block statements =>
      rw [outlineForm, outlineForm]
      exact congrArg Outline.ofList (List.map_congr_left same)
  | whenTrue guard body | whileTrue guard body =>
      rw [outlineForm, outlineForm, same body (List.mem_singleton.2 rfl)]
  | ifElse guard whenTrue whenFalse =>
      rw [outlineForm, outlineForm, same whenTrue (by simp [Stmt.children]),
        same whenFalse (by simp [Stmt.children])]
  | breakLoop | continueLoop | returnValue | declaration | expression => rfl

/-- More fuel than the nesting needs makes no difference. -/
theorem outlineWithin_eq (sound : ast.Sound) (bound : id.index < ast.stmts.size) {fuel more : Nat}
    (enough : id.index < fuel) (more_enough : id.index < more) :
    ast.outlineWithin fuel id = ast.outlineWithin more id := by
  induction fuel generalizing id more with
  | zero => exact absurd enough (Nat.not_lt_zero _)
  | succ fuel induction =>
      obtain ⟨more, rfl⟩ := Nat.exists_eq_succ_of_ne_zero (Nat.ne_zero_of_lt more_enough)
      rw [outlineWithin, outlineWithin]
      refine outlineForm_congr fun child member => ?_
      have older := sound.child_lt id bound child member
      exact induction (older.trans bound) (older.trans_le (Nat.le_of_lt_succ enough))
        (older.trans_le (Nat.le_of_lt_succ more_enough))

/-- The outline of a statement is made of the outlines of the statements in it. -/
theorem outline_eq (sound : ast.Sound) (is : ast.StmtIs id form) :
    ast.outline id = ast.outlineForm ast.outline form := by
  obtain ⟨bound, rfl⟩ := is
  rw [outline, outlineWithin]
  refine outlineForm_congr fun child member => ?_
  have older := sound.child_lt id bound child member
  exact outlineWithin_eq sound (older.trans bound) older (Nat.lt_succ_self _)

end Outlines

end Ast

/-- Why a block goes on with the guard of a loop or with what is behind the loop. -/
inductive JumpCause where
  /-- The loop is reached. -/
  | enter
  /-- The end of the body is reached. -/
  | again
  /-- Leave the loop. -/
  | breakLoop (location : Location)
  /-- Go on with the next round. -/
  | continueLoop (location : Location)
deriving DecidableEq, Repr

/-- A jump and the innermost loop around it. Loops of a function are numbered in the order in which they
begin in the text. -/
structure Jump where
  /-- Why there is a jump. -/
  cause : JumpCause
  /-- The number of the loop, unless there is none. -/
  loop : Option Nat
deriving DecidableEq, Repr

/-- The error that a jump is without a loop around it. -/
def JumpCause.error? : JumpCause → Option Diagnostic
  | breakLoop location => some (.semantic location .breakOutsideLoop)
  | continueLoop location => some (.semantic location .continueOutsideLoop)
  | enter | again => none

/-- The error that a jump is. -/
def Jump.fault? (jump : Jump) : Option Diagnostic :=
  if jump.loop.isNone then jump.cause.error? else none

namespace Outline

/-- The expressions that statements evaluate, in the order of the text. -/
def evaluated : Outline → List ExprId
  | skip | breakLoop _ | continueLoop _ => []
  | sequence first rest => first.evaluated ++ rest.evaluated
  | whenTrue guard body | whileTrue guard body => guard :: body.evaluated
  | ifElse guard first second => guard :: (first.evaluated ++ second.evaluated)
  | returnValue value | object _ _ value | expression value => [value]

/-- The types of the variables that statements declare. -/
def declared : Outline → List Ty
  | skip | breakLoop _ | continueLoop _ | returnValue _ | expression _ => []
  | sequence first rest => first.declared ++ rest.declared
  | whenTrue _ body | whileTrue _ body => body.declared
  | ifElse _ first second => first.declared ++ second.declared
  | object kind type _ => if kind = .var then [type] else []

/-- What statements do besides computing values. A variable is written with its initial value. -/
def effects (ast : Ast) : Outline → List Effect
  | skip | breakLoop _ | continueLoop _ => []
  | sequence first rest => first.effects ast ++ rest.effects ast
  | whenTrue guard body | whileTrue guard body => ast.effects guard ++ body.effects ast
  | ifElse guard first second => ast.effects guard ++ (first.effects ast ++ second.effects ast)
  | returnValue value | expression value => ast.effects value
  | object kind _ initializer =>
    ast.effects initializer ++ if kind = .var then [.store] else []

/-- The number of loops in statements. -/
def loops : Outline → Nat
  | skip | breakLoop _ | continueLoop _ | returnValue _ | object _ _ _ | expression _ => 0
  | sequence first rest => first.loops + rest.loops
  | whenTrue _ body => body.loops
  | ifElse _ first second => first.loops + second.loops
  | whileTrue _ body => body.loops + 1

/-- Whether what follows statements goes on from them. It does not behind a jump, up to the next thing that
there is to do; whether it goes on in front of the statements is given. -/
def goesOn (program : Program) : Outline → (reached : Bool) → Bool
  | skip, reached => reached
  | sequence first rest, reached => rest.goesOn program (first.goesOn program reached)
  | whenTrue _ _, _ | ifElse _ _ _, _ | whileTrue _ _, _ => true
  | breakLoop _, _ | continueLoop _, _ | returnValue _, _ => false
  | object kind _ initializer, reached => kind = .var || reached || !program.isSilent initializer
  | expression value, reached => reached || !program.isSilent value

/-- The jumps in statements, given the innermost loop around them and the number of loops that have begun
before them. -/
def jumps (program : Program) : Outline → (loop : Option Nat) → (begun : Nat) → List Jump
  | skip, _, _ | returnValue _, _, _ | object _ _ _, _, _ | expression _, _, _ => []
  | sequence first rest, loop, begun =>
    first.jumps program loop begun ++ rest.jumps program loop (begun + first.loops)
  | whenTrue _ body, loop, begun => body.jumps program loop begun
  | ifElse _ first second, loop, begun =>
    first.jumps program loop begun ++ second.jumps program loop (begun + first.loops)
  | whileTrue _ body, _, begun =>
    ⟨.enter, some begun⟩ :: (body.jumps program (some begun) (begun + 1) ++
      if body.goesOn program true then [⟨.again, some begun⟩] else [])
  | breakLoop location, loop, _ => [⟨.breakLoop location, loop⟩]
  | continueLoop location, loop, _ => [⟨.continueLoop location, loop⟩]

/-- What statements do is what the expressions in them do, and one write for each declared variable. -/
theorem effects_perm (ast : Ast) (outline : Outline) :
    (outline.effects ast).Perm
      (outline.evaluated.flatMap ast.effects ++ outline.declared.map fun _ => .store) := by
  -- the writes of the first part move behind what the second part evaluates
  have swap (first second writes more : List Effect) :
      ((first ++ writes) ++ (second ++ more)).Perm ((first ++ second) ++ (writes ++ more)) := by
    rw [List.append_assoc, List.append_assoc]
    refine List.Perm.append_left _ ?_
    rw [← List.append_assoc, ← List.append_assoc]
    exact List.perm_append_comm.append_right _
  induction outline with
  | skip | breakLoop | continueLoop => exact .refl _
  | returnValue value | expression value => simp [effects, evaluated, declared]
  | sequence first rest first_perm rest_perm =>
      simp only [effects, evaluated, declared, List.flatMap_append, List.map_append]
      exact (first_perm.append rest_perm).trans (swap _ _ _ _)
  | whenTrue guard body body_perm | whileTrue guard body body_perm =>
      simp only [effects, evaluated, declared, List.flatMap_cons, List.append_assoc]
      exact body_perm.append_left _
  | ifElse guard first second first_perm second_perm =>
      simp only [effects, evaluated, declared, List.flatMap_cons, List.flatMap_append,
        List.map_append, List.append_assoc]
      have both := (first_perm.append second_perm).trans (swap _ _ _ _)
      simpa only [List.append_assoc] using both.append_left (ast.effects guard)
  | object kind type initializer =>
      by_cases isVariable : kind = .var <;> simp [effects, evaluated, declared, isVariable]

end Outline

end Minilang
