import Minilang.Analysis.Statement
import Minilang.Proofs.Analysis.Scoping

/-!
# Analysis of statements keeps programs typed

One law per form of statement: which statement is added behind which conversions. Nothing but a return
outside of every function is refused.
-/

namespace Minilang.Analysis

/-- A growing program keeps its nodes, and stays sound if it was. -/
structure Grows (before after : Analysis) : Prop where
  /-- The nodes are kept. -/
  extends' : before.ast.Extends after.ast
  /-- Soundness is kept. -/
  sound : before.ast.Sound → after.ast.Sound

namespace Grows

variable {before middle after : Analysis}

theorem refl (analysis : Analysis) : Grows analysis analysis := ⟨.refl _, id⟩

theorem trans (first : Grows before middle) (second : Grows middle after) : Grows before after :=
  ⟨first.extends'.trans second.extends', fun sound => second.sound (first.sound sound)⟩

/-- Changes besides the nodes do not matter. -/
theorem of_ast_eq (same : after.ast = before.ast) : Grows before after := by
  refine ⟨?_, ?_⟩
  · rw [same]
    exact .refl _
  · rw [same]
    exact id

end Grows

theorem Adds.grows {first : Nat} {before after : Analysis} (adds : Adds first before after) :
    Grows before after :=
  ⟨adds.extends', adds.sound⟩

/-- The state with one more statement. -/
def withStmt (analysis : Analysis) (stmt : Stmt) : Analysis :=
  { analysis with ast := (analysis.ast.addStmt stmt).2 }

/-- A statement is added to a state and comes out. -/
def Puts (middle : Analysis) (stmt : Stmt) (id : StmtId) (after : Analysis) : Prop :=
  id = ⟨middle.ast.stmts.size⟩ ∧ after = middle.withStmt stmt

namespace Puts

variable {middle after : Analysis} {stmt : Stmt} {id : StmtId}

theorem stmt_eq (puts : Puts middle stmt id after) : after.ast.stmt id = stmt := by
  obtain ⟨rfl, rfl⟩ := puts
  exact Ast.stmt_addStmt_self middle.ast stmt

theorem index_lt (puts : Puts middle stmt id after) : id.index < after.ast.stmts.size := by
  obtain ⟨rfl, rfl⟩ := puts
  simp [withStmt, Ast.addStmt]

/-- A typed statement of older ones keeps a program sound. -/
theorem grows (puts : Puts middle stmt id after)
    (typed : middle.ast.Sound → middle.ast.StmtTyped stmt)
    (child_lt : ∀ child ∈ stmt.children, child.index < middle.ast.stmts.size) :
    Grows middle after := by
  obtain ⟨rfl, rfl⟩ := puts
  exact ⟨.addStmt _ _, fun sound => sound.addStmt (typed sound) child_lt⟩

end Puts

section Statements

variable {first : Nat} {before : Analysis}

theorem addStmt_ensures (stmt : Stmt) {onError : Diagnostic → Analysis → Prop} :
    Ensures (addStmt stmt) before (Puts before stmt) onError :=
  (ensures_addStmt stmt).2 ⟨rfl, rfl⟩

/-- A statement is added behind the value of its guard, which is a truth value and names what the guard
names. -/
def PutsGuarded (first : Nat) (before : Analysis) (guard : ExprId) (form : ExprId → Stmt)
    (id : StmtId) (after : Analysis) : Prop :=
  ∃ value middle, Gives first before value middle ∧ middle.ast.typeOf value = .bool ∧
    (∀ visible, before.ast.Names visible guard → middle.ast.Names visible value) ∧
    Puts middle (form value) id after

theorem addGuarded_ensures (form : ExprId → Stmt) {guard : ExprId}
    (held : before.Holds first guard) :
    Ensures (do
      let guard ← requireCategory .boolean guard
      addStmt (form guard)) before
      (PutsGuarded first before guard form) (Fails first before) := by
  rw [ensures_bind]
  refine ((requireCategory_ensures .boolean held).and (requireCategory_names .boolean guard)).mono
    ?_ fun _ _ fails => fails.1
  rintro value middle ⟨⟨gives, admitted⟩, names⟩
  have guard_type : middle.ast.typeOf value = .bool := by
    cases type : middle.ast.typeOf value <;> simp_all [Category.admits, Ty.isBool]
  exact (addStmt_ensures _).mono
    (fun _ _ puts => ⟨value, middle, gives, guard_type, names, puts⟩) fun _ _ fails => fails

theorem ifElse_ensures {guard : ExprId} (whenTrue whenFalse : StmtId)
    (held : before.Holds first guard) :
    Ensures (ifElse guard whenTrue whenFalse) before
      (PutsGuarded first before guard (.ifElse · whenTrue whenFalse)) (Fails first before) :=
  addGuarded_ensures (.ifElse · whenTrue whenFalse) held

theorem whenTrue_ensures {guard : ExprId} (body : StmtId) (held : before.Holds first guard) :
    Ensures (whenTrue guard body) before
      (PutsGuarded first before guard (.whenTrue · body)) (Fails first before) :=
  addGuarded_ensures (.whenTrue · body) held

theorem whileTrue_ensures {guard : ExprId} (body : StmtId) (held : before.Holds first guard) :
    Ensures (whileTrue guard body) before
      (PutsGuarded first before guard (.whileTrue · body)) (Fails first before) :=
  addGuarded_ensures (.whileTrue · body) held

/-- Whether a function is being defined. -/
def InFunction (analysis : Analysis) : Prop :=
  ∃ function result parameters, analysis.function = some function ∧
    (analysis.ast.kindOf function).type? = some (.function result parameters)

/-- A returned value has the result type of the function being defined. -/
theorem returnValue_ensures {value : ExprId} (held : before.Holds first value) :
    Ensures (returnValue value) before
      (fun id after => ∃ returned middle function parameters,
        Gives first before returned middle ∧ before.function = some function ∧
        (before.ast.kindOf function).type? =
          some (.function (middle.ast.typeOf returned) parameters) ∧
        Puts middle (.returnValue returned) id after)
      (FailsFor before.InFunction first before) := by
  rw [returnValue, ensures_bind]
  refine (load_ensures held).mono ?_ fun _ _ fails => fails.failsFor
  rintro returned middle ⟨gives, -⟩
  have kind_eq (id : DeclId) : middle.ast.decl id = before.ast.decl id := by
    rw [Ast.decl, gives.1.decls_eq, Ast.decl]
  rw [ensures_bind, ensures_get, gives.1.function_eq]
  split
  · next outside =>
    refine ⟨gives.1, ?_⟩
    rintro ⟨function, _, _, inside, _⟩
    cases outside.symm.trans inside
  · next function inside =>
    rw [ensures_bind, ensures_decl, kind_eq, ← Ast.kindOf]
    split
    · next untyped =>
      refine ⟨gives.1, ?_⟩
      rintro ⟨other, result, parameters, inside', typed⟩
      cases inside.symm.trans inside'
      simp [typed, Ty.returnType?] at untyped
    · next result found =>
      obtain ⟨type, declared, returns⟩ := Option.bind_eq_some_iff.1 found
      obtain ⟨parameters, rfl⟩ : ∃ parameters, type = .function result parameters := by
        cases type <;> cases returns
        exact ⟨_, rfl⟩
      rw [ensures_bind]
      refine (requireSame_ensures result returned).mono ?_
        fun _ _ fails => (fails.trans gives.1).failsFor
      rintro _ middle ⟨rfl, same⟩
      refine (addStmt_ensures _).mono (fun id after puts => ?_) fun _ _ fails => fails
      exact ⟨returned, middle, function, parameters, gives, inside, same ▸ declared, puts⟩

end Statements

end Minilang.Analysis
