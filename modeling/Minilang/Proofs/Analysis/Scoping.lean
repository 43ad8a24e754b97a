import Minilang.Proofs.Analysis.Expressions

/-!
# Scoping of analyzed programs

`Ast.Names` says which declarations the names in an expression may lead to, and `Ast.Scoped` says this of
the expressions in statements. The declarations made by statements are numbered one after another, so what
may be named at a place depends on how many of them have been made before it. `Ast.Returns` says that
returned values have the result type of the function around them.
-/

namespace Minilang

namespace Ast

/-- An expression in which every name leads to a visible declaration. -/
inductive Names (ast : Ast) (visible : DeclId → Prop) : ExprId → Prop
  | expr {id : ExprId} :
      id.index < ast.exprs.size →
      (∀ declaration, (ast.expr id).kind = .name declaration → visible declaration) →
      (∀ operand ∈ (ast.expr id).kind.operands, Names ast visible operand) →
      Names ast visible id

namespace Names

variable {ast before after : Ast} {visible larger : DeclId → Prop} {id : ExprId}

theorem index_lt (names : ast.Names visible id) : id.index < ast.exprs.size := by
  cases names with
  | expr bound => exact bound

theorem visible_of_name (names : ast.Names visible id) {declaration : DeclId}
    (named : (ast.expr id).kind = .name declaration) : visible declaration := by
  cases names with
  | expr _ visible => exact visible declaration named

theorem operand (names : ast.Names visible id) {operand : ExprId}
    (member : operand ∈ (ast.expr id).kind.operands) : ast.Names visible operand := by
  cases names with
  | expr _ _ operands => exact operands operand member

theorem mono (names : ast.Names visible id)
    (weaker : ∀ declaration, visible declaration → larger declaration) : ast.Names larger id := by
  induction names with
  | expr bound visible _ induction =>
      exact .expr bound (fun declaration named => weaker _ (visible declaration named)) induction

theorem extends' (names : before.Names visible id) (extends' : before.Extends after) :
    after.Names visible id := by
  induction names with
  | expr bound visible operands induction =>
      have same := extends'.expr_eq _ bound
      refine .expr (bound.trans_le extends'.exprs_le) ?_ ?_
      · rw [same]
        exact visible
      · rw [same]
        exact induction

/-- An added expression names what it is and what its operands name. -/
theorem added (expr : Expr) (visible_of_name : ∀ declaration, expr.kind = .name declaration →
    visible declaration) (operands : ∀ operand ∈ expr.kind.operands, ast.Names visible operand) :
    (ast.addExpr expr).2.Names visible ⟨ast.exprs.size⟩ := by
  have same : (ast.addExpr expr).2.expr ⟨ast.exprs.size⟩ = expr := expr_addExpr_self ast expr
  refine .expr (by simp [addExpr]) ?_ ?_
  · rw [same]
    exact visible_of_name
  · rw [same]
    exact fun operand member => (operands operand member).extends' (.addExpr ast expr)

end Names

/-- Whether a handle leads to a statement of a form. -/
def StmtIs (ast : Ast) (id : StmtId) (stmt : Stmt) : Prop :=
  id.index < ast.stmts.size ∧ ast.stmt id = stmt

theorem StmtIs.extends {before after : Ast} {id : StmtId} {stmt : Stmt}
    (form : before.StmtIs id stmt) (extends' : before.Extends after) : after.StmtIs id stmt :=
  ⟨form.1.trans_le extends'.stmts_le, (extends'.stmt_eq id form.1).trans form.2⟩

/-- Statements one after another in which every name leads to a visible declaration. The numbers are those
of the declarations made before the first and behind the last of them. -/
inductive Scoped (ast : Ast) (visible : Nat → DeclId → Prop) : Nat → List StmtId → Nat → Prop
  | nil (count : Nat) : Scoped ast visible count [] count
  | block {first middle last : Nat} {id : StmtId} {statements rest : List StmtId} :
      ast.StmtIs id (.block statements) →
      Scoped ast visible first statements middle → Scoped ast visible middle rest last →
      Scoped ast visible first (id :: rest) last
  | whenTrue {first middle last : Nat} {id body : StmtId} {guard : ExprId} {rest : List StmtId} :
      ast.StmtIs id (.whenTrue guard body) → ast.Names (visible first) guard →
      Scoped ast visible first [body] middle → Scoped ast visible middle rest last →
      Scoped ast visible first (id :: rest) last
  | ifElse {first second middle last : Nat} {id whenTrue whenFalse : StmtId} {guard : ExprId}
      {rest : List StmtId} :
      ast.StmtIs id (.ifElse guard whenTrue whenFalse) → ast.Names (visible first) guard →
      Scoped ast visible first [whenTrue] second → Scoped ast visible second [whenFalse] middle →
      Scoped ast visible middle rest last → Scoped ast visible first (id :: rest) last
  | whileTrue {first middle last : Nat} {id body : StmtId} {guard : ExprId} {rest : List StmtId} :
      ast.StmtIs id (.whileTrue guard body) → ast.Names (visible first) guard →
      Scoped ast visible first [body] middle → Scoped ast visible middle rest last →
      Scoped ast visible first (id :: rest) last
  | breakLoop {first last : Nat} {id : StmtId} {location : Location} {rest : List StmtId} :
      ast.StmtIs id (.breakLoop location) → Scoped ast visible first rest last →
      Scoped ast visible first (id :: rest) last
  | continueLoop {first last : Nat} {id : StmtId} {location : Location} {rest : List StmtId} :
      ast.StmtIs id (.continueLoop location) → Scoped ast visible first rest last →
      Scoped ast visible first (id :: rest) last
  | returnValue {first last : Nat} {id : StmtId} {value : ExprId} {rest : List StmtId} :
      ast.StmtIs id (.returnValue value) → ast.Names (visible first) value →
      Scoped ast visible first rest last → Scoped ast visible first (id :: rest) last
  /-- A variable is visible in its own initializer, and a constant is not. -/
  | declaration {first last : Nat} {id : StmtId} {kind : ObjectKind} {type : Ty}
      {initializer : ExprId} {rest : List StmtId} :
      ast.StmtIs id (.declaration ⟨first⟩) →
      ast.kindOf ⟨first⟩ = .object kind type (some initializer) →
      ast.Names (visible (if kind = .var then first + 1 else first)) initializer →
      Scoped ast visible (first + 1) rest last → Scoped ast visible first (id :: rest) last
  | expression {first last : Nat} {id : StmtId} {value : ExprId} {rest : List StmtId} :
      ast.StmtIs id (.expression value) → ast.Names (visible first) value →
      Scoped ast visible first rest last → Scoped ast visible first (id :: rest) last

namespace Scoped

variable {ast before after : Ast} {visible larger : Nat → DeclId → Prop} {first middle last : Nat}
  {statements more : List StmtId}

theorem le (inScope : ast.Scoped visible first statements last) : first ≤ last := by
  induction inScope with
  | nil => exact le_rfl
  | block _ _ _ inner rest => exact inner.trans rest
  | whenTrue _ _ _ _ inner rest => exact inner.trans rest
  | ifElse _ _ _ _ _ left right rest => exact (left.trans right).trans rest
  | whileTrue _ _ _ _ inner rest => exact inner.trans rest
  | breakLoop _ _ rest => exact rest
  | continueLoop _ _ rest => exact rest
  | returnValue _ _ _ rest => exact rest
  | declaration _ _ _ _ rest => exact (Nat.le_succ _).trans rest
  | expression _ _ _ rest => exact rest

/-- Statements may go on behind other ones. -/
theorem append (inScope : ast.Scoped visible first statements middle)
    (behind : ast.Scoped visible middle more last) :
    ast.Scoped visible first (statements ++ more) last := by
  induction inScope with
  | nil => exact behind
  | block form inner _ _ rest => exact .block form inner (rest behind)
  | whenTrue form guard inner _ _ rest => exact .whenTrue form guard inner (rest behind)
  | ifElse form guard left right _ _ _ rest => exact .ifElse form guard left right (rest behind)
  | whileTrue form guard inner _ _ rest => exact .whileTrue form guard inner (rest behind)
  | breakLoop form _ rest => exact .breakLoop form (rest behind)
  | continueLoop form _ rest => exact .continueLoop form (rest behind)
  | returnValue form value _ rest => exact .returnValue form value (rest behind)
  | declaration form object value _ rest => exact .declaration form object value (rest behind)
  | expression form value _ rest => exact .expression form value (rest behind)

/-- Statements stay scoped as a program grows. -/
theorem extends' (inScope : before.Scoped visible first statements last)
    (extends' : before.Extends after) : after.Scoped visible first statements last := by
  induction inScope with
  | nil count => exact .nil count
  | block form _ _ inner rest => exact .block (form.extends extends') inner rest
  | whenTrue form guard _ _ inner rest =>
      exact .whenTrue (form.extends extends') (guard.extends' extends') inner rest
  | ifElse form guard _ _ _ left right rest =>
      exact .ifElse (form.extends extends') (guard.extends' extends') left right rest
  | whileTrue form guard _ _ inner rest =>
      exact .whileTrue (form.extends extends') (guard.extends' extends') inner rest
  | breakLoop form _ rest => exact .breakLoop (form.extends extends') rest
  | continueLoop form _ rest => exact .continueLoop (form.extends extends') rest
  | returnValue form value _ rest =>
      exact .returnValue (form.extends extends') (value.extends' extends') rest
  | declaration form object value _ rest =>
      have declared := index_lt_of_type? (by rw [object, DeclKind.type?])
      have completes := extends'.completes _ declared
      rw [object] at completes
      exact .declaration (form.extends extends') completes.eq_of_initialized
        (value.extends' extends') rest
  | expression form value _ rest =>
      exact .expression (form.extends extends') (value.extends' extends') rest

/-- More declarations may be visible. -/
theorem mono (inScope : ast.Scoped visible first statements last)
    (weaker : ∀ count declaration, visible count declaration → larger count declaration) :
    ast.Scoped larger first statements last := by
  induction inScope with
  | nil count => exact .nil count
  | block form _ _ inner rest => exact .block form inner rest
  | whenTrue form guard _ _ inner rest => exact .whenTrue form (guard.mono (weaker _)) inner rest
  | ifElse form guard _ _ _ left right rest =>
      exact .ifElse form (guard.mono (weaker _)) left right rest
  | whileTrue form guard _ _ inner rest => exact .whileTrue form (guard.mono (weaker _)) inner rest
  | breakLoop form _ rest => exact .breakLoop form rest
  | continueLoop form _ rest => exact .continueLoop form rest
  | returnValue form value _ rest => exact .returnValue form (value.mono (weaker _)) rest
  | declaration form object value _ rest =>
      exact .declaration form object (value.mono (weaker _)) rest
  | expression form value _ rest => exact .expression form (value.mono (weaker _)) rest

/-- Scoped statements are there. -/
theorem index_lt (inScope : ast.Scoped visible first statements last) :
    ∀ id ∈ statements, id.index < ast.stmts.size := by
  induction inScope with
  | nil => simp
  | block form _ _ _ rest | whenTrue form _ _ _ _ rest | ifElse form _ _ _ _ _ _ rest
  | whileTrue form _ _ _ _ rest | breakLoop form _ rest | continueLoop form _ rest
  | returnValue form _ _ rest | declaration form _ _ _ rest | expression form _ _ rest =>
      exact List.forall_mem_cons.2 ⟨form.1, rest⟩

end Scoped

/-- A statement in which every returned value has the result type of a function. -/
inductive Returns (ast : Ast) (function : DeclId) : StmtId → Prop
  | stmt {id : StmtId} :
      id.index < ast.stmts.size →
      (∀ value, ast.stmt id = .returnValue value → value.index < ast.exprs.size ∧
        ∃ parameters, (ast.kindOf function).type? =
          some (.function (ast.typeOf value) parameters)) →
      (∀ child ∈ (ast.stmt id).children, Returns ast function child) →
      Returns ast function id

namespace Returns

variable {ast before after : Ast} {function : DeclId} {id : StmtId}

theorem index_lt (returns : ast.Returns function id) : id.index < ast.stmts.size := by
  cases returns with
  | stmt bound => exact bound

theorem child (returns : ast.Returns function id) {child : StmtId}
    (member : child ∈ (ast.stmt id).children) : ast.Returns function child := by
  cases returns with
  | stmt _ _ children => exact children child member

/-- A returned value has the result type. -/
theorem typed (returns : ast.Returns function id) {value : ExprId}
    (form : ast.stmt id = .returnValue value) :
    ∃ parameters, (ast.kindOf function).type? = some (.function (ast.typeOf value) parameters) := by
  cases returns with
  | stmt _ returned => exact (returned value form).2

theorem extends' (returns : before.Returns function id) (extends' : before.Extends after) :
    after.Returns function id := by
  induction returns with
  | stmt bound returned _ induction =>
      have same := extends'.stmt_eq _ bound
      refine .stmt (bound.trans_le extends'.stmts_le) ?_ ?_
      · intro value form
        obtain ⟨value_lt, parameters, declared⟩ := returned value (same.symm.trans form)
        refine ⟨value_lt.trans_le extends'.exprs_le, parameters, ?_⟩
        rw [extends'.typeOf_eq value_lt]
        exact extends'.type?_eq declared
      · rw [same]
        exact induction

end Returns

end Ast

namespace Analysis

/-- Whether a declaration may be named in a state: a name in scope means it, and it has its initializer if
it is a constant. -/
def Nameable (analysis : Analysis) (declaration : DeclId) : Prop :=
  (∃ name, analysis.scopes.lookup name = some declaration) ∧
    ((analysis.ast.kindOf declaration).isConstant = true →
      ∃ initializer, (analysis.ast.kindOf declaration).initializer? = some initializer)

/-- Added expressions name what may be named. -/
theorem Adds.names {before after : Analysis} (adds : Adds before.ast.exprs.size before after)
    {id : ExprId} (held : after.Holds before.ast.exprs.size id) :
    after.ast.Names before.Nameable id := by
  induction adds generalizing id with
  | refl => exact absurd held.2 (Nat.not_lt_of_le held.1)
  | @expr after kind type location adds typed operands named induction =>
      have extends' : after.ast.Extends (after.withExpr ⟨kind, type, location⟩).ast :=
        .addExpr _ _
      by_cases earlier : id.index < after.ast.exprs.size
      · exact (induction ⟨held.1, earlier⟩).extends' extends'
      obtain rfl : id = ⟨after.ast.exprs.size⟩ := by
        have bound : id.index < after.ast.exprs.size + 1 := by
          simpa [withExpr, Ast.addExpr] using held.2
        have last : id.index = after.ast.exprs.size := by omega
        rw [← last]
      refine .added _ ?_ fun operand member => induction (operands operand member)
      rintro declaration (rfl : kind = .name declaration)
      refine ⟨named declaration rfl, ?_⟩
      have initialized := typed.of_name.2
      rw [Ast.kindOf, Ast.decl, adds.decls_eq] at initialized
      exact initialized

/-- Taking the value of an expression names nothing new. -/
theorem load_names (id : ExprId) {before : Analysis} :
    Ensures (load id) before
      (fun value after => ∀ visible, before.ast.Names visible id → after.ast.Names visible value)
      (fun _ _ => True) := by
  rw [load, ensures_bind, ensures_expr]
  split
  · next object reference =>
    rw [convert, ensures_bind, ensures_expr, ensures_addExpr]
    intro visible names
    refine .added _ (fun declaration form => by cases form) ?_
    intro operand member
    rw [ExprKind.operands, List.mem_singleton] at member
    exact member ▸ names
  · exact fun _ names => names

theorem requireCategory_names (category : Category) (id : ExprId) {before : Analysis} :
    Ensures (requireCategory category id) before
      (fun value after => ∀ visible, before.ast.Names visible id → after.ast.Names visible value)
      (fun _ _ => True) := by
  rw [requireCategory, ensures_bind]
  refine (load_names id).mono ?_ fun _ _ always => always
  intro value after names
  rw [ensures_bind, ensures_expr]
  split
  · exact names
  · trivial

end Analysis

end Minilang
