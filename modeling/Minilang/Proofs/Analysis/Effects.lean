import Mathlib.Data.List.Basic
import Minilang.Proofs.Analysis.Scoping

/-!
# Effects of expressions

Calls, reads of storage and assignments are what expressions do besides computing values. They are listed in
the order in which the operands are evaluated, the choices among operands apart. An expression without any
is pure if it names no storage either, and pure expressions are those that the analysis takes for constant.
-/

namespace Minilang

/-- What an expression does besides computing a value. -/
inductive Effect where
  /-- A function is called. -/
  | call
  /-- Storage is read. -/
  | load
  /-- Storage is written. -/
  | store
deriving DecidableEq, Repr

namespace ExprKind

/-- What an expression does itself, its operands apart. -/
def effect? : ExprKind → Option Effect
  | call _ _ => some .call
  | convert .load _ => some .load
  | assign _ _ => some .store
  | _ => none

end ExprKind

namespace Ast

/-- The expressions in an expression that are nested less deep than the fuel. Operands come from left to
right in front of what they are operands of. -/
def nodesWithin (ast : Ast) : (fuel : Nat) → ExprId → List ExprId
  | 0, _ => []
  | fuel + 1, id => (ast.expr id).kind.operands.flatMap (ast.nodesWithin fuel) ++ [id]

/-- The expressions in an expression. Nesting is at most the number of older expressions, as operands are
older than what they are operands of. -/
def nodes (ast : Ast) (id : ExprId) : List ExprId := ast.nodesWithin (id.index + 1) id

/-- What evaluating an expression does besides computing values. -/
def effects (ast : Ast) (id : ExprId) : List Effect :=
  (ast.nodes id).filterMap fun inner => (ast.expr inner).kind.effect?

/-- An expression without effects in which no name designates storage. -/
inductive Pure (ast : Ast) : ExprId → Prop
  | expr {id : ExprId} :
      id.index < ast.exprs.size →
      (ast.expr id).kind.effect? = none →
      (∀ declaration, (ast.expr id).kind = .name declaration →
        declaration.index < ast.decls.size ∧ (ast.kindOf declaration).isVariable = false) →
      (∀ operand ∈ (ast.expr id).kind.operands, Pure ast operand) →
      Pure ast id

section Nodes

variable {ast before after : Ast} {id : ExprId}

/-- More fuel than the nesting needs makes no difference. -/
theorem nodesWithin_eq (sound : ast.Sound) (bound : id.index < ast.exprs.size) {fuel more : Nat}
    (enough : id.index < fuel) (more_enough : id.index < more) :
    ast.nodesWithin fuel id = ast.nodesWithin more id := by
  induction fuel generalizing id more with
  | zero => exact absurd enough (Nat.not_lt_zero _)
  | succ fuel induction =>
      obtain ⟨more, rfl⟩ := Nat.exists_eq_succ_of_ne_zero (Nat.ne_zero_of_lt more_enough)
      rw [nodesWithin, nodesWithin]
      have same : (ast.expr id).kind.operands.flatMap (ast.nodesWithin fuel) =
          (ast.expr id).kind.operands.flatMap (ast.nodesWithin more) := by
        refine List.flatMap_congr fun operand member => ?_
        have older := (sound.expr_grounded id bound).operand_lt operand member
        exact induction (older.trans bound) (older.trans_le (Nat.le_of_lt_succ enough))
          (older.trans_le (Nat.le_of_lt_succ more_enough))
      rw [same]

theorem nodes_eq (sound : ast.Sound) (bound : id.index < ast.exprs.size) :
    ast.nodes id = (ast.expr id).kind.operands.flatMap ast.nodes ++ [id] := by
  have same : (ast.expr id).kind.operands.flatMap (ast.nodesWithin id.index) =
      (ast.expr id).kind.operands.flatMap ast.nodes := by
    refine List.flatMap_congr fun operand member => ?_
    have older := (sound.expr_grounded id bound).operand_lt operand member
    exact nodesWithin_eq sound (older.trans bound) older (Nat.lt_succ_self _)
  rw [nodes, nodesWithin, same]

theorem effects_eq (sound : ast.Sound) (bound : id.index < ast.exprs.size) :
    ast.effects id = (ast.expr id).kind.operands.flatMap ast.effects ++
      (ast.expr id).kind.effect?.toList := by
  have own : [id].filterMap (fun inner => (ast.expr inner).kind.effect?) =
      (ast.expr id).kind.effect?.toList := by
    cases effect : (ast.expr id).kind.effect? <;> simp [effect]
  rw [effects, nodes_eq sound bound, List.filterMap_append, List.filterMap_flatMap, own]
  rfl

/-- An expression does nothing but compute a value if none of the expressions in it does anything else. -/
theorem effects_eq_nil_iff : ast.effects id = [] ↔
    ∀ inner ∈ ast.nodes id, (ast.expr inner).kind.effect? = none := by
  rw [effects, List.filterMap_eq_nil_iff]

end Nodes

/-- A value that comes about without an effect is made of values, and no name in it designates storage. -/
theorem HasType.isReference_operand {ast : Ast} {kind : ExprKind} {type : Ty}
    (typed : ast.HasType kind type) (effectless : kind.effect? = none)
    (isValue : type.isReference = false) :
    (∀ declaration, kind = .name declaration → declaration.index < ast.decls.size ∧
        (ast.kindOf declaration).isVariable = false) ∧
      ∀ operand ∈ kind.operands, (ast.typeOf operand).isReference = false := by
  cases typed with
  | bool | int | float | char => exact ⟨by simp, by simp [ExprKind.operands]⟩
  | «variable» _ _ =>
      rw [Ty.isReference_referenceTo] at isValue
      cases isValue
  | name isVariable declared =>
      refine ⟨?_, by simp [ExprKind.operands]⟩
      rintro _ ⟨rfl⟩
      exact ⟨index_lt_of_type? declared, isVariable⟩
  | bitNot operand | logicalNot operand =>
      exact ⟨by simp, by simp [ExprKind.operands, operand, Ty.isReference]⟩
  | bitwise _ left right | logical _ left right =>
      exact ⟨by simp, by simp [ExprKind.operands, left, right, Ty.isReference]⟩
  | arithmetic _ number left right =>
      refine ⟨by simp, ?_⟩
      cases type <;> cases number <;> simp [ExprKind.operands, left, right, Ty.isReference]
  | @comparison _ _ _ compared _ scalar left right =>
      refine ⟨by simp, ?_⟩
      cases compared <;> cases scalar <;> simp [ExprKind.operands, left, right, Ty.isReference]
  | call => cases effectless
  | cast operand => exact ⟨by simp, by simp [ExprKind.operands, operand, isValue]⟩
  | assign => cases effectless
  | conditional guard whenTrue whenFalse =>
      have noReference : Ty.bool.isReference = false := rfl
      exact ⟨by simp, by simp [ExprKind.operands, guard, whenTrue, whenFalse, isValue, noReference]⟩
  | load => cases effectless
  | @convert conversion operand _ leads =>
      refine ⟨by simp, ?_⟩
      rw [ExprKind.operands, List.forall_mem_singleton]
      generalize ast.typeOf operand = source at leads
      cases leads <;> rfl

namespace Pure

variable {ast before after : Ast} {id : ExprId}

theorem index_lt (pure : ast.Pure id) : id.index < ast.exprs.size := by
  cases pure with
  | expr bound => exact bound

theorem effect?_eq_none (pure : ast.Pure id) : (ast.expr id).kind.effect? = none := by
  cases pure with
  | expr _ effectless => exact effectless

theorem isVariable_eq_false (pure : ast.Pure id) {declaration : DeclId}
    (named : (ast.expr id).kind = .name declaration) :
    (ast.kindOf declaration).isVariable = false := by
  cases pure with
  | expr _ _ stable => exact (stable declaration named).2

theorem operand (pure : ast.Pure id) {operand : ExprId}
    (member : operand ∈ (ast.expr id).kind.operands) : ast.Pure operand := by
  cases pure with
  | expr _ _ _ operands => exact operands operand member

/-- A pure expression has no effects. -/
theorem effects_eq_nil (sound : ast.Sound) (pure : ast.Pure id) : ast.effects id = [] := by
  induction pure with
  | expr bound effectless _ _ induction =>
      rw [effects_eq sound bound, effectless, Option.toList_none, List.append_nil,
        List.flatMap_eq_nil_iff]
      exact induction

/-- An expression without effects is pure unless it designates storage. -/
theorem of_effects (sound : ast.Sound) (bound : id.index < ast.exprs.size)
    (effectless : ast.effects id = []) (isValue : (ast.typeOf id).isReference = false) :
    ast.Pure id := by
  induction order : id.index using Nat.strongRecOn generalizing id with
  | _ index induction =>
      subst order
      rw [effects_eq sound bound, List.append_eq_nil_iff, List.flatMap_eq_nil_iff] at effectless
      have typed := sound.expr_typed id bound
      have operand_pure {operand : ExprId} (member : operand ∈ (ast.expr id).kind.operands)
          (isValue : (ast.typeOf operand).isReference = false) : ast.Pure operand :=
        have older := (sound.expr_grounded id bound).operand_lt operand member
        induction operand.index older (older.trans bound) (effectless.1 operand member) isValue rfl
      have nothing : (ast.expr id).kind.effect? = none := by simpa using effectless.2
      obtain ⟨stable, values⟩ := typed.isReference_operand nothing isValue
      exact .expr bound nothing stable fun operand member => operand_pure member (values operand member)

/-- Pure expressions stay pure as a program grows. -/
theorem extends' (pure : before.Pure id) (extends' : before.Extends after) : after.Pure id := by
  induction pure with
  | expr bound effectless stable _ induction =>
      have same := extends'.expr_eq _ bound
      refine .expr (bound.trans_le extends'.exprs_le) (same ▸ effectless) ?_ ?_
      · rw [same]
        intro declaration named
        obtain ⟨declared, constant⟩ := stable declaration named
        rw [(extends'.completes declaration declared).isVariable_eq]
        exact ⟨declared.trans_le extends'.decls_le, constant⟩
      · rw [same]
        exact induction

end Pure

section Constancy

variable {ast : Ast} {id : ExprId}

/-- The names that the analysis takes for constant are those that do not designate storage. -/
theorem isVariable_eq_false_iff {declaration : DeclId} {type : Ty}
    (declared : (ast.kindOf declaration).type? = some type) :
    (ast.kindOf declaration).isVariable = false ↔
      ((ast.kindOf declaration).isConstant || (ast.kindOf declaration).isFunction) = true := by
  cases kind_eq : ast.kindOf declaration with
  | object kind => cases kind <;> simp [DeclKind.isVariable, DeclKind.isConstant, DeclKind.isFunction]
  | parameter | function =>
      simp [DeclKind.isVariable, DeclKind.isConstant, DeclKind.isFunction]
  | program =>
      rw [kind_eq] at declared
      cases declared

/-- The analysis looks at one expression and asks the same of its operands. -/
theorem isConstantWithin_succ {type : Ty} (typed : ast.HasType (ast.expr id).kind type) (fuel : Nat) :
    ast.isConstantWithin (fuel + 1) id = true ↔
      (ast.expr id).kind.effect? = none ∧
        (∀ declaration, (ast.expr id).kind = .name declaration →
          declaration.index < ast.decls.size ∧ (ast.kindOf declaration).isVariable = false) ∧
        ∀ operand ∈ (ast.expr id).kind.operands, ast.isConstantWithin fuel operand = true := by
  rw [isConstantWithin]
  generalize (ast.expr id).kind = kind at typed
  have name_iff {declaration : DeclId} {type : Ty}
      (declared : (ast.kindOf declaration).type? = some type) :
      ((ast.decl declaration).kind.isConstant || (ast.decl declaration).kind.isFunction) = true ↔
        ∀ other, ExprKind.name declaration = .name other →
          other.index < ast.decls.size ∧ (ast.kindOf other).isVariable = false := by
    rw [← kindOf, ← isVariable_eq_false_iff declared]
    refine ⟨?_, fun stable => (stable _ rfl).2⟩
    rintro stable _ ⟨rfl⟩
    exact ⟨index_lt_of_type? declared, stable⟩
  cases typed with
  | «variable» _ declared | name _ declared =>
      simpa [ExprKind.effect?, ExprKind.operands] using name_iff declared
  | @convert conversion operand _ leads =>
      generalize ast.typeOf operand = source at leads
      cases leads <;> simp [ExprKind.effect?, ExprKind.operands]
  | _ => simp [ExprKind.effect?, ExprKind.operands, and_assoc]

/-- The analysis takes an expression for constant if and only if it is pure. -/
theorem isConstant_iff (sound : ast.Sound) (bound : id.index < ast.exprs.size) :
    ast.isConstant id = true ↔ ast.Pure id := by
  have within {fuel : Nat} (enough : id.index < fuel) :
      ast.isConstantWithin fuel id = true ↔ ast.Pure id := by
    induction fuel generalizing id with
    | zero => exact absurd enough (Nat.not_lt_zero _)
    | succ fuel induction =>
        have operand_iff : ∀ operand ∈ (ast.expr id).kind.operands,
            (ast.isConstantWithin fuel operand = true ↔ ast.Pure operand) := by
          intro operand member
          have older := (sound.expr_grounded id bound).operand_lt operand member
          exact induction (older.trans bound) (older.trans_le (Nat.le_of_lt_succ enough))
        rw [isConstantWithin_succ (sound.expr_typed id bound), forall₂_congr operand_iff]
        constructor
        · rintro ⟨effectless, stable, operands⟩
          exact .expr bound effectless stable operands
        · rintro ⟨-, effectless, stable, operands⟩
          exact ⟨effectless, stable, operands⟩
  exact within bound

end Constancy

end Ast

end Minilang
