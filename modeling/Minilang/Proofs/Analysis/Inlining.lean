import Minilang.Proofs.Analysis.Coherence

/-!
# Inlined constants

A constant at the top has no storage: wherever it is named, its initializer is computed anew. What is
computed for an expression is therefore the expression in which such constants are replaced by their
initializers, to any depth. As these are pure, replacing them adds no effect.
-/

namespace Minilang

namespace ExprKind

/-- Whether an expression gives a value that is there already, or that of its operand. -/
def isSilent : ExprKind → Bool
  | bool _ | int _ | float _ | char _ | name _ | cast _ => true
  | _ => false

end ExprKind

namespace Program

/-- The expressions that an expression is computed from: its operands, or the initializer of the constant
at the top that it names. -/
def parts (program : Program) (id : ExprId) : List ExprId :=
  match (program.ast.expr id).kind with
  | .name declaration =>
    if declaration ∈ program.declarations ∧ (program.ast.kindOf declaration).isConstant = true then
      (program.ast.kindOf declaration).initializer?.toList
    else []
  | kind => kind.operands

/-- The expressions that are computed for an expression, as deep as the fuel goes. Parts come from left to
right in front of what they are parts of. -/
def unfoldedWithin (program : Program) : (fuel : Nat) → ExprId → List ExprId
  | 0, _ => []
  | fuel + 1, id => (program.parts id).flatMap (program.unfoldedWithin fuel) ++ [id]

/-- The expressions that are computed for an expression: those in it, and at the place of a constant at the
top those in its initializer, to any depth. Nesting is at most the number of older expressions, as parts
are older than what they are parts of. -/
def unfolded (program : Program) (id : ExprId) : List ExprId :=
  program.unfoldedWithin (id.index + 1) id

/-- Whether an expression is computed without any step: its value is there already. -/
def isSilent (program : Program) (id : ExprId) : Bool :=
  (program.unfolded id).all fun inner => (program.ast.expr inner).kind.isSilent

section Parts

variable {program : Program} {id part inner : ExprId}

/-- What names a constant at the top has the initializer of the constant as its only part. -/
theorem parts_of_constant {declaration : DeclId} {initializer : ExprId}
    (named : (program.ast.expr id).kind = .name declaration)
    (atTop : declaration ∈ program.declarations)
    (isConstant : (program.ast.kindOf declaration).isConstant = true)
    (initialized : (program.ast.kindOf declaration).initializer? = some initializer) :
    program.parts id = [initializer] := by
  rw [parts, named]
  dsimp only
  rw [if_pos ⟨atTop, isConstant⟩, initialized, Option.toList_some]

/-- Other names have no parts. -/
theorem parts_of_name {declaration : DeclId} (named : (program.ast.expr id).kind = .name declaration)
    (other : declaration ∈ program.declarations →
      (program.ast.kindOf declaration).isConstant = false) : program.parts id = [] := by
  rw [parts, named]
  refine if_neg fun constant => ?_
  rw [other constant.1] at constant
  cases constant.2

/-- The parts of everything but names are the operands. -/
theorem parts_eq_operands (unnamed : ∀ declaration, (program.ast.expr id).kind ≠ .name declaration) :
    program.parts id = (program.ast.expr id).kind.operands := by
  rw [parts]
  split
  · next declaration named => exact absurd named (unnamed declaration)
  · rfl

/-- A part is an operand, or the initializer of a constant at the top that is named. -/
theorem mem_parts (member : part ∈ program.parts id) :
    part ∈ (program.ast.expr id).kind.operands ∨
      ∃ declaration ∈ program.declarations, (program.ast.expr id).kind = .name declaration ∧
        (program.ast.kindOf declaration).isConstant = true ∧
        (program.ast.kindOf declaration).initializer? = some part := by
  rw [parts] at member
  split at member
  · next declaration named =>
    split at member
    · next constant =>
      exact .inr ⟨declaration, constant.1, named, constant.2, Option.mem_toList.1 member⟩
    · cases member
  · exact .inl member

variable (sound : program.ast.Sound) (bound : id.index < program.ast.exprs.size)

include sound bound

theorem part_lt (member : part ∈ program.parts id) : part.index < id.index := by
  have grounded := sound.expr_grounded id bound
  obtain operand | ⟨declaration, -, named, isConstant, initialized⟩ := mem_parts member
  · exact grounded.operand_lt part operand
  · exact grounded.initializer_lt declaration part named isConstant initialized

/-- More fuel than the nesting needs makes no difference. -/
theorem unfoldedWithin_eq {fuel more : Nat} (enough : id.index < fuel)
    (more_enough : id.index < more) :
    program.unfoldedWithin fuel id = program.unfoldedWithin more id := by
  induction fuel generalizing id more with
  | zero => exact absurd enough (Nat.not_lt_zero _)
  | succ fuel induction =>
      obtain ⟨more, rfl⟩ := Nat.exists_eq_succ_of_ne_zero (Nat.ne_zero_of_lt more_enough)
      rw [unfoldedWithin, unfoldedWithin]
      have same : (program.parts id).flatMap (program.unfoldedWithin fuel) =
          (program.parts id).flatMap (program.unfoldedWithin more) := by
        refine List.flatMap_congr fun part member => ?_
        have older := part_lt sound bound member
        exact induction (older.trans bound) (older.trans_le (Nat.le_of_lt_succ enough))
          (older.trans_le (Nat.le_of_lt_succ more_enough))
      rw [same]

theorem unfolded_eq : program.unfolded id = (program.parts id).flatMap program.unfolded ++ [id] := by
  have same : (program.parts id).flatMap (program.unfoldedWithin id.index) =
      (program.parts id).flatMap program.unfolded := by
    refine List.flatMap_congr fun part member => ?_
    have older := part_lt sound bound member
    exact unfoldedWithin_eq sound (older.trans bound) older (Nat.lt_succ_self _)
  rw [unfolded, unfoldedWithin, same]

theorem mem_unfolded_self : id ∈ program.unfolded id := by
  rw [unfolded_eq sound bound]
  exact List.mem_append_right _ (List.mem_singleton.2 rfl)

theorem mem_unfolded_of_part (member : part ∈ program.parts id)
    (inside : inner ∈ program.unfolded part) : inner ∈ program.unfolded id := by
  rw [unfolded_eq sound bound]
  exact List.mem_append_left _ (List.mem_flatMap.2 ⟨part, member, inside⟩)

theorem isSilent_eq : program.isSilent id =
    ((program.parts id).all program.isSilent && (program.ast.expr id).kind.isSilent) := by
  rw [isSilent, unfolded_eq sound bound, List.all_append, List.all_flatMap]
  simp only [List.all_cons, List.all_nil, Bool.and_true]
  rfl

end Parts

namespace Coherent

variable {program : Program} (coherent : program.Coherent)

include coherent

/-- The initializer of a constant at the top is pure and names what is at the top. -/
theorem initializer_pure {declaration : DeclId} (atTop : declaration ∈ program.declarations)
    (isConstant : (program.ast.kindOf declaration).isConstant = true) {initializer : ExprId}
    (initialized : (program.ast.kindOf declaration).initializer? = some initializer) :
    program.ast.Pure initializer ∧ program.ast.Names (· ∈ program.declarations) initializer := by
  cases coherent.topLevel declaration atTop with
  | @object kind type value kind_eq names pure =>
      rw [kind_eq] at isConstant initialized
      cases initialized
      refine ⟨pure ?_, names⟩
      rintro rfl
      cases isConstant
  | function kind_eq =>
      rw [kind_eq] at isConstant
      cases isConstant

/-- A pure expression stays pure when constants at the top are replaced by their initializers. -/
theorem unfolded_pure {id inner : ExprId} (pure : program.ast.Pure id)
    (names : program.ast.Names (· ∈ program.declarations) id)
    (inside : inner ∈ program.unfolded id) :
    program.ast.Pure inner ∧ program.ast.Names (· ∈ program.declarations) inner := by
  have bound := pure.index_lt
  induction order : id.index using Nat.strongRecOn generalizing id with
  | _ index induction =>
      subst order
      rw [unfolded_eq coherent.sound bound, List.mem_append, List.mem_flatMap,
        List.mem_singleton] at inside
      obtain ⟨part, member, inside⟩ | rfl := inside
      · have older := part_lt coherent.sound bound member
        obtain operand | ⟨declaration, atTop, -, isConstant, initialized⟩ := mem_parts member
        · exact induction part.index older (pure.operand operand) (names.operand operand) inside
            (older.trans bound) rfl
        · obtain ⟨part_pure, part_names⟩ := coherent.initializer_pure atTop isConstant initialized
          exact induction part.index older part_pure part_names inside (older.trans bound) rfl
      · exact ⟨pure, names⟩

/-- Replacing constants at the top by their initializers adds no effect. -/
theorem effects_unfolded {id : ExprId} (bound : id.index < program.ast.exprs.size) :
    (program.unfolded id).filterMap (fun inner => (program.ast.expr inner).kind.effect?) =
      program.ast.effects id := by
  induction order : id.index using Nat.strongRecOn generalizing id with
  | _ index induction =>
      subst order
      have sound := coherent.sound
      have own : [id].filterMap (fun inner => (program.ast.expr inner).kind.effect?) =
          (program.ast.expr id).kind.effect?.toList := by
        cases effect : (program.ast.expr id).kind.effect? <;> simp [effect]
      have part_effects : ∀ part ∈ program.parts id, (program.unfolded part).filterMap
          (fun inner => (program.ast.expr inner).kind.effect?) = program.ast.effects part := by
        intro part member
        have older := part_lt sound bound member
        exact induction part.index older (older.trans bound) rfl
      rw [unfolded_eq sound bound, List.filterMap_append, List.filterMap_flatMap, own,
        List.flatMap_congr part_effects, Ast.effects_eq sound bound]
      by_cases named : ∃ declaration, (program.ast.expr id).kind = .name declaration
      · obtain ⟨declaration, named⟩ := named
        have nothing : (program.parts id).flatMap program.ast.effects = [] := by
          rw [List.flatMap_eq_nil_iff]
          intro part member
          obtain operand | ⟨other, atTop, -, isConstant, initialized⟩ := mem_parts member
          · rw [named] at operand
            cases operand
          · exact (coherent.initializer_pure atTop isConstant initialized).1.effects_eq_nil sound
        rw [nothing, named]
        rfl
      · rw [parts_eq_operands fun declaration same => named ⟨declaration, same⟩]

end Coherent

end Program

end Minilang
