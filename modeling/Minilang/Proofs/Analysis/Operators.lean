import Minilang.Proofs.Analysis.Conversions
import Minilang.Proofs.Analysis.Expressions

/-!
# Operators

What a step for an operator makes of its operands, exactly: when it succeeds, which expressions it adds, and
which operand it blames otherwise. Operands that are references are read once, no other conversion is made,
and the first operand that does not fit is the one that is blamed.
-/

namespace Minilang

namespace Category

/-- The types of a group. -/
inductive Comprises : Category → Ty → Prop
  /-- Integers have arithmetic. -/
  | arithmeticInt : Comprises arithmetic .int
  /-- Floating-point numbers have arithmetic. -/
  | arithmeticFloat : Comprises arithmetic .float
  /-- Integers are ordered. -/
  | numericInt : Comprises numeric .int
  /-- Floating-point numbers are ordered. -/
  | numericFloat : Comprises numeric .float
  /-- Values of basic types are scalars. -/
  | scalarBasic (type : BasicType) : Comprises scalar (.ofBasic type)
  /-- Pointers are scalars. -/
  | scalarPointer (target : Ty) : Comprises scalar (.pointer target)
  /-- Functions are scalars. -/
  | scalarFunction (result : Ty) (parameters : List Ty) :
      Comprises scalar (.function result parameters)
  /-- Integers have bits. -/
  | integerInt : Comprises integer .int
  /-- Truth values are a group of their own. -/
  | booleanBool : Comprises boolean .bool
  /-- Functions can be called. -/
  | functionOf (result : Ty) (parameters : List Ty) :
      Comprises function (.function result parameters)

theorem admits_iff {category : Category} {type : Ty} :
    category.admits type = true ↔ category.Comprises type := by
  constructor
  · intro admitted
    cases category with
    | scalar =>
        cases type with
        | bool => exact .scalarBasic .bool
        | char => exact .scalarBasic .char
        | int => exact .scalarBasic .int
        | float => exact .scalarBasic .float
        | pointer target => exact .scalarPointer target
        | function result parameters => exact .scalarFunction result parameters
        | reference object => cases admitted
    | _ => cases type <;> first | constructor | cases admitted
  · intro comprised
    cases comprised with
    | scalarBasic type => cases type <;> rfl
    | _ => rfl

/-- Groups of one type each. -/
theorem Comprises.unique {category : Category} (single : category = boolean ∨ category = integer)
    {left right : Ty} (left_in : category.Comprises left) (right_in : category.Comprises right) :
    left = right := by
  obtain rfl | rfl := single <;> cases left_in <;> cases right_in <;> rfl

end Category

namespace Ast

/-- The type of the value of an expression: what a reference holds, and the type of anything else. -/
def valueType (ast : Ast) (id : ExprId) : Ty := (ast.typeOf id).objectType

/-- The expressions that the value of an operand needs: one that reads it if it is a reference. -/
def reads (ast : Ast) (operand : ExprId) : List Expr :=
  match ast.typeOf operand with
  | .reference object => [⟨.convert .load operand, object, (ast.expr operand).location⟩]
  | _ => []

/-- The value of an operand, where what it needs is added at an index. -/
def valueAt (ast : Ast) (index : Nat) (operand : ExprId) : ExprId :=
  match ast.typeOf operand with
  | .reference _ => ⟨index⟩
  | _ => operand

end Ast

namespace Analysis

/-- The state with more expressions. -/
def withExprs (analysis : Analysis) (exprs : List Expr) : Analysis :=
  { analysis with ast := { analysis.ast with exprs := analysis.ast.exprs ++ exprs.toArray } }

section Added

variable {before : Analysis} {id : ExprId} {exprs more : List Expr}

theorem withExprs_nil : before.withExprs [] = before := by
  simp [withExprs]

theorem withExprs_append :
    (before.withExprs exprs).withExprs more = before.withExprs (exprs ++ more) := by
  simp [withExprs]

theorem size_withExprs :
    (before.withExprs exprs).ast.exprs.size = before.ast.exprs.size + exprs.length := by
  simp [withExprs]

theorem expr_withExprs (id_lt : id.index < before.ast.exprs.size) :
    (before.withExprs exprs).ast.expr id = before.ast.expr id := by
  simp [withExprs, Ast.expr, Array.getElem?_append, id_lt]

/-- What is added stands behind all others. -/
theorem getElem?_withExprs {expr : Expr} (index : Nat)
    (added : exprs[index]? = some expr) :
    (before.withExprs exprs).ast.exprs[before.ast.exprs.size + index]? = some expr := by
  rw [withExprs, Array.getElem?_append_right (Nat.le_add_right _ _), Nat.add_sub_cancel_left,
    List.getElem?_toArray, added]

/-- What the value of an operand needs does not depend on what is added before. -/
theorem reads_withExprs (id_lt : id.index < before.ast.exprs.size) :
    (before.withExprs exprs).ast.reads id = before.ast.reads id := by
  simp only [Ast.reads, Ast.typeOf, expr_withExprs id_lt]

theorem valueAt_withExprs (id_lt : id.index < before.ast.exprs.size) (index : Nat) :
    (before.withExprs exprs).ast.valueAt index id = before.ast.valueAt index id := by
  simp only [Ast.valueAt, Ast.typeOf, expr_withExprs id_lt]

theorem valueType_withExprs (id_lt : id.index < before.ast.exprs.size) :
    (before.withExprs exprs).ast.valueType id = before.ast.valueType id := by
  simp only [Ast.valueType, Ast.typeOf, expr_withExprs id_lt]

/-- The value of an operand has its type and stands where the operand stands. -/
theorem expr_valueAt (before : Analysis) (id : ExprId) :
    ((before.withExprs (before.ast.reads id)).ast.expr
        (before.ast.valueAt before.ast.exprs.size id)).type = before.ast.valueType id ∧
      ((before.withExprs (before.ast.reads id)).ast.expr
        (before.ast.valueAt before.ast.exprs.size id)).location = (before.ast.expr id).location := by
  cases type : before.ast.typeOf id with
  | reference object =>
      simp [withExprs, Ast.reads, Ast.valueAt, Ast.valueType, type, Ast.expr, Ty.objectType]
  | _ =>
      simp only [Ast.reads, Ast.valueAt, Ast.valueType, type, withExprs_nil, and_true]
      exact type

/-- The value of an operand is there once what it needs has been added. -/
theorem valueAt_lt (id_lt : id.index < before.ast.exprs.size) :
    (before.ast.valueAt before.ast.exprs.size id).index <
      (before.withExprs (before.ast.reads id)).ast.exprs.size := by
  rw [size_withExprs]
  cases type : before.ast.typeOf id with
  | reference object => simp [Ast.reads, Ast.valueAt, type]
  | _ => simpa [Ast.reads, Ast.valueAt, type] using id_lt

end Added

section Operands

variable {before : Analysis} {left right id : ExprId}

/-- An expression is added behind all others. -/
theorem addExpr_added (kind : ExprKind) (type : Ty) (location : Location) :
    Ensures (addExpr kind type location) before
      (fun id after => id = ⟨before.ast.exprs.size⟩ ∧
        after = before.withExprs [⟨kind, type, location⟩])
      fun _ _ => False := by
  rw [ensures_addExpr]
  refine ⟨rfl, ?_⟩
  simp [withExprs, Ast.addExpr]

/-- The value of an operand is had by adding what it needs. -/
theorem load_added (id : ExprId) :
    Ensures (load id) before
      (fun value after => value = before.ast.valueAt before.ast.exprs.size id ∧
        after = before.withExprs (before.ast.reads id))
      fun _ _ => False := by
  rw [load, ensures_bind, ensures_expr]
  split
  · next object reference =>
    have operand_type : before.ast.typeOf id = .reference object := reference
    rw [convert, ensures_bind, ensures_expr, Ast.valueAt, Ast.reads, operand_type]
    exact addExpr_added _ _ _
  · next noReference =>
    have operand_type (object : Ty) : before.ast.typeOf id ≠ .reference object := noReference object
    rw [ensures_pure, Ast.valueAt, Ast.reads]
    split
    · next object reference => exact absurd reference (operand_type object)
    · exact ⟨rfl, withExprs_nil.symm⟩

/-- An operand has to have a value of a group. -/
theorem requireCategory_added (category : Category) (id : ExprId) :
    Ensures (requireCategory category id) before
      (fun value after => category.Comprises (before.ast.valueType id) ∧
        value = before.ast.valueAt before.ast.exprs.size id ∧
        after = before.withExprs (before.ast.reads id))
      fun error after => ¬ category.Comprises (before.ast.valueType id) ∧
        error = .semantic (before.ast.expr id).location
          (.expectedCategory category (before.ast.valueType id)) ∧
        after = before.withExprs (before.ast.reads id) := by
  rw [requireCategory, ensures_bind]
  refine (load_added id).mono ?_ fun _ _ never => never.elim
  rintro value after ⟨rfl, rfl⟩
  obtain ⟨type_eq, location_eq⟩ := expr_valueAt before id
  rw [ensures_bind, ensures_expr, type_eq, location_eq]
  split
  · next admitted => exact ⟨Category.admits_iff.1 admitted, rfl, rfl⟩
  · next refused =>
    exact ⟨fun comprised => refused (Category.admits_iff.2 comprised), rfl, rfl⟩

/-- Why operands of a group do not fit together: the first one that is outside of the group is blamed, and
the second one if its type is another one. -/
inductive OperandFault (before : Analysis) (category : Category) (left right : ExprId) :
    Diagnostic → Prop
  /-- The left operand is outside of the group. -/
  | left : ¬ category.Comprises (before.ast.valueType left) →
      OperandFault before category left right (.semantic (before.ast.expr left).location
        (.expectedCategory category (before.ast.valueType left)))
  /-- The right operand is outside of the group. -/
  | right : category.Comprises (before.ast.valueType left) →
      ¬ category.Comprises (before.ast.valueType right) →
      OperandFault before category left right (.semantic (before.ast.expr right).location
        (.expectedCategory category (before.ast.valueType right)))
  /-- The operands have different types. -/
  | apart : category.Comprises (before.ast.valueType left) →
      category.Comprises (before.ast.valueType right) →
      before.ast.valueType left ≠ before.ast.valueType right →
      OperandFault before category left right (.semantic (before.ast.expr right).location
        (.typeMismatch (before.ast.valueType left) (before.ast.valueType right)))

/-- Two operands fit a group: both have values of one type of it. -/
def Fit (before : Analysis) (category : Category) (left right : ExprId) : Prop :=
  category.Comprises (before.ast.valueType left) ∧
    before.ast.valueType right = before.ast.valueType left

theorem OperandFault.not_fit {category : Category} {error : Diagnostic}
    (fault : OperandFault before category left right error) : ¬ Fit before category left right := by
  rintro ⟨comprised, same⟩
  cases fault with
  | left outside => exact outside comprised
  | right _ outside => exact outside (same ▸ comprised)
  | apart _ _ different => exact different same.symm

/-- The value of the left operand, where what both operands need is added. -/
def leftValue (before : Analysis) (left : ExprId) : ExprId :=
  before.ast.valueAt before.ast.exprs.size left

/-- The value of the right operand, where what both operands need is added. -/
def rightValue (before : Analysis) (left right : ExprId) : ExprId :=
  before.ast.valueAt (before.ast.exprs.size + (before.ast.reads left).length) right

/-- The state in which two operands have their values. -/
def withOperands (before : Analysis) (left right : ExprId) : Analysis :=
  before.withExprs (before.ast.reads left ++ before.ast.reads right)

/-- The values of two operands have their types, and the second one stands where its operand stands. -/
theorem expr_operands (left_lt : left.index < before.ast.exprs.size)
    (right_lt : right.index < before.ast.exprs.size) :
    ((before.withOperands left right).ast.expr (before.leftValue left)).type =
        before.ast.valueType left ∧
      ((before.withOperands left right).ast.expr (before.rightValue left right)).type =
        before.ast.valueType right ∧
      ((before.withOperands left right).ast.expr (before.rightValue left right)).location =
        (before.ast.expr right).location := by
  have first := expr_valueAt before left
  have second := expr_valueAt (before.withExprs (before.ast.reads left)) right
  rw [valueType_withExprs right_lt, reads_withExprs right_lt, valueAt_withExprs right_lt,
    expr_withExprs right_lt, withExprs_append, size_withExprs] at second
  refine ⟨?_, second⟩
  rw [withOperands, ← withExprs_append, leftValue, expr_withExprs (valueAt_lt left_lt)]
  exact first.1

/-- The failure of a step that asks for operands of a group: one of them is at fault, and nothing but reads
of them has been added. -/
def FailsOperands (before : Analysis) (category : Category) (left right : ExprId)
    (error : Diagnostic) (after : Analysis) : Prop :=
  OperandFault before category left right error ∧
    ∃ added, added <+: before.ast.reads left ++ before.ast.reads right ∧
      after = before.withExprs added

/-- Two operands have to have values of a group. -/
theorem requireBoth_added {α : Type} {category : Category} {next : ExprId → ExprId → Check α}
    {onResult : α → Analysis → Prop} (right_lt : right.index < before.ast.exprs.size)
    (behind : category.Comprises (before.ast.valueType left) →
      category.Comprises (before.ast.valueType right) →
      Ensures (next (before.leftValue left) (before.rightValue left right))
        (before.withOperands left right) onResult (before.FailsOperands category left right)) :
    Ensures (do
      let left ← requireCategory category left
      let right ← requireCategory category right
      next left right) before onResult (before.FailsOperands category left right) := by
  rw [ensures_bind]
  refine (requireCategory_added category left).mono ?_ ?_
  rotate_left
  · rintro error after ⟨outside, rfl, rfl⟩
    exact ⟨.left outside, _, List.prefix_append _ _, rfl⟩
  rintro first middle ⟨left_in, rfl, rfl⟩
  rw [ensures_bind]
  refine (requireCategory_added category right).mono ?_ ?_
  all_goals
    rw [valueType_withExprs right_lt, reads_withExprs right_lt, withExprs_append]
  · rintro second late ⟨right_in, rfl, rfl⟩
    rw [valueAt_withExprs right_lt, size_withExprs]
    exact behind left_in right_in
  · rintro error after ⟨outside, rfl, rfl⟩
    rw [expr_withExprs right_lt]
    exact ⟨.right left_in outside, _, List.prefix_rfl, rfl⟩

/-- Two operands have to have values of one type of a group. -/
theorem requireAlike_added (category : Category) (left_lt : left.index < before.ast.exprs.size)
    (right_lt : right.index < before.ast.exprs.size) :
    Ensures (requireAlike category left right) before
      (fun alike after => Fit before category left right ∧
        alike = (before.leftValue left, before.rightValue left right, before.ast.valueType left) ∧
        after = before.withOperands left right)
      (before.FailsOperands category left right) := by
  obtain ⟨left_type, right_type, right_location⟩ := expr_operands left_lt right_lt
  refine requireBoth_added right_lt fun left_in right_in => ?_
  rw [ensures_bind, ensures_expr, ensures_bind, requireSame, ensures_bind, ensures_expr, left_type,
    right_type, right_location]
  split
  · next same => exact ⟨⟨left_in, same.symm⟩, rfl, rfl⟩
  · next different =>
    exact ⟨.apart left_in right_in different, _, List.prefix_rfl, rfl⟩

/-- An expression made of two operands is added behind what they need. -/
def Combines (before : Analysis) (left right : ExprId) (node : ExprId → ExprId → Expr) (id : ExprId)
    (after : Analysis) : Prop :=
  id = ⟨(before.withOperands left right).ast.exprs.size⟩ ∧
    after = (before.withOperands left right).withExprs
      [node (before.leftValue left) (before.rightValue left right)]

/-- The outcome of a step for an operator on two values, which stands at its token. -/
def CombinesWithin (before : Analysis) (category : Category) (operator : BinaryOperator)
    (token : Token) (left right : ExprId) (result : Ty → Ty) (step : Check ExprId) : Prop :=
  Ensures step before
    (fun id after => Fit before category left right ∧
      Combines before left right (fun first second => ⟨.binary operator first second,
        result (before.ast.valueType left), token.location⟩) id after)
    (before.FailsOperands category left right)

/-- Operators on a group of one type ask for that type only. -/
theorem combinesWithin_of_single {category : Category} (single : category = .boolean ∨ category = .integer)
    {type : Ty} (operator : BinaryOperator) (token : Token)
    (right_lt : right.index < before.ast.exprs.size) :
    CombinesWithin before category operator token left right (fun _ => type) (do
      let left ← requireCategory category left
      let right ← requireCategory category right
      addBinary token operator left right type) := by
  refine requireBoth_added right_lt fun left_in right_in => ?_
  refine (addExpr_added _ _ _).mono ?_ fun _ _ never => never.elim
  rintro id after ⟨rfl, rfl⟩
  exact ⟨⟨left_in, right_in.unique single left_in⟩, rfl, rfl⟩

theorem arithmetic_combines (operator : BinaryOperator) (token : Token)
    (left_lt : left.index < before.ast.exprs.size) (right_lt : right.index < before.ast.exprs.size) :
    CombinesWithin before .arithmetic operator token left right (fun type => type)
      (arithmetic operator token left right) := by
  rw [CombinesWithin, arithmetic, ensures_bind]
  refine (requireAlike_added .arithmetic left_lt right_lt).mono ?_ fun _ _ fails => fails
  rintro _ middle ⟨fit, rfl, rfl⟩
  refine (addExpr_added _ _ _).mono ?_ fun _ _ never => never.elim
  rintro id after ⟨rfl, rfl⟩
  exact ⟨fit, rfl, rfl⟩

theorem compare_combines (category : Category) (operator : BinaryOperator) (token : Token)
    (left_lt : left.index < before.ast.exprs.size) (right_lt : right.index < before.ast.exprs.size) :
    CombinesWithin before category operator token left right (fun _ => .bool)
      (compare category operator token left right) := by
  rw [CombinesWithin, compare, ensures_bind]
  refine (requireAlike_added category left_lt right_lt).mono ?_ fun _ _ fails => fails
  rintro _ middle ⟨fit, rfl, rfl⟩
  refine (addExpr_added _ _ _).mono ?_ fun _ _ never => never.elim
  rintro id after ⟨rfl, rfl⟩
  exact ⟨fit, rfl, rfl⟩

end Operands

namespace OperatorLevel

/-- The group of types that the operators of a level work on. -/
def category : OperatorLevel → Category
  | logicalOr | logicalAnd => .boolean
  | bitwiseOr | bitwiseXor | bitwiseAnd | shift => .integer
  | equality => .scalar
  | relational => .numeric
  | additive | multiplicative => .arithmetic

/-- The type of what the operators of a level give for operands of a type. -/
def resultType : OperatorLevel → (operand : Ty) → Ty
  | logicalOr, _ | logicalAnd, _ | equality, _ | relational, _ => .bool
  | bitwiseOr, _ | bitwiseXor, _ | bitwiseAnd, _ | shift, _ => .int
  | additive, operand | multiplicative, operand => operand

end OperatorLevel

end Analysis

namespace TokenKind

/-- The operator on two values that a sign stands for. -/
def binaryOperator? : TokenKind → Option BinaryOperator
  | .logical .or => some .logicalOr
  | .logical .and => some .logicalAnd
  | .bitwise .or => some .or
  | .bitwise .xor => some .xor
  | .bitwise .and => some .and
  | .relational .eq => some .eq
  | .relational .ne => some .ne
  | .relational .lt => some .lt
  | .relational .gt => some .gt
  | .relational .le => some .le
  | .relational .ge => some .ge
  | .bitwise .shl => some .shl
  | .bitwise .shr => some .shr
  | .arithmetic .add => some .add
  | .arithmetic .sub => some .sub
  | .arithmetic .mul => some .mul
  | .arithmetic .div => some .div
  | .arithmetic .mod => some .rem
  | _ => none

/-- The group of types that the operator on one value works on that a sign stands for. -/
def unaryCategory? : TokenKind → Option Category
  | .arithmetic .add | .arithmetic .sub => some .arithmetic
  | .bitwise .not => some .integer
  | .logical .not => some .boolean
  | _ => none

end TokenKind

namespace Analysis

variable {before : Analysis} {left right operand target value : ExprId} {token : Token}

/-- A sign that belongs to a level stands for an operator. -/
theorem exists_binaryOperator {level : OperatorLevel} {kind : TokenKind}
    (accepted : level.accepts kind = true) : ∃ operator, kind.binaryOperator? = some operator := by
  cases level <;> cases kind <;> try cases accepted
  all_goals
    rename_i sign
    cases sign <;> first | exact ⟨_, rfl⟩ | cases accepted

/-- A step of a level combines two operands of its group. -/
theorem combine_combines (level : OperatorLevel) {operator : BinaryOperator}
    (left_lt : left.index < before.ast.exprs.size) (right_lt : right.index < before.ast.exprs.size)
    (accepted : level.accepts token.kind = true)
    (spelled : token.kind.binaryOperator? = some operator) :
    CombinesWithin before level.category operator token left right level.resultType
      (level.combine token left right) := by
  obtain ⟨kind, location⟩ := token
  cases level with
  | logicalOr | logicalAnd =>
      cases kind with
      | logical sign =>
          cases sign <;> cases accepted
          cases spelled
          exact combinesWithin_of_single (.inl rfl) _ _ right_lt
      | _ => cases accepted
  | bitwiseOr | bitwiseXor | bitwiseAnd | shift =>
      cases kind with
      | bitwise sign =>
          cases sign <;> cases accepted
          all_goals
            cases spelled
            exact combinesWithin_of_single (.inr rfl) _ _ right_lt
      | _ => cases accepted
  | equality | relational =>
      cases kind with
      | relational sign =>
          cases sign <;> cases accepted
          all_goals
            cases spelled
            exact compare_combines _ _ _ left_lt right_lt
      | _ => cases accepted
  | additive | multiplicative =>
      cases kind with
      | arithmetic sign =>
          cases sign <;> cases accepted
          all_goals
            cases spelled
            exact arithmetic_combines _ _ left_lt right_lt
      | _ => cases accepted

/-- An assignment fails because of its target, or because its value has another type than what the target
holds. -/
inductive AssignmentFault (before : Analysis) (target value : ExprId) : Diagnostic → Prop
  /-- The target is no reference. -/
  | target : (∀ object, before.ast.typeOf target ≠ .reference object) →
      AssignmentFault before target value (.semantic (before.ast.expr target).location
        (.notAReference (before.ast.typeOf target)))
  /-- The value has another type. -/
  | apart (object : Ty) : before.ast.typeOf target = .reference object →
      object ≠ before.ast.valueType value →
      AssignmentFault before target value (.semantic (before.ast.expr value).location
        (.typeMismatch object (before.ast.valueType value)))

/-- A target may be assigned a value of the type that it holds. -/
def CanAssign (before : Analysis) (target value : ExprId) : Prop :=
  ∃ object, before.ast.typeOf target = .reference object ∧ before.ast.valueType value = object

/-- An assignment is added behind what its value needs. It designates what its target designates. -/
def Assigns (before : Analysis) (target value id : ExprId) (after : Analysis) : Prop :=
  id = ⟨before.ast.exprs.size + (before.ast.reads value).length⟩ ∧
    after = before.withExprs (before.ast.reads value ++
      [⟨.assign target (before.ast.valueAt before.ast.exprs.size value), before.ast.typeOf target,
        (before.ast.expr target).location⟩])

theorem AssignmentFault.not_canAssign {error : Diagnostic}
    (fault : AssignmentFault before target value error) : ¬ CanAssign before target value := by
  rintro ⟨object, reference, same⟩
  cases fault with
  | target noReference => exact noReference object reference
  | apart other otherReference different =>
      cases reference.symm.trans otherReference
      exact different same.symm

/-- The outcome of an assignment. -/
theorem assignment_assigns (target_lt : target.index < before.ast.exprs.size)
    (value : ExprId) :
    Ensures (assignment target value) before
      (fun id after => CanAssign before target value ∧ Assigns before target value id after)
      fun error after => AssignmentFault before target value error ∧
        ∃ added, added <+: before.ast.reads value ∧ after = before.withExprs added := by
  rw [assignment, ensures_bind, requireReference, ensures_bind, ensures_expr]
  split
  · next isReference =>
    obtain ⟨object, reference⟩ : ∃ object, before.ast.typeOf target = .reference object := by
      rw [Ast.typeOf]
      cases type : (before.ast.expr target).type <;> simp_all [Ty.isReference]
    have target_type : (before.ast.expr target).type = .reference object := reference
    rw [ensures_pure, ensures_bind]
    refine (load_added value).mono ?_ fun _ _ never => never.elim
    rintro stored middle ⟨rfl, rfl⟩
    obtain ⟨value_type, value_location⟩ := expr_valueAt before value
    rw [ensures_bind, ensures_expr, ensures_bind, requireSame, ensures_bind, ensures_expr,
      expr_withExprs target_lt, target_type, value_type, value_location]
    split
    · next same =>
      rw [ensures_pure]
      refine (addExpr_added _ _ _).mono ?_ fun _ _ never => never.elim
      rintro id after ⟨rfl, rfl⟩
      refine ⟨⟨object, reference, same.symm⟩, by rw [size_withExprs], ?_⟩
      rw [withExprs_append, reference]
    · next different =>
      exact ⟨.apart object reference different, _, List.prefix_rfl, rfl⟩
  · next noReference =>
    refine ⟨.target fun object reference => noReference ?_, [], List.nil_prefix, ?_⟩
    · have target_type : (before.ast.expr target).type = .reference object := reference
      rw [target_type]
      rfl
    · exact withExprs_nil.symm

/-- What an operator on one value adds behind what its operand needs, given the value of the operand, its
type and the index of the next expression, and which expression comes out. -/
inductive Modifies (token : Token) (value : ExprId) (type : Ty) (next : Nat) :
    List Expr → ExprId → Prop
  /-- A plus sign gives the value itself. -/
  | plus : token.kind = .arithmetic .add → Modifies token value type next [] value
  /-- A minus sign subtracts the value from the zero of its type. -/
  | minus : token.kind = .arithmetic .sub →
      Modifies token value type next
        [⟨zeroOf type, type, token.location⟩, ⟨.binary .sub ⟨next⟩ value, type, token.location⟩]
        ⟨next + 1⟩
  /-- The bits of an integer are flipped. -/
  | bitNot : token.kind = .bitwise .not →
      Modifies token value type next [⟨.unary .bitNot value, .int, token.location⟩] ⟨next⟩
  /-- A truth value is flipped. -/
  | logicalNot : token.kind = .logical .not →
      Modifies token value type next [⟨.unary .logicalNot value, .bool, token.location⟩] ⟨next⟩

/-- An operator on one value is added behind what its operand needs. -/
def Operates (before : Analysis) (token : Token) (operand id : ExprId) (after : Analysis) : Prop :=
  ∃ added, Modifies token (before.ast.valueAt before.ast.exprs.size operand)
      (before.ast.valueType operand) (before.ast.exprs.size + (before.ast.reads operand).length)
      added id ∧
    after = before.withExprs (before.ast.reads operand ++ added)

/-- An operator on one value fails if the value is outside of the group of the operator. -/
def FailsOperand (before : Analysis) (category : Category) (operand : ExprId) (error : Diagnostic)
    (after : Analysis) : Prop :=
  ¬ category.Comprises (before.ast.valueType operand) ∧
    error = .semantic (before.ast.expr operand).location
      (.expectedCategory category (before.ast.valueType operand)) ∧
    after = before.withExprs (before.ast.reads operand)

/-- A number is negated by subtracting it from the zero of its type. -/
theorem negation_operates (location : Location) (operand : ExprId) :
    Ensures (negation ⟨.arithmetic .sub, location⟩ operand) before
      (fun id after => Category.arithmetic.Comprises (before.ast.valueType operand) ∧
        Operates before ⟨.arithmetic .sub, location⟩ operand id after)
      (FailsOperand before .arithmetic operand) := by
  rw [negation, ensures_bind]
  refine (requireCategory_added .arithmetic operand).mono ?_ fun _ _ fails => fails
  rintro value middle ⟨comprised, rfl, rfl⟩
  rw [ensures_bind, ensures_expr, (expr_valueAt before operand).1, ensures_bind]
  refine (addExpr_added _ _ _).mono ?_ fun _ _ never => never.elim
  rintro zero late ⟨rfl, rfl⟩
  refine (addExpr_added _ _ _).mono ?_ fun _ _ never => never.elim
  rintro id after ⟨rfl, rfl⟩
  rw [size_withExprs, size_withExprs, withExprs_append, withExprs_append]
  exact ⟨comprised, _, .minus rfl, rfl⟩

/-- The outcome of an operator on one value. -/
theorem unary_operates {category : Category} (operand : ExprId)
    (spelled : token.kind.unaryCategory? = some category) :
    Ensures (unary token operand) before
      (fun id after => category.Comprises (before.ast.valueType operand) ∧
        Operates before token operand id after)
      (FailsOperand before category operand) := by
  obtain ⟨kind, location⟩ := token
  cases kind with
  | arithmetic sign =>
      cases sign <;> cases spelled
      · refine (requireCategory_added .arithmetic operand).mono ?_ fun _ _ fails => fails
        rintro value after ⟨comprised, rfl, rfl⟩
        exact ⟨comprised, [], .plus rfl, by rw [List.append_nil]⟩
      · exact negation_operates location operand
  | bitwise sign =>
      cases sign <;> cases spelled
      rw [unary, ensures_bind]
      refine (requireCategory_added .integer operand).mono ?_ fun _ _ fails => fails
      rintro value middle ⟨comprised, rfl, rfl⟩
      refine (addExpr_added _ _ _).mono ?_ fun _ _ never => never.elim
      rintro id after ⟨rfl, rfl⟩
      rw [size_withExprs, withExprs_append]
      exact ⟨comprised, _, .bitNot rfl, rfl⟩
  | logical sign =>
      cases sign <;> cases spelled
      rw [unary, ensures_bind]
      refine (requireCategory_added .boolean operand).mono ?_ fun _ _ fails => fails
      rintro value middle ⟨comprised, rfl, rfl⟩
      refine (addExpr_added _ _ _).mono ?_ fun _ _ never => never.elim
      rintro id after ⟨rfl, rfl⟩
      rw [size_withExprs, withExprs_append]
      exact ⟨comprised, _, .logicalNot rfl, rfl⟩
  | _ => cases spelled

/-- A step with a settled outcome succeeds exactly under a condition, and it is known what it gives then and
how it fails otherwise. -/
structure Settled (step : Check ExprId) (before : Analysis) (condition : Prop)
    (onResult : ExprId → Analysis → Prop) (onError : Diagnostic → Prop) : Prop where
  /-- When the step succeeds. -/
  succeeds_iff : (∃ id after, step.run before = (.ok id, after)) ↔ condition
  /-- What it gives. -/
  result (id : ExprId) (after : Analysis) : step.run before = (.ok id, after) → onResult id after
  /-- How it fails. -/
  error (error : Diagnostic) (after : Analysis) :
    step.run before = (.error error, after) → onError error

/-- A step is settled if its results imply the condition and its errors refute it. -/
theorem Ensures.settled {step : Check ExprId} {condition : Prop}
    {onResult : ExprId → Analysis → Prop} {onError : Diagnostic → Analysis → Prop}
    {blamed : Diagnostic → Prop}
    (ensures : Ensures step before (fun id after => condition ∧ onResult id after) onError)
    (of_error : ∀ error after, onError error after → ¬ condition)
    (blames : ∀ error after, onError error after → blamed error) :
    Settled step before condition onResult blamed where
  succeeds_iff := ensures.succeeds_iff (fun _ _ holds => holds.1) of_error
  result _ _ run := (ensures.result run).2
  error _ _ run := blames _ _ (ensures.error run)

/-- Operators are decided by the types of the values of their operands. An operator on two values succeeds
exactly if both have one type of its group, an assignment exactly if its target is a reference to the type
of its value, and an operator on one value exactly if the value has a type of its group. What is added
then is one read for each operand that is a reference, the target of an assignment apart, and the
expression itself. Otherwise the leftmost operand that does not fit is blamed: one outside of the group
before one of another type than the operand to the left of it. -/
theorem operators_settled (left_lt : left.index < before.ast.exprs.size)
    (right_lt : right.index < before.ast.exprs.size) :
    (∀ (level : OperatorLevel) (token : Token), level.accepts token.kind = true →
      ∃ operator, token.kind.binaryOperator? = some operator ∧
        Settled (level.combine token left right) before (Fit before level.category left right)
          (Combines before left right fun first second => ⟨.binary operator first second,
            level.resultType (before.ast.valueType left), token.location⟩)
          (OperandFault before level.category left right)) ∧
    Settled (assignment left right) before (CanAssign before left right)
      (Assigns before left right) (AssignmentFault before left right) ∧
    ∀ (token : Token) (category : Category), token.kind.unaryCategory? = some category →
      Settled (unary token left) before (category.Comprises (before.ast.valueType left))
        (Operates before token left)
        fun error => error = .semantic (before.ast.expr left).location
          (.expectedCategory category (before.ast.valueType left)) := by
  refine ⟨fun level token accepted => ?_, ?_, fun token category spelled => ?_⟩
  · obtain ⟨operator, spelled⟩ := exists_binaryOperator accepted
    have combines := combine_combines level left_lt right_lt accepted spelled
    exact ⟨operator, spelled, Ensures.settled combines (fun _ _ fails => fails.1.not_fit)
      fun _ _ fails => fails.1⟩
  · exact (assignment_assigns left_lt right).settled (fun _ _ fails => fails.1.not_canAssign)
      fun _ _ fails => fails.1
  · exact (unary_operates left spelled).settled (fun _ _ fails => fails.1) fun _ _ fails => fails.2.1

/-- An integer variable may be added to an integer, assigned one, and negated. -/
theorem operators_settled_of_variable :
    variableUses.ast.typeOf ⟨1⟩ = .reference .int ∧ variableUses.ast.typeOf ⟨2⟩ = .int ∧
      (∃ id after, (OperatorLevel.combine .additive ⟨.arithmetic .add, .unknown⟩ ⟨1⟩ ⟨2⟩).run
        variableUses = (.ok id, after)) ∧
      (∃ id after, (assignment ⟨1⟩ ⟨2⟩).run variableUses = (.ok id, after)) ∧
      ∃ id after, (unary ⟨.arithmetic .sub, .unknown⟩ ⟨1⟩).run variableUses = (.ok id, after) := by
  have left_type : variableUses.ast.typeOf ⟨1⟩ = .reference .int := by decide +kernel
  have right_type : variableUses.ast.typeOf ⟨2⟩ = .int := by decide +kernel
  have left_value : variableUses.ast.valueType ⟨1⟩ = .int := by rw [Ast.valueType, left_type]; rfl
  have right_value : variableUses.ast.valueType ⟨2⟩ = .int := by rw [Ast.valueType, right_type]; rfl
  obtain ⟨combines, assigns, modifies⟩ :=
    @operators_settled variableUses ⟨1⟩ ⟨2⟩ (by decide +kernel) (by decide +kernel)
  refine ⟨left_type, right_type, ?_, ?_, ?_⟩
  · obtain ⟨_, -, settled⟩ := combines .additive ⟨.arithmetic .add, .unknown⟩ rfl
    refine settled.succeeds_iff.2 ⟨?_, right_value.trans left_value.symm⟩
    exact left_value ▸ .arithmeticInt
  · exact assigns.succeeds_iff.2 ⟨.int, left_type, right_value⟩
  · refine (modifies ⟨.arithmetic .sub, .unknown⟩ .arithmetic rfl).succeeds_iff.2 ?_
    exact left_value ▸ .arithmeticInt

end Analysis

end Minilang
