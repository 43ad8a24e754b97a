import Minilang.Parsing.Expressions
import Minilang.Proofs.Analysis.Steps

/-!
# Analysis of expressions keeps programs typed

One law per form of expression: the step gives an expression of the range and adds typed expressions only.
A step refuses only tokens that do not belong to it, so with a fitting token every failure is a fault of
the program.
-/

namespace Minilang.Analysis

/-- A failure that is a fault of the program if the step was taken where it belongs. -/
def FailsFor (fitting : Prop) (first : Nat) (before : Analysis) (error : Diagnostic)
    (after : Analysis) : Prop :=
  Adds first before after ∧ (fitting → error.isFault = true)

theorem Fails.failsFor {fitting : Prop} {first : Nat} {before after : Analysis}
    {error : Diagnostic} (fails : Fails first before error after) :
    FailsFor fitting first before error after :=
  ⟨fails.1, fun _ => fails.2⟩

section Operators

variable {first : Nat} {before : Analysis} {left right : ExprId}

/-- An operator on two values of the range that has a type can be added. -/
theorem addBinary_ensures (token : Token) {operator : BinaryOperator} {type : Ty}
    (left_held : before.Holds first left) (right_held : before.Holds first right)
    (typed : before.ast.HasType (.binary operator left right) type) :
    Ensures (addBinary token operator left right type) before
      (fun id after => Gives first before id after ∧ after.ast.typeOf id = type)
      (Fails first before) := by
  refine addExpr_ensures_of_operands _ left_held.first_le typed ?_ (by simp)
  intro operand member
  obtain rfl | rfl : operand = left ∨ operand = right := by
    simpa [ExprKind.operands] using member
  · exact left_held
  · exact right_held

/-- Two operands that are taken to values of one group. -/
theorem requireBoth_ensures {category : Category} {next : ExprId → ExprId → Check ExprId}
    (left_held : before.Holds first left) (right_held : before.Holds first right)
    (behind : ∀ leftValue rightValue middle, Adds first before middle →
      middle.Holds first leftValue → middle.Holds first rightValue →
      category.admits (middle.ast.typeOf leftValue) = true →
      category.admits (middle.ast.typeOf rightValue) = true →
      Ensures (next leftValue rightValue) middle (Gives first middle) (Fails first middle)) :
    Ensures (do
      let left ← requireCategory category left
      let right ← requireCategory category right
      next left right) before (Gives first before) (Fails first before) := by
  rw [ensures_bind]
  refine (requireCategory_ensures category left_held).mono ?_ fun _ _ fails => fails
  rintro leftValue afterLeft ⟨leftGives, leftAdmitted⟩
  rw [ensures_bind]
  refine (requireCategory_ensures category (leftGives.1.holds right_held)).mono ?_
    fun _ _ fails => fails.trans leftGives.1
  rintro rightValue afterRight ⟨rightGives, rightAdmitted⟩
  have adds := leftGives.1.trans rightGives.1
  rw [← rightGives.1.typeOf_eq leftGives.2] at leftAdmitted
  refine (behind leftValue rightValue afterRight adds (rightGives.1.holds leftGives.2)
    rightGives.2 leftAdmitted rightAdmitted).mono ?_ ?_
  · exact fun id after gives => gives.trans adds
  · exact fun error after fails => fails.trans adds

theorem logical_ensures {operator : BinaryOperator} (isLogical : operator.isLogical = true)
    (token : Token) (left_held : before.Holds first left) (right_held : before.Holds first right) :
    Ensures (logical operator token left right) before (Gives first before)
      (Fails first before) := by
  refine requireBoth_ensures left_held right_held ?_
  intro leftValue rightValue middle _ leftHeld rightHeld leftBool rightBool
  have bool_of_admits {type : Ty} (admitted : Category.boolean.admits type = true) :
      type = .bool := by
    cases type <;> simp_all [Category.admits, Ty.isBool]
  exact (addBinary_ensures token leftHeld rightHeld
    (.logical isLogical (bool_of_admits leftBool) (bool_of_admits rightBool))).mono
    (fun _ _ gives => gives.1) fun _ _ fails => fails

theorem bitwise_ensures {operator : BinaryOperator} (isBitwise : operator.isBitwise = true)
    (token : Token) (left_held : before.Holds first left) (right_held : before.Holds first right) :
    Ensures (bitwise operator token left right) before (Gives first before)
      (Fails first before) := by
  refine requireBoth_ensures left_held right_held ?_
  intro leftValue rightValue middle _ leftHeld rightHeld leftInt rightInt
  have int_of_admits {type : Ty} (admitted : Category.integer.admits type = true) :
      type = .int := by
    cases type <;> simp_all [Category.admits, Ty.isIntegral, Ty.isInt]
  exact (addBinary_ensures token leftHeld rightHeld
    (.bitwise isBitwise (int_of_admits leftInt) (int_of_admits rightInt))).mono
    (fun _ _ gives => gives.1) fun _ _ fails => fails

/-- Operands that are alike are of one type of their group. -/
theorem requireAlike_ensures (category : Category) (left_held : before.Holds first left)
    (right_held : before.Holds first right) :
    Ensures (requireAlike category left right) before
      (fun alike after => Adds first before after ∧ after.Holds first alike.1 ∧
        after.Holds first alike.2.1 ∧ category.admits alike.2.2 = true ∧
        after.ast.typeOf alike.1 = alike.2.2 ∧ after.ast.typeOf alike.2.1 = alike.2.2)
      (Fails first before) := by
  rw [requireAlike, ensures_bind]
  refine (requireCategory_ensures category left_held).mono ?_ fun _ _ fails => fails
  rintro leftValue afterLeft ⟨leftGives, leftAdmitted⟩
  rw [ensures_bind]
  refine (requireCategory_ensures category (leftGives.1.holds right_held)).mono ?_
    fun _ _ fails => fails.trans leftGives.1
  rintro rightValue afterRight ⟨rightGives, -⟩
  have adds := leftGives.1.trans rightGives.1
  rw [ensures_bind, ensures_expr, ensures_bind]
  refine (requireSame_ensures _ _).mono ?_ fun _ _ fails => fails.trans adds
  rintro - after ⟨rfl, same⟩
  rw [← rightGives.1.typeOf_eq leftGives.2] at leftAdmitted
  exact ⟨adds, rightGives.1.holds leftGives.2, rightGives.2, leftAdmitted, rfl, same⟩

theorem arithmetic_ensures {operator : BinaryOperator} (isArithmetic : operator.isArithmetic = true)
    (token : Token) (left_held : before.Holds first left) (right_held : before.Holds first right) :
    Ensures (arithmetic operator token left right) before (Gives first before)
      (Fails first before) := by
  rw [arithmetic, ensures_bind]
  refine (requireAlike_ensures .arithmetic left_held right_held).mono ?_ fun _ _ fails => fails
  rintro ⟨leftValue, rightValue, type⟩ middle
    ⟨adds, leftHeld, rightHeld, admitted, leftType, rightType⟩
  refine (addBinary_ensures token leftHeld rightHeld
    (.arithmetic isArithmetic admitted leftType rightType)).mono ?_ ?_
  · exact fun id after gives => gives.1.trans adds
  · exact fun error after fails => fails.trans adds

/-- Compare two operands of a category. -/
def compare (category : Category) (operator : BinaryOperator) (token : Token)
    (left right : ExprId) : Check ExprId := do
  let operands ← requireAlike category left right
  addBinary token operator operands.1 operands.2.1 .bool

theorem comparison_ensures {category : Category} (token : Token)
    (isScalar : ∀ type, category.admits type = true → type.isScalar = true)
    (left_held : before.Holds first left) (right_held : before.Holds first right) :
    Ensures (comparison category token left right) before (Gives first before)
      (FailsFor (∃ operator, token.kind = .relational operator) first before) := by
  have behind {operator : BinaryOperator} (isComparison : operator.isComparison = true) :
      Ensures (compare category operator token left right) before (Gives first before)
        (FailsFor (∃ operator, token.kind = .relational operator) first before) := by
    rw [compare, ensures_bind]
    refine (requireAlike_ensures category left_held right_held).mono ?_
      fun _ _ fails => fails.failsFor
    rintro ⟨leftValue, rightValue, type⟩ middle
      ⟨adds, leftHeld, rightHeld, admitted, leftType, rightType⟩
    refine (addBinary_ensures token leftHeld rightHeld
      (.comparison isComparison (isScalar type admitted) leftType rightType)).mono ?_ ?_
    · exact fun id after gives => gives.1.trans adds
    · exact fun error after fails => (fails.trans adds).failsFor
  rw [comparison]
  split
  iterate 6
    · rw [ensures_bind, ensures_pure]
      exact behind rfl
  · next unrelated =>
    rw [ensures_bind]
    refine ⟨.refl, ?_⟩
    rintro ⟨operator, spelled⟩
    cases operator <;> simp_all

/-- A step of a level gives an operator on two values. -/
theorem combine_ensures (level : OperatorLevel) (token : Token)
    (left_held : before.Holds first left) (right_held : before.Holds first right) :
    Ensures (level.combine token left right) before (Gives first before)
      (FailsFor (level.accepts token.kind = true) first before) := by
  have accepted {step : Check ExprId}
      (ensures : Ensures step before (Gives first before) (Fails first before)) :
      Ensures step before (Gives first before)
        (FailsFor (level.accepts token.kind = true) first before) :=
    ensures.mono (fun _ _ gives => gives) fun _ _ fails => fails.failsFor
  have refused (unfit : level.accepts token.kind ≠ true) :
      Ensures (refuseToken token : Check ExprId) before (Gives first before)
        (FailsFor (level.accepts token.kind = true) first before) :=
    ⟨.refl, fun fits => absurd fits unfit⟩
  cases level with
  | logicalOr => exact accepted (logical_ensures rfl token left_held right_held)
  | logicalAnd => exact accepted (logical_ensures rfl token left_held right_held)
  | bitwiseOr => exact accepted (bitwise_ensures rfl token left_held right_held)
  | bitwiseXor => exact accepted (bitwise_ensures rfl token left_held right_held)
  | bitwiseAnd => exact accepted (bitwise_ensures rfl token left_held right_held)
  | equality =>
      have isScalar (type : Ty) (admitted : Category.scalar.admits type = true) :
          type.isScalar = true := admitted
      refine (comparison_ensures token isScalar left_held right_held).mono
        (fun _ _ gives => gives) fun _ _ fails => ⟨fails.1, fun fits => fails.2 ?_⟩
      cases spelled : token.kind <;> simp_all [OperatorLevel.accepts]
  | relational =>
      have isScalar (type : Ty) (admitted : Category.numeric.admits type = true) :
          type.isScalar = true := by
        cases type <;> simp_all [Category.admits, Ty.isNumeric, Ty.isArithmetic, Ty.isScalar]
      refine (comparison_ensures token isScalar left_held right_held).mono
        (fun _ _ gives => gives) fun _ _ fails => ⟨fails.1, fun fits => fails.2 ?_⟩
      cases spelled : token.kind <;> simp_all [OperatorLevel.accepts]
  | shift =>
      simp only [OperatorLevel.combine, shift]
      split
      · exact accepted (bitwise_ensures rfl token left_held right_held)
      · exact accepted (bitwise_ensures rfl token left_held right_held)
      · next notLeft notRight =>
        refine refused fun fits => ?_
        cases spelled : token.kind <;> simp_all [OperatorLevel.accepts]
  | additive =>
      simp only [OperatorLevel.combine, additive]
      split
      · exact accepted (arithmetic_ensures rfl token left_held right_held)
      · exact accepted (arithmetic_ensures rfl token left_held right_held)
      · next notAdd notSub =>
        refine refused fun fits => ?_
        cases spelled : token.kind <;> simp_all [OperatorLevel.accepts]
  | multiplicative =>
      simp only [OperatorLevel.combine, multiplicative]
      split
      · exact accepted (arithmetic_ensures rfl token left_held right_held)
      · exact accepted (arithmetic_ensures rfl token left_held right_held)
      · exact accepted (arithmetic_ensures rfl token left_held right_held)
      · next notMul notDiv notMod =>
        refine refused fun fits => ?_
        cases spelled : token.kind <;> simp_all [OperatorLevel.accepts]

end Operators

section Forms

variable {first : Nat} {before : Analysis}

/-- An assignment designates the storage that it assigns a value of its type. -/
theorem assignment_ensures {target value : ExprId} (target_held : before.Holds first target)
    (value_held : before.Holds first value) :
    Ensures (assignment target value) before (Gives first before) (Fails first before) := by
  rw [assignment, ensures_bind]
  refine (requireReference_ensures target).mono ?_ fun _ _ fails => fails
  rintro target _ ⟨rfl, rfl, object, reference⟩
  rw [ensures_bind]
  refine (load_ensures value_held).mono ?_ fun _ _ fails => fails
  rintro stored middle ⟨gives, -⟩
  have target_type : middle.ast.typeOf target = .reference object :=
    (gives.1.typeOf_eq target_held).trans reference
  rw [ensures_bind, ensures_expr, ensures_bind]
  refine (requireSame_ensures _ _).mono ?_ fun _ _ fails => fails.trans gives.1
  rintro _ _ ⟨rfl, same⟩
  rw [Ast.typeOf] at target_type
  rw [target_type] at same ⊢
  refine (addExpr_ensures_of_operands _ gives.2.first_le (.assign target_type same) ?_
    (by simp)).mono (fun _ _ later => later.1.trans gives.1) fun _ _ fails => fails.trans gives.1
  intro operand member
  obtain rfl | rfl : operand = target ∨ operand = stored := by
    simpa [ExprKind.operands] using member
  · exact gives.1.holds target_held
  · exact gives.2

/-- A conditional has the common type of its branches. -/
theorem conditional_ensures {guard whenTrue whenFalse : ExprId}
    (guard_held : before.Holds first guard) (true_held : before.Holds first whenTrue)
    (false_held : before.Holds first whenFalse) :
    Ensures (conditional guard whenTrue whenFalse) before (Gives first before)
      (Fails first before) := by
  rw [conditional, ensures_bind]
  refine (requireCategory_ensures .boolean guard_held).mono ?_ fun _ _ fails => fails
  rintro condition afterGuard ⟨guardGives, admitted⟩
  have guard_type : afterGuard.ast.typeOf condition = .bool := by
    cases type : afterGuard.ast.typeOf condition <;> simp_all [Category.admits, Ty.isBool]
  rw [ensures_bind, ensures_expr, ensures_bind, ensures_expr, ensures_bind, ensures_expr,
    ensures_bind]
  refine (commonType_ensures _ _ _).mono ?_ fun _ _ fails => fails.trans guardGives.1
  rintro type _ rfl
  rw [ensures_bind]
  refine (convertTo_ensures type (guardGives.1.holds true_held)).mono ?_
    fun _ _ fails => fails.trans guardGives.1
  rintro trueValue afterTrue ⟨trueGives, trueType⟩
  have trueAdds := guardGives.1.trans trueGives.1
  rw [ensures_bind]
  refine (convertTo_ensures type (trueAdds.holds false_held)).mono ?_
    fun _ _ fails => fails.trans trueAdds
  rintro falseValue afterFalse ⟨falseGives, falseType⟩
  have adds := trueAdds.trans falseGives.1
  have typed : afterFalse.ast.HasType (.conditional condition trueValue falseValue) type := by
    refine .conditional ?_ ?_ falseType
    · rw [(trueGives.1.trans falseGives.1).typeOf_eq guardGives.2, guard_type]
    · rw [falseGives.1.typeOf_eq trueGives.2, trueType]
  refine (addExpr_ensures_of_operands _ falseGives.2.first_le typed ?_ (by simp)).mono
    (fun _ _ later => later.1.trans adds) fun _ _ fails => fails.trans adds
  intro operand member
  obtain rfl | rfl | rfl : operand = condition ∨ operand = trueValue ∨ operand = falseValue := by
    simpa [ExprKind.operands] using member
  · exact (trueGives.1.trans falseGives.1).holds guardGives.2
  · exact falseGives.1.holds trueGives.2
  · exact falseGives.2

/-- A cast stands over an operand that already has its type. -/
theorem cast_ensures {operand : ExprId} (type : Ty) (held : before.Holds first operand) :
    Ensures (cast operand type) before (Gives first before) (Fails first before) := by
  rw [cast, ensures_bind, ensures_expr, ensures_bind]
  refine (convertTo_ensures type held).mono ?_ fun _ _ fails => fails
  rintro converted middle ⟨gives, typed⟩
  refine (addExpr_ensures_of_operands _ gives.2.first_le (.cast typed) ?_ (by simp)).mono
    (fun _ _ later => later.1.trans gives.1) fun _ _ fails => fails.trans gives.1
  intro operand member
  rw [ExprKind.operands, List.mem_singleton] at member
  exact member ▸ gives.2

/-- The zero of a number type has that type. -/
theorem zeroOf_typed (ast : Ast) {type : Ty} (number : type.isArithmetic = true) :
    ast.HasType (zeroOf type) type := by
  cases type with
  | int => exact .int 0
  | float => exact .float .zero
  | _ => simp [Ty.isArithmetic] at number

/-- A negative is a difference of a zero and a number of one type. -/
theorem negation_ensures (token : Token) {operand : ExprId} (held : before.Holds first operand) :
    Ensures (negation token operand) before (Gives first before) (Fails first before) := by
  rw [negation, ensures_bind]
  refine (requireCategory_ensures .arithmetic held).mono ?_ fun _ _ fails => fails
  rintro value middle ⟨gives, number⟩
  rw [ensures_bind, ensures_expr, ensures_bind]
  have zero_typed : middle.ast.HasType (zeroOf (middle.ast.expr value).type)
      (middle.ast.expr value).type := zeroOf_typed _ number
  have zero_operands : (zeroOf (middle.ast.expr value).type).operands = [] := by
    unfold zeroOf
    split <;> rfl
  have zero_unnamed (declaration : DeclId) :
      zeroOf (middle.ast.expr value).type ≠ .name declaration := by
    unfold zeroOf
    split <;> simp
  refine (addExpr_ensures_of_operands token.location gives.2.first_le zero_typed
    (by simp [zero_operands]) zero_unnamed).mono ?_ fun _ _ fails => fails.trans gives.1
  rintro zero afterZero ⟨zeroGives, zeroType⟩
  have adds := gives.1.trans zeroGives.1
  refine (addBinary_ensures token zeroGives.2 (zeroGives.1.holds gives.2) (.arithmetic rfl number
    zeroType (zeroGives.1.typeOf_eq gives.2))).mono
    (fun _ _ later => later.1.trans adds) fun _ _ fails => fails.trans adds

/-- An operator on one value needs a value of its group. -/
theorem unary_ensures (token : Token) {operand : ExprId} (held : before.Holds first operand) :
    Ensures (unary token operand) before (Gives first before)
      (FailsFor (Parser.isUnaryOperator token.kind = true) first before) := by
  have accepted {step : Check ExprId}
      (ensures : Ensures step before (Gives first before) (Fails first before)) :
      Ensures step before (Gives first before)
        (FailsFor (Parser.isUnaryOperator token.kind = true) first before) :=
    ensures.mono (fun _ _ gives => gives) fun _ _ fails => fails.failsFor
  rw [unary]
  split
  · refine accepted ((requireCategory_ensures .arithmetic held).mono ?_ fun _ _ fails => fails)
    exact fun _ _ gives => gives.1
  · exact accepted (negation_ensures token held)
  · rw [ensures_bind]
    refine (requireCategory_ensures .integer held).mono ?_ fun _ _ fails => fails.failsFor
    rintro value middle ⟨gives, admitted⟩
    have operand_type : middle.ast.typeOf value = .int := by
      cases type : middle.ast.typeOf value <;>
        simp_all [Category.admits, Ty.isIntegral, Ty.isInt]
    refine (addExpr_ensures_of_operands _ gives.2.first_le (.bitNot operand_type) ?_
      (by simp)).mono (fun _ _ later => later.1.trans gives.1)
      fun _ _ fails => (fails.trans gives.1).failsFor
    intro operand member
    rw [ExprKind.operands, List.mem_singleton] at member
    exact member ▸ gives.2
  · rw [ensures_bind]
    refine (requireCategory_ensures .boolean held).mono ?_ fun _ _ fails => fails.failsFor
    rintro value middle ⟨gives, admitted⟩
    have operand_type : middle.ast.typeOf value = .bool := by
      cases type : middle.ast.typeOf value <;> simp_all [Category.admits, Ty.isBool]
    refine (addExpr_ensures_of_operands _ gives.2.first_le (.logicalNot operand_type) ?_
      (by simp)).mono (fun _ _ later => later.1.trans gives.1)
      fun _ _ fails => (fails.trans gives.1).failsFor
    intro operand member
    rw [ExprKind.operands, List.mem_singleton] at member
    exact member ▸ gives.2
  · exact ⟨.refl, fun _ => rfl⟩
  · exact ⟨.refl, fun _ => rfl⟩
  · refine ⟨.refl, fun fits => ?_⟩
    cases spelled : token.kind <;> simp_all [Parser.isUnaryOperator]

/-- Arguments are taken to values of the parameter types, one for each. -/
theorem convertArguments_ensures {arguments : List ExprId} {parameters : List Ty} (position : Nat)
    (same_length : arguments.length = parameters.length)
    (held : ∀ argument ∈ arguments, before.Holds first argument) :
    Ensures (convertArguments position arguments parameters) before
      (fun values after => Adds first before after ∧
        (∀ value ∈ values, after.Holds first value) ∧
        values.map after.ast.typeOf = parameters)
      (Fails first before) := by
  induction arguments generalizing position parameters before with
  | nil =>
      cases parameters with
      | nil =>
          rw [convertArguments, ensures_pure]
          · exact ⟨.refl, by simp, rfl⟩
          · simp
      | cons parameter parameters => simp at same_length
  | cons argument arguments induction =>
      cases parameters with
      | nil => simp at same_length
      | cons parameter parameters =>
          rw [convertArguments, ensures_bind]
          refine (load_ensures (held argument (by simp))).mono ?_ fun _ _ fails => fails
          rintro value middle ⟨gives, -⟩
          rw [ensures_bind, ensures_expr]
          split
          · exact ⟨gives.1, rfl⟩
          · next same =>
            have value_type : middle.ast.typeOf value = parameter := not_not.1 same
            rw [ensures_bind]
            refine (induction (position + 1) (by simpa using same_length) fun other member =>
              gives.1.holds (held other (by simp [member]))).mono ?_
              fun _ _ fails => fails.trans gives.1
            rintro values after ⟨adds, values_held, types_eq⟩
            refine ⟨gives.1.trans adds, ?_, ?_⟩
            · intro other member
              obtain rfl | member := List.mem_cons.1 member
              · exact adds.holds gives.2
              · exact values_held other member
            · rw [List.map_cons, adds.typeOf_eq gives.2, value_type, types_eq]

/-- A call has the result type of its callee and arguments of the parameter types. -/
theorem call_ensures {callee : ExprId} {arguments : List ExprId}
    (callee_held : before.Holds first callee)
    (held : ∀ argument ∈ arguments, before.Holds first argument) :
    Ensures (call callee arguments) before (Gives first before) (Fails first before) := by
  rw [call, ensures_bind]
  refine (requireCategory_ensures .function callee_held).mono ?_ fun _ _ fails => fails
  rintro function middle ⟨gives, isFunction⟩
  rw [ensures_bind, ensures_expr]
  split
  · next result parameters callee_type =>
    by_cases tooMany : parameters.length < arguments.length
    · rw [if_pos tooMany, ensures_bind]
      exact ⟨gives.1, rfl⟩
    by_cases tooFew : arguments.length < parameters.length
    · rw [if_neg tooMany, if_pos tooFew, ensures_bind]
      exact ⟨gives.1, rfl⟩
    rw [if_neg tooMany, if_neg tooFew, ensures_bind]
    refine (convertArguments_ensures 1 (by omega) fun argument member =>
      gives.1.holds (held argument member)).mono ?_ fun _ _ fails => fails.trans gives.1
    rintro values after ⟨later, values_held, types_eq⟩
    have adds := gives.1.trans later
    have typed : after.ast.HasType (.call function values) result :=
      .call ((later.typeOf_eq gives.2).trans callee_type) types_eq
    refine (addExpr_ensures_of_operands _ (later.holds gives.2).first_le typed ?_ (by simp)).mono
      (fun _ _ last => last.1.trans adds) fun _ _ fails => fails.trans adds
    intro operand member
    obtain rfl | member := List.mem_cons.1 member
    · exact later.holds gives.2
    · exact values_held operand member
  · next noFunction =>
    refine absurd isFunction ?_
    rw [Ast.typeOf]
    cases type : (middle.ast.expr function).type with
    | function result parameters => exact absurd type (noFunction result parameters)
    | _ => simp [Category.admits, Ty.isFunction]

/-- Index expressions are always faults of the program. -/
theorem index_ensures (base : ExprId) (arguments : List ExprId) :
    Ensures (index base arguments) before (Gives first before) (Fails first before) := by
  rw [index, ensures_bind, ensures_expr, ensures_reject]
  exact ⟨.refl, rfl⟩

end Forms

section Primary

variable {before : Analysis}

/-- A form without operands that names nothing starts a range of its own. -/
theorem addExpr_ensures_of_literal {kind : ExprKind} {type : Ty} (location : Location)
    (typed : before.ast.HasType kind type) (unbuilt : kind.operands = [])
    (unnamed : ∀ declaration, kind ≠ .name declaration) :
    Ensures (addExpr kind type location) before (Gives before.ast.exprs.size before)
      (Fails before.ast.exprs.size before) :=
  (addExpr_ensures_of_operands location le_rfl typed (by simp [unbuilt]) unnamed).mono
    (fun _ _ gives => gives.1) fun _ _ fails => fails

theorem addInteger_ensures (value : Int64) (checkedAt location : Location) :
    Ensures (addInteger value checkedAt location) before (Gives before.ast.exprs.size before)
      (Fails before.ast.exprs.size before) := by
  rw [addInteger]
  split
  · exact addExpr_ensures_of_literal location (.int _) rfl (by simp)
  · exact ⟨.refl, rfl⟩

theorem integerLiteral_ensures (token : Token) :
    Ensures (integerLiteral token) before (Gives before.ast.exprs.size before)
      (FailsFor (∃ value radix, token.kind = .integer value radix) before.ast.exprs.size
        before) := by
  rw [integerLiteral]
  split
  · exact (addInteger_ensures _ _ _).mono (fun _ _ gives => gives) fun _ _ fails => fails.failsFor
  · next other =>
    exact ⟨.refl, fun ⟨value, radix, spelled⟩ => absurd spelled (other value radix)⟩

theorem negatedIntegerLiteral_ensures (sign token : Token) :
    Ensures (negatedIntegerLiteral sign token) before (Gives before.ast.exprs.size before)
      (FailsFor (∃ value radix, token.kind = .integer value radix) before.ast.exprs.size
        before) := by
  rw [negatedIntegerLiteral]
  split
  · exact (addInteger_ensures _ _ _).mono (fun _ _ gives => gives) fun _ _ fails => fails.failsFor
  · next other =>
    exact ⟨.refl, fun ⟨value, radix, spelled⟩ => absurd spelled (other value radix)⟩

theorem booleanLiteral_ensures (token : Token) :
    Ensures (booleanLiteral token) before (Gives before.ast.exprs.size before)
      (FailsFor (∃ value, token.kind = .boolean value) before.ast.exprs.size before) := by
  rw [booleanLiteral]
  split
  · exact (addExpr_ensures_of_literal _ (.bool _) rfl (by simp)).mono (fun _ _ gives => gives)
      fun _ _ fails => fails.failsFor
  · next other => exact ⟨.refl, fun ⟨value, spelled⟩ => absurd spelled (other value)⟩

theorem floatLiteral_ensures (token : Token) :
    Ensures (floatLiteral token) before (Gives before.ast.exprs.size before)
      (FailsFor (∃ value, token.kind = .float value) before.ast.exprs.size before) := by
  rw [floatLiteral]
  split
  · exact (addExpr_ensures_of_literal _ (.float _) rfl (by simp)).mono (fun _ _ gives => gives)
      fun _ _ fails => fails.failsFor
  · next other => exact ⟨.refl, fun ⟨value, spelled⟩ => absurd spelled (other value)⟩

theorem characterLiteral_ensures (token : Token) :
    Ensures (characterLiteral token) before (Gives before.ast.exprs.size before)
      (FailsFor (∃ value, token.kind = .character value) before.ast.exprs.size before) := by
  rw [characterLiteral]
  split
  · split
    · exact (addExpr_ensures_of_literal _ (.char _) rfl (by simp)).mono (fun _ _ gives => gives)
        fun _ _ fails => fails.failsFor
    · exact ⟨.refl, fun _ => rfl⟩
  · next other => exact ⟨.refl, fun ⟨value, spelled⟩ => absurd spelled (other value)⟩

/-- String literals are always faults of the program. -/
theorem stringLiteral_ensures (token : Token) :
    Ensures (stringLiteral token) before (Gives before.ast.exprs.size before)
      (Fails before.ast.exprs.size before) :=
  ⟨.refl, rfl⟩

/-- Whether every name in scope is declared with a type, as all but the whole program are. -/
def NamesTyped (analysis : Analysis) : Prop :=
  ∀ name declaration, analysis.scopes.lookup name = some declaration →
    ∃ type, (analysis.ast.kindOf declaration).type? = some type

theorem Adds.namesTyped {first : Nat} {after : Analysis} (adds : Adds first before after)
    (typed : before.NamesTyped) : after.NamesTyped := by
  intro name declaration found
  rw [adds.scopes_eq] at found
  obtain ⟨type, declared⟩ := typed name declaration found
  exact ⟨type, adds.extends'.type?_eq declared⟩

/-- A name stands for a typed declaration, with its initializer if it is a constant. -/
theorem name_ensures (token : Token) :
    Ensures (Analysis.name token) before (Gives before.ast.exprs.size before)
      (FailsFor ((∃ name, token.kind = .identifier name) ∧ before.NamesTyped)
        before.ast.exprs.size before) := by
  rw [Analysis.name, ensures_bind]
  refine (nameOf_ensures token).mono ?_ ?_
  · rintro name before ⟨spelled, rfl⟩
    rw [ensures_bind, ensures_get]
    split
    · exact ⟨.refl, fun _ => rfl⟩
    · next declaration found =>
      rw [ensures_bind, ensures_decl]
      by_cases unusable : (before.ast.kindOf declaration).isConstant = true ∧
        (before.ast.kindOf declaration).initializer? = none
      · rw [← Ast.kindOf, if_pos unusable, ensures_bind]
        exact ⟨.refl, fun _ => rfl⟩
      rw [← Ast.kindOf, if_neg unusable]
      split
      · next untyped =>
        refine ⟨.refl, fun named => ?_⟩
        obtain ⟨type, declared⟩ := named.2 name declaration found
        rw [untyped] at declared
        cases declared
      · next type declared =>
        refine (addExpr_ensures _ le_rfl ?_ (by simp [ExprKind.operands]) ?_).mono
          (fun _ _ gives => gives.1) fun _ _ fails => fails.failsFor
        · by_cases isVariable : (before.ast.kindOf declaration).isVariable = true
          · rw [if_pos isVariable]
            exact .variable isVariable declared
          · rw [if_neg isVariable]
            refine .name (Bool.eq_false_iff.2 isVariable) declared fun isConstant => ?_
            have initialized : (before.ast.kindOf declaration).initializer? ≠ none :=
              fun missing => unusable ⟨isConstant, missing⟩
            exact Option.ne_none_iff_exists'.1 initialized
        · rintro other ⟨rfl⟩
          exact ⟨name, found⟩
  · rintro error _ ⟨unspelled, rfl, rfl⟩
    refine ⟨.refl, fun named => ?_⟩
    obtain ⟨name, spelled⟩ := named.1
    exact absurd spelled (unspelled name)

end Primary

end Minilang.Analysis
