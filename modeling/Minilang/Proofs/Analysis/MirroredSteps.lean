import Mathlib.Data.List.Nodup
import Minilang.Analysis.Statement
import Minilang.Proofs.Analysis.Expressions
import Minilang.Proofs.Analysis.Mirroring

/-!
# All steps of analysis are mirrored

Each step of analysis comes apart into looking at nodes and adding nodes, and both are mirrored.
-/

namespace Minilang.Analysis

variable {correspondence : Correspondence} {depth : Nat} {before : Analysis}

/-- An error at an expression that is about no name. -/
theorem mirrors_reject_at {α β : Type} {expr otherExpr : Expr} {error : SemanticError}
    {gives : Analysis → α → β → Prop} (exprs : correspondence.Exprs expr otherExpr)
    (nameless : error.name? = none) :
    Mirrors correspondence depth depth (reject expr.location error) (reject otherExpr.location error)
      before gives :=
  .reject (.nameless exprs.places nameless)

section Conversions

variable {id : ExprId} (bound : id.index < before.ast.exprs.size)

include bound

theorem convert_mirrors (conversion : Conversion) (type : Ty) :
    Mirrors correspondence depth depth (convert conversion id type)
      (convert conversion (correspondence.expr id) type) before correspondence.ExprIds := by
  refine (Mirrors.expr bound).bind ?_
  rintro _ expr other - ⟨rfl, exprs⟩
  exact .addExpr rfl type exprs.places

theorem rejectConversion_mirrors (target : Ty) :
    Mirrors correspondence depth depth (rejectConversion id target)
      (rejectConversion (correspondence.expr id) target) before correspondence.ExprIds := by
  refine (Mirrors.expr bound).bind ?_
  rintro _ expr other - ⟨rfl, exprs⟩
  rw [exprs.type_eq]
  exact mirrors_reject_at exprs rfl

theorem load_mirrors :
    Mirrors correspondence depth depth (load id) (load (correspondence.expr id)) before
      correspondence.ExprIds := by
  refine (Mirrors.expr bound).bind ?_
  rintro _ expr other - ⟨rfl, exprs⟩
  rw [exprs.type_eq]
  cases expr.type with
  | reference object => exact convert_mirrors bound .load object
  | _ => exact .pure ⟨bound, rfl⟩

theorem requireReference_mirrors :
    Mirrors correspondence depth depth (requireReference id)
      (requireReference (correspondence.expr id)) before correspondence.ExprIds := by
  refine (Mirrors.expr bound).bind ?_
  rintro _ expr other - ⟨rfl, exprs⟩
  rw [exprs.type_eq]
  exact .ite Iff.rfl (fun _ => .pure ⟨bound, rfl⟩) fun _ => mirrors_reject_at exprs rfl

theorem requireCategory_mirrors (category : Category) :
    Mirrors correspondence depth depth (requireCategory category id)
      (requireCategory category (correspondence.expr id)) before correspondence.ExprIds := by
  refine (load_mirrors bound).bind ?_
  rintro middle value _ - ⟨value_lt, rfl⟩
  refine (Mirrors.expr value_lt).bind ?_
  rintro _ expr other - ⟨rfl, exprs⟩
  rw [exprs.type_eq]
  exact .ite Iff.rfl (fun _ => .pure ⟨value_lt, rfl⟩) fun _ => mirrors_reject_at exprs rfl

theorem requireSame_mirrors (expected : Ty) :
    Mirrors correspondence depth depth (requireSame expected id)
      (requireSame expected (correspondence.expr id)) before fun after _ _ => after = before := by
  refine (Mirrors.expr bound).bind ?_
  rintro _ expr other - ⟨rfl, exprs⟩
  rw [exprs.type_eq]
  exact .ite Iff.rfl (fun _ => .pure rfl) fun _ => mirrors_reject_at exprs rfl

theorem convertToBasic_mirrors (target : BasicType) :
    Mirrors correspondence depth depth (convertToBasic target id)
      (convertToBasic target (correspondence.expr id)) before correspondence.ExprIds := by
  refine (load_mirrors bound).bind ?_
  rintro middle value _ - ⟨value_lt, rfl⟩
  refine (Mirrors.expr value_lt).bind ?_
  rintro _ expr other - ⟨rfl, exprs⟩
  rw [exprs.type_eq]
  refine .ite Iff.rfl (fun _ => .pure ⟨value_lt, rfl⟩) fun _ => ?_
  cases Conversion.between? expr.type target with
  | some conversion => exact convert_mirrors value_lt conversion (Ty.ofBasic target)
  | none => exact rejectConversion_mirrors value_lt (Ty.ofBasic target)

theorem convertTo_mirrors (type : Ty) :
    Mirrors correspondence depth depth (convertTo id type)
      (convertTo (correspondence.expr id) type) before correspondence.ExprIds := by
  have behind {middle : Analysis} {operand : ExprId}
      (operand_lt : operand.index < middle.ast.exprs.size) :
      Mirrors correspondence depth depth (convertOperand type operand)
        (convertOperand type (correspondence.expr operand)) middle correspondence.ExprIds := by
    refine (Mirrors.expr operand_lt).bind ?_
    rintro _ expr other - ⟨rfl, exprs⟩
    rw [exprs.type_eq]
    refine .ite Iff.rfl (fun _ => .pure ⟨operand_lt, rfl⟩) fun _ => ?_
    cases type.basic? with
    | some basic => exact convertToBasic_mirrors operand_lt basic
    | none => exact rejectConversion_mirrors operand_lt type
  rw [convertTo_eq, convertTo_eq]
  refine .ite Iff.rfl (fun _ => ?_) fun _ => behind bound
  refine (load_mirrors bound).bind ?_
  rintro middle operand _ - ⟨operand_lt, rfl⟩
  exact behind operand_lt

end Conversions

section Operators

variable {token other : Token} (tokens : correspondence.Tokens token other)

theorem refuseToken_mirrors {α β : Type} (token other : Token) {gives : Analysis → α → β → Prop} :
    Mirrors correspondence depth depth (refuseToken token) (refuseToken other) before gives :=
  .refuse _ _

include tokens

theorem addBinary_mirrors (operator : BinaryOperator) (left right : ExprId) (type : Ty) :
    Mirrors correspondence depth depth (addBinary token operator left right type)
      (addBinary other operator (correspondence.expr left) (correspondence.expr right) type) before
      correspondence.ExprIds :=
  .addExpr rfl type tokens.places

variable {left right : ExprId} (left_lt : left.index < before.ast.exprs.size)
  (right_lt : right.index < before.ast.exprs.size)

include left_lt right_lt

theorem logical_mirrors (operator : BinaryOperator) :
    Mirrors correspondence depth depth (logical operator token left right)
      (logical operator other (correspondence.expr left) (correspondence.expr right)) before
      correspondence.ExprIds := by
  refine (requireCategory_mirrors left_lt .boolean).bind ?_
  rintro middle leftValue _ precedes ⟨-, rfl⟩
  refine (requireCategory_mirrors (right_lt.trans_le precedes.exprs_le) .boolean).bind ?_
  rintro after rightValue _ - ⟨-, rfl⟩
  exact addBinary_mirrors tokens operator leftValue rightValue .bool

theorem bitwise_mirrors (operator : BinaryOperator) :
    Mirrors correspondence depth depth (bitwise operator token left right)
      (bitwise operator other (correspondence.expr left) (correspondence.expr right)) before
      correspondence.ExprIds := by
  refine (requireCategory_mirrors left_lt .integer).bind ?_
  rintro middle leftValue _ precedes ⟨-, rfl⟩
  refine (requireCategory_mirrors (right_lt.trans_le precedes.exprs_le) .integer).bind ?_
  rintro after rightValue _ - ⟨-, rfl⟩
  exact addBinary_mirrors tokens operator leftValue rightValue .int

omit tokens in
theorem requireAlike_mirrors (category : Category) :
    Mirrors correspondence depth depth (requireAlike category left right)
      (requireAlike category (correspondence.expr left) (correspondence.expr right)) before
      fun _ result otherResult => otherResult =
        (correspondence.expr result.1, correspondence.expr result.2.1, result.2.2) := by
  refine (requireCategory_mirrors left_lt category).bind ?_
  rintro middle leftValue _ precedes ⟨value_lt, rfl⟩
  refine (requireCategory_mirrors (right_lt.trans_le precedes.exprs_le) category).bind ?_
  rintro after rightValue _ later ⟨right_lt, rfl⟩
  refine (Mirrors.expr (value_lt.trans_le later.exprs_le)).bind ?_
  rintro _ expr other - ⟨rfl, exprs⟩
  rw [exprs.type_eq]
  refine (requireSame_mirrors right_lt expr.type).bind ?_
  rintro _ _ _ - rfl
  exact .pure rfl

theorem arithmetic_mirrors (operator : BinaryOperator) :
    Mirrors correspondence depth depth (arithmetic operator token left right)
      (arithmetic operator other (correspondence.expr left) (correspondence.expr right)) before
      correspondence.ExprIds := by
  refine (requireAlike_mirrors left_lt right_lt .arithmetic).bind ?_
  rintro middle ⟨leftValue, rightValue, type⟩ _ - rfl
  exact addBinary_mirrors tokens operator leftValue rightValue type

theorem comparison_mirrors (category : Category) :
    Mirrors correspondence depth depth (comparison category token left right)
      (comparison category other (correspondence.expr left) (correspondence.expr right)) before
      correspondence.ExprIds := by
  have compare (operator : BinaryOperator) :
      Mirrors correspondence depth depth (compare category operator token left right)
        (compare category operator other (correspondence.expr left) (correspondence.expr right))
        before correspondence.ExprIds := by
    refine (requireAlike_mirrors left_lt right_lt category).bind ?_
    rintro middle ⟨leftValue, rightValue, type⟩ _ - rfl
    exact addBinary_mirrors tokens operator leftValue rightValue .bool
  obtain ⟨kind, location⟩ := token
  obtain ⟨_, otherLocation⟩ := other
  obtain ⟨⟨-, rfl⟩, places⟩ := tokens
  cases kind with
  | relational operator => cases operator <;> exact compare _
  | _ => exact .refuse_bind _ _

theorem combine_mirrors (level : OperatorLevel) :
    Mirrors correspondence depth depth (level.combine token left right)
      (level.combine other (correspondence.expr left) (correspondence.expr right)) before
      correspondence.ExprIds := by
  cases level with
  | logicalOr | logicalAnd => exact logical_mirrors tokens left_lt right_lt _
  | bitwiseOr | bitwiseXor | bitwiseAnd => exact bitwise_mirrors tokens left_lt right_lt _
  | equality | relational => exact comparison_mirrors tokens left_lt right_lt _
  | shift =>
      have combine (operator : BinaryOperator) :
          Mirrors correspondence depth depth (bitwise operator token left right)
            (bitwise operator other (correspondence.expr left) (correspondence.expr right)) before
            correspondence.ExprIds :=
        bitwise_mirrors tokens left_lt right_lt operator
      obtain ⟨kind, location⟩ := token
      obtain ⟨_, otherLocation⟩ := other
      obtain ⟨⟨-, rfl⟩, places⟩ := tokens
      cases kind with
      | bitwise operator => cases operator <;> first | exact combine _ | exact refuseToken_mirrors _ _
      | _ => exact refuseToken_mirrors _ _
  | additive | multiplicative =>
      have combine (operator : BinaryOperator) :
          Mirrors correspondence depth depth (arithmetic operator token left right)
            (arithmetic operator other (correspondence.expr left) (correspondence.expr right)) before
            correspondence.ExprIds :=
        arithmetic_mirrors tokens left_lt right_lt operator
      obtain ⟨kind, location⟩ := token
      obtain ⟨_, otherLocation⟩ := other
      obtain ⟨⟨-, rfl⟩, places⟩ := tokens
      cases kind with
      | arithmetic operator =>
          cases operator <;> first | exact combine _ | exact refuseToken_mirrors _ _
      | _ => exact refuseToken_mirrors _ _

end Operators

section Forms

theorem assignment_mirrors {target value : ExprId} (target_lt : target.index < before.ast.exprs.size)
    (value_lt : value.index < before.ast.exprs.size) :
    Mirrors correspondence depth depth (assignment target value)
      (assignment (correspondence.expr target) (correspondence.expr value)) before
      correspondence.ExprIds := by
  refine (requireReference_mirrors target_lt).bind ?_
  rintro middle target _ precedes ⟨target_lt, rfl⟩
  refine (load_mirrors (value_lt.trans_le precedes.exprs_le)).bind ?_
  rintro loaded value _ later ⟨value_lt, rfl⟩
  refine (Mirrors.expr (target_lt.trans_le later.exprs_le)).bind ?_
  rintro _ expr other - ⟨rfl, exprs⟩
  rw [exprs.type_eq]
  refine (requireSame_mirrors value_lt _).bind ?_
  rintro _ _ _ - rfl
  exact .addExpr rfl _ exprs.places

theorem commonType_mirrors (left right : Ty) {location other : Location}
    (places : correspondence.places location other) :
    Mirrors correspondence depth depth (commonType left right location)
      (commonType left right other) before fun after type otherType =>
        after = before ∧ otherType = type := by
  rw [commonType, commonType]
  cases left.common? right with
  | some type => exact .pure ⟨rfl, rfl⟩
  | none => exact .reject (.nameless places rfl)

theorem conditional_mirrors {guard whenTrue whenFalse : ExprId}
    (guard_lt : guard.index < before.ast.exprs.size)
    (true_lt : whenTrue.index < before.ast.exprs.size)
    (false_lt : whenFalse.index < before.ast.exprs.size) :
    Mirrors correspondence depth depth (conditional guard whenTrue whenFalse)
      (conditional (correspondence.expr guard) (correspondence.expr whenTrue)
        (correspondence.expr whenFalse)) before correspondence.ExprIds := by
  refine (requireCategory_mirrors guard_lt .boolean).bind ?_
  rintro middle guard _ precedes ⟨guard_lt, rfl⟩
  replace true_lt := true_lt.trans_le precedes.exprs_le
  replace false_lt := false_lt.trans_le precedes.exprs_le
  refine (Mirrors.expr guard_lt).bind ?_
  rintro _ guardExpr otherGuard - ⟨rfl, guardExprs⟩
  refine (Mirrors.expr true_lt).bind ?_
  rintro _ trueExpr otherTrue - ⟨rfl, trueExprs⟩
  refine (Mirrors.expr false_lt).bind ?_
  rintro _ falseExpr otherFalse - ⟨rfl, falseExprs⟩
  rw [trueExprs.type_eq, falseExprs.type_eq]
  refine (commonType_mirrors _ _ guardExprs.places).bind ?_
  rintro _ _ type - ⟨rfl, rfl⟩
  refine (convertTo_mirrors true_lt type).bind ?_
  rintro afterTrue whenTrue _ precedesTrue ⟨-, rfl⟩
  refine (convertTo_mirrors (false_lt.trans_le precedesTrue.exprs_le) type).bind ?_
  rintro afterFalse whenFalse _ - ⟨-, rfl⟩
  exact .addExpr rfl type guardExprs.places

theorem cast_mirrors {operand : ExprId} (bound : operand.index < before.ast.exprs.size) (type : Ty) :
    Mirrors correspondence depth depth (cast operand type)
      (cast (correspondence.expr operand) type) before correspondence.ExprIds := by
  refine (Mirrors.expr bound).bind ?_
  rintro _ expr other - ⟨rfl, exprs⟩
  refine (convertTo_mirrors bound type).bind ?_
  rintro after operand _ - ⟨-, rfl⟩
  exact .addExpr rfl type exprs.places

theorem negation_mirrors {token other : Token} (tokens : correspondence.Tokens token other)
    {operand : ExprId} (bound : operand.index < before.ast.exprs.size) :
    Mirrors correspondence depth depth (negation token operand)
      (negation other (correspondence.expr operand)) before correspondence.ExprIds := by
  refine (requireCategory_mirrors bound .arithmetic).bind ?_
  rintro middle operand _ - ⟨operand_lt, rfl⟩
  refine (Mirrors.expr operand_lt).bind ?_
  rintro _ expr other - ⟨rfl, exprs⟩
  rw [exprs.type_eq]
  have zero_eq : zeroOf expr.type = correspondence.exprKind (zeroOf expr.type) := by
    cases expr.type <;> rfl
  refine (Mirrors.addExpr zero_eq expr.type tokens.places).bind ?_
  rintro after zero _ - ⟨-, rfl⟩
  exact addBinary_mirrors tokens .sub zero operand expr.type

theorem unary_mirrors {token other : Token} (tokens : correspondence.Tokens token other)
    {operand : ExprId} (bound : operand.index < before.ast.exprs.size) :
    Mirrors correspondence depth depth (unary token operand)
      (unary other (correspondence.expr operand)) before correspondence.ExprIds := by
  have negated : Mirrors correspondence depth depth (negation token operand)
      (negation other (correspondence.expr operand)) before correspondence.ExprIds :=
    negation_mirrors tokens bound
  obtain ⟨kind, location⟩ := token
  obtain ⟨_, otherLocation⟩ := other
  obtain ⟨⟨-, rfl⟩, places⟩ := tokens
  have adds (operator : UnaryOperator) (category : Category) (type : Ty) :
      Mirrors correspondence depth depth (do
          let operand ← requireCategory category operand
          addExpr (.unary operator operand) type location)
        (do
          let operand ← requireCategory category (correspondence.expr operand)
          addExpr (.unary operator operand) type otherLocation) before correspondence.ExprIds := by
    refine (requireCategory_mirrors bound category).bind ?_
    rintro middle operand _ - ⟨-, rfl⟩
    exact .addExpr rfl type places
  cases kind with
  | arithmetic operator =>
      cases operator with
      | add => exact requireCategory_mirrors bound .arithmetic
      | sub => exact negated
      | mul => exact .reject (.nameless places rfl)
      | div | mod => exact refuseToken_mirrors _ _
  | bitwise operator =>
      cases operator with
      | not => exact adds .bitNot .integer .int
      | and => exact .reject (.nameless places rfl)
      | or | xor | shl | shr => exact refuseToken_mirrors _ _
  | logical operator =>
      cases operator with
      | not => exact adds .logicalNot .boolean .bool
      | and | or => exact refuseToken_mirrors _ _
  | _ => exact refuseToken_mirrors _ _

theorem convertArguments_mirrors {arguments : List ExprId} {parameters : List Ty} (position : Nat)
    (arguments_lt : ∀ argument ∈ arguments, argument.index < before.ast.exprs.size) :
    Mirrors correspondence depth depth (convertArguments position arguments parameters)
      (convertArguments position (arguments.map correspondence.expr) parameters) before
      fun _ values others => others = values.map correspondence.expr := by
  induction arguments generalizing position parameters before with
  | nil => cases parameters <;> exact .pure rfl
  | cons argument arguments induction =>
      rw [List.forall_mem_cons] at arguments_lt
      cases parameters with
      | nil => exact .pure rfl
      | cons parameter parameters =>
          refine (load_mirrors arguments_lt.1).bind ?_
          rintro middle value _ precedes ⟨value_lt, rfl⟩
          refine (Mirrors.expr value_lt).bind ?_
          rintro _ expr other - ⟨rfl, exprs⟩
          rw [exprs.type_eq]
          refine .ite Iff.rfl (fun _ => .reject_bind (.nameless exprs.places rfl)) fun _ => ?_
          refine (induction (position + 1) fun other member =>
            (arguments_lt.2 other member).trans_le precedes.exprs_le).bind ?_
          rintro after rest _ - rfl
          exact .pure rfl

theorem call_mirrors {callee : ExprId} {arguments : List ExprId}
    (callee_lt : callee.index < before.ast.exprs.size)
    (arguments_lt : ∀ argument ∈ arguments, argument.index < before.ast.exprs.size) :
    Mirrors correspondence depth depth (call callee arguments)
      (call (correspondence.expr callee) (arguments.map correspondence.expr)) before
      correspondence.ExprIds := by
  refine (requireCategory_mirrors callee_lt .function).bind ?_
  rintro middle callee _ precedes ⟨callee_lt, rfl⟩
  refine (Mirrors.expr callee_lt).bind ?_
  rintro _ expr other - ⟨rfl, exprs⟩
  rw [exprs.type_eq, List.length_map]
  cases expr.type with
  | function result parameters =>
      refine .ite Iff.rfl (fun _ => .reject_bind (.nameless exprs.places rfl)) fun _ => ?_
      refine .ite Iff.rfl (fun _ => .reject_bind (.nameless exprs.places rfl)) fun _ => ?_
      refine (convertArguments_mirrors 1 fun argument member =>
        (arguments_lt argument member).trans_le precedes.exprs_le).bind ?_
      rintro after values _ - rfl
      exact .addExpr rfl result exprs.places
  | _ => exact .refuse _ _

theorem index_mirrors {base : ExprId} (base_lt : base.index < before.ast.exprs.size)
    (arguments others : List ExprId) :
    Mirrors correspondence depth depth (index base arguments)
      (index (correspondence.expr base) others) before correspondence.ExprIds := by
  refine (Mirrors.expr base_lt).bind ?_
  rintro _ expr other - ⟨rfl, exprs⟩
  exact mirrors_reject_at exprs rfl

end Forms

section Primary

theorem addInteger_mirrors (value : Int64) {checkedAt otherChecked location other : Location}
    (checks : correspondence.places checkedAt otherChecked)
    (places : correspondence.places location other) :
    Mirrors correspondence depth depth (addInteger value checkedAt location)
      (addInteger value otherChecked other) before correspondence.ExprIds :=
  .ite Iff.rfl (fun _ => .addExpr rfl .int places) fun _ => .reject (.nameless checks rfl)

variable {token other : Token} (tokens : correspondence.Tokens token other)

include tokens

theorem integerLiteral_mirrors :
    Mirrors correspondence depth depth (integerLiteral token) (integerLiteral other) before
      correspondence.ExprIds := by
  obtain ⟨kind, location⟩ := token
  obtain ⟨_, otherLocation⟩ := other
  obtain ⟨⟨-, rfl⟩, places⟩ := tokens
  cases kind with
  | integer value radix => exact addInteger_mirrors value places places
  | _ => exact refuseToken_mirrors _ _

theorem negatedIntegerLiteral_mirrors {sign otherSign : Token}
    (signs : correspondence.Tokens sign otherSign) :
    Mirrors correspondence depth depth (negatedIntegerLiteral sign token)
      (negatedIntegerLiteral otherSign other) before correspondence.ExprIds := by
  obtain ⟨kind, location⟩ := token
  obtain ⟨_, otherLocation⟩ := other
  obtain ⟨⟨-, rfl⟩, places⟩ := tokens
  cases kind with
  | integer value radix => exact addInteger_mirrors (-value) places signs.places
  | _ => exact refuseToken_mirrors _ _

theorem booleanLiteral_mirrors :
    Mirrors correspondence depth depth (booleanLiteral token) (booleanLiteral other) before
      correspondence.ExprIds := by
  obtain ⟨kind, location⟩ := token
  obtain ⟨_, otherLocation⟩ := other
  obtain ⟨⟨-, rfl⟩, places⟩ := tokens
  cases kind with
  | boolean value => exact .addExpr rfl .bool places
  | _ => exact refuseToken_mirrors _ _

theorem floatLiteral_mirrors :
    Mirrors correspondence depth depth (floatLiteral token) (floatLiteral other) before
      correspondence.ExprIds := by
  obtain ⟨kind, location⟩ := token
  obtain ⟨_, otherLocation⟩ := other
  obtain ⟨⟨-, rfl⟩, places⟩ := tokens
  cases kind with
  | float value => exact .addExpr rfl .float places
  | _ => exact refuseToken_mirrors _ _

theorem characterLiteral_mirrors :
    Mirrors correspondence depth depth (characterLiteral token) (characterLiteral other) before
      correspondence.ExprIds := by
  obtain ⟨kind, location⟩ := token
  obtain ⟨_, otherLocation⟩ := other
  obtain ⟨⟨-, rfl⟩, places⟩ := tokens
  cases kind with
  | character value =>
      exact .ite Iff.rfl (fun _ => .addExpr rfl .char places)
        fun _ => .reject (.nameless places rfl)
  | _ => exact refuseToken_mirrors _ _

theorem stringLiteral_mirrors :
    Mirrors correspondence depth depth (stringLiteral token) (stringLiteral other) before
      correspondence.ExprIds :=
  .reject (.nameless tokens.places rfl)

theorem nameOf_mirrors :
    Mirrors correspondence depth depth (nameOf token) (nameOf other) before
      fun after name otherName => after = before ∧ token.kind = .identifier name ∧
        correspondence.Names name otherName := by
  obtain ⟨kind, location⟩ := token
  obtain ⟨_, otherLocation⟩ := other
  obtain ⟨⟨named, rfl⟩, places⟩ := tokens
  cases kind with
  | identifier name => exact .pure ⟨rfl, rfl, named name rfl, rfl⟩
  | _ => exact .refuse _ _

/-- A name means the same. Without a meaning it may have one only where names were bound before. -/
theorem name_mirrors (inside : 0 < depth) :
    Mirrors correspondence depth depth (name token) (name other) before
      correspondence.ExprIds := by
  refine (nameOf_mirrors tokens).bind ?_
  rintro _ name otherName - ⟨rfl, -, names⟩
  refine Mirrors.get.bind ?_
  rintro _ analysis other' - ⟨rfl, rfl, analyses⟩
  have some_frame : analysis.scopes.frames ≠ [] := by
    rw [← List.length_pos_iff]
    exact inside.trans_eq analyses.depth_eq.symm
  have found : other'.scopes.lookup otherName =
      ((analysis.scopes.lookup name).map correspondence.decl).or
        (correspondence.bound.lookup otherName) := analyses.frames.lookup names some_frame
  cases meaning : analysis.scopes.lookup name with
  | none =>
      rw [meaning] at found
      intro otherState _
      dsimp only
      rw [ensures_reject]
      intro exact'
      have unbound : other'.scopes.lookup otherName = none := by
        rw [found, exact'.2]
        rfl
      rw [unbound]
      exact .of_name tokens.places names (fun _ => rfl) fun _ _ => rfl
  | some id =>
      rw [meaning] at found
      rw [found]
      refine (Mirrors.kindOf id).bind ?_
      rintro state decl otherDecl - ⟨rfl, -, kind_eq⟩
      rw [kind_eq, Correspondence.isConstant_declKind, Correspondence.isVariable_declKind,
        Correspondence.initializer?_declKind, Correspondence.type?_declKind]
      have undefined : decl.kind.initializer?.map correspondence.expr = none ↔
          decl.kind.initializer? = none := Option.map_eq_none_iff
      refine .ite (and_congr_right fun _ => undefined) (fun _ => .reject_bind ?_) fun _ => ?_
      · exact .of_name tokens.places names (fun _ => rfl) fun _ _ => rfl
      · cases decl.kind.type? with
        | none => exact .refuse _ _
        | some type => exact .addExpr rfl _ tokens.places

end Primary

section Scopes

/-- The scope of the whole program is opened on both sides only where nothing is bound before. -/
theorem enterGlobalScope_mirrors (unbound : correspondence.bound = []) :
    Mirrors correspondence depth (depth + 1) enterGlobalScope enterGlobalScope before
      fun _ _ _ => True := by
  refine Mirrors.get.bind ?_
  rintro _ analysis other - ⟨rfl, rfl, analyses⟩
  have depth_eq : other.scopes.depth = analysis.scopes.depth := analyses.frames.length_eq
  refine .ite (by rw [depth_eq]) (fun _ => .refuse_bind _ _) fun _ => ?_
  exact (Mirrors.setScopes (analyses.frames.push .global (.inr unbound))
    (congrArg (· + 1) analyses.depth_eq)).mono fun _ _ _ _ _ => trivial

/-- A scope is opened inside of another one on both sides. -/
theorem enterScope_mirrors (kind : ScopeKind) (inside : 0 < depth) :
    Mirrors correspondence depth (depth + 1)
      (do setScopes ((← get).scopes.push kind)) (do setScopes ((← get).scopes.push kind)) before
      fun after _ _ => after.ast = before.ast := by
  refine Mirrors.get.bind ?_
  rintro _ analysis other - ⟨rfl, rfl, analyses⟩
  have some_frame : analysis.scopes.frames ≠ [] := by
    rw [← List.length_pos_iff]
    exact inside.trans_eq analyses.depth_eq.symm
  exact .setScopes (analyses.frames.push kind (.inl some_frame))
    (congrArg (· + 1) analyses.depth_eq)

theorem leaveScope_mirrors :
    Mirrors correspondence (depth + 1) depth leaveScope leaveScope before
      fun after _ _ => after.ast = before.ast := by
  refine Mirrors.get.bind ?_
  rintro _ analysis other - ⟨rfl, rfl, analyses⟩
  have frames := analyses.frames
  have length_eq := frames.length_eq
  have depth_eq : analysis.scopes.frames.length = depth + 1 := analyses.depth_eq
  rw [ScopeChain.pop?, ScopeChain.pop?]
  cases own : analysis.scopes.frames with
  | nil =>
      rw [own] at depth_eq
      cases depth_eq
  | cons frame outer =>
      cases others : other.scopes.frames with
      | nil =>
          rw [own, others] at length_eq
          cases length_eq
      | cons otherFrame otherOuter =>
          rw [own, others] at frames
          rw [own] at depth_eq
          exact .setScopes frames.tail (Nat.succ.inj depth_eq)

/-- A name is declared in both innermost scopes, unless it was bound in the outermost one before. -/
theorem declare_mirrors {id : DeclId} (bound : id.index < before.ast.decls.size)
    (free : 2 ≤ depth ∨
      correspondence.bound.lookup (correspondence.rename (before.ast.decl id).name) = none) :
    Mirrors correspondence depth depth (declare id) (declare (correspondence.decl id)) before
      fun after _ _ => after.ast = before.ast := by
  refine (Mirrors.decl bound).bind ?_
  rintro _ decl otherDecl - ⟨rfl, rfl, decls⟩
  refine Mirrors.get.bind ?_
  rintro _ analysis other - ⟨rfl, rfl, analyses⟩
  obtain ⟨declares, rejects⟩ := analyses.frames.declare decls.names id (by
    rw [decls.names.2]
    exact free.imp_left fun deep => deep.trans_eq analyses.depth_eq.symm)
  cases declared : analysis.scopes.declare (analysis.ast.decl id).name id with
  | ok scopes =>
      obtain ⟨otherScopes, otherDeclared, frames, length_eq⟩ := declares scopes declared
      rw [otherDeclared]
      exact .setScopes frames (length_eq.trans analyses.depth_eq)
  | error existing =>
      obtain ⟨otherExisting, otherDeclared⟩ := rejects existing declared
      rw [otherDeclared]
      exact .reject (.of_name decls.places decls.names (fun _ => rfl) fun _ _ => rfl)

end Scopes

section Declarations

variable {token other : Token} (tokens : correspondence.Tokens token other)

/-- The name of a token may be declared on both sides: it was not bound in the outermost scope before,
unless that is not the innermost one. -/
def Free (correspondence : Correspondence) (depth : Nat) (token : Token) : Prop :=
  2 ≤ depth ∨ ∀ name, token.kind = .identifier name →
    correspondence.bound.lookup (correspondence.rename name) = none

variable (free : Free correspondence depth token)

include tokens free

theorem declareNew_mirrors {kind otherKind : DeclKind}
    (kind_eq : otherKind = correspondence.declKind kind)
    (parameter_lt : ∀ parameter ∈ kind.parameters, parameter.index < before.ast.decls.size) :
    Mirrors correspondence depth depth (declareNew token kind) (declareNew other otherKind) before
      correspondence.DeclIds := by
  refine (nameOf_mirrors tokens).bind ?_
  rintro _ name otherName - ⟨rfl, spelled, names⟩
  refine (Mirrors.addDecl names tokens.places kind_eq parameter_lt).bind ?_
  rintro added id _ - ⟨⟨bound, rfl⟩, declared⟩
  refine (declare_mirrors bound ?_).bind ?_
  · rw [declared]
    exact free.imp_right fun unbound => unbound name spelled
  · rintro after _ _ - same
    exact .pure ⟨same ▸ bound, rfl⟩

theorem declareObject_mirrors (kind : ObjectKind) (type : Ty) :
    Mirrors correspondence depth depth (declareObject kind token type)
      (declareObject kind other type) before correspondence.DeclIds :=
  declareNew_mirrors tokens free rfl (List.forall_mem_nil _)

theorem declareParameter_mirrors (type : Ty) :
    Mirrors correspondence depth depth (declareParameter token type)
      (declareParameter other type) before correspondence.DeclIds :=
  declareNew_mirrors tokens free rfl (List.forall_mem_nil _)

omit tokens free in
/-- Declarations have the same types on both sides. -/
theorem typesOf_mirrored {other : Analysis} (analyses : correspondence.Analyses depth before other)
    (parameters : List DeclId) :
    ((parameters.map correspondence.decl).filterMap fun parameter =>
        (other.ast.decl parameter).kind.type?) =
      parameters.filterMap fun parameter => (before.ast.decl parameter).kind.type? := by
  rw [List.filterMap_map]
  refine List.filterMap_congr fun parameter _ => ?_
  have kind_eq := analyses.asts.kindOf_eq parameter
  rw [Ast.kindOf, Ast.kindOf] at kind_eq
  rw [Function.comp_apply, kind_eq, Correspondence.type?_declKind]

theorem declareFunction_mirrors {parameters : List DeclId}
    (parameter_lt : ∀ parameter ∈ parameters, parameter.index < before.ast.decls.size)
    (result : Ty) :
    Mirrors correspondence depth depth (declareFunction token parameters result)
      (declareFunction other (parameters.map correspondence.decl) result) before
      correspondence.DeclIds := by
  refine (nameOf_mirrors tokens).bind ?_
  rintro _ name otherName - ⟨rfl, spelled, names⟩
  refine Mirrors.get.bind ?_
  rintro _ analysis other' - ⟨rfl, rfl, analyses⟩
  rw [typesOf_mirrored analyses, analyses.function_eq]
  refine .ite (by rw [Option.isSome_map]) (fun _ => .reject_bind ?_) fun _ => ?_
  · exact .of_name tokens.places names (fun _ => rfl) fun _ _ => rfl
  have kind_eq (type : Ty) : DeclKind.function type (parameters.map correspondence.decl) none =
      correspondence.declKind (.function type parameters none) := rfl
  refine (Mirrors.addDecl names tokens.places (kind_eq _) parameter_lt).bind ?_
  rintro added id _ - ⟨⟨bound, rfl⟩, declared⟩
  refine (declare_mirrors bound ?_).bind ?_
  · rw [declared]
    exact free.imp_right fun unbound => unbound name spelled
  · rintro after _ _ - same
    refine (Mirrors.setFunction (some id)).bind ?_
    rintro last _ _ - lastSame
    exact .pure ⟨lastSame ▸ same ▸ bound, rfl⟩

end Declarations

section Definitions

/-- Whether an expression is constant is told alike with the same fuel. -/
theorem isConstantWithin_mirrored {ast other : Ast} (asts : correspondence.Asts ast other)
    (fuel : Nat) (id : ExprId) :
    other.isConstantWithin fuel (correspondence.expr id) = ast.isConstantWithin fuel id := by
  induction fuel generalizing id with
  | zero => rfl
  | succ fuel induction =>
      rw [Ast.isConstantWithin, Ast.isConstantWithin, asts.exprKind_eq]
      cases (ast.expr id).kind with
      | name declaration =>
          have kind_eq := asts.kindOf_eq declaration
          rw [Ast.kindOf, Ast.kindOf] at kind_eq
          simp only [Correspondence.exprKind, kind_eq, Correspondence.isConstant_declKind,
            Correspondence.isFunction_declKind]
      | convert conversion operand => cases conversion <;> first | rfl | exact induction operand
      | unary operator operand | cast operand => exact induction operand
      | binary operator left right =>
          simp only [Correspondence.exprKind, induction]
      | conditional guard whenTrue whenFalse =>
          simp only [Correspondence.exprKind, induction]
      | bool | int | float | char | call | index | assign => rfl

/-- An expression that is constant as far as the fuel goes is constant. -/
theorem isConstantWithin_mono {ast : Ast} {fuel more : Nat} (fuel_le : fuel ≤ more) {id : ExprId}
    (constant : ast.isConstantWithin fuel id = true) : ast.isConstantWithin more id = true := by
  induction fuel generalizing id more with
  | zero => cases constant
  | succ fuel induction =>
      obtain ⟨more, rfl⟩ := Nat.exists_eq_succ_of_ne_zero (Nat.ne_zero_of_lt fuel_le)
      replace induction {id : ExprId} := @induction more (Nat.le_of_succ_le_succ fuel_le) id
      rw [Ast.isConstantWithin] at constant ⊢
      cases kind_eq : (ast.expr id).kind with
      | name declaration => rwa [kind_eq] at constant
      | convert conversion operand =>
          rw [kind_eq] at constant
          cases conversion <;> first | exact constant | exact induction constant
      | unary operator operand | cast operand =>
          rw [kind_eq] at constant
          exact induction constant
      | binary operator left right =>
          rw [kind_eq, Bool.and_eq_true] at constant
          rw [Bool.and_eq_true]
          exact constant.imp induction induction
      | conditional guard whenTrue whenFalse =>
          rw [kind_eq, Bool.and_eq_true, Bool.and_eq_true] at constant
          rw [Bool.and_eq_true, Bool.and_eq_true]
          exact constant.imp (And.imp induction induction) induction
      | bool | int | float | char => rfl
      | call | index | assign => simp [kind_eq] at constant

/-- What is constant is constant on the other side, and if nothing was there before also the other way
around. -/
theorem isConstant_mirrored {ast other : Ast} (asts : correspondence.Asts ast other)
    (id : ExprId) :
    (ast.isConstant id = true → other.isConstant (correspondence.expr id) = true) ∧
      (correspondence.Exact → other.isConstant (correspondence.expr id) = ast.isConstant id) := by
  have same := isConstantWithin_mirrored asts ast.exprs.size id
  rw [Ast.isConstant, Ast.isConstant, asts.exprs_size]
  refine ⟨fun constant => ?_, fun exact' => ?_⟩
  · exact isConstantWithin_mono (Nat.le_add_left _ _) (same.trans constant)
  · rw [exact'.1, Nat.zero_add]
    exact same

theorem currentKind?_mirrored {other : Analysis}
    (analyses : correspondence.Analyses depth before other) :
    other.scopes.currentKind? = before.scopes.currentKind? := by
  have kinds_eq := congrArg List.head? analyses.frames.kinds_eq
  rwa [List.head?_map, List.head?_map] at kinds_eq

theorem parentKind?_mirrored {other : Analysis}
    (analyses : correspondence.Analyses depth before other) :
    other.scopes.parentKind? = before.scopes.parentKind? := by
  have kinds_eq := congrArg (fun kinds => kinds.tail.head?) analyses.frames.kinds_eq
  rwa [← List.map_tail, ← List.map_tail, List.head?_map, List.head?_map] at kinds_eq

theorem defineObject_mirrors {id : DeclId} (declared : id.index < before.ast.decls.size)
    {initializer : ExprId} (bound : initializer.index < before.ast.exprs.size) :
    Mirrors correspondence depth depth (defineObject id initializer)
      (defineObject (correspondence.decl id) (correspondence.expr initializer)) before
      correspondence.DeclIds := by
  refine (load_mirrors bound).bind ?_
  rintro middle value _ precedes ⟨value_lt, rfl⟩
  replace declared := declared.trans_le precedes.decls_le
  refine (Mirrors.decl declared).bind ?_
  rintro _ decl otherDecl - ⟨rfl, -, decls⟩
  rw [decls.kind_eq, Correspondence.type?_declKind, Correspondence.isConstant_declKind]
  cases decl.kind.type? with
  | none => exact .refuse_bind _ _
  | some type =>
      refine (requireSame_mirrors value_lt type).bind ?_
      rintro _ _ _ - rfl
      refine Mirrors.get.bind ?_
      rintro _ analysis other - ⟨rfl, rfl, analyses⟩
      rw [currentKind?_mirrored analyses]
      have constant := isConstant_mirrored analyses.asts value
      by_cases refused : decl.kind.isConstant = true ∧
        analysis.scopes.currentKind? = some .global ∧ analysis.ast.isConstant value = false
      · rw [if_pos refused]
        intro otherState states
        rw [ensures_bind, ensures_expr, ensures_bind, ensures_reject]
        intro exact'
        rw [if_pos ⟨refused.1, refused.2.1, (constant.2 exact').trans refused.2.2⟩, ensures_bind,
          ensures_expr, ensures_bind, ensures_reject]
        exact .of_name (states.asts.expr value value_lt).places decls.names (fun _ => rfl)
          fun _ _ => rfl
      · rw [if_neg refused, if_neg fun otherRefused => refused ⟨otherRefused.1, otherRefused.2.1, ?_⟩]
        · cases decl.kind with
          | object kind type earlier =>
              cases earlier with
              | none =>
                  refine (Mirrors.setDeclKind declared rfl (List.forall_mem_nil _)).bind ?_
                  rintro after _ _ - size_eq
                  exact .pure ⟨size_eq ▸ declared, rfl⟩
              | some earlier => exact .refuse_bind _ _
          | parameter | function | program => exact .refuse_bind _ _
        · rw [Bool.eq_false_iff]
          intro isConstant
          rw [constant.1 isConstant] at otherRefused
          exact absurd otherRefused.2.2 Bool.noConfusion

theorem defineFunction_mirrors {id : DeclId} (declared : id.index < before.ast.decls.size)
    (body : StmtId) :
    Mirrors correspondence depth depth (defineFunction id body)
      (defineFunction (correspondence.decl id) (correspondence.stmt body)) before
      correspondence.DeclIds := by
  refine Mirrors.get.bind ?_
  rintro _ analysis other - ⟨rfl, rfl, analyses⟩
  rw [analyses.function_eq]
  have current : analysis.function.map correspondence.decl ≠ some (correspondence.decl id) ↔
      analysis.function ≠ some id := by
    cases analysis.function <;> simp
  refine .ite current (fun _ => .refuse_bind _ _) fun _ => ?_
  have parameter_lt := analyses.asts.parameter_lt id
  refine (Mirrors.decl declared).bind ?_
  rintro _ decl otherDecl - ⟨rfl, rfl, decls⟩
  rw [decls.kind_eq]
  rw [Ast.kindOf] at parameter_lt
  cases kind_eq : (Ast.decl _ id).kind with
  | function type parameters earlier =>
      cases earlier with
      | none =>
          rw [kind_eq] at parameter_lt
          have kind_eq : DeclKind.function type (parameters.map correspondence.decl)
              (some (correspondence.stmt body)) =
              correspondence.declKind (.function type parameters (some body)) := rfl
          refine (Mirrors.setDeclKind declared kind_eq parameter_lt).bind ?_
          rintro after _ _ - size_eq
          refine (Mirrors.setFunction none).bind ?_
          rintro last _ _ - lastSame
          exact .pure ⟨lastSame ▸ size_eq ▸ declared, rfl⟩
      | some earlier => exact .refuse_bind _ _
  | object | parameter | program => exact .refuse_bind _ _

end Definitions

section Statements

/-- All names are declared in innermost scopes that are not the outermost ones. -/
theorem declareAll_mirrors {ids : List DeclId} (bound : ∀ id ∈ ids, id.index < before.ast.decls.size)
    (deep : 2 ≤ depth) :
    Mirrors correspondence depth depth (ids.forM declare)
      ((ids.map correspondence.decl).forM declare) before fun _ _ _ => True := by
  induction ids generalizing before with
  | nil => exact .pure trivial
  | cons id ids induction =>
      rw [List.forall_mem_cons] at bound
      refine (declare_mirrors bound.1 (.inl deep)).bind ?_
      rintro middle _ _ - same
      exact induction fun other member => same ▸ bound.2 other member

theorem startBlock_mirrors (deep : 2 ≤ depth) :
    Mirrors correspondence depth depth startBlock startBlock before fun _ _ _ => True := by
  refine Mirrors.get.bind ?_
  rintro _ analysis other - ⟨rfl, rfl, analyses⟩
  rw [parentKind?_mirrored analyses, analyses.function_eq]
  refine .ite Iff.rfl (fun _ => .pure trivial) fun _ => ?_
  cases analysis.function with
  | none => exact .pure trivial
  | some function =>
      have kind_eq := analyses.asts.kindOf_eq function
      rw [Ast.kindOf, Ast.kindOf] at kind_eq
      dsimp only [Option.map_some]
      rw [kind_eq, Correspondence.parameters_declKind]
      have parameter_lt := analyses.asts.parameter_lt function
      rw [Ast.kindOf] at parameter_lt
      exact declareAll_mirrors parameter_lt deep

theorem block_mirrors (statements : List StmtId) :
    Mirrors correspondence depth depth (block statements)
      (block (statements.map correspondence.stmt)) before correspondence.StmtIds :=
  .addStmt (.block statements)

section Guarded

variable {guard : ExprId} (bound : guard.index < before.ast.exprs.size)

include bound

theorem ifElse_mirrors (whenTrue whenFalse : StmtId) :
    Mirrors correspondence depth depth (ifElse guard whenTrue whenFalse)
      (ifElse (correspondence.expr guard) (correspondence.stmt whenTrue)
        (correspondence.stmt whenFalse)) before correspondence.StmtIds := by
  refine (requireCategory_mirrors bound .boolean).bind ?_
  rintro middle guard _ - ⟨-, rfl⟩
  exact .addStmt (.ifElse guard whenTrue whenFalse)

theorem whenTrue_mirrors (body : StmtId) :
    Mirrors correspondence depth depth (whenTrue guard body)
      (whenTrue (correspondence.expr guard) (correspondence.stmt body)) before
      correspondence.StmtIds := by
  refine (requireCategory_mirrors bound .boolean).bind ?_
  rintro middle guard _ - ⟨-, rfl⟩
  exact .addStmt (.whenTrue guard body)

theorem whileTrue_mirrors (body : StmtId) :
    Mirrors correspondence depth depth (whileTrue guard body)
      (whileTrue (correspondence.expr guard) (correspondence.stmt body)) before
      correspondence.StmtIds := by
  refine (requireCategory_mirrors bound .boolean).bind ?_
  rintro middle guard _ - ⟨-, rfl⟩
  exact .addStmt (.whileTrue guard body)

end Guarded

theorem breakLoop_mirrors {token other : Token} (tokens : correspondence.Tokens token other) :
    Mirrors correspondence depth depth (breakLoop token) (breakLoop other) before
      correspondence.StmtIds :=
  .addStmt (.breakLoop tokens.places)

theorem continueLoop_mirrors {token other : Token} (tokens : correspondence.Tokens token other) :
    Mirrors correspondence depth depth (continueLoop token) (continueLoop other) before
      correspondence.StmtIds :=
  .addStmt (.continueLoop tokens.places)

theorem returnValue_mirrors {value : ExprId} (bound : value.index < before.ast.exprs.size) :
    Mirrors correspondence depth depth (returnValue value)
      (returnValue (correspondence.expr value)) before correspondence.StmtIds := by
  refine (load_mirrors bound).bind ?_
  rintro middle value _ - ⟨value_lt, rfl⟩
  refine Mirrors.get.bind ?_
  rintro _ analysis other - ⟨rfl, rfl, analyses⟩
  rw [analyses.function_eq]
  cases analysis.function with
  | none => exact .refuse _ _
  | some function =>
      refine (Mirrors.kindOf function).bind ?_
      rintro _ decl otherDecl - ⟨rfl, -, kind_eq⟩
      rw [kind_eq, Correspondence.type?_declKind]
      cases decl.kind.type?.bind Ty.returnType? with
      | none => exact .refuse _ _
      | some result =>
          refine (requireSame_mirrors value_lt result).bind ?_
          rintro _ _ _ - rfl
          exact .addStmt (.returnValue value)

theorem declarationStatement_mirrors (declaration : DeclId) :
    Mirrors correspondence depth depth (declarationStatement declaration)
      (declarationStatement (correspondence.decl declaration)) before correspondence.StmtIds :=
  .addStmt (.declaration declaration)

theorem expressionStatement_mirrors (expression : ExprId) :
    Mirrors correspondence depth depth (expressionStatement expression)
      (expressionStatement (correspondence.expr expression)) before correspondence.StmtIds :=
  .addStmt (.expression expression)

end Statements

end Minilang.Analysis
