import Minilang.Proofs.Analysis.Outcome
import Minilang.Proofs.Analysis.Typing

/-!
# Steps on expressions

A step on expressions adds typed expressions and leaves the rest of the state alone, whether it succeeds or
fails. What it adds is built from handles in a range that contains the handles it was given, so that the
expressions of one part of a program stay among themselves.
-/

namespace Minilang

namespace Diagnostic

/-- Whether a diagnostic is a fault of the program, and not of the compiler or of the system. -/
def isFault : Diagnostic → Bool
  | lexical _ _ | unexpected _ _ _ | semantic _ _ => true
  | internal _ | unreadable _ _ => false

end Diagnostic

namespace Analysis

/-- The state with one more expression. -/
def withExpr (analysis : Analysis) (expr : Expr) : Analysis :=
  { analysis with ast := (analysis.ast.addExpr expr).2 }

/-- Whether a handle leads to an expression that is not older than the first one of a range. -/
def Holds (first : Nat) (analysis : Analysis) (id : ExprId) : Prop :=
  first ≤ id.index ∧ id.index < analysis.ast.exprs.size

/-- One state is another one with more expressions, each of them typed, built from the given range, and
naming only what is in scope. -/
inductive Adds (first : Nat) (before : Analysis) : Analysis → Prop
  | refl : Adds first before before
  | expr {after : Analysis} {kind : ExprKind} {type : Ty} (location : Location) :
      Adds first before after →
      after.ast.HasType kind type →
      (∀ operand ∈ kind.operands, after.Holds first operand) →
      (∀ declaration, kind = .name declaration →
        ∃ name, before.scopes.lookup name = some declaration) →
      Adds first before (after.withExpr ⟨kind, type, location⟩)

namespace Adds

variable {first : Nat} {before middle after : Analysis}

/-- Only expressions are added. -/
theorem eq_with_exprs (adds : Adds first before after) :
    after = { before with ast := { before.ast with exprs := after.ast.exprs } } := by
  induction adds with
  | refl => rfl
  | expr location adds _ _ _ induction =>
      rw [withExpr, induction]
      rfl

theorem scopes_eq (adds : Adds first before after) : after.scopes = before.scopes := by
  rw [adds.eq_with_exprs]

theorem function_eq (adds : Adds first before after) : after.function = before.function := by
  rw [adds.eq_with_exprs]

theorem decls_eq (adds : Adds first before after) : after.ast.decls = before.ast.decls := by
  rw [adds.eq_with_exprs]

theorem stmts_eq (adds : Adds first before after) : after.ast.stmts = before.ast.stmts := by
  rw [adds.eq_with_exprs]

theorem trans (left : Adds first before middle) (right : Adds first middle after) :
    Adds first before after := by
  induction right with
  | refl => exact left
  | expr location _ typed operands named induction =>
      refine .expr location induction typed operands fun declaration form => ?_
      rw [← left.scopes_eq]
      exact named declaration form

theorem extends' (adds : Adds first before after) : before.ast.Extends after.ast := by
  induction adds with
  | refl => exact .refl _
  | expr location _ _ _ _ induction => exact induction.trans (.addExpr _ _)

theorem sound (adds : Adds first before after) (sound : before.ast.Sound) : after.ast.Sound := by
  induction adds with
  | refl => exact sound
  | expr location _ typed held _ induction =>
      exact induction.addExpr typed (fun operand member => (held operand member).2) location

/-- A range that starts earlier allows more. -/
theorem of_le {earlier : Nat} (adds : Adds first before after) (earlier_le : earlier ≤ first) :
    Adds earlier before after := by
  induction adds with
  | refl => exact .refl
  | expr location _ typed held named induction =>
      exact .expr location induction typed
        (fun operand member => ⟨earlier_le.trans (held operand member).1, (held operand member).2⟩)
        named

theorem holds (adds : Adds first before after) {id : ExprId} {lower : Nat}
    (held : before.Holds lower id) : after.Holds lower id :=
  ⟨held.1, held.2.trans_le adds.extends'.exprs_le⟩

theorem typeOf_eq (adds : Adds first before after) {id : ExprId} {lower : Nat}
    (held : before.Holds lower id) : after.ast.typeOf id = before.ast.typeOf id :=
  adds.extends'.typeOf_eq held.2

end Adds

/-- An expression of the range comes out, and only expressions are added for it. -/
def Gives (first : Nat) (before : Analysis) (id : ExprId) (after : Analysis) : Prop :=
  Adds first before after ∧ after.Holds first id

/-- The program is at fault, and only expressions have been added before this came out. -/
def Fails (first : Nat) (before : Analysis) (error : Diagnostic) (after : Analysis) : Prop :=
  Adds first before after ∧ error.isFault = true

section Steps

variable {first : Nat} {before : Analysis}

theorem Gives.trans {middle after : Analysis} {id : ExprId} (adds : Adds first before middle)
    (gives : Gives first middle id after) : Gives first before id after :=
  ⟨adds.trans gives.1, gives.2⟩

theorem Fails.trans {middle after : Analysis} {error : Diagnostic} (adds : Adds first before middle)
    (fails : Fails first middle error after) : Fails first before error after :=
  ⟨adds.trans fails.1, fails.2⟩

theorem typeOf_withExpr (analysis : Analysis) (expr : Expr) :
    (analysis.withExpr expr).ast.typeOf ⟨analysis.ast.exprs.size⟩ = expr.type := by
  simp [withExpr, Ast.typeOf, Ast.addExpr, Ast.expr]

/-- A typed expression of the range can be added. -/
theorem addExpr_ensures {kind : ExprKind} {type : Ty} (location : Location)
    (first_le : first ≤ before.ast.exprs.size) (typed : before.ast.HasType kind type)
    (held : ∀ operand ∈ kind.operands, before.Holds first operand)
    (named : ∀ declaration, kind = .name declaration →
      ∃ name, before.scopes.lookup name = some declaration) :
    Ensures (addExpr kind type location) before
      (fun id after => Gives first before id after ∧ after.ast.typeOf id = type)
      (Fails first before) := by
  rw [ensures_addExpr]
  refine ⟨⟨.expr location .refl typed held named, first_le, ?_⟩, typeOf_withExpr before _⟩
  simp [Ast.addExpr]

/-- An added expression that names nothing needs no scope. -/
theorem addExpr_ensures_of_operands {kind : ExprKind} {type : Ty} (location : Location)
    (first_le : first ≤ before.ast.exprs.size) (typed : before.ast.HasType kind type)
    (held : ∀ operand ∈ kind.operands, before.Holds first operand)
    (unnamed : ∀ declaration, kind ≠ .name declaration) :
    Ensures (addExpr kind type location) before
      (fun id after => Gives first before id after ∧ after.ast.typeOf id = type)
      (Fails first before) :=
  addExpr_ensures location first_le typed held fun declaration form =>
    absurd form (unnamed declaration)

theorem Holds.first_le {id : ExprId} (held : before.Holds first id) :
    first ≤ before.ast.exprs.size := held.1.trans held.2.le

/-- A converted expression has the type of the conversion. -/
theorem convert_ensures {conversion : Conversion} {id : ExprId} {type : Ty}
    (held : before.Holds first id)
    (typed : before.ast.HasType (.convert conversion id) type) :
    Ensures (convert conversion id type) before
      (fun value after => Gives first before value after ∧ after.ast.typeOf value = type)
      (Fails first before) := by
  rw [convert, ensures_bind, ensures_expr]
  refine addExpr_ensures_of_operands _ held.first_le typed ?_ (by simp)
  intro operand member
  rw [ExprKind.operands, List.mem_singleton] at member
  exact member ▸ held

/-- Loading always succeeds and gives a value of the type that a reference holds. -/
theorem load_ensures {id : ExprId} (held : before.Holds first id) :
    Ensures (load id) before
      (fun value after => Gives first before value after ∧
        after.ast.typeOf value = (before.ast.typeOf id).objectType)
      (Fails first before) := by
  rw [load, ensures_bind, ensures_expr]
  split
  · next object reference =>
    have operand_type : before.ast.typeOf id = .reference object := reference
    rw [operand_type]
    exact convert_ensures held (.load operand_type)
  · next value =>
    rw [ensures_pure]
    refine ⟨⟨.refl, held⟩, ?_⟩
    rw [Ast.typeOf] at *
    cases type : (before.ast.expr id).type with
    | reference object => exact absurd type (value object)
    | _ => rfl

theorem requireReference_ensures (id : ExprId) :
    Ensures (requireReference id) before
      (fun target after => target = id ∧ after = before ∧
        ∃ object, before.ast.typeOf id = .reference object)
      (Fails first before) := by
  rw [requireReference, ensures_bind, ensures_expr]
  split
  · next isReference =>
    refine ⟨rfl, rfl, ?_⟩
    rw [Ast.typeOf]
    cases type : (before.ast.expr id).type <;> simp_all [Ty.isReference]
  · exact ⟨.refl, rfl⟩

theorem requireCategory_ensures (category : Category) {id : ExprId} (held : before.Holds first id) :
    Ensures (requireCategory category id) before
      (fun value after => Gives first before value after ∧
        category.admits (after.ast.typeOf value) = true)
      (Fails first before) := by
  rw [requireCategory, ensures_bind]
  refine (load_ensures held).mono ?_ fun _ _ fails => fails
  rintro value after ⟨gives, -⟩
  rw [ensures_bind, ensures_expr]
  split
  · next admitted => exact ⟨gives, admitted⟩
  · exact ⟨gives.1, rfl⟩

theorem requireSame_ensures (expected : Ty) (id : ExprId) :
    Ensures (requireSame expected id) before
      (fun _ after => after = before ∧ before.ast.typeOf id = expected)
      (Fails first before) := by
  rw [requireSame, ensures_bind, ensures_expr]
  split
  · next same => exact ⟨rfl, same.symm⟩
  · exact ⟨.refl, rfl⟩

theorem commonType_ensures (left right : Ty) (location : Location) :
    Ensures (commonType left right location) before (fun _ after => after = before)
      (Fails first before) := by
  unfold commonType
  split
  · exact rfl
  · exact ⟨.refl, rfl⟩

theorem rejectConversion_ensures (id : ExprId) (target : Ty)
    {onResult : ExprId → Analysis → Prop} :
    Ensures (rejectConversion id target) before onResult (Fails first before) := by
  rw [rejectConversion, ensures_bind, ensures_expr, ensures_reject]
  exact ⟨.refl, rfl⟩

theorem convertToBasic_ensures (target : BasicType) {id : ExprId} (held : before.Holds first id) :
    Ensures (convertToBasic target id) before
      (fun value after => Gives first before value after ∧
        after.ast.typeOf value = Ty.ofBasic target)
      (Fails first before) := by
  rw [convertToBasic, ensures_bind]
  refine (load_ensures held).mono ?_ fun _ _ fails => fails
  rintro value middle ⟨gives, -⟩
  rw [ensures_bind, ensures_expr]
  split
  · next same => exact ⟨gives, same⟩
  · split
    · next conversion found =>
      refine (convert_ensures gives.2 (.convert (Conversion.leads_of_between? found))).mono ?_ ?_
      · rintro converted after ⟨later, typed⟩
        exact ⟨later.trans gives.1, typed⟩
      · exact fun error after fails => fails.trans gives.1
    · exact (rejectConversion_ensures value _).mono (fun _ _ gives => gives)
        fun _ _ fails => fails.trans gives.1

/-- Convert an operand whose value has been taken if it has to be. -/
def convertOperand (type : Ty) (operand : ExprId) : Check ExprId := do
  let expr ← expr operand
  if expr.type = type then return operand
  else
    match type.basic? with
    | some basic => convertToBasic basic operand
    | none => rejectConversion operand type

theorem convertTo_eq (id : ExprId) (type : Ty) : convertTo id type =
    (do convertOperand type (← if type.isObject then load id else pure id)) := rfl

theorem convertTo_ensures {id : ExprId} (type : Ty) (held : before.Holds first id) :
    Ensures (convertTo id type) before
      (fun value after => Gives first before value after ∧ after.ast.typeOf value = type)
      (Fails first before) := by
  have behind {operand : ExprId} {middle : Analysis} (gives : Gives first before operand middle) :
      Ensures (convertOperand type operand) middle
        (fun value after => Gives first before value after ∧ after.ast.typeOf value = type)
        (Fails first before) := by
    rw [convertOperand, ensures_bind, ensures_expr]
    split
    · next same => exact ⟨gives, same⟩
    · split
      · next basic found =>
        have target_eq : Ty.ofBasic basic = type := by cases type <;> cases found <;> rfl
        rw [← target_eq]
        refine (convertToBasic_ensures basic gives.2).mono ?_ ?_
        · rintro converted after ⟨later, typed⟩
          exact ⟨later.trans gives.1, typed⟩
        · exact fun error after fails => fails.trans gives.1
      · exact (rejectConversion_ensures operand _).mono (fun _ _ gives => gives)
          fun _ _ fails => fails.trans gives.1
  rw [convertTo_eq]
  by_cases object : type.isObject = true
  · rw [if_pos object, ensures_bind]
    exact (load_ensures held).mono (fun _ _ gives => behind gives.1) fun _ _ fails => fails
  · rw [if_neg object, ensures_bind, ensures_pure]
    exact behind ⟨.refl, held⟩

end Steps

end Analysis

end Minilang
