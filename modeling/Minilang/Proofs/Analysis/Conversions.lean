import Minilang.Analysis.Action
import Minilang.Proofs.Analysis.Steps

/-!
# Conversions

What a conditional makes of its branches and what a cast makes of its operand, exactly: when they
succeed, which conversions they add, and how they fail. Storage is read where an object type is converted
to. It is not read for a function type, so that a variable of function type can be called and passed on,
but neither cast to its own type nor chosen against a function.
-/

namespace Minilang

namespace Ty

/-- The type that two branches have in common: their type if it is one, and otherwise the type of the
branch whose values the other branch designates storage for. -/
inductive Unifies : (left right type : Ty) → Prop
  /-- Both branches have one type. -/
  | same (type : Ty) : Unifies type type type
  /-- The first branch designates storage for values like the second one. -/
  | readLeft (object : Ty) : Unifies (reference object) object object
  /-- The second branch designates storage for values like the first one. -/
  | readRight (object : Ty) : Unifies object (reference object) object

/-- At most one branch is a reference to the common type, and the others have that type. -/
theorem Unifies.branches {left right type : Ty} (unifies : Unifies left right type) :
    left = type ∧ right = type ∨ left = reference type ∧ right = type ∨
      left = type ∧ right = reference type := by
  cases unifies with
  | same => exact .inl ⟨rfl, rfl⟩
  | readLeft => exact .inr (.inl ⟨rfl, rfl⟩)
  | readRight => exact .inr (.inr ⟨rfl, rfl⟩)

/-- No type is the reference to itself. -/
theorem ne_reference (object : Ty) : object ≠ reference object := by
  intro same
  have size := congrArg sizeOf same
  simp at size

/-- No type is the reference to a reference to itself. -/
theorem ne_reference_reference (object : Ty) : object ≠ reference (reference object) := by
  intro same
  have size := congrArg sizeOf same
  simp only [reference.sizeOf_spec] at size
  omega

/-- Where a branch is a reference to the common type, the branches have different types. -/
theorem Unifies.ne_of_reference {left right type : Ty} (unifies : Unifies left right type)
    (reads : left = reference type ∨ right = reference type) : left ≠ right := by
  obtain ⟨left_eq, right_eq⟩ | ⟨left_eq, right_eq⟩ | ⟨left_eq, right_eq⟩ := unifies.branches
  · rw [left_eq, right_eq] at reads
    exact absurd (reads.elim id id) (ne_reference type)
  · rw [left_eq, right_eq]
    exact (ne_reference type).symm
  · rw [left_eq, right_eq]
    exact ne_reference type

theorem common?_eq_some {left right type : Ty} :
    left.common? right = some type ↔ Unifies left right type := by
  constructor
  · intro found
    unfold common? at found
    split at found
    · next same =>
      cases found
      exact same ▸ .same left
    · split at found
      · next isReference =>
        cases found
        exact isReferenceTo_iff.1 isReference ▸ .readLeft right
      · split at found
        · next isReference =>
          cases found
          exact isReferenceTo_iff.1 isReference ▸ .readRight left
        · cases found
  · intro unifies
    cases unifies with
    | same => exact if_pos rfl
    | readLeft object =>
        rw [common?, if_neg (ne_reference _).symm, if_pos (isReferenceTo_iff.2 rfl)]
    | readRight object =>
        have apart : ¬ left.isReferenceTo (reference left) = true := by
          rw [isReferenceTo_iff]
          exact ne_reference_reference left
        rw [common?, if_neg (ne_reference _), if_neg apart, if_pos (isReferenceTo_iff.2 rfl)]

theorem objectType_of_not_reference {type : Ty} (value : type.isReference = false) :
    type.objectType = type := by
  cases type with
  | reference object => cases value
  | _ => rfl

theorem not_reference_of_isObject {type : Ty} (object : type.isObject = true) :
    type.isReference = false := by
  cases type with
  | reference object => cases object
  | _ => rfl

end Ty

namespace Conversion

/-- A type of values is converted to a basic type exactly if a conversion leads there. -/
theorem between?_eq_some {source : Ty} {target : BasicType} {conversion : Conversion} :
    between? source target = some conversion ↔ Leads conversion source (Ty.ofBasic target) := by
  refine ⟨leads_of_between?, fun leads => ?_⟩
  cases target <;> cases leads <;> rfl

/-- Conversions lead to basic types, from other basic types. -/
theorem Leads.basic {conversion : Conversion} {source type : Ty}
    (leads : Leads conversion source type) :
    (∃ target, type = Ty.ofBasic target) ∧ source ≠ type ∧ type.isObject = true := by
  cases leads with
  | charToBool | intToBool | floatToBool => exact ⟨⟨.bool, rfl⟩, by simp, rfl⟩
  | intToChar => exact ⟨⟨.char, rfl⟩, by simp, rfl⟩
  | boolToInt | charToInt | floatToInt => exact ⟨⟨.int, rfl⟩, by simp, rfl⟩
  | intToFloat => exact ⟨⟨.float, rfl⟩, by simp, rfl⟩

end Conversion

theorem Ty.basic?_eq_some {type : Ty} {target : BasicType} :
    type.basic? = some target ↔ type = Ty.ofBasic target := by
  cases type <;> cases target <;> simp [Ty.basic?, Ty.ofBasic]

namespace Ast

/-- One expression reads the storage that another one designates, and stands where that one stands. -/
def Reads (ast : Ast) (operand value : ExprId) : Prop :=
  ast.expr value =
    ⟨.convert .load operand, (ast.typeOf operand).objectType, (ast.expr operand).location⟩

/-- An operand supplies a value of a type: it is read once if it designates storage and the type is no
reference, and taken as it stands otherwise. -/
def Supplies (ast : Ast) (type : Ty) (operand value : ExprId) : Prop :=
  ast.typeOf value = type ∧
    if (ast.typeOf operand).isReference = true ∧ type.isReference = false then ast.Reads operand value
    else value = operand

variable {before after : Ast} {operand value : ExprId}

theorem Extends.location_eq (extends' : before.Extends after)
    (operand_lt : operand.index < before.exprs.size) :
    (after.expr operand).location = (before.expr operand).location := by
  rw [extends'.expr_eq operand operand_lt]

theorem Reads.extends (reads : before.Reads operand value) (extends' : before.Extends after)
    (operand_lt : operand.index < before.exprs.size) (value_lt : value.index < before.exprs.size) :
    after.Reads operand value := by
  rw [Reads, extends'.expr_eq value value_lt, extends'.typeOf_eq operand_lt,
    extends'.location_eq operand_lt]
  exact reads

theorem Supplies.extends {type : Ty} (supplies : before.Supplies type operand value)
    (extends' : before.Extends after) (operand_lt : operand.index < before.exprs.size)
    (value_lt : value.index < before.exprs.size) : after.Supplies type operand value := by
  obtain ⟨typed, taken⟩ := supplies
  refine ⟨(extends'.typeOf_eq value_lt).trans typed, ?_⟩
  rw [extends'.typeOf_eq operand_lt]
  split at taken
  · next read =>
    rw [if_pos read]
    exact taken.extends extends' operand_lt value_lt
  · next whole =>
    rw [if_neg whole]
    exact taken

end Ast

namespace Analysis

open Ast (Supplies Reads)

variable {before : Analysis}

/-- A step gives a result exactly if the condition holds that its results imply and its errors refute. -/
theorem Ensures.succeeds_iff {α : Type} {step : Check α} {condition : Prop}
    {onResult : α → Analysis → Prop} {onError : Diagnostic → Analysis → Prop}
    (ensures : Ensures step before onResult onError)
    (of_result : ∀ result after, onResult result after → condition)
    (of_error : ∀ error after, onError error after → ¬ condition) :
    (∃ result after, step.run before = (.ok result, after)) ↔ condition := by
  constructor
  · rintro ⟨result, after, run⟩
    exact of_result result after (ensures.result run)
  · intro holds
    cases run : step.run before with
    | mk outcome after =>
        cases outcome with
        | ok result => exact ⟨result, after, rfl⟩
        | error error => exact absurd holds (of_error error after (ensures.error run))

/-- An expression that can be had behind some steps: all that was there is still there. -/
def Has (before : Analysis) (value : ExprId) (after : Analysis) : Prop :=
  before.ast.Extends after.ast ∧ value.index < after.ast.exprs.size

theorem Has.trans {middle after : Analysis} {first second : ExprId}
    (earlier : Has before first middle) (later : Has middle second after) :
    Has before second after :=
  ⟨earlier.1.trans later.1, later.2⟩

/-- An expression can be added. -/
theorem addExpr_has (kind : ExprKind) (type : Ty) (location : Location) :
    Ensures (addExpr kind type location) before
      (fun id after => Has before id after ∧ after.ast.expr id = ⟨kind, type, location⟩)
      fun _ _ => False := by
  rw [ensures_addExpr]
  refine ⟨⟨.addExpr _ _, ?_⟩, Ast.expr_addExpr_self before.ast _⟩
  simp [Ast.addExpr]

/-- A value is had from an expression by reading it if it is a reference. -/
theorem load_supplies {id : ExprId} (id_lt : id.index < before.ast.exprs.size) :
    Ensures (load id) before
      (fun value after => Has before value after ∧
        after.ast.typeOf value = (before.ast.typeOf id).objectType ∧
        (after.ast.expr value).location = (before.ast.expr id).location ∧
        if (before.ast.typeOf id).isReference = true then after.ast.Reads id value
        else value = id ∧ after = before)
      fun _ _ => False := by
  rw [load, ensures_bind, ensures_expr]
  split
  · next object reference =>
    have operand_type : before.ast.typeOf id = .reference object := reference
    have isReference : (Ty.reference object).isReference = true := rfl
    rw [convert, ensures_bind, ensures_expr, operand_type]
    refine (addExpr_has _ _ _).mono ?_ fun _ _ never => never
    rintro value after ⟨has, added⟩
    refine ⟨has, congrArg Expr.type added, ?_, ?_⟩
    · rw [added]
    rw [if_pos isReference, Reads, has.1.typeOf_eq id_lt, has.1.location_eq id_lt, operand_type]
    exact added
  · next noReference =>
    have value : (before.ast.typeOf id).isReference = false := by
      cases type : before.ast.typeOf id with
      | reference object => exact absurd type (noReference object)
      | _ => rfl
    rw [ensures_pure, Ty.objectType_of_not_reference value, value]
    exact ⟨⟨.refl _, id_lt⟩, rfl, rfl, rfl, rfl⟩

/-- Nothing is read from what is no reference. -/
theorem load_value {id : ExprId} (id_lt : id.index < before.ast.exprs.size)
    (isValue : (before.ast.typeOf id).isReference = false) :
    Ensures (load id) before (fun value after => value = id ∧ after = before) fun _ _ => False := by
  refine (load_supplies id_lt).mono ?_ fun _ _ never => never
  rintro value after ⟨-, -, -, loaded⟩
  rw [isValue] at loaded
  exact loaded

/-- What is had by loading supplies a value, unless references nest. -/
theorem supplies_of_load {after : Analysis} {type : Ty} {id value : ExprId}
    (extends' : before.ast.Extends after.ast) (id_lt : id.index < before.ast.exprs.size)
    (typed : after.ast.typeOf value = type) (isValue : type.isReference = false)
    (loaded : if (before.ast.typeOf id).isReference = true then after.ast.Reads id value
      else value = id ∧ after = before) : after.ast.Supplies type id value := by
  refine ⟨typed, ?_⟩
  rw [extends'.typeOf_eq id_lt]
  split at loaded
  · next isReference =>
    rw [if_pos ⟨isReference, isValue⟩]
    exact loaded
  · next noReference =>
    rw [if_neg fun both => noReference both.1]
    exact loaded.1

/-- A truth value is asked for. -/
theorem requireBoolean_supplies {id : ExprId} (id_lt : id.index < before.ast.exprs.size) :
    Ensures (requireCategory .boolean id) before
      (fun value after => Has before value after ∧ (before.ast.typeOf id).objectType = .bool ∧
        (after.ast.expr value).location = (before.ast.expr id).location ∧
        after.ast.Supplies .bool id value)
      fun error after => before.ast.Extends after.ast ∧
        (before.ast.typeOf id).objectType ≠ .bool ∧
        error = .semantic (before.ast.expr id).location
          (.expectedCategory .boolean (before.ast.typeOf id).objectType) := by
  rw [requireCategory, ensures_bind]
  refine (load_supplies id_lt).mono ?_ fun _ _ never => never.elim
  rintro value after ⟨has, typed, located, loaded⟩
  have isBool : ∀ type : Ty, Category.boolean.admits type = true ↔ type = .bool := by
    intro type
    cases type <;> simp [Category.admits, Ty.isBool]
  rw [ensures_bind, ensures_expr]
  have value_type : (after.ast.expr value).type = (before.ast.typeOf id).objectType := typed
  rw [value_type]
  split
  · next admitted =>
    have is_bool := (isBool _).1 admitted
    exact ⟨has, is_bool, located,
      supplies_of_load has.1 id_lt (typed.trans is_bool) rfl loaded⟩
  · next refused =>
    rw [ensures_reject, located]
    exact ⟨has.1, fun is_bool => refused ((isBool _).2 is_bool), rfl⟩

/-- Values are converted by one conversion that leads to the basic type. -/
theorem convertToBasic_converts {target : BasicType} {value : ExprId}
    (value_lt : value.index < before.ast.exprs.size)
    (isValue : (before.ast.typeOf value).isReference = false)
    (different : before.ast.typeOf value ≠ Ty.ofBasic target) :
    Ensures (convertToBasic target value) before
      (fun converted after => Has before converted after ∧
        ∃ conversion, Conversion.Leads conversion (before.ast.typeOf value) (Ty.ofBasic target) ∧
          after.ast.expr converted =
            ⟨.convert conversion value, Ty.ofBasic target, (before.ast.expr value).location⟩)
      fun error after => after = before ∧
        (∀ conversion, ¬ Conversion.Leads conversion (before.ast.typeOf value) (Ty.ofBasic target)) ∧
        error = .semantic (before.ast.expr value).location
          (.invalidConversion (before.ast.typeOf value) (Ty.ofBasic target)) := by
  rw [convertToBasic, ensures_bind]
  refine (load_value value_lt isValue).mono ?_ fun _ _ never => never.elim
  rintro operand middle ⟨operand_eq, middle_eq⟩
  rw [operand_eq, middle_eq, ensures_bind, ensures_expr]
  have value_type : (before.ast.expr value).type = before.ast.typeOf value := rfl
  rw [value_type, if_neg different]
  split
  · next conversion found =>
    rw [convert, ensures_bind, ensures_expr]
    refine (addExpr_has _ _ _).mono ?_ fun _ _ never => never.elim
    rintro converted after ⟨has, added⟩
    exact ⟨has, conversion, Conversion.between?_eq_some.1 found, added⟩
  · next none =>
    rw [rejectConversion, ensures_bind, ensures_expr, ensures_reject]
    refine ⟨rfl, fun conversion leads => ?_, rfl⟩
    rw [Conversion.between?_eq_some.2 leads] at none
    cases none

/-- What has the wanted type already is taken as it stands. -/
theorem convertTo_same {id : ExprId} {type : Ty} (id_lt : id.index < before.ast.exprs.size)
    (typed : before.ast.typeOf id = type) :
    Ensures (convertTo id type) before (fun value after => value = id ∧ after = before)
      fun _ _ => False := by
  have same : (before.ast.expr id).type = type := typed
  rw [convertTo]
  by_cases object : type.isObject = true
  · have isValue : (before.ast.typeOf id).isReference = false :=
      typed ▸ Ty.not_reference_of_isObject object
    rw [if_pos object, ensures_bind]
    refine (load_value id_lt isValue).mono ?_ fun _ _ never => never
    rintro operand middle ⟨operand_eq, middle_eq⟩
    rw [operand_eq, middle_eq, ensures_bind, ensures_expr, if_pos same]
    exact ⟨rfl, rfl⟩
  · rw [if_neg object, ensures_bind, ensures_pure, ensures_bind, ensures_expr, if_pos same]
    exact ⟨rfl, rfl⟩

/-- Nothing but an expression of its own type is converted to a type without objects. -/
theorem convertTo_rejects {id : ExprId} {type : Ty} (noObject : type.isObject = false)
    (different : before.ast.typeOf id ≠ type) :
    Ensures (convertTo id type) before (fun _ _ => False) fun error after =>
      after = before ∧ error = .semantic (before.ast.expr id).location
        (.invalidConversion (before.ast.typeOf id) type) := by
  have other : type.basic? = none := by
    cases type with
    | reference | function => rfl
    | _ => cases noObject
  have apart : ¬(before.ast.expr id).type = type := different
  rw [convertTo, noObject, if_neg Bool.false_ne_true, ensures_bind, ensures_pure, ensures_bind,
    ensures_expr, if_neg apart, other]
  exact ⟨rfl, rfl⟩

/-- To a type of objects the value of an expression is converted, by one conversion at most. -/
theorem convertTo_converts {id : ExprId} {type : Ty} (id_lt : id.index < before.ast.exprs.size)
    (flat : (before.ast.typeOf id).objectType.isReference = false) (object : type.isObject = true) :
    Ensures (convertTo id type) before
      (fun converted after => Has before converted after ∧ after.ast.typeOf converted = type ∧
        ∃ value, Has before value after ∧
          after.ast.Supplies (before.ast.typeOf id).objectType id value ∧
          ((before.ast.typeOf id).objectType = type ∧ converted = value ∨
            ∃ conversion, Conversion.Leads conversion (before.ast.typeOf id).objectType type ∧
              after.ast.expr converted =
                ⟨.convert conversion value, type, (before.ast.expr id).location⟩))
      fun error after => before.ast.Extends after.ast ∧ (before.ast.typeOf id).objectType ≠ type ∧
        (∀ conversion, ¬ Conversion.Leads conversion (before.ast.typeOf id).objectType type) ∧
        error = .semantic (before.ast.expr id).location
          (.invalidConversion (before.ast.typeOf id).objectType type) := by
  rw [convertTo, if_pos object, ensures_bind]
  refine (load_supplies id_lt).mono ?_ fun _ _ never => never.elim
  rintro value middle ⟨has, typed, located, loaded⟩
  have supplies := supplies_of_load has.1 id_lt typed flat loaded
  have value_type : (middle.ast.expr value).type = (before.ast.typeOf id).objectType := typed
  rw [ensures_bind, ensures_expr, value_type]
  split
  · next same => exact ⟨has, typed.trans same, value, has, supplies, .inl ⟨same, rfl⟩⟩
  · next different =>
    split
    · next target basic =>
      obtain rfl := Ty.basic?_eq_some.1 basic
      have isValue : (middle.ast.typeOf value).isReference = false := typed ▸ flat
      refine (convertToBasic_converts has.2 isValue (typed ▸ different)).mono ?_ ?_
      · rintro converted after ⟨later, conversion, leads, added⟩
        rw [typed] at leads
        rw [located] at added
        have kept : Has before value after :=
          ⟨has.1.trans later.1, has.2.trans_le later.1.exprs_le⟩
        refine ⟨has.trans later, congrArg Expr.type added, value, kept, ?_,
          .inr ⟨conversion, leads, added⟩⟩
        exact supplies.extends later.1 (id_lt.trans_le has.1.exprs_le) has.2
      · rintro error after ⟨rfl, unconverted, rfl⟩
        rw [typed] at unconverted
        rw [typed, located]
        exact ⟨has.1, different, unconverted, rfl⟩
    · next noBasic =>
      rw [rejectConversion, ensures_bind, ensures_expr, ensures_reject, located, value_type]
      refine ⟨has.1, different, fun conversion leads => ?_, rfl⟩
      obtain ⟨target, rfl⟩ := leads.basic.1
      rw [Ty.basic?_eq_some.2 rfl] at noBasic
      cases noBasic

/-- A branch of a conditional becomes one of the common type: it is read if it is the reference of the
two, and it cannot be if the common type is none of objects. -/
theorem convertTo_branch {id : ExprId} {type : Ty} (id_lt : id.index < before.ast.exprs.size)
    (fits : before.ast.typeOf id = type ∨ before.ast.typeOf id = .reference type) :
    Ensures (convertTo id type) before
      (fun value after => Has before value after ∧ after.ast.Supplies type id value ∧
        (before.ast.typeOf id = type ∨ type.isObject = true))
      fun error after => after = before ∧ before.ast.typeOf id = .reference type ∧
        type.isObject = false ∧
        error = .semantic (before.ast.expr id).location
          (.invalidConversion (.reference type) type) := by
  obtain same | reference := fits
  · refine (convertTo_same id_lt same).mono ?_ fun _ _ never => never.elim
    rintro value after ⟨value_eq, after_eq⟩
    rw [value_eq, after_eq]
    refine ⟨⟨.refl _, id_lt⟩, ⟨same, ?_⟩, .inl same⟩
    rw [same, if_neg]
    rintro ⟨isReference, isValue⟩
    rw [isReference] at isValue
    cases isValue
  · have source : (before.ast.typeOf id).objectType = type := by rw [reference, Ty.objectType]
    by_cases object : type.isObject = true
    · have flat : (before.ast.typeOf id).objectType.isReference = false :=
        source ▸ Ty.not_reference_of_isObject object
      refine (convertTo_converts id_lt flat object).mono ?_ ?_
      · rintro converted after ⟨has, -, value, -, supplies, ⟨-, rfl⟩ | ⟨conversion, leads, -⟩⟩
        · exact ⟨has, source ▸ supplies, .inr object⟩
        · exact absurd source leads.basic.2.1
      · rintro error after ⟨-, different, -⟩
        exact absurd source different
    · have noObject : type.isObject = false := Bool.eq_false_iff.2 object
      have different : before.ast.typeOf id ≠ type := by
        rw [reference]
        exact (Ty.ne_reference type).symm
      refine (convertTo_rejects noObject different).mono (fun _ _ never => never.elim) ?_
      rintro error after ⟨rfl, rfl⟩
      exact ⟨rfl, reference, noObject, by rw [reference]⟩

/-- Both branches of a conditional become expressions of the common type, unless one of them would have to
be read and the common type is none of objects. -/
theorem convertTo_branches {whenTrue whenFalse : ExprId} {type : Ty}
    (true_lt : whenTrue.index < before.ast.exprs.size)
    (false_lt : whenFalse.index < before.ast.exprs.size)
    (unifies : (before.ast.typeOf whenTrue).Unifies (before.ast.typeOf whenFalse) type)
    {onError : Diagnostic → Analysis → Prop}
    (rejects : ∀ branch after, before.ast.Extends after.ast →
      type.isObject = false → (branch = whenTrue ∨ branch = whenFalse) →
      before.ast.typeOf branch = .reference type →
      onError (.semantic (before.ast.expr branch).location
        (.invalidConversion (.reference type) type)) after) :
    Ensures (convertTo whenTrue type) before (fun first middle =>
      Ensures (convertTo whenFalse type) middle (fun second after =>
        Has before first after ∧ Has before second after ∧
          after.ast.Supplies type whenTrue first ∧ after.ast.Supplies type whenFalse second ∧
          (before.ast.typeOf whenTrue = before.ast.typeOf whenFalse ∨ type.isObject = true))
        onError) onError := by
  have fits : (before.ast.typeOf whenTrue = type ∨ before.ast.typeOf whenTrue = .reference type) ∧
      (before.ast.typeOf whenFalse = type ∨ before.ast.typeOf whenFalse = .reference type) := by
    obtain ⟨left, right⟩ | ⟨left, right⟩ | ⟨left, right⟩ := unifies.branches
    · exact ⟨.inl left, .inl right⟩
    · exact ⟨.inr left, .inl right⟩
    · exact ⟨.inl left, .inr right⟩
  refine (convertTo_branch true_lt fits.1).mono ?_ ?_
  · rintro first middle ⟨has, supplies, possible⟩
    have false_type := has.1.typeOf_eq false_lt
    refine (convertTo_branch (false_lt.trans_le has.1.exprs_le) (false_type ▸ fits.2)).mono ?_ ?_
    · rintro second after ⟨later, second_supplies, second_possible⟩
      rw [false_type] at second_possible
      refine ⟨⟨has.1.trans later.1, has.2.trans_le later.1.exprs_le⟩, has.trans later,
        supplies.extends later.1 (true_lt.trans_le has.1.exprs_le) has.2, second_supplies, ?_⟩
      obtain left | object := possible
      · exact second_possible.imp_left fun right => left.trans right.symm
      · exact .inr object
    · rintro error after ⟨rfl, reference, noObject, rfl⟩
      rw [false_type] at reference
      rw [has.1.location_eq false_lt]
      exact rejects whenFalse _ has.1 noObject (.inr rfl) reference
  · rintro error after ⟨rfl, reference, noObject, rfl⟩
    exact rejects whenTrue _ (.refl _) noObject (.inl rfl) reference

/-- What a conditional adds: its guard supplies a truth value, its branches supply values of their common
type, and it stands where its guard stands. -/
structure Chooses (before : Analysis) (guard whenTrue whenFalse id : ExprId) (after : Analysis) (type : Ty)
    (condition first second : ExprId) : Prop where
  /-- The type is the common one of the branches. -/
  unifies : (before.ast.typeOf whenTrue).Unifies (before.ast.typeOf whenFalse) type
  /-- The guard is a truth value. -/
  guard_supplies : after.ast.Supplies .bool guard condition
  /-- The first branch has the common type. -/
  true_supplies : after.ast.Supplies type whenTrue first
  /-- The second branch has the common type. -/
  false_supplies : after.ast.Supplies type whenFalse second
  /-- The conditional is added. -/
  added : after.ast.expr id =
    ⟨.conditional condition first second, type, (before.ast.expr guard).location⟩

/-- The ways in which a conditional fails. -/
inductive ChoiceFault (before : Analysis) (guard whenTrue whenFalse : ExprId) : Diagnostic → Prop
  /-- The guard is no truth value. -/
  | guard : (before.ast.typeOf guard).objectType ≠ .bool →
      ChoiceFault before guard whenTrue whenFalse (.semantic (before.ast.expr guard).location
        (.expectedCategory .boolean (before.ast.typeOf guard).objectType))
  /-- The branches have no type in common. -/
  | apart : (before.ast.typeOf guard).objectType = .bool →
      (∀ type, ¬ (before.ast.typeOf whenTrue).Unifies (before.ast.typeOf whenFalse) type) →
      ChoiceFault before guard whenTrue whenFalse (.semantic (before.ast.expr guard).location
        (.noCommonType (before.ast.typeOf whenTrue) (before.ast.typeOf whenFalse)))
  /-- The common type is none of objects, and one of the branches would have to be read. -/
  | unread {type : Ty} {branch : ExprId} : (before.ast.typeOf guard).objectType = .bool →
      (before.ast.typeOf whenTrue).Unifies (before.ast.typeOf whenFalse) type →
      type.isObject = false → (branch = whenTrue ∨ branch = whenFalse) →
      before.ast.typeOf branch = .reference type →
      ChoiceFault before guard whenTrue whenFalse (.semantic (before.ast.expr branch).location
        (.invalidConversion (.reference type) type))

/-- Whether a conditional succeeds: its guard is a truth value, and its branches have a type in common that
they have already or that is one of objects. -/
def CanChoose (before : Analysis) (guard whenTrue whenFalse : ExprId) : Prop :=
  (before.ast.typeOf guard).objectType = .bool ∧
    ∃ type, (before.ast.typeOf whenTrue).Unifies (before.ast.typeOf whenFalse) type ∧
      (before.ast.typeOf whenTrue = before.ast.typeOf whenFalse ∨ type.isObject = true)

/-- The outcome of a conditional. -/
theorem conditional_ensures_choice {guard whenTrue whenFalse : ExprId}
    (guard_lt : guard.index < before.ast.exprs.size)
    (true_lt : whenTrue.index < before.ast.exprs.size)
    (false_lt : whenFalse.index < before.ast.exprs.size) :
    Ensures (conditional guard whenTrue whenFalse) before
      (fun id after => before.ast.Extends after.ast ∧ CanChoose before guard whenTrue whenFalse ∧
        ∃ type condition first second,
          Chooses before guard whenTrue whenFalse id after type condition first second)
      fun error after => before.ast.Extends after.ast ∧
        ChoiceFault before guard whenTrue whenFalse error := by
  rw [conditional, ensures_bind]
  refine (requireBoolean_supplies guard_lt).mono ?_ ?_
  rotate_left
  · rintro error after ⟨extends', other, rfl⟩
    exact ⟨extends', .guard other⟩
  rintro condition guarded ⟨has, isBool, located, guard_supplies⟩
  have true_type : (guarded.ast.expr whenTrue).type = before.ast.typeOf whenTrue :=
    has.1.typeOf_eq true_lt
  have false_type : (guarded.ast.expr whenFalse).type = before.ast.typeOf whenFalse :=
    has.1.typeOf_eq false_lt
  simp only [ensures_bind, ensures_expr]
  rw [located, true_type, false_type]
  cases found : (before.ast.typeOf whenTrue).common? (before.ast.typeOf whenFalse) with
  | none =>
      rw [commonType, found]
      refine ⟨has.1, .apart isBool fun type unifies => ?_⟩
      rw [Ty.common?_eq_some.2 unifies] at found
      cases found
  | some type =>
      have unifies := Ty.common?_eq_some.1 found
      rw [commonType, found, ensures_pure]
      have guarded_lt {id : ExprId} (id_lt : id.index < before.ast.exprs.size) :
          id.index < guarded.ast.exprs.size := id_lt.trans_le has.1.exprs_le
      refine (convertTo_branches (guarded_lt true_lt) (guarded_lt false_lt) ?_ ?_).mono ?_
        fun _ _ rejected => rejected
      · rw [has.1.typeOf_eq true_lt, has.1.typeOf_eq false_lt]
        exact unifies
      · intro branch after extends' noObject isBranch reference
        have branch_lt : branch.index < before.ast.exprs.size := by
          obtain rfl | rfl := isBranch
          · exact true_lt
          · exact false_lt
        rw [has.1.typeOf_eq branch_lt] at reference
        rw [has.1.location_eq branch_lt]
        exact ⟨has.1.trans extends', .unread isBool unifies noObject isBranch reference⟩
      · refine fun first middle branches => branches.mono ?_ fun _ _ rejected => rejected
        rintro second late ⟨first_has, second_has, first_supplies, second_supplies, possible⟩
        rw [has.1.typeOf_eq true_lt, has.1.typeOf_eq false_lt] at possible
        refine (addExpr_has _ _ _).mono ?_ fun _ _ never => never.elim
        rintro id after ⟨id_has, added⟩
        have late_lt {id : ExprId} (id_lt : id.index < before.ast.exprs.size) :
            id.index < late.ast.exprs.size := (guarded_lt id_lt).trans_le first_has.1.exprs_le
        refine ⟨has.1.trans (first_has.1.trans id_has.1), ⟨isBool, type, unifies, possible⟩, type,
          condition, first, second, unifies, ?_, ?_, ?_, added⟩
        · exact guard_supplies.extends (first_has.1.trans id_has.1) (guarded_lt guard_lt) has.2
        · exact first_supplies.extends id_has.1 (late_lt true_lt) first_has.2
        · exact second_supplies.extends id_has.1 (late_lt false_lt) second_has.2

/-- A conditional that can succeed does not fail. -/
theorem ChoiceFault.not_canChoose {guard whenTrue whenFalse : ExprId} {error : Diagnostic}
    (fault : ChoiceFault before guard whenTrue whenFalse error) :
    ¬ CanChoose before guard whenTrue whenFalse := by
  rintro ⟨isBool, type, unifies, possible⟩
  cases fault with
  | guard other => exact other isBool
  | apart _ apart => exact apart type unifies
  | unread _ common noObject isBranch reference =>
      have same := Option.some.inj
        ((Ty.common?_eq_some.2 common).symm.trans (Ty.common?_eq_some.2 unifies))
      rw [same] at common noObject reference
      obtain alike | object := possible
      · refine common.ne_of_reference ?_ alike
        obtain rfl | rfl := isBranch
        · exact .inl reference
        · exact .inr reference
      · rw [object] at noObject
        cases noObject

/-- A conditional succeeds exactly if its guard is a truth value and its branches have a common type, which
is that of both or one of objects. Then both branches have that type, and a reference is read once where the
type is none. It fails only because of the guard, because the types have nothing in common, or because a
branch that designates storage for a function is not read. -/
theorem conditional_unifies {guard whenTrue whenFalse : ExprId}
    (guard_lt : guard.index < before.ast.exprs.size)
    (true_lt : whenTrue.index < before.ast.exprs.size)
    (false_lt : whenFalse.index < before.ast.exprs.size) :
    ((∃ id after, (conditional guard whenTrue whenFalse).run before = (.ok id, after)) ↔
      CanChoose before guard whenTrue whenFalse) ∧
    (∀ id after, (conditional guard whenTrue whenFalse).run before = (.ok id, after) →
      before.ast.Extends after.ast ∧ ∃ type condition first second,
        Chooses before guard whenTrue whenFalse id after type condition first second) ∧
    ∀ error after, (conditional guard whenTrue whenFalse).run before = (.error error, after) →
      before.ast.Extends after.ast ∧ ChoiceFault before guard whenTrue whenFalse error := by
  have outcome := conditional_ensures_choice guard_lt true_lt false_lt
  refine ⟨outcome.succeeds_iff ?_ ?_, fun id after run => ?_, fun error after run => ?_⟩
  · exact fun id after chosen => chosen.2.1
  · exact fun error after fault => fault.2.not_canChoose
  · have chosen := outcome.result run
    exact ⟨chosen.1, chosen.2.2⟩
  · exact outcome.error run

/-- A name without a place. -/
def named (name : String) : Token := ⟨.identifier name, .unknown⟩

/-- The uses of a truth value, of an integer variable, and of an integer. -/
def variableUses : Analysis :=
  (runAll [.enterGlobalScope, .declareObject .var (named "b") .bool,
    .declareObject .var (named "x") .int, .name (named "b"), .name (named "x"),
    .integerLiteral ⟨.integer 1 .decimal, .unknown⟩] .initial).2

/-- A variable may be chosen against a value of its type. -/
theorem conditional_unifies_of_variable :
    variableUses.ast.typeOf ⟨0⟩ = .reference .bool ∧ variableUses.ast.typeOf ⟨1⟩ = .reference .int ∧
      variableUses.ast.typeOf ⟨2⟩ = .int ∧
      ∃ id after, (conditional ⟨0⟩ ⟨1⟩ ⟨2⟩).run variableUses = (.ok id, after) := by
  have guard_type : variableUses.ast.typeOf ⟨0⟩ = .reference .bool := by decide +kernel
  have true_type : variableUses.ast.typeOf ⟨1⟩ = .reference .int := by decide +kernel
  have false_type : variableUses.ast.typeOf ⟨2⟩ = .int := by decide +kernel
  refine ⟨guard_type, true_type, false_type, ?_⟩
  have chooses := @conditional_unifies variableUses ⟨0⟩ ⟨1⟩ ⟨2⟩ (by decide +kernel) (by decide +kernel) (by decide +kernel)
  refine chooses.1.2 ⟨by rw [guard_type]; rfl, .int, ?_, .inr rfl⟩
  rw [true_type, false_type]
  exact .readLeft .int

/-- The uses of a truth value, of a variable of function type, and of a function of that type. -/
def functionUses : Analysis :=
  (runAll [.enterGlobalScope, .declareFunction (named "g") [] .int,
    .declareObject .var (named "p") (.function .int []), .booleanLiteral ⟨.boolean true, .unknown⟩,
    .name (named "p"), .name (named "g")] .initial).2

/-- A variable of function type cannot be chosen against a function of that type, although the type of the
function is common to both. -/
theorem conditional_functionVariable_rejected :
    functionUses.ast.typeOf ⟨0⟩ = .bool ∧
      functionUses.ast.typeOf ⟨1⟩ = .reference (functionUses.ast.typeOf ⟨2⟩) ∧
      ((conditional ⟨0⟩ ⟨1⟩ ⟨2⟩).run functionUses).1 = .error (.semantic .unknown
        (.invalidConversion (.reference (.function .int [])) (.function .int []))) := by
  decide +kernel

/-- Whether a cast to a type succeeds: the value of the operand has the type already and can be had as one
of it, or a conversion leads from its type to the wanted one. -/
def CanCast (before : Analysis) (operand : ExprId) (type : Ty) : Prop :=
  (before.ast.typeOf operand).objectType = type ∧
      (type.isObject = true ∨ before.ast.typeOf operand = type) ∨
    ∃ conversion, Conversion.Leads conversion (before.ast.typeOf operand).objectType type

/-- What a cast adds: the operand supplies a value, at most one conversion leads from it to the wanted type,
and the cast stands where its operand stands. -/
structure Casts (before : Analysis) (operand : ExprId) (type : Ty) (id : ExprId) (after : Analysis)
    (value converted : ExprId) : Prop where
  /-- The operand is read if it is a reference. -/
  supplies : after.ast.Supplies (before.ast.typeOf operand).objectType operand value
  /-- Nothing is converted if the value has the type already, and otherwise one conversion is added. -/
  route : (before.ast.typeOf operand).objectType = type ∧ converted = value ∨
    ∃ conversion, Conversion.Leads conversion (before.ast.typeOf operand).objectType type ∧
      after.ast.expr converted =
        ⟨.convert conversion value, type, (before.ast.expr operand).location⟩
  /-- The operand of the cast has the wanted type. -/
  typed : after.ast.typeOf converted = type
  /-- The cast is added. -/
  added : after.ast.expr id = ⟨.cast converted, type, (before.ast.expr operand).location⟩

/-- The outcome of a cast to a type of values. -/
theorem cast_ensures_casts {operand : ExprId} {type : Ty}
    (operand_lt : operand.index < before.ast.exprs.size)
    (flat : (before.ast.typeOf operand).objectType.isReference = false)
    (isValue : type.isReference = false) :
    Ensures (cast operand type) before
      (fun id after => before.ast.Extends after.ast ∧ CanCast before operand type ∧
        ∃ value converted, Casts before operand type id after value converted)
      fun error after => before.ast.Extends after.ast ∧ ¬ CanCast before operand type ∧
        error = .semantic (before.ast.expr operand).location (.invalidConversion
          (if type.isObject = true then (before.ast.typeOf operand).objectType
            else before.ast.typeOf operand) type) := by
  rw [cast, ensures_bind, ensures_expr, ensures_bind]
  by_cases object : type.isObject = true
  · refine (convertTo_converts operand_lt flat object).mono ?_ ?_
    · rintro converted middle ⟨has, typed, value, value_has, supplies, route⟩
      refine (addExpr_has _ _ _).mono ?_ fun _ _ never => never.elim
      rintro id after ⟨later, added⟩
      refine ⟨has.1.trans later.1, ?_, value, converted, ?_, ?_,
        (later.1.typeOf_eq has.2).trans typed, added⟩
      · refine route.imp (fun same => ⟨same.1, .inl object⟩) ?_
        rintro ⟨conversion, leads, -⟩
        exact ⟨conversion, leads⟩
      · exact supplies.extends later.1 (operand_lt.trans_le has.1.exprs_le) value_has.2
      · rwa [later.1.expr_eq converted has.2]
    · rintro error after ⟨extends', different, unconverted, rfl⟩
      rw [if_pos object]
      refine ⟨extends', ?_, rfl⟩
      rintro (⟨same, -⟩ | ⟨conversion, leads⟩)
      · exact different same
      · exact unconverted conversion leads
  · have noObject : type.isObject = false := Bool.eq_false_iff.2 object
    have unconverted (conversion : Conversion) :
        ¬ conversion.Leads (before.ast.typeOf operand).objectType type :=
      fun leads => object leads.basic.2.2
    by_cases same : before.ast.typeOf operand = type
    · have source : (before.ast.typeOf operand).objectType = type := by
        rw [same, Ty.objectType_of_not_reference isValue]
      refine (convertTo_same operand_lt same).mono ?_ fun _ _ never => never.elim
      rintro converted middle ⟨converted_eq, middle_eq⟩
      rw [converted_eq, middle_eq]
      refine (addExpr_has _ _ _).mono ?_ fun _ _ never => never.elim
      rintro id after ⟨later, added⟩
      have typed := (later.1.typeOf_eq operand_lt).trans same
      refine ⟨later.1, .inl ⟨source, .inr same⟩, operand, operand, ⟨typed.trans source.symm, ?_⟩,
        .inl ⟨source, rfl⟩, typed, added⟩
      rw [typed, isValue, if_neg (by simp)]
    · refine (convertTo_rejects noObject same).mono (fun _ _ never => never.elim) ?_
      rintro error after ⟨after_eq, rfl⟩
      rw [after_eq, if_neg object]
      refine ⟨.refl _, ?_, rfl⟩
      rintro (⟨-, possible | typed⟩ | ⟨conversion, leads⟩)
      · exact object possible
      · exact same typed
      · exact unconverted conversion leads

/-- Between types of values, a cast succeeds exactly if the operand has the type already, by itself or by
what it designates where that is an object, or if a conversion leads from its value to the type. Its operand
is then read at most once and converted at most once. Otherwise it fails, and nothing but the types of the
operand is blamed. -/
theorem cast_converts {operand : ExprId} {type : Ty}
    (operand_lt : operand.index < before.ast.exprs.size)
    (flat : (before.ast.typeOf operand).objectType.isReference = false)
    (isValue : type.isReference = false) :
    ((∃ id after, (cast operand type).run before = (.ok id, after)) ↔
      CanCast before operand type) ∧
    (∀ id after, (cast operand type).run before = (.ok id, after) →
      before.ast.Extends after.ast ∧ ∃ value converted,
        Casts before operand type id after value converted) ∧
    ∀ error after, (cast operand type).run before = (.error error, after) →
      before.ast.Extends after.ast ∧
        error = .semantic (before.ast.expr operand).location (.invalidConversion
          (if type.isObject = true then (before.ast.typeOf operand).objectType
            else before.ast.typeOf operand) type) := by
  have outcome := cast_ensures_casts operand_lt flat isValue
  refine ⟨outcome.succeeds_iff ?_ ?_, fun id after run => ?_, fun error after run => ?_⟩
  · exact fun id after casts => casts.2.1
  · exact fun error after fails => fails.2.1
  · have casts := outcome.result run
    exact ⟨casts.1, casts.2.2⟩
  · have fails := outcome.error run
    exact ⟨fails.1, fails.2.2⟩

/-- An integer variable may be cast to floating-point numbers. -/
theorem cast_converts_of_variable :
    variableUses.ast.typeOf ⟨1⟩ = .reference .int ∧
      ∃ id after, (cast ⟨1⟩ .float).run variableUses = (.ok id, after) := by
  have operand_type : variableUses.ast.typeOf ⟨1⟩ = .reference .int := by decide +kernel
  refine ⟨operand_type, ?_⟩
  have casts := @cast_converts variableUses ⟨1⟩ .float (by decide +kernel) (by rw [operand_type]; rfl) rfl
  refine casts.1.2 (.inr ⟨.toFloat, ?_⟩)
  rw [operand_type]
  exact .intToFloat

/-- A variable of function type cannot be cast to its own type. -/
theorem cast_functionVariable_rejected :
    functionUses.ast.typeOf ⟨1⟩ = .reference (.function .int []) ∧
      ((cast ⟨1⟩ (.function .int [])).run functionUses).1 = .error (.semantic .unknown
        (.invalidConversion (.reference (.function .int [])) (.function .int []))) := by
  decide +kernel

end Analysis

end Minilang
