import Mathlib.Data.List.Basic
import Minilang.Proofs.Analysis.Operators

/-!
# Calls

What a call makes of its callee and its arguments, exactly: when it succeeds, which expressions it adds, and
what is blamed otherwise. The callee is blamed first, then the number of arguments, and then the leftmost
argument whose type is not that of its parameter.
-/

namespace Minilang

namespace Ast

/-- What the values of operands need, one operand after another. -/
def readsAll (ast : Ast) (operands : List ExprId) : List Expr := operands.flatMap ast.reads

/-- The values of operands, where what they need is added from an index on. -/
def valuesAt (ast : Ast) : (index : Nat) → (operands : List ExprId) → List ExprId
  | _, [] => []
  | index, operand :: operands =>
    ast.valueAt index operand :: valuesAt ast (index + (ast.reads operand).length) operands

/-- Whether an expression is the value of an operand: it reads what the operand designates, and is the
operand itself if that is no reference. -/
def IsValueOf (ast : Ast) (operand value : ExprId) : Prop :=
  match ast.typeOf operand with
  | .reference object =>
    ast.expr value = ⟨.convert .load operand, object, (ast.expr operand).location⟩
  | _ => value = operand

end Ast

namespace Analysis

section Values

variable {before : Analysis} {id value : ExprId} {exprs : List Expr} {operands : List ExprId}

theorem lt_size_withExprs (id_lt : id.index < before.ast.exprs.size) :
    id.index < (before.withExprs exprs).ast.exprs.size := by
  rw [size_withExprs]
  exact Nat.lt_add_right _ id_lt

theorem readsAll_withExprs (operands_lt : ∀ id ∈ operands, id.index < before.ast.exprs.size) :
    (before.withExprs exprs).ast.readsAll operands = before.ast.readsAll operands :=
  List.flatMap_congr fun id member => reads_withExprs (operands_lt id member)

theorem valuesAt_withExprs (operands_lt : ∀ id ∈ operands, id.index < before.ast.exprs.size)
    (index : Nat) :
    (before.withExprs exprs).ast.valuesAt index operands = before.ast.valuesAt index operands := by
  induction operands generalizing index with
  | nil => rfl
  | cons operand operands induction =>
      obtain ⟨operand_lt, others_lt⟩ := List.forall_mem_cons.1 operands_lt
      rw [Ast.valuesAt, Ast.valuesAt, valueAt_withExprs operand_lt, reads_withExprs operand_lt,
        induction others_lt]

theorem valueTypes_withExprs (operands_lt : ∀ id ∈ operands, id.index < before.ast.exprs.size) :
    operands.map (before.withExprs exprs).ast.valueType = operands.map before.ast.valueType :=
  List.map_congr_left fun id member => valueType_withExprs (operands_lt id member)

/-- What operands need is added for the first one and then for the others. -/
theorem withExprs_readsAll_cons {operand : ExprId}
    (operands_lt : ∀ id ∈ operands, id.index < before.ast.exprs.size) :
    (before.withExprs (before.ast.reads operand)).withExprs
        ((before.withExprs (before.ast.reads operand)).ast.readsAll operands) =
      before.withExprs (before.ast.readsAll (operand :: operands)) := by
  rw [readsAll_withExprs operands_lt, withExprs_append]
  rfl

/-- An expression is still the value of an operand when more expressions are added. -/
theorem isValueOf_withExprs (id_lt : id.index < before.ast.exprs.size)
    (value_lt : value.index < before.ast.exprs.size) :
    (before.withExprs exprs).ast.IsValueOf id value ↔ before.ast.IsValueOf id value := by
  rw [Ast.IsValueOf, Ast.IsValueOf, Ast.typeOf, Ast.typeOf, expr_withExprs id_lt,
    expr_withExprs value_lt]

/-- The value of an operand is found where what it needs is added. -/
theorem valueAt_isValueOf (id_lt : id.index < before.ast.exprs.size) :
    (before.withExprs (before.ast.reads id)).ast.IsValueOf id
      (before.ast.valueAt before.ast.exprs.size id) := by
  rw [Ast.IsValueOf, Ast.typeOf, expr_withExprs id_lt, ← Ast.typeOf]
  split
  · next object reference =>
    rw [Ast.reads, Ast.valueAt, reference]
    simp [withExprs, Ast.expr]
  · next noReference =>
    rw [Ast.valueAt]
    split
    · next object reference => exact absurd reference (noReference object)
    · rfl

/-- The values of operands are found where what they need is added, whatever is added behind that. -/
theorem valuesAt_areValuesOf (operands_lt : ∀ id ∈ operands, id.index < before.ast.exprs.size) :
    List.Forall₂ (before.withExprs (before.ast.readsAll operands ++ exprs)).ast.IsValueOf operands
      (before.ast.valuesAt before.ast.exprs.size operands) := by
  induction operands generalizing before with
  | nil => exact .nil
  | cons operand operands induction =>
      obtain ⟨operand_lt, others_lt⟩ := List.forall_mem_cons.1 operands_lt
      have others := @induction (before.withExprs (before.ast.reads operand))
        fun id member => lt_size_withExprs (others_lt id member)
      rw [← withExprs_append, withExprs_readsAll_cons others_lt, valuesAt_withExprs others_lt,
        size_withExprs, withExprs_append] at others
      refine .cons ?_ others
      rw [← withExprs_append, ← withExprs_readsAll_cons others_lt, withExprs_append,
        isValueOf_withExprs (lt_size_withExprs operand_lt) (valueAt_lt operand_lt)]
      exact valueAt_isValueOf operand_lt

end Values

section Arguments

variable {before : Analysis} {callee : ExprId} {arguments : List ExprId}

/-- Why arguments do not fit the parameters, the first of them having the given position: those to the left
of one have the types of their parameters, and that one has another type. -/
def ArgumentFault (before : Analysis) (position : Nat) (arguments : List ExprId)
    (parameters : List Ty) (error : Diagnostic) : Prop :=
  ∃ front argument others parameter rest, arguments = front ++ argument :: others ∧
    parameters = front.map before.ast.valueType ++ parameter :: rest ∧
    before.ast.valueType argument ≠ parameter ∧
    error = .semantic (before.ast.expr argument).location
      (.argumentMismatch (position + front.length) parameter (before.ast.valueType argument))

/-- Adding expressions does not change which argument does not fit. -/
theorem ArgumentFault.of_withExprs {exprs : List Expr} {position : Nat} {parameters : List Ty}
    {error : Diagnostic} (arguments_lt : ∀ id ∈ arguments, id.index < before.ast.exprs.size)
    (fault : ArgumentFault (before.withExprs exprs) position arguments parameters error) :
    ArgumentFault before position arguments parameters error := by
  obtain ⟨front, argument, others, parameter, rest, rfl, rfl, different, rfl⟩ := fault
  rw [List.forall_mem_append, List.forall_mem_cons] at arguments_lt
  obtain ⟨front_lt, argument_lt, -⟩ := arguments_lt
  rw [valueTypes_withExprs front_lt, expr_withExprs argument_lt, valueType_withExprs argument_lt]
  rw [valueType_withExprs argument_lt] at different
  exact ⟨front, argument, others, parameter, rest, rfl, rfl, different, rfl⟩

/-- An argument that fits stands to the left of the one that does not. -/
theorem ArgumentFault.cons {position : Nat} {parameters : List Ty} {error : Diagnostic}
    (fault : ArgumentFault before (position + 1) arguments parameters error) (argument : ExprId) :
    ArgumentFault before position (argument :: arguments)
      (before.ast.valueType argument :: parameters) error := by
  obtain ⟨front, found, others, parameter, rest, rfl, rfl, different, rfl⟩ := fault
  refine ⟨argument :: front, found, others, parameter, rest, rfl, rfl, different, ?_⟩
  rw [List.length_cons, Nat.add_assoc, Nat.add_comm 1]

/-- Arguments are converted from left to right, up to the first one that does not fit. -/
theorem convertArguments_added {position : Nat} {parameters : List Ty}
    (arguments_lt : ∀ id ∈ arguments, id.index < before.ast.exprs.size)
    (length_eq : arguments.length = parameters.length) :
    Ensures (convertArguments position arguments parameters) before
      (fun values after => parameters = arguments.map before.ast.valueType ∧
        values = before.ast.valuesAt before.ast.exprs.size arguments ∧
        after = before.withExprs (before.ast.readsAll arguments))
      fun error after => ArgumentFault before position arguments parameters error ∧
        ∃ seen, seen <+: arguments ∧ after = before.withExprs (before.ast.readsAll seen) := by
  induction arguments generalizing before position parameters with
  | nil =>
      obtain rfl := List.length_eq_zero_iff.1 length_eq.symm
      exact ⟨rfl, rfl, withExprs_nil.symm⟩
  | cons argument arguments induction =>
      obtain ⟨parameter, parameters, rfl⟩ := List.exists_cons_of_length_eq_add_one length_eq.symm
      obtain ⟨argument_lt, others_lt⟩ := List.forall_mem_cons.1 arguments_lt
      rw [convertArguments, ensures_bind]
      refine (load_added argument).mono ?_ fun _ _ never => never.elim
      rintro value middle ⟨rfl, rfl⟩
      obtain ⟨type_eq, location_eq⟩ := expr_valueAt before argument
      rw [ensures_bind, ensures_expr, type_eq, location_eq]
      split
      · next different =>
        refine ⟨⟨[], argument, arguments, parameter, parameters, rfl, rfl, different, rfl⟩,
          [argument], ⟨arguments, rfl⟩, ?_⟩
        rw [Ast.readsAll, List.flatMap_singleton]
      · next fits =>
        obtain rfl := not_not.1 fits
        refine (ensures_bind _ _).2 ((induction
          (fun id member => lt_size_withExprs (others_lt id member))
          (Nat.succ.inj length_eq)).mono ?_ ?_)
        · rintro values after ⟨rfl, rfl, rfl⟩
          rw [ensures_pure, valueTypes_withExprs others_lt, valuesAt_withExprs others_lt,
            size_withExprs, withExprs_readsAll_cons others_lt]
          exact ⟨rfl, rfl, rfl⟩
        · rintro error after ⟨fault, seen, seen_first, rfl⟩
          have seen_lt : ∀ id ∈ seen, id.index < before.ast.exprs.size :=
            fun id member => others_lt id (seen_first.subset member)
          exact ⟨(fault.of_withExprs others_lt).cons argument, argument :: seen,
            List.cons_prefix_cons.2 ⟨rfl, seen_first⟩, withExprs_readsAll_cons seen_lt⟩

/-- Whether a call succeeds: the callee is a function whose parameters have the types of the arguments, one
for one. -/
def CanCall (before : Analysis) (callee : ExprId) (arguments : List ExprId) : Prop :=
  ∃ result, before.ast.valueType callee = .function result (arguments.map before.ast.valueType)

/-- What a call adds: behind what the callee and the arguments need, the call itself. It has the result type
of the callee, stands where the callee stands, and is made of the values of the callee and of the
arguments. -/
structure Calls (before : Analysis) (callee : ExprId) (arguments : List ExprId) (id : ExprId)
    (after : Analysis) (result : Ty) (function : ExprId) (values : List ExprId) : Prop where
  /-- The callee gives the result type. -/
  callee_type : (before.ast.valueType callee).returnType? = some result
  /-- The callee and the arguments are read where they are references, in their order. -/
  values_of : List.Forall₂ after.ast.IsValueOf (callee :: arguments) (function :: values)
  /-- The call is the last expression. -/
  id_eq : id = ⟨before.ast.exprs.size + (before.ast.readsAll (callee :: arguments)).length⟩
  /-- Nothing else is added. -/
  after_eq : after = before.withExprs (before.ast.readsAll (callee :: arguments) ++
    [⟨.call function values, result, (before.ast.expr callee).location⟩])

/-- Why arguments do not suit a callee with the given parameters. Their number is blamed at the callee. -/
inductive ArgumentsFault (before : Analysis) (callee : ExprId) (arguments : List ExprId)
    (parameters : List Ty) : Diagnostic → Prop
  /-- There are more arguments than parameters. -/
  | tooMany : parameters.length < arguments.length →
      ArgumentsFault before callee arguments parameters (.semantic (before.ast.expr callee).location
        (.tooManyArguments parameters.length arguments.length))
  /-- There are fewer arguments than parameters. -/
  | tooFew : arguments.length < parameters.length →
      ArgumentsFault before callee arguments parameters (.semantic (before.ast.expr callee).location
        (.tooFewArguments parameters.length arguments.length))
  /-- There are as many arguments as parameters, and one does not fit. -/
  | unfit {error : Diagnostic} : arguments.length = parameters.length →
      ArgumentFault before 1 arguments parameters error →
      ArgumentsFault before callee arguments parameters error

/-- Why a call fails. -/
inductive CallFault (before : Analysis) (callee : ExprId) (arguments : List ExprId) :
    Diagnostic → Prop
  /-- The callee is no function. -/
  | callee : ¬ Category.function.Comprises (before.ast.valueType callee) →
      CallFault before callee arguments (.semantic (before.ast.expr callee).location
        (.expectedCategory .function (before.ast.valueType callee)))
  /-- The arguments do not suit the callee. -/
  | arguments {result : Ty} {parameters : List Ty} {error : Diagnostic} :
      before.ast.valueType callee = .function result parameters →
      ArgumentsFault before callee arguments parameters error →
      CallFault before callee arguments error

/-- Arguments that do not fit their parameters have other types. -/
theorem ArgumentFault.types_ne {position : Nat} {parameters : List Ty} {error : Diagnostic}
    (fault : ArgumentFault before position arguments parameters error) :
    parameters ≠ arguments.map before.ast.valueType := by
  obtain ⟨front, argument, others, parameter, rest, rfl, rfl, different, -⟩ := fault
  rw [List.map_append, List.map_cons, Ne, List.append_cancel_left_eq, List.cons.injEq]
  exact fun same => different same.1.symm

/-- One argument is the leftmost one that does not fit. -/
theorem ArgumentFault.unique {position : Nat} {parameters : List Ty} {error other : Diagnostic}
    (fault : ArgumentFault before position arguments parameters error)
    (otherFault : ArgumentFault before position arguments parameters other) : error = other := by
  obtain ⟨front, argument, others, parameter, rest, rfl, rfl, different, rfl⟩ := fault
  obtain ⟨front', argument', others', parameter', rest', arguments_eq, parameters_eq, different',
    rfl⟩ := otherFault
  induction front generalizing front' position with
  | nil =>
      cases front' with
      | nil =>
          cases arguments_eq
          cases parameters_eq
          rfl
      | cons first front' =>
          cases arguments_eq
          cases parameters_eq
          exact absurd rfl different
  | cons first front induction =>
      cases front' with
      | nil =>
          cases arguments_eq
          cases parameters_eq
          exact absurd rfl different'
      | cons first' front' =>
          rw [List.cons_append, List.cons_append, List.cons.injEq] at arguments_eq
          have same := @induction (position + 1) front' arguments_eq.2
            (List.cons.inj parameters_eq).2
          simpa [Nat.add_comm, Nat.add_left_comm] using same

theorem ArgumentsFault.unique {parameters : List Ty} {error other : Diagnostic}
    (fault : ArgumentsFault before callee arguments parameters error)
    (otherFault : ArgumentsFault before callee arguments parameters other) : error = other := by
  cases fault with
  | tooMany | tooFew => cases otherFault <;> first | rfl | omega
  | unfit length_eq fault =>
      cases otherFault with
      | tooMany | tooFew => omega
      | unfit _ other => exact fault.unique other

/-- A call is blamed for one fault at most. -/
theorem CallFault.unique {error other : Diagnostic}
    (fault : CallFault before callee arguments error)
    (otherFault : CallFault before callee arguments other) : error = other := by
  cases fault with
  | callee outside =>
      cases otherFault with
      | callee => rfl
      | arguments callee_type => exact absurd (callee_type ▸ .functionOf _ _) outside
  | arguments callee_type fault =>
      cases otherFault with
      | callee outside => exact absurd (callee_type ▸ .functionOf _ _) outside
      | arguments other_type other =>
          cases callee_type.symm.trans other_type
          exact fault.unique other

/-- A call that fails does not succeed. -/
theorem CallFault.not_canCall {error : Diagnostic}
    (fault : CallFault before callee arguments error) : ¬ CanCall before callee arguments := by
  rintro ⟨result, callee_type⟩
  cases fault with
  | callee outside => exact outside (callee_type ▸ .functionOf _ _)
  | arguments other_type fault =>
      cases callee_type.symm.trans other_type
      have length_eq : (arguments.map before.ast.valueType).length = arguments.length :=
        List.length_map _
      cases fault with
      | tooMany count | tooFew count => omega
      | unfit _ fault => exact fault.types_ne rfl

/-- The outcome of a call. -/
theorem call_calls (callee_lt : callee.index < before.ast.exprs.size)
    (arguments_lt : ∀ id ∈ arguments, id.index < before.ast.exprs.size) :
    Ensures (call callee arguments) before
      (fun id after => CanCall before callee arguments ∧
        ∃ result function values, Calls before callee arguments id after result function values)
      fun error after => CallFault before callee arguments error ∧
        ∃ seen, seen <+: callee :: arguments ∧
          after = before.withExprs (before.ast.readsAll seen) := by
  have reads_callee : before.ast.readsAll [callee] = before.ast.reads callee := by
    rw [Ast.readsAll, List.flatMap_singleton]
  have callee_prefix : [callee] <+: callee :: arguments := ⟨arguments, rfl⟩
  rw [call, ensures_bind]
  refine (requireCategory_added .function callee).mono ?_ ?_
  rotate_left
  · rintro error after ⟨outside, rfl, rfl⟩
    exact ⟨.callee outside, [callee], callee_prefix, by rw [reads_callee]⟩
  rintro function middle ⟨comprised, rfl, rfl⟩
  obtain ⟨type_eq, location_eq⟩ := expr_valueAt before callee
  rw [ensures_bind, ensures_expr, type_eq, location_eq]
  generalize callee_type : before.ast.valueType callee = type at comprised
  cases comprised with
  | functionOf result parameters =>
    dsimp only
    split
    · next count =>
      exact ⟨.arguments callee_type (.tooMany count), [callee], callee_prefix, by rw [reads_callee]⟩
    split
    · next count =>
      exact ⟨.arguments callee_type (.tooFew count), [callee], callee_prefix, by rw [reads_callee]⟩
    have length_eq : arguments.length = parameters.length := by omega
    refine (ensures_bind _ _).2 ((convertArguments_added
      (fun id member => lt_size_withExprs (arguments_lt id member)) length_eq).mono ?_ ?_)
    · rintro values late ⟨rfl, rfl, rfl⟩
      rw [valueTypes_withExprs arguments_lt] at callee_type
      refine (addExpr_added _ _ _).mono ?_ fun _ _ never => never.elim
      rintro id after ⟨rfl, rfl⟩
      rw [withExprs_readsAll_cons arguments_lt, size_withExprs, withExprs_append, size_withExprs,
        valuesAt_withExprs arguments_lt]
      exact ⟨⟨result, callee_type⟩, result, _, _, congrArg Ty.returnType? callee_type,
        valuesAt_areValuesOf (List.forall_mem_cons.2 ⟨callee_lt, arguments_lt⟩), rfl, rfl⟩
    · rintro error after ⟨fault, seen, seen_first, rfl⟩
      have seen_lt : ∀ id ∈ seen, id.index < before.ast.exprs.size :=
        fun id member => arguments_lt id (seen_first.subset member)
      exact ⟨.arguments callee_type (.unfit length_eq (fault.of_withExprs arguments_lt)),
        callee :: seen, List.cons_prefix_cons.2 ⟨rfl, seen_first⟩, withExprs_readsAll_cons seen_lt⟩

/-- A call that has a fault fails for it. -/
theorem call_fails_iff (callee_lt : callee.index < before.ast.exprs.size)
    (arguments_lt : ∀ id ∈ arguments, id.index < before.ast.exprs.size) {error : Diagnostic} :
    (∃ after, (call callee arguments).run before = (.error error, after)) ↔
      CallFault before callee arguments error := by
  have outcome := call_calls callee_lt arguments_lt
  refine ⟨fun ⟨after, run⟩ => (outcome.error run).1, fun fault => ?_⟩
  cases run : (call callee arguments).run before with
  | mk result after =>
      cases result with
      | ok id => exact absurd (outcome.result run).1 fault.not_canCall
      | error other =>
          obtain rfl := fault.unique (outcome.error run).1
          exact ⟨after, rfl⟩

/-- A call succeeds exactly if its callee is a function and the types of the values of its arguments are
those of the parameters, one for one. The call then has the result type, and its arguments are those that
are given, in their order, each reference among them read once. Otherwise one fault is blamed: that the
callee is no function, or else that there are too many or too few arguments, or else the leftmost argument
whose type is not that of its parameter. Nothing but reads of a first part of the operands is added then. -/
theorem call_settled (callee_lt : callee.index < before.ast.exprs.size)
    (arguments_lt : ∀ id ∈ arguments, id.index < before.ast.exprs.size) :
    Settled (call callee arguments) before (CanCall before callee arguments)
      (fun id after => ∃ result function values,
        Calls before callee arguments id after result function values)
      (CallFault before callee arguments) ∧
    (∀ error, (∃ after, (call callee arguments).run before = (.error error, after)) ↔
      CallFault before callee arguments error) ∧
    ∀ error after, (call callee arguments).run before = (.error error, after) →
      ∃ seen, seen <+: callee :: arguments ∧
        after = before.withExprs (before.ast.readsAll seen) := by
  have outcome := call_calls callee_lt arguments_lt
  exact ⟨outcome.settled (fun _ _ fails => fails.1.not_canCall) fun _ _ fails => fails.1,
    fun _ => call_fails_iff callee_lt arguments_lt, fun _ _ run => (outcome.error run).2⟩

end Arguments

/-- The uses of a function with two parameters, of an integer variable, and of a truth value. -/
def callUses : Analysis :=
  (runAll [.enterGlobalScope, .enterParameterScope, .declareParameter (named "a") .int,
    .declareParameter (named "b") .bool, .leaveScope,
    .declareFunction (named "f") [⟨0⟩, ⟨1⟩] .float, .declareObject .var (named "x") .int,
    .name (named "f"), .name (named "x"), .booleanLiteral ⟨.boolean true, .unknown⟩] .initial).2

/-- An integer variable and a truth value suit parameters of their types. Where the variable stands in the
place of the truth value, it is blamed as the second argument. -/
theorem call_settled_of_variable :
    callUses.ast.typeOf ⟨0⟩ = .function .float [.int, .bool] ∧
      callUses.ast.typeOf ⟨1⟩ = .reference .int ∧ callUses.ast.typeOf ⟨2⟩ = .bool ∧
      (∃ id after, (call ⟨0⟩ [⟨1⟩, ⟨2⟩]).run callUses = (.ok id, after)) ∧
      ∃ after, (call ⟨0⟩ [⟨1⟩, ⟨1⟩]).run callUses =
        (.error (.semantic .unknown (.argumentMismatch 2 .bool .int)), after) := by
  have function_type : callUses.ast.typeOf ⟨0⟩ = .function .float [.int, .bool] := by
    decide +kernel
  have variable_type : callUses.ast.typeOf ⟨1⟩ = .reference .int := by decide +kernel
  have boolean_type : callUses.ast.typeOf ⟨2⟩ = .bool := by decide +kernel
  have size_eq : callUses.ast.exprs.size = 3 := by decide +kernel
  have callee_value : callUses.ast.valueType ⟨0⟩ = .function .float [.int, .bool] :=
    congrArg Ty.objectType function_type
  have variable_value : callUses.ast.valueType ⟨1⟩ = .int := congrArg Ty.objectType variable_type
  have boolean_value : callUses.ast.valueType ⟨2⟩ = .bool := congrArg Ty.objectType boolean_type
  have variable_location : (callUses.ast.expr ⟨1⟩).location = .unknown := by decide +kernel
  refine ⟨function_type, variable_type, boolean_type, ?_, ?_⟩
  · have settled := @call_settled callUses ⟨0⟩ [⟨1⟩, ⟨2⟩] (by simp [size_eq]) (by simp [size_eq])
    refine settled.1.succeeds_iff.2 ⟨.float, ?_⟩
    simp [callee_value, variable_value, boolean_value]
  · have settled := @call_settled callUses ⟨0⟩ [⟨1⟩, ⟨1⟩] (by simp [size_eq]) (by simp [size_eq])
    refine (settled.2.1 _).2 (.arguments callee_value (.unfit rfl ?_))
    refine ⟨[⟨1⟩], ⟨1⟩, [], .bool, [], rfl, ?_, ?_, ?_⟩
    · simp [variable_value]
    · simp [variable_value]
    · rw [variable_value, variable_location]
      rfl

end Analysis

end Minilang
