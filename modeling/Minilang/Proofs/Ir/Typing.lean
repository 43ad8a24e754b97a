import Minilang.Proofs.Ir.Dominance

/-!
# Types of instructions

A temporary has the type of the instruction that defines it. In a module whose instructions are typed, every
operand has the type that the instruction states for it, and the functions that are called by name get
arguments of the types of their parameters.
-/

namespace Minilang.Ir

/-- The types of the arguments and of the result of a function. -/
structure Signature where
  /-- The types of the arguments in order. -/
  arguments : List ValueType
  /-- The type of the result. -/
  result : ValueType
deriving DecidableEq, Repr

/-- Whether an operator works on values of a type. -/
def Operator.accepts (type : ValueType) : Operator → Bool
  | add | sub | mul | sdiv | srem | and | or | shl | ashr => type == .i32
  | xor => type == .i32 || type == .i1
  | fadd | fsub | fmul | fdiv | frem => type == .f32

/-- The types between which casts lead. -/
inductive CastOperator.Leads : CastOperator → ValueType → ValueType → Prop
  | trunc : Leads .trunc .i32 .i8
  | zext : Leads .zext .i1 .i32
  | sext : Leads .sext .i8 .i32
  | fptosi : Leads .fptosi .f32 .i32
  | sitofp : Leads .sitofp .i32 .f32

namespace Operation

/-- The type of the result of an operation. Writing memory has none. -/
def type? : Operation → Option ValueType
  | alloca _ => some .ptr
  | load type _ => some type
  | store _ _ _ => none
  | binary _ type _ _ => some type
  | compare _ _ _ _ => some .i1
  | cast _ _ target _ => some target
  | call result _ _ => some result
  | phi type _ => some type

section Typing

variable (holds : Value → ValueType → Prop) (calls : String → Signature → Prop)

/-- Whether the operands of an operation have the types that it states. -/
inductive WellTyped : Operation → Prop
  | alloca (type : ValueType) : WellTyped (.alloca type)
  | load {type : ValueType} {pointer : Value} :
      holds pointer .ptr → WellTyped (.load type pointer)
  | store {type : ValueType} {value pointer : Value} :
      holds value type → holds pointer .ptr → WellTyped (.store type value pointer)
  | binary {operator : Operator} {type : ValueType} {left right : Value} :
      operator.accepts type = true → holds left type → holds right type →
      WellTyped (.binary operator type left right)
  | compare {predicate : Predicate} {type : ValueType} {left right : Value} :
      predicate.isFloat = type.isFloat → holds left type → holds right type →
      WellTyped (.compare predicate type left right)
  | cast {operator : CastOperator} {source target : ValueType} {value : Value} :
      operator.Leads source target → holds value source →
      WellTyped (.cast operator source target value)
  | call {result : ValueType} {callee : Value} {arguments : List (ValueType × Value)} :
      holds callee .ptr → (∀ argument ∈ arguments, holds argument.2 argument.1) →
      (∀ name, callee = .function name → calls name ⟨arguments.map Prod.fst, result⟩) →
      WellTyped (.call result callee arguments)
  | phi {type : ValueType} {incoming : List (Value × Nat)} :
      (∀ value ∈ incoming.map Prod.fst, holds value type) → WellTyped (.phi type incoming)

end Typing

section Laws

variable {holds weaker : Value → ValueType → Prop} {calls more : String → Signature → Prop}
  {operation : Operation}

theorem WellTyped.mono (typed : operation.WellTyped holds calls)
    (holds_imp : ∀ value type, holds value type → weaker value type)
    (calls_imp : ∀ name signature, calls name signature → more name signature) :
    operation.WellTyped weaker more := by
  cases typed with
  | alloca type => exact .alloca type
  | load pointer => exact .load (holds_imp _ _ pointer)
  | store value pointer => exact .store (holds_imp _ _ value) (holds_imp _ _ pointer)
  | binary accepts left right => exact .binary accepts (holds_imp _ _ left) (holds_imp _ _ right)
  | compare same left right => exact .compare same (holds_imp _ _ left) (holds_imp _ _ right)
  | cast leads value => exact .cast leads (holds_imp _ _ value)
  | call callee arguments called =>
      exact .call (holds_imp _ _ callee)
        (fun argument member => holds_imp _ _ (arguments argument member))
        fun name same => calls_imp _ _ (called name same)
  | phi incoming => exact .phi fun value member => holds_imp _ _ (incoming value member)

/-- Every operand of a typed operation has a type. -/
theorem WellTyped.operand (typed : operation.WellTyped holds calls) :
    ∀ value ∈ operation.operands, ∃ type, holds value type := by
  cases typed with
  | alloca => exact List.forall_mem_nil _
  | load pointer => exact List.forall_mem_singleton.2 ⟨_, pointer⟩
  | store value pointer =>
      exact List.forall_mem_cons.2 ⟨⟨_, value⟩, List.forall_mem_singleton.2 ⟨_, pointer⟩⟩
  | binary _ left right | compare _ left right =>
      exact List.forall_mem_cons.2 ⟨⟨_, left⟩, List.forall_mem_singleton.2 ⟨_, right⟩⟩
  | cast _ value => exact List.forall_mem_singleton.2 ⟨_, value⟩
  | call callee arguments =>
      refine List.forall_mem_cons.2 ⟨⟨_, callee⟩, List.forall_mem_map.2 ?_⟩
      exact fun argument member => ⟨_, arguments argument member⟩
  | phi incoming => exact fun value member => ⟨_, incoming value member⟩

end Laws

end Operation

namespace Terminator

/-- Whether a condition is a truth value and a result has the type of the function. -/
inductive WellTyped (holds : Value → ValueType → Prop) (result : ValueType) : Terminator → Prop
  | branch (target : Nat) : WellTyped holds result (.branch target)
  | condBranch {condition : Value} (whenTrue whenFalse : Nat) :
      holds condition .i1 → WellTyped holds result (.condBranch condition whenTrue whenFalse)
  | ret {value : Value} : holds value result → WellTyped holds result (.ret result value)

variable {holds weaker : Value → ValueType → Prop} {result : ValueType} {terminator : Terminator}

theorem WellTyped.mono (typed : terminator.WellTyped holds result)
    (holds_imp : ∀ value type, holds value type → weaker value type) :
    terminator.WellTyped weaker result := by
  cases typed with
  | branch target => exact .branch target
  | condBranch whenTrue whenFalse condition => exact .condBranch _ _ (holds_imp _ _ condition)
  | ret value => exact .ret (holds_imp _ _ value)

/-- Every operand of a typed terminator has a type. -/
theorem WellTyped.operand (typed : terminator.WellTyped holds result) :
    ∀ value ∈ terminator.operands, ∃ type, holds value type := by
  cases typed with
  | branch => exact List.forall_mem_nil _
  | condBranch _ _ condition => exact List.forall_mem_singleton.2 ⟨_, condition⟩
  | ret value => exact List.forall_mem_singleton.2 ⟨_, value⟩

end Terminator

namespace Function

/-- The types of the parameters and of the result. -/
def signature (function : Function) : Signature :=
  ⟨function.parameters.map Parameter.type, function.result⟩

/-- The instruction that defines a temporary. -/
def definition? (function : Function) (temporary : Nat) : Option Instruction :=
  function.instructions.find? fun instruction => instruction.result == some temporary

/-- The type of a value: that of the instruction which defines a temporary, and that of the parameter which
an argument belongs to. Names of the module are addresses. -/
def typeOf? (function : Function) : Value → Option ValueType
  | .const constant => some constant.type
  | .temp index => (function.definition? index).bind fun instruction => instruction.operation.type?
  | .arg index => function.parameters[index]?.map Parameter.type
  | .global _ | .function _ => some .ptr

/-- Whether a value has a type. -/
def Holds (function : Function) (value : Value) (type : ValueType) : Prop :=
  function.typeOf? value = some type

/-- Whether all instructions and terminators of a function are typed. -/
structure WellTyped (calls : String → Signature → Prop) (function : Function) : Prop where
  /-- Instructions are typed. -/
  instruction : ∀ block ∈ function.blocks, ∀ instruction ∈ block.instructions,
    instruction.operation.WellTyped function.Holds calls
  /-- Terminators are typed. -/
  terminator : ∀ block ∈ function.blocks,
    block.terminator.WellTyped function.Holds function.result

/-- The only instruction with a result is the one that defines it. -/
theorem definition?_eq {function : Function} {temporary : Nat} {instruction : Instruction}
    (nodup : (results function.instructions).Nodup)
    (member : instruction ∈ function.instructions)
    (defines : instruction.result = some temporary) :
    function.definition? temporary = some instruction := by
  rw [definition?]
  generalize function.instructions = instructions at nodup member
  induction instructions with
  | nil => cases member
  | cons first rest induction =>
      rw [results_cons, List.nodup_append] at nodup
      rw [List.find?_cons]
      by_cases same : first.result = some temporary
      · rw [same, beq_self_eq_true]
        rcases List.mem_cons.1 member with rfl | member
        · rfl
        · have defined : temporary ∈ results rest := List.mem_filterMap.2 ⟨_, member, defines⟩
          exact absurd rfl (nodup.2.2 temporary (by simp [same]) temporary defined)
      · rw [beq_eq_false_iff_ne.2 same]
        rcases List.mem_cons.1 member with rfl | member
        · exact absurd defines same
        · exact induction nodup.2.1 member

end Function

namespace Module

/-- Whether the function with a name has a signature. -/
def Calls (module : Module) (name : String) (signature : Signature) : Prop :=
  ∃ function, module.function? name = some function ∧ function.signature = signature

/-- Whether all functions of a module are typed. -/
def WellTyped (module : Module) : Prop :=
  ∀ function ∈ module.functions, function.WellTyped module.Calls

end Module

end Minilang.Ir
