import Minilang.Proofs.Semantics.Agreement

/-!
# Operations of lowered operators

The operation that an operator or a conversion stands for gives the word that matches what the operator or
the conversion gives.
-/

namespace Minilang

open Evaluation (Result World)
open Ir (Word)

variable {program : Program} {layout : Layout} {frame : Ir.Frame} {floats : FloatArithmetic}
  {result : Result}

section Unary

variable {operand : Ir.Value} {value : Result} {word : Word}
  (held : frame.value operand = some word) (same : Matches program layout value word)

include held same

theorem UnaryOperator.compute_of_apply {operator : UnaryOperator}
    (applied : operator.apply value = some result) :
    ∃ computed, frame.compute floats (operator.operation operand) = some computed ∧
      Matches program layout result computed := by
  cases operator with
  | bitNot =>
      cases same <;> cases applied
      next number =>
      refine ⟨.int (number ^^^ -1), (Ir.Frame.compute_binary _ held rfl).trans rfl, ?_⟩
      rw [Int32.xor_neg_one]
      exact .int (~~~number)
  | logicalNot =>
      cases same <;> cases applied
      next holds =>
      refine ⟨.bool (holds ^^ true), (Ir.Frame.compute_binary _ held rfl).trans rfl, ?_⟩
      rw [Bool.xor_true]
      exact .bool !holds

/-- A conversion of a value is computed. -/
theorem Conversion.compute_of_apply {conversion : Conversion} {source : Ty} (target : Ty)
    (applied : conversion.apply floats source value = some result) :
    ∃ computed, frame.compute floats
        (conversion.operation (.ofTy source) (.ofTy target) operand) = some computed ∧
      Matches program layout result computed := by
  cases conversion with
  | load => cases source <;> cases applied
  | toBool =>
      cases source <;> cases same <;> cases applied <;>
        exact ⟨_, (Ir.Frame.compute_compare _ held rfl).trans rfl, .bool _⟩
  | toChar =>
      cases source <;> cases same <;> cases applied
      exact ⟨_, Ir.Frame.compute_cast _ _ held, .char _⟩
  | toInt =>
      cases source <;> cases same <;> cases applied <;>
        exact ⟨_, Ir.Frame.compute_cast _ _ held, .int _⟩
  | truncate =>
      cases source <;> cases same <;> try cases applied
      next number =>
      obtain ⟨integer, truncated, rfl⟩ := Option.map_eq_some_iff.1 applied
      refine ⟨.int integer, ?_, .int integer⟩
      rw [Conversion.operation, Ir.Frame.compute_cast _ _ held, Ir.CastOperator.apply, truncated]
      rfl
  | toFloat =>
      cases source <;> cases same <;> cases applied
      exact ⟨_, Ir.Frame.compute_cast _ _ held, .float _⟩

end Unary

section Binary

variable {operator : BinaryOperator}

theorem Matches.of_map_int {number : Option Int32} (found : number.map Datum.int = some result) :
    ∃ word, (number.map Datum.int : Option Word) = some word ∧
      Matches program layout result word := by
  obtain ⟨value, rfl, rfl⟩ := Option.map_eq_some_iff.1 found
  exact ⟨.int value, rfl, .int value⟩

namespace BinaryOperator

/-- Integers are compared in the same way. -/
theorem predicate_of_ofInts {first second : Int32} {predicate : Ir.Predicate}
    (stands : operator.predicate? false = some predicate)
    (applied : operator.ofInts first second = some result) :
    ∃ holds, predicate.apply floats (.int first) (.int second) = some holds ∧
      result = .bool holds := by
  cases operator <;> cases stands <;> exact ⟨_, rfl, (Option.some.inj applied).symm⟩

/-- Integers are calculated with in the same way. -/
theorem instruction_of_ofInts {first second : Int32} {instruction : Ir.Operator}
    (stands : operator.instruction? false = some instruction)
    (applied : operator.ofInts first second = some result) :
    ∃ word, instruction.apply floats (.int first) (.int second) = some word ∧
      Matches program layout result word := by
  cases operator <;> cases stands
  case div | rem | shl | shr => exact Matches.of_map_int applied
  all_goals
    cases applied
    exact ⟨_, rfl, .int _⟩

/-- Floating-point numbers are compared in the same way. -/
theorem predicate_of_ofFloats {first second : Binary64} {predicate : Ir.Predicate}
    (stands : operator.predicate? true = some predicate)
    (applied : operator.ofFloats floats first second = some result) :
    ∃ holds, predicate.apply floats (.float first) (.float second) = some holds ∧
      result = .bool holds := by
  cases operator <;> cases stands <;> exact ⟨_, rfl, (Option.some.inj applied).symm⟩

/-- Floating-point numbers are calculated with in the same way. -/
theorem instruction_of_ofFloats {first second : Binary64} {instruction : Ir.Operator}
    (stands : operator.instruction? true = some instruction)
    (applied : operator.ofFloats floats first second = some result) :
    ∃ word, instruction.apply floats (.float first) (.float second) = some word ∧
      Matches program layout result word := by
  cases operator <;> cases stands <;> cases applied <;> exact ⟨_, rfl, .float _⟩

section Others

variable {left right : Result} {leftWord rightWord : Word}
  (applied : operator.ofOthers left right = some result)

include applied

/-- Other data are compared in the same way. -/
theorem predicate_of_ofOthers {predicate : Ir.Predicate}
    (same : leftWord.same? rightWord = left.same? right)
    (stands : operator.predicate? false = some predicate) :
    ∃ holds, predicate.apply floats leftWord rightWord = some holds ∧ result = .bool holds := by
  cases operator <;> cases stands
  case eq =>
    obtain ⟨holds, found, rfl⟩ := Option.map_eq_some_iff.1 applied
    exact ⟨holds, same.trans found, rfl⟩
  case ne =>
    obtain ⟨holds, found, rfl⟩ := Option.map_eq_some_iff.1 applied
    exact ⟨!holds, Option.map_eq_some_iff.2 ⟨holds, same.trans found, rfl⟩, rfl⟩
  all_goals cases applied

/-- Other data are not calculated with. -/
theorem instruction?_of_ofOthers : operator.instruction? false = none := by
  cases operator <;> first | rfl | cases applied

end Others

variable {left right : Result} {leftWord rightWord : Word} {leftValue rightValue : Ir.Value}
  {operation : Ir.Operation}

/-- An operation is computed by comparing or by calculating. -/
theorem compute_of_operation? {type : Ir.ValueType}
    (leftHeld : frame.value leftValue = some leftWord)
    (rightHeld : frame.value rightValue = some rightWord)
    (stands : operator.operation? type leftValue rightValue = some operation)
    (compares : ∀ predicate, operator.predicate? type.isFloat = some predicate →
      ∃ holds, predicate.apply floats leftWord rightWord = some holds ∧ result = .bool holds)
    (calculates : ∀ instruction, operator.instruction? type.isFloat = some instruction →
      ∃ word, instruction.apply floats leftWord rightWord = some word ∧
        Matches program layout result word) :
    ∃ word, frame.compute floats operation = some word ∧ Matches program layout result word := by
  rw [operation?] at stands
  cases predicated : operator.predicate? type.isFloat with
  | some predicate =>
      rw [predicated] at stands
      cases stands
      obtain ⟨holds, compared, rfl⟩ := compares predicate predicated
      refine ⟨.bool holds, ?_, .bool holds⟩
      rw [Ir.Frame.compute_compare _ leftHeld rightHeld, compared]
      rfl
  | none =>
      rw [predicated] at stands
      obtain ⟨instruction, found, rfl⟩ := Option.map_eq_some_iff.1 stands
      rw [Ir.Frame.compute_binary _ leftHeld rightHeld]
      exact calculates instruction found

/-- The operation that an operator stands for gives what the operator gives. -/
theorem compute_of_apply {type : Ty} (same : leftWord.same? rightWord = left.same? right)
    (leftSame : Matches program layout left leftWord)
    (rightSame : Matches program layout right rightWord)
    (leftHeld : frame.value leftValue = some leftWord)
    (rightHeld : frame.value rightValue = some rightWord)
    (stands : operator.operation? (.ofTy type) leftValue rightValue = some operation)
    (applied : operator.apply floats type left right = some result) :
    ∃ word, frame.compute floats operation = some word ∧ Matches program layout result word := by
  refine compute_of_operation? leftHeld rightHeld stands ?_ ?_
  · intro predicate found
    cases type with
    | int =>
        cases leftSame <;> cases rightSame <;> try cases applied
        exact predicate_of_ofInts found applied
    | float =>
        cases leftSame <;> cases rightSame <;> try cases applied
        exact predicate_of_ofFloats found applied
    | bool | char | pointer | reference | function =>
        exact predicate_of_ofOthers applied same found
  · intro instruction found
    cases type with
    | int =>
        cases leftSame <;> cases rightSame <;> try cases applied
        exact instruction_of_ofInts found applied
    | float =>
        cases leftSame <;> cases rightSame <;> try cases applied
        exact instruction_of_ofFloats found applied
    | bool | char | pointer | reference | function =>
        cases (instruction?_of_ofOthers applied).symm.trans found

end BinaryOperator

end Binary

end Minilang
