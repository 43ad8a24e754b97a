import Minilang.Proofs.Analysis.Growth
import Minilang.Proofs.Semantics.Datum

/-!
# Evaluation of analyzed programs

What a program means is given by evaluating its nodes. Every variable and parameter is one place for each
activation of its function, and every variable at the top is one place. A constant of a function holds the
value that its initializer had where it was declared, and a constant at the top stands for its initializer.
Evaluation takes fuel, and what has no meaning fails.
-/

namespace Minilang

/-- Where an object is stored. -/
inductive Place where
  /-- The storage of a variable at the top. -/
  | static (declaration : DeclId)
  /-- The storage of a variable or parameter in one activation of its function. -/
  | automatic (activation : Nat) (declaration : DeclId)
deriving DecidableEq, Repr

namespace Evaluation

/-- What an expression evaluates to. -/
abbrev Result : Type := Datum Place DeclId

/-- What all activations share. -/
structure World where
  /-- What has been written to places. -/
  memory : Place → Option Result
  /-- The number of activations so far. -/
  activations : Nat

/-- A step of evaluation, which may fail. -/
abbrev Eval (α : Type) : Type := StateT World Option α

/-- What belongs to one activation of a function. -/
structure Frame where
  /-- The number of activations before. -/
  activation : Nat
  /-- The values of the constants declared so far. -/
  constants : DeclId → Option Result

/-- How a statement ends. -/
inductive Completion where
  /-- What follows goes on. -/
  | normal
  /-- The innermost loop is left. -/
  | broken
  /-- The innermost loop goes on with its next round. -/
  | continued
  /-- The function is left with a value. -/
  | returned (value : Result)

/-- How the parts of a program are evaluated. -/
structure Evaluator where
  /-- Evaluate an expression. -/
  expr : Frame → ExprId → Eval Result
  /-- Execute a statement. -/
  stmt : Frame → StmtId → Eval (Completion × Frame)
  /-- Call a function. -/
  call : DeclId → List Result → Eval Result

namespace World

/-- The world in which a place has been written. -/
def write (world : World) (place : Place) (value : Result) : World :=
  { world with memory := fun other => if other = place then some value else world.memory other }

@[simp]
theorem write_memory (world : World) (place other : Place) (value : Result) :
    (world.write place value).memory other =
      if other = place then some value else world.memory other := rfl

@[simp]
theorem write_activations (world : World) (place : Place) (value : Result) :
    (world.write place value).activations = world.activations := rfl

end World

namespace Frame

/-- The frame in which a constant has its value. -/
def declare (frame : Frame) (declaration : DeclId) (value : Result) : Frame :=
  { frame with
    constants := fun other => if other = declaration then some value else frame.constants other }

@[simp]
theorem declare_activation (frame : Frame) (declaration : DeclId) (value : Result) :
    (frame.declare declaration value).activation = frame.activation := rfl

@[simp]
theorem declare_constants (frame : Frame) (declaration other : DeclId) (value : Result) :
    (frame.declare declaration value).constants other =
      if other = declaration then some value else frame.constants other := rfl

end Frame

/-- A step that has no meaning. -/
def stuck {α : Type} : Eval α := fun _ => none

/-- A step that gives what there may be. -/
def lift {α : Type} (value : Option α) : Eval α := fun world => value.map (·, world)

/-- Read a place that has been written. -/
def read (place : Place) : Eval Result := fun world => (world.memory place).map (·, world)

/-- Write a place. -/
def write (place : Place) (value : Result) : Eval Unit := modify (·.write place value)

/-- The number of a new activation. -/
def activate : Eval Nat :=
  modifyGet fun world => (world.activations, { world with activations := world.activations + 1 })

end Evaluation

open Evaluation

namespace UnaryOperator

/-- The result of an operator. -/
def apply : UnaryOperator → Result → Option Result
  | bitNot, .int value => some (.int (~~~value))
  | logicalNot, .bool value => some (.bool !value)
  | _, _ => none

end UnaryOperator

namespace BinaryOperator

/-- The result of an operator on integers. -/
def ofInts (left right : Int32) : BinaryOperator → Option Result
  | add => some (.int (left + right))
  | sub => some (.int (left - right))
  | mul => some (.int (left * right))
  | div => (IntArithmetic.div left right).map .int
  | rem => (IntArithmetic.rem left right).map .int
  | and => some (.int (left &&& right))
  | or => some (.int (left ||| right))
  | xor => some (.int (left ^^^ right))
  | shl => (IntArithmetic.shl left right).map .int
  | shr => (IntArithmetic.shr left right).map .int
  | eq => some (.bool (left == right))
  | ne => some (.bool (left != right))
  | lt => some (.bool (decide (left < right)))
  | gt => some (.bool (decide (right < left)))
  | le => some (.bool (decide (left ≤ right)))
  | ge => some (.bool (decide (right ≤ left)))
  | logicalAnd | logicalOr => none

/-- The result of an operator on floating-point numbers. -/
def ofFloats (floats : FloatArithmetic) (left right : Binary64) : BinaryOperator → Option Result
  | add => some (.float (floats.add left right))
  | sub => some (.float (floats.sub left right))
  | mul => some (.float (floats.mul left right))
  | div => some (.float (floats.div left right))
  | rem => some (.float (floats.rem left right))
  | eq => some (.bool (floats.eq left right))
  | ne => some (.bool (floats.ne left right))
  | lt => some (.bool (floats.lt left right))
  | gt => some (.bool (floats.gt left right))
  | le => some (.bool (floats.le left right))
  | ge => some (.bool (floats.ge left right))
  | and | or | xor | shl | shr | logicalAnd | logicalOr => none

/-- The result of an operator on data that are no numbers. -/
def ofOthers (left right : Result) : BinaryOperator → Option Result
  | eq => (left.same? right).map .bool
  | ne => (left.same? right).map fun same => .bool !same
  | _ => none

/-- The result of an operator on values of a type. -/
def apply (floats : FloatArithmetic) (operator : BinaryOperator) :
    Ty → Result → Result → Option Result
  | .float, .float left, .float right => operator.ofFloats floats left right
  | .int, .int left, .int right => operator.ofInts left right
  | .float, _, _ | .int, _, _ => none
  | _, left, right => operator.ofOthers left right

end BinaryOperator

namespace Conversion

/-- The result of a conversion of a value of a type. Reading storage is no conversion of a value. -/
def apply (floats : FloatArithmetic) : Conversion → Ty → Result → Option Result
  | toBool, .char, .char value => some (.bool (value != 0))
  | toBool, .int, .int value => some (.bool (value != 0))
  | toBool, .float, .float value => some (.bool (floats.ne value .zero))
  | toChar, .int, .int value => some (.char (IntArithmetic.toChar value))
  | toInt, .bool, .bool value => some (.int (IntArithmetic.ofBool value))
  | toInt, .char, .char value => some (.int (IntArithmetic.ofChar value))
  | truncate, .float, .float value => (floats.truncate value).map .int
  | toFloat, .int, .int value => some (.float (floats.ofInt value))
  | _, _, _ => none

end Conversion

namespace Ty

/-- The zero of a type. -/
def zero : Ty → Result
  | bool => .bool false
  | char => .char 0
  | int => .int 0
  | float => .float .zero
  | pointer _ | reference _ | function _ _ => .null

end Ty

namespace Evaluation

/-- What a name of the function around it stands for: the storage of a variable or a parameter, or the value
that a constant has. -/
def localResult? (program : Program) (frame : Frame) (declaration : DeclId) : Option Result :=
  if (program.ast.kindOf declaration).isVariable then
    some (.place (.automatic frame.activation declaration))
  else if (program.ast.kindOf declaration).isConstant then frame.constants declaration
  else none

/-- Evaluate a name. -/
def evalName (program : Program) (evaluator : Evaluator) (frame : Frame) (declaration : DeclId) :
    Eval Result :=
  if declaration ∈ program.declarations then
    match program.ast.kindOf declaration with
    | .object .var _ _ => return .place (.static declaration)
    | .object _ _ (some initializer) => evaluator.expr frame initializer
    | .function _ _ _ => return .code declaration
    | _ => stuck
  else lift (localResult? program frame declaration)

/-- Evaluate expressions from left to right. -/
def evalAll (evalExpr : ExprId → Eval Result) : List ExprId → Eval (List Result)
  | [] => return []
  | expression :: expressions => do
    let value ← evalExpr expression
    let rest ← evalAll evalExpr expressions
    return value :: rest

/-- Evaluate both or either of two expressions, the right one only where the left one does not decide the
result. -/
def evalLogical (evalExpr : ExprId → Eval Result) (isOr : Bool) (left right : ExprId) :
    Eval Result := do
  let decided ← lift (← evalExpr left).truth?
  if decided = isOr then return .bool isOr else evalExpr right

/-- Evaluate one of two expressions. -/
def evalConditional (evalExpr : ExprId → Eval Result) (guard whenTrue whenFalse : ExprId) :
    Eval Result := do
  let holds ← lift (← evalExpr guard).truth?
  if holds then evalExpr whenTrue else evalExpr whenFalse

/-- Evaluate one expression; its operands are evaluated by the given evaluator. -/
def evalKind (program : Program) (floats : FloatArithmetic) (evaluator : Evaluator) (frame : Frame) :
    ExprKind → Eval Result
  | .bool value => return .bool value
  | .int value => return .int value
  | .float value => return .float value
  | .char value => return .char value
  | .name declaration => evalName program evaluator frame declaration
  | .unary operator operand => do
    let value ← evaluator.expr frame operand
    lift (operator.apply value)
  | .binary .logicalAnd left right => evalLogical (evaluator.expr frame) false left right
  | .binary .logicalOr left right => evalLogical (evaluator.expr frame) true left right
  | .binary operator left right => do
    let leftValue ← evaluator.expr frame left
    let rightValue ← evaluator.expr frame right
    lift (operator.apply floats (program.ast.typeOf left) leftValue rightValue)
  | .call callee arguments => do
    let function ← evaluator.expr frame callee
    let values ← evalAll (evaluator.expr frame) arguments
    evaluator.call (← lift function.code?) values
  | .index _ _ => stuck
  | .cast operand => evaluator.expr frame operand
  | .assign target value => do
    let place ← lift (← evaluator.expr frame target).place?
    let stored ← evaluator.expr frame value
    write place stored
    return .place place
  | .conditional guard whenTrue whenFalse =>
    evalConditional (evaluator.expr frame) guard whenTrue whenFalse
  | .convert .load operand => do
    read (← lift (← evaluator.expr frame operand).place?)
  | .convert conversion operand => do
    let value ← evaluator.expr frame operand
    lift (conversion.apply floats (program.ast.typeOf operand) value)

/-- Execute statements one after another as long as they complete normally. -/
def execSequence (execStmt : Frame → StmtId → Eval (Completion × Frame)) :
    Frame → List StmtId → Eval (Completion × Frame)
  | frame, [] => return (.normal, frame)
  | frame, statement :: statements => do
    match ← execStmt frame statement with
    | (.normal, next) => execSequence execStmt next statements
    | other => return other

/-- Execute a statement; what is in it is executed by the given evaluator. A loop goes on with the loop
itself. -/
def execForm (program : Program) (evaluator : Evaluator) (frame : Frame) (id : StmtId) :
    Stmt → Eval (Completion × Frame)
  | .block statements => execSequence evaluator.stmt frame statements
  | .whenTrue guard body => do
    let holds ← lift (← evaluator.expr frame guard).truth?
    if holds then evaluator.stmt frame body else return (.normal, frame)
  | .ifElse guard whenTrue whenFalse => do
    let holds ← lift (← evaluator.expr frame guard).truth?
    if holds then evaluator.stmt frame whenTrue else evaluator.stmt frame whenFalse
  | .whileTrue guard body => do
    let holds ← lift (← evaluator.expr frame guard).truth?
    if holds then
      match ← evaluator.stmt frame body with
      | (.broken, next) => return (.normal, next)
      | (.returned value, next) => return (.returned value, next)
      | (_, next) => evaluator.stmt next id
    else return (.normal, frame)
  | .breakLoop _ => return (.broken, frame)
  | .continueLoop _ => return (.continued, frame)
  | .returnValue value => do return (.returned (← evaluator.expr frame value), frame)
  | .declaration declaration =>
    match program.ast.kindOf declaration with
    | .object .var _ (some initializer) => do
      write (.automatic frame.activation declaration) (← evaluator.expr frame initializer)
      return (.normal, frame)
    | .object _ _ (some initializer) => do
      return (.normal, frame.declare declaration (← evaluator.expr frame initializer))
    | _ => stuck
  | .expression expression => do
    let _ ← evaluator.expr frame expression
    return (.normal, frame)

/-- Write the arguments of a call to the parameters. -/
def writeParameters (activation : Nat) : List DeclId → List Result → Eval Unit
  | [], [] => return
  | parameter :: parameters, argument :: arguments => do
    write (.automatic activation parameter) argument
    writeParameters activation parameters arguments
  | _, _ => stuck

/-- Call a function. Behind its body it gives the zero of its result type. -/
def callFunction (program : Program) (evaluator : Evaluator) (id : DeclId)
    (arguments : List Result) : Eval Result :=
  match program.ast.kindOf id with
  | .function (.function result _) parameters (some body) => do
    let activation ← activate
    writeParameters activation parameters arguments
    match ← evaluator.stmt ⟨activation, fun _ => none⟩ body with
    | (.normal, _) => return result.zero
    | (.returned value, _) => return value
    | _ => stuck
  | _ => stuck

end Evaluation

namespace Program

/-- Evaluation with a given depth, which counts the rounds of loops as well. -/
def evaluator (program : Program) (floats : FloatArithmetic) : (fuel : Nat) → Evaluator
  | 0 => ⟨fun _ _ => stuck, fun _ _ => stuck, fun _ _ => stuck⟩
  | fuel + 1 =>
    let inner := program.evaluator floats fuel
    { expr := fun frame id => evalKind program floats inner frame (program.ast.expr id).kind
      stmt := fun frame id => execForm program inner frame id (program.ast.stmt id)
      call := callFunction program inner }

/-- The world before anything has been called: variables at the top hold zero. -/
def initialWorld (program : Program) : World where
  memory
    | .static declaration =>
      if declaration ∈ program.declarations then
        match program.ast.kindOf declaration with
        | .object .var type _ => some type.zero
        | _ => none
      else none
    | .automatic _ _ => none
  activations := 0

end Program

namespace Evaluation

/-- Whether a step gives a result and leads from one world to another one. -/
def Yields {α : Type} (step : Eval α) (before : World) (result : α) (after : World) : Prop :=
  step before = some (result, after)

variable {α β : Type} {before after : World} {result : α}

theorem yields_pure {value : α} :
    Yields (pure value : Eval α) before result after ↔ value = result ∧ before = after := by
  change some (value, before) = some (result, after) ↔ _
  rw [Option.some.injEq, Prod.mk.injEq]

theorem yields_bind {step : Eval β} {next : β → Eval α} :
    Yields (step >>= next) before result after ↔
      ∃ value middle, Yields step before value middle ∧ Yields (next value) middle result after := by
  change (step before).bind (fun pair => next pair.1 pair.2) = some (result, after) ↔ _
  rw [Option.bind_eq_some_iff, Prod.exists]
  rfl

theorem yields_lift {value : Option α} :
    Yields (lift value) before result after ↔ value = some result ∧ before = after := by
  cases value with
  | none => exact iff_of_false nofun fun found => nomatch found.1
  | some value =>
      change some (value, before) = some (result, after) ↔ _
      rw [Option.some.injEq, Prod.mk.injEq, Option.some.injEq]

theorem not_yields_stuck : ¬Yields (stuck : Eval α) before result after := nofun

theorem yields_read {place : Place} {value : Result} :
    Yields (read place) before value after ↔ before.memory place = some value ∧ before = after :=
  yields_lift

theorem yields_write {place : Place} {value : Result} {done : Unit} :
    Yields (write place value) before done after ↔ before.write place value = after := by
  change some ((), before.write place value) = some (done, after) ↔ _
  rw [Option.some.injEq, Prod.mk.injEq]
  exact and_iff_right rfl

theorem yields_activate {activation : Nat} :
    Yields activate before activation after ↔
      before.activations = activation ∧
        { before with activations := before.activations + 1 } = after := by
  change some (before.activations, _) = some (activation, after) ↔ _
  rw [Option.some.injEq, Prod.mk.injEq]

section Forms

variable {evalExpr : ExprId → Eval Result} {value : Result}

/-- A logical operator is its left operand where that decides the result, and its right one elsewhere. -/
theorem yields_evalLogical {isOr : Bool} {left right : ExprId}
    (yields : Yields (evalLogical evalExpr isOr left right) before value after) :
    ∃ leftValue middle decided, Yields (evalExpr left) before leftValue middle ∧
      leftValue.truth? = some decided ∧
      if decided = isOr then value = .bool isOr ∧ after = middle
      else Yields (evalExpr right) middle value after := by
  rw [evalLogical, yields_bind] at yields
  obtain ⟨leftValue, middle, leftYields, yields⟩ := yields
  rw [yields_bind] at yields
  obtain ⟨decided, _, lifts, yields⟩ := yields
  obtain ⟨truth, rfl⟩ := yields_lift.1 lifts
  refine ⟨leftValue, middle, decided, leftYields, truth, ?_⟩
  by_cases isDecided : decided = isOr
  · rw [if_pos isDecided, yields_pure] at yields
    rw [if_pos isDecided]
    exact ⟨yields.1.symm, yields.2.symm⟩
  · rw [if_neg isDecided] at yields ⊢
    exact yields

/-- A choice is one of its two branches. -/
theorem yields_evalConditional {guard whenTrue whenFalse : ExprId}
    (yields : Yields (evalConditional evalExpr guard whenTrue whenFalse) before value after) :
    ∃ guardValue middle holds, Yields (evalExpr guard) before guardValue middle ∧
      guardValue.truth? = some holds ∧
      Yields (evalExpr (if holds then whenTrue else whenFalse)) middle value after := by
  rw [evalConditional, yields_bind] at yields
  obtain ⟨guardValue, middle, guardYields, yields⟩ := yields
  rw [yields_bind] at yields
  obtain ⟨holds, _, lifts, yields⟩ := yields
  obtain ⟨truth, rfl⟩ := yields_lift.1 lifts
  refine ⟨guardValue, middle, holds, guardYields, truth, ?_⟩
  cases holds <;> exact yields

/-- An operator that is not logical is applied to the values of both operands. -/
theorem yields_evalBinary {program : Program} {floats : FloatArithmetic} {evaluator : Evaluator}
    {frame : Frame} {operator : BinaryOperator} {left right : ExprId}
    (strict : operator.isLogical = false)
    (yields : Yields (evalKind program floats evaluator frame (.binary operator left right)) before
      value after) :
    ∃ leftValue middle rightValue, Yields (evaluator.expr frame left) before leftValue middle ∧
      Yields (evaluator.expr frame right) middle rightValue after ∧
      operator.apply floats (program.ast.typeOf left) leftValue rightValue = some value := by
  replace yields : Yields (do
      let leftValue ← evaluator.expr frame left
      let rightValue ← evaluator.expr frame right
      lift (operator.apply floats (program.ast.typeOf left) leftValue rightValue)) before value
        after := by
    cases operator <;> first | exact yields | cases strict
  rw [yields_bind] at yields
  obtain ⟨leftValue, middle, leftYields, yields⟩ := yields
  rw [yields_bind] at yields
  obtain ⟨rightValue, _, rightYields, lifts⟩ := yields
  obtain ⟨applied, rfl⟩ := yields_lift.1 lifts
  exact ⟨leftValue, middle, rightValue, leftYields, rightYields, applied⟩

/-- Reading is from the place that the operand gives, and other conversions are applied to its value. -/
theorem yields_evalConversion {program : Program} {floats : FloatArithmetic} {evaluator : Evaluator}
    {frame : Frame} {conversion : Conversion} {operand : ExprId}
    (yields : Yields (evalKind program floats evaluator frame (.convert conversion operand)) before
      value after) :
    ∃ operandValue middle, Yields (evaluator.expr frame operand) before operandValue middle ∧
      if conversion = .load then
        ∃ place, operandValue.place? = some place ∧ middle.memory place = some value ∧ middle = after
      else
        conversion.apply floats (program.ast.typeOf operand) operandValue = some value ∧
          middle = after := by
  by_cases isLoad : conversion = .load
  · rw [isLoad, evalKind, yields_bind] at yields
    obtain ⟨operandValue, middle, operandYields, yields⟩ := yields
    rw [yields_bind] at yields
    obtain ⟨place, _, lifts, reads⟩ := yields
    obtain ⟨isPlace, rfl⟩ := yields_lift.1 lifts
    refine ⟨operandValue, middle, operandYields, ?_⟩
    rw [if_pos isLoad]
    exact ⟨place, isPlace, yields_read.1 reads⟩
  · replace yields : Yields (do
        let value ← evaluator.expr frame operand
        lift (conversion.apply floats (program.ast.typeOf operand) value)) before value after := by
      cases conversion <;> first | exact yields | exact absurd rfl isLoad
    rw [yields_bind] at yields
    obtain ⟨operandValue, middle, operandYields, lifts⟩ := yields
    refine ⟨operandValue, middle, operandYields, ?_⟩
    rw [if_neg isLoad]
    exact yields_lift.1 lifts

/-- An assignment writes what the value gives to the place that the target gives, and gives that place. -/
theorem yields_evalAssignment {program : Program} {floats : FloatArithmetic} {evaluator : Evaluator}
    {frame : Frame} {target stored : ExprId}
    (yields : Yields (evalKind program floats evaluator frame (.assign target stored)) before value
      after) :
    ∃ place middle storedValue last, Yields (evaluator.expr frame target) before (.place place) middle ∧
      Yields (evaluator.expr frame stored) middle storedValue last ∧
      value = .place place ∧ last.write place storedValue = after := by
  rw [evalKind, yields_bind] at yields
  obtain ⟨targetValue, middle, targetYields, yields⟩ := yields
  rw [yields_bind] at yields
  obtain ⟨place, _, lifts, yields⟩ := yields
  obtain ⟨isPlace, rfl⟩ := yields_lift.1 lifts
  rw [yields_bind] at yields
  obtain ⟨storedValue, last, storedYields, yields⟩ := yields
  rw [yields_bind] at yields
  obtain ⟨_, _, writes, yields⟩ := yields
  obtain ⟨rfl, rfl⟩ := yields_pure.1 yields
  cases targetValue <;> cases isPlace
  exact ⟨place, middle, storedValue, last, targetYields, storedYields, rfl, yields_write.1 writes⟩

/-- A call evaluates the function, then the arguments, and then calls the function. -/
theorem yields_evalCall {program : Program} {floats : FloatArithmetic} {evaluator : Evaluator}
    {frame : Frame} {callee : ExprId} {arguments : List ExprId}
    (yields : Yields (evalKind program floats evaluator frame (.call callee arguments)) before value
      after) :
    ∃ id middle values last, Yields (evaluator.expr frame callee) before (.code id) middle ∧
      Yields (evalAll (evaluator.expr frame) arguments) middle values last ∧
      Yields (evaluator.call id values) last value after := by
  rw [evalKind, yields_bind] at yields
  obtain ⟨function, middle, calleeYields, yields⟩ := yields
  rw [yields_bind] at yields
  obtain ⟨values, last, argumentsYield, yields⟩ := yields
  rw [yields_bind] at yields
  obtain ⟨id, _, lifts, calls⟩ := yields
  obtain ⟨isCode, rfl⟩ := yields_lift.1 lifts
  cases function <;> cases isCode
  exact ⟨id, middle, values, last, calleeYields, argumentsYield, calls⟩

end Forms

section Statements

variable {program : Program} {floats : FloatArithmetic} {evaluator : Evaluator} {frame last : Frame}
  {completion : Completion} {execStmt : Frame → StmtId → Eval (Completion × Frame)} {id : StmtId}
  {statements : List StmtId}

/-- A sequence of one statement is that statement. -/
theorem yields_execSequence_singleton :
    Yields (execSequence execStmt frame [id]) before (completion, last) after ↔
      Yields (execStmt frame id) before (completion, last) after := by
  rw [execSequence, yields_bind]
  constructor
  · rintro ⟨⟨first, next⟩, middle, yields, rest⟩
    cases first <;> exact (yields_pure.1 rest).1 ▸ (yields_pure.1 rest).2 ▸ yields
  · intro yields
    refine ⟨(completion, last), after, yields, ?_⟩
    cases completion <;> exact yields_pure.2 ⟨rfl, rfl⟩

/-- Statements go on where the first one completes normally. -/
theorem yields_execSequence_cons
    (yields : Yields (execSequence execStmt frame (id :: statements)) before (completion, last)
      after) :
    (∃ next middle, Yields (execSequence execStmt frame [id]) before (.normal, next) middle ∧
      Yields (execSequence execStmt next statements) middle (completion, last) after) ∨
    (Yields (execSequence execStmt frame [id]) before (completion, last) after ∧
      completion ≠ .normal) := by
  rw [execSequence, yields_bind] at yields
  obtain ⟨⟨first, next⟩, middle, yields, rest⟩ := yields
  simp only [yields_execSequence_singleton]
  cases first with
  | normal => exact .inl ⟨next, middle, yields, rest⟩
  | broken | continued | returned =>
      obtain ⟨same, rfl⟩ := yields_pure.1 rest
      cases same
      exact .inr ⟨yields, nofun⟩

/-- A truth value decides how a statement goes on. -/
theorem yields_guarded {α : Type} {guard : ExprId} {next : Bool → Eval α} {result : α}
    (yields : Yields (do
        let holds ← lift (← evaluator.expr frame guard).truth?
        next holds) before result after) :
    ∃ guardValue middle holds, Yields (evaluator.expr frame guard) before guardValue middle ∧
      guardValue.truth? = some holds ∧ Yields (next holds) middle result after := by
  rw [yields_bind] at yields
  obtain ⟨guardValue, middle, guardYields, yields⟩ := yields
  rw [yields_bind] at yields
  obtain ⟨holds, _, lifts, yields⟩ := yields
  obtain ⟨truth, rfl⟩ := yields_lift.1 lifts
  exact ⟨guardValue, middle, holds, guardYields, truth, yields⟩

/-- A variable is declared by writing the value of its initializer to its storage. -/
theorem yields_variable {declaration : DeclId} {type : Ty} {initializer : ExprId}
    (kind_eq : program.ast.kindOf declaration = .object .var type (some initializer))
    (yields : Yields (execForm program evaluator frame id (.declaration declaration)) before
      (completion, last) after) :
    ∃ value middle, Yields (evaluator.expr frame initializer) before value middle ∧
      completion = .normal ∧ last = frame ∧
      middle.write (.automatic frame.activation declaration) value = after := by
  rw [execForm, kind_eq] at yields
  dsimp only at yields
  rw [yields_bind] at yields
  obtain ⟨value, middle, valueYields, yields⟩ := yields
  rw [yields_bind] at yields
  obtain ⟨_, _, writes, yields⟩ := yields
  obtain ⟨same, rfl⟩ := yields_pure.1 yields
  cases same
  exact ⟨value, middle, valueYields, rfl, rfl, yields_write.1 writes⟩

/-- A constant is declared by giving it the value of its initializer. -/
theorem yields_constant {declaration : DeclId} {kind : ObjectKind} {type : Ty} {initializer : ExprId}
    (isConstant : kind ≠ .var)
    (kind_eq : program.ast.kindOf declaration = .object kind type (some initializer))
    (yields : Yields (execForm program evaluator frame id (.declaration declaration)) before
      (completion, last) after) :
    ∃ value, Yields (evaluator.expr frame initializer) before value after ∧
      completion = .normal ∧ last = frame.declare declaration value := by
  rw [execForm, kind_eq] at yields
  cases kind with
  | var => exact absurd rfl isConstant
  | const | value =>
      dsimp only at yields
      rw [yields_bind] at yields
      obtain ⟨value, _, valueYields, yields⟩ := yields
      obtain ⟨same, rfl⟩ := yields_pure.1 yields
      cases same
      exact ⟨value, valueYields, rfl, rfl⟩

/-- A round of a loop evaluates the guard and where it holds the body, which decides whether another round
follows. -/
theorem yields_round {guard : ExprId} {body : StmtId}
    (yields : Yields (execForm program evaluator frame id (.whileTrue guard body)) before
      (completion, last) after) :
    ∃ guardValue tested holds, Yields (evaluator.expr frame guard) before guardValue tested ∧
      guardValue.truth? = some holds ∧
      if holds then
        ∃ ending next middle, Yields (evaluator.stmt frame body) tested (ending, next) middle ∧
          match ending with
          | .broken => completion = .normal ∧ last = next ∧ middle = after
          | .returned value => completion = .returned value ∧ last = next ∧ middle = after
          | _ => Yields (evaluator.stmt next id) middle (completion, last) after
      else completion = .normal ∧ last = frame ∧ tested = after := by
  obtain ⟨guardValue, tested, holds, guardYields, truth, yields⟩ := yields_guarded yields
  refine ⟨guardValue, tested, holds, guardYields, truth, ?_⟩
  cases holds with
  | false =>
      obtain ⟨same, rfl⟩ := yields_pure.1 yields
      cases same
      exact ⟨rfl, rfl, rfl⟩
  | true =>
      rw [if_pos rfl, yields_bind] at yields
      obtain ⟨⟨ending, next⟩, middle, bodyYields, yields⟩ := yields
      refine ⟨ending, next, middle, bodyYields, ?_⟩
      cases ending with
      | normal | continued => exact yields
      | broken | returned =>
          obtain ⟨same, rfl⟩ := yields_pure.1 yields
          cases same
          exact ⟨rfl, rfl, rfl⟩

end Statements

/-- Every parameter gets an argument. -/
theorem length_of_writeParameters {activation : Nat} {parameters : List DeclId}
    {arguments : List Result}
    (yields : Yields (writeParameters activation parameters arguments) before () after) :
    parameters.length = arguments.length := by
  induction parameters generalizing arguments before with
  | nil =>
      cases arguments with
      | nil => rfl
      | cons => exact (not_yields_stuck yields).elim
  | cons parameter parameters induction =>
      cases arguments with
      | nil => exact (not_yields_stuck yields).elim
      | cons argument arguments =>
          rw [writeParameters, yields_bind] at yields
          obtain ⟨_, _, _, yields⟩ := yields
          exact congrArg Nat.succ (induction yields)

/-- A call stores the arguments in a new activation and executes the body, behind which the zero of the
result type is returned. -/
theorem yields_callFunction {program : Program} {evaluator : Evaluator} {id : DeclId} {type : Ty}
    {types : List Ty} {parameters : List DeclId} {body : StmtId} {arguments : List Result}
    {result : Result}
    (kind_eq : program.ast.kindOf id = .function (.function type types) parameters (some body))
    (yields : Yields (callFunction program evaluator id arguments) before result after) :
    ∃ stored completion last,
      Yields (writeParameters before.activations parameters arguments)
        { before with activations := before.activations + 1 } () stored ∧
      Yields (evaluator.stmt ⟨before.activations, fun _ => none⟩ body) stored (completion, last)
        after ∧
      (completion = .normal ∧ result = type.zero ∨ completion = .returned result) := by
  rw [callFunction, kind_eq] at yields
  dsimp only at yields
  rw [yields_bind] at yields
  obtain ⟨_, _, activates, yields⟩ := yields
  obtain ⟨rfl, rfl⟩ := yields_activate.1 activates
  rw [yields_bind] at yields
  obtain ⟨_, stored, stores, yields⟩ := yields
  rw [yields_bind] at yields
  obtain ⟨⟨completion, last⟩, _, bodyYields, yields⟩ := yields
  cases completion with
  | broken | continued => exact (not_yields_stuck yields).elim
  | normal =>
      obtain ⟨rfl, rfl⟩ := yields_pure.1 yields
      exact ⟨stored, .normal, last, stores, bodyYields, .inl ⟨rfl, rfl⟩⟩
  | returned value =>
      obtain ⟨rfl, rfl⟩ := yields_pure.1 yields
      exact ⟨stored, .returned value, last, stores, bodyYields, .inr rfl⟩

end Evaluation

end Minilang
