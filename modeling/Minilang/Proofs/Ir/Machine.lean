import Mathlib.Logic.Relation
import Minilang.Proofs.Semantics.Datum

/-!
# Running modules

A machine runs a function of a module instruction by instruction. Every call has temporaries of its own, and
all calls share memory. A `phi` takes the value that belongs to the block from which its own was entered.
The machine stops where the first call returns, and it is stuck where an instruction has no meaning.
-/

namespace Minilang.Ir

/-- Where an object is stored. -/
inductive Address where
  /-- The storage of a global object. -/
  | global (name : String)
  /-- The room made by an instruction. -/
  | slot (index : Nat)
deriving DecidableEq, Repr

/-- What a temporary holds. -/
abbrev Word : Type := Datum Address String

/-- The memory of a machine. -/
structure Memory where
  /-- What has been written to an address, if there is storage at all. -/
  cells : Address → Option (Option Word)
  /-- How often room has been made. -/
  slots : Nat

namespace Memory

/-- What has been written to an address. -/
def read (memory : Memory) (address : Address) : Option Word := (memory.cells address).join

/-- The memory in which an address has been written. -/
def set (memory : Memory) (address : Address) (word : Word) : Memory :=
  { memory with
    cells := fun other => if other = address then some (some word) else memory.cells other }

@[simp]
theorem set_cells (memory : Memory) (address other : Address) (word : Word) :
    (memory.set address word).cells other =
      if other = address then some (some word) else memory.cells other := rfl

/-- Write an address where there is storage. -/
def write (memory : Memory) (address : Address) (word : Word) : Option Memory :=
  if (memory.cells address).isSome then some (memory.set address word) else none

/-- The memory with room for one more object. -/
def allocate (memory : Memory) : Memory where
  cells other := if other = .slot memory.slots then some none else memory.cells other
  slots := memory.slots + 1

@[simp]
theorem allocate_cells (memory : Memory) (other : Address) :
    memory.allocate.cells other =
      if other = .slot memory.slots then some none else memory.cells other := rfl

@[simp]
theorem allocate_slots (memory : Memory) : memory.allocate.slots = memory.slots + 1 := rfl

end Memory

/-- A call that is under way. -/
structure Frame where
  /-- The function that is called. -/
  function : Function
  /-- The arguments of the call. -/
  arguments : List Word
  /-- The temporaries that have been computed. -/
  temporaries : Nat → Option Word
  /-- The block that is run. -/
  block : Nat
  /-- The block from which it was entered. -/
  previous : Option Nat
  /-- The instructions that are left in the block. -/
  rest : List Instruction

namespace Frame

/-- What an operand holds. -/
def value (frame : Frame) : Value → Option Word
  | .const constant => some (.ofConstant constant)
  | .temp index => frame.temporaries index
  | .arg index => frame.arguments[index]?
  | .global name => some (.place (.global name))
  | .function name => some (.code name)

/-- What operands hold. -/
def values (frame : Frame) : List Value → Option (List Word)
  | [] => some []
  | value :: values => do
    let word ← frame.value value
    let words ← frame.values values
    return word :: words

/-- The frame in which a temporary has been computed, if an instruction has a result. -/
def set (frame : Frame) (result : Option Nat) (word : Word) : Frame :=
  { frame with
    temporaries := fun index => if some index = result then some word else frame.temporaries index }

/-- The frame before the rest of a block. -/
def withRest (frame : Frame) (rest : List Instruction) : Frame := { frame with rest := rest }

@[simp]
theorem value_withRest (frame : Frame) (rest : List Instruction) (value : Value) :
    (frame.withRest rest).value value = frame.value value := by
  cases value <;> rfl

@[simp]
theorem values_withRest (frame : Frame) (rest : List Instruction) (values : List Value) :
    (frame.withRest rest).values values = frame.values values := by
  induction values with
  | nil => rfl
  | cons value values induction => rw [Frame.values, Frame.values, value_withRest, induction]

/-- Go to a block. -/
def jump (frame : Frame) (target : Nat) : Option Frame :=
  frame.function.blocks[target]?.map fun block =>
    { frame with block := target, previous := some frame.block, rest := block.instructions }

end Frame

/-- What a machine does. -/
inductive State where
  /-- A call is under way. Those who wait for calls wait for a result in a temporary. -/
  | running (frame : Frame) (callers : List (Frame × Option Nat)) (memory : Memory)
  /-- The first call has returned. -/
  | finished (word : Word) (memory : Memory)

/-- The innermost call returns. -/
def State.return (word : Word) (memory : Memory) : List (Frame × Option Nat) → State
  | [] => finished word memory
  | (frame, result) :: callers => running (frame.set result word) callers memory

/-- The result of an operator on two words. -/
def Operator.apply (floats : FloatArithmetic) : Operator → Word → Word → Option Word
  | add, .int left, .int right => some (.int (left + right))
  | sub, .int left, .int right => some (.int (left - right))
  | mul, .int left, .int right => some (.int (left * right))
  | sdiv, .int left, .int right => (IntArithmetic.div left right).map .int
  | srem, .int left, .int right => (IntArithmetic.rem left right).map .int
  | and, .int left, .int right => some (.int (left &&& right))
  | or, .int left, .int right => some (.int (left ||| right))
  | xor, .int left, .int right => some (.int (left ^^^ right))
  | and, .bool left, .bool right => some (.bool (left && right))
  | or, .bool left, .bool right => some (.bool (left || right))
  | xor, .bool left, .bool right => some (.bool (left ^^ right))
  | shl, .int left, .int right => (IntArithmetic.shl left right).map .int
  | ashr, .int left, .int right => (IntArithmetic.shr left right).map .int
  | fadd, .float left, .float right => some (.float (floats.add left right))
  | fsub, .float left, .float right => some (.float (floats.sub left right))
  | fmul, .float left, .float right => some (.float (floats.mul left right))
  | fdiv, .float left, .float right => some (.float (floats.div left right))
  | frem, .float left, .float right => some (.float (floats.rem left right))
  | _, _, _ => none

/-- The result of a comparison of two words. -/
def Predicate.apply (floats : FloatArithmetic) : Predicate → Word → Word → Option Bool
  | eq, left, right => left.same? right
  | ne, left, right => (left.same? right).map not
  | slt, .int left, .int right => some (decide (left < right))
  | sgt, .int left, .int right => some (decide (right < left))
  | sle, .int left, .int right => some (decide (left ≤ right))
  | sge, .int left, .int right => some (decide (right ≤ left))
  | oeq, .float left, .float right => some (floats.eq left right)
  | one, .float left, .float right => some (floats.ne left right)
  | olt, .float left, .float right => some (floats.lt left right)
  | ogt, .float left, .float right => some (floats.gt left right)
  | ole, .float left, .float right => some (floats.le left right)
  | oge, .float left, .float right => some (floats.ge left right)
  | _, _, _ => none

/-- The result of a conversion of a word. -/
def CastOperator.apply (floats : FloatArithmetic) : CastOperator → Word → Option Word
  | trunc, .int value => some (.char (IntArithmetic.toChar value))
  | zext, .bool value => some (.int (IntArithmetic.ofBool value))
  | zext, .char value => some (.int (Int32.ofNat value.toNat))
  | sext, .bool value => some (.int (-IntArithmetic.ofBool value))
  | sext, .char value => some (.int (IntArithmetic.ofChar value))
  | fptosi, .float value => (floats.truncate value).map .int
  | sitofp, .int value => some (.float (floats.ofInt value))
  | _, _ => none

/-- The result of an operation that neither uses memory nor calls anything. -/
def Frame.compute (frame : Frame) (floats : FloatArithmetic) : Operation → Option Word
  | .binary operator _ left right => do
    operator.apply floats (← frame.value left) (← frame.value right)
  | .compare predicate _ left right => do
    return .bool (← predicate.apply floats (← frame.value left) (← frame.value right))
  | .cast operator _ _ value => do operator.apply floats (← frame.value value)
  | .phi _ incoming => do
    let source ← frame.previous
    let (value, _) ← incoming.find? fun (_, block) => block == source
    frame.value value
  | .alloca _ | .load _ _ | .store _ _ _ | .call _ _ _ => none

/-- Call a function. -/
def Module.enter? (module : Module) (name : String) (arguments : List Word) : Option Frame := do
  let function ← module.function? name
  let entry ← function.entry?
  if arguments.length = function.parameters.length then
    some ⟨function, arguments, fun _ => none, 0, none, entry.instructions⟩
  else none

/-- Run an instruction of a call; the frame is the one behind the instruction. -/
def Instruction.run (module : Module) (floats : FloatArithmetic) (instruction : Instruction)
    (frame : Frame) (callers : List (Frame × Option Nat)) (memory : Memory) : Option State :=
  match instruction.operation with
  | .alloca _ =>
    some (.running (frame.set instruction.result (.place (.slot memory.slots))) callers memory.allocate)
  | .load _ pointer => do
    let address ← (← frame.value pointer).place?
    let word ← memory.read address
    return .running (frame.set instruction.result word) callers memory
  | .store _ value pointer => do
    let word ← frame.value value
    let address ← (← frame.value pointer).place?
    let written ← memory.write address word
    return .running frame callers written
  | .call _ callee arguments => do
    let name ← (← frame.value callee).code?
    let words ← frame.values (arguments.map Prod.snd)
    let entered ← module.enter? name words
    return .running entered ((frame, instruction.result) :: callers) memory
  | operation => do
    let word ← frame.compute floats operation
    return .running (frame.set instruction.result word) callers memory

section Instructions

variable {module : Module} {floats : FloatArithmetic} {result : Option Nat} {frame : Frame}
  {callers : List (Frame × Option Nat)} {memory : Memory} {type : ValueType} {value pointer : Value}
  {address : Address} {word : Word}

@[simp]
theorem Frame.compute_withRest (rest : List Instruction) (operation : Operation) :
    (frame.withRest rest).compute floats operation = frame.compute floats operation := by
  cases operation <;> simp [Frame.compute, Frame.withRest] <;> rfl

section Compute

variable {left right : Value} {first second : Word}

theorem Frame.compute_binary (operator : Operator) (leftHeld : frame.value left = some first)
    (rightHeld : frame.value right = some second) :
    frame.compute floats (.binary operator type left right) =
      operator.apply floats first second := by
  simp [Frame.compute, leftHeld, rightHeld]

theorem Frame.compute_compare (predicate : Predicate) (leftHeld : frame.value left = some first)
    (rightHeld : frame.value right = some second) :
    frame.compute floats (.compare predicate type left right) =
      (predicate.apply floats first second).map .bool := by
  simp only [Frame.compute, leftHeld, rightHeld, Option.bind_eq_bind, Option.bind_some]
  cases predicate.apply floats first second <;> rfl

theorem Frame.compute_cast (operator : CastOperator) (source : ValueType)
    (held : frame.value value = some word) :
    frame.compute floats (.cast operator source type value) = operator.apply floats word := by
  simp [Frame.compute, held]

end Compute

/-- A choice takes the value that belongs to the block from which its own was entered. -/
theorem Frame.compute_phi {incoming : List (Value × Nat)} {source : Nat}
    (entered : frame.previous = some source)
    (found : (incoming.find? fun (_, block) => block == source) = some (value, source)) :
    frame.compute floats (.phi type incoming) = frame.value value := by
  simp [Frame.compute, entered, found]

theorem Instruction.run_of_compute {operation : Operation}
    (computed : frame.compute floats operation = some word) :
    Instruction.run module floats ⟨result, operation⟩ frame callers memory =
      some (.running (frame.set result word) callers memory) := by
  cases operation with
  | alloca | load | store | call => cases computed
  | binary | compare | cast | phi => simp [Instruction.run, computed]

theorem Instruction.run_load (held : frame.value pointer = some (.place address))
    (read : memory.read address = some word) :
    Instruction.run module floats ⟨result, .load type pointer⟩ frame callers memory =
      some (.running (frame.set result word) callers memory) := by
  simp [Instruction.run, held, read, Datum.place?]

theorem Instruction.run_store (held : frame.value value = some word)
    (pointerHeld : frame.value pointer = some (.place address)) {written : Memory}
    (writes : memory.write address word = some written) :
    Instruction.run module floats ⟨result, .store type value pointer⟩ frame callers memory =
      some (.running frame callers written) := by
  simp [Instruction.run, held, pointerHeld, writes, Datum.place?]

theorem Instruction.run_call {callee : Value} {arguments : List (ValueType × Value)} {name : String}
    {words : List Word} {entered : Frame} (held : frame.value callee = some (.code name))
    (argumentsHeld : frame.values (arguments.map Prod.snd) = some words)
    (enters : module.enter? name words = some entered) :
    Instruction.run module floats ⟨result, .call type callee arguments⟩ frame callers memory =
      some (.running entered ((frame, result) :: callers) memory) := by
  simp [Instruction.run, held, argumentsHeld, enters, Datum.code?]

end Instructions

/-- Run a terminator of a call. -/
def Terminator.run (terminator : Terminator) (frame : Frame) (callers : List (Frame × Option Nat))
    (memory : Memory) : Option State :=
  match terminator with
  | .branch target => do return .running (← frame.jump target) callers memory
  | .condBranch condition whenTrue whenFalse => do
    let holds ← (← frame.value condition).truth?
    return .running (← frame.jump (if holds then whenTrue else whenFalse)) callers memory
  | .ret _ value => do return .return (← frame.value value) memory callers

/-- One step of a machine. -/
def Module.step (module : Module) (floats : FloatArithmetic) : State → Option State
  | .running frame callers memory =>
    match frame.rest with
    | instruction :: rest => instruction.run module floats (frame.withRest rest) callers memory
    | [] => do (← frame.function.blocks[frame.block]?).terminator.run frame callers memory
  | .finished _ _ => none

/-- Whether a machine gets from one state to another one. -/
def Module.Runs (module : Module) (floats : FloatArithmetic) : State → State → Prop :=
  Relation.ReflTransGen fun before after => module.step floats before = some after

section Steps

variable {module : Module} {floats : FloatArithmetic} {frame : Frame}
  {callers : List (Frame × Option Nat)} {memory : Memory}

/-- The next instruction is run. -/
theorem Module.step_instruction {instruction : Instruction} {rest : List Instruction}
    (rest_eq : frame.rest = instruction :: rest) :
    module.step floats (.running frame callers memory) =
      instruction.run module floats (frame.withRest rest) callers memory := by
  rw [step, rest_eq]

/-- At the end of a block, its terminator is run. -/
theorem Module.step_terminator {block : Block} (rest_eq : frame.rest = [])
    (found : frame.function.blocks[frame.block]? = some block) :
    module.step floats (.running frame callers memory) =
      block.terminator.run frame callers memory := by
  rw [step, rest_eq, found]
  rfl

end Steps

/-- The state behind a number of steps, or where there are no more. -/
def Module.runFor (module : Module) (floats : FloatArithmetic) : (steps : Nat) → State → State
  | 0, state => state
  | steps + 1, state =>
    match module.step floats state with
    | some next => module.runFor floats steps next
    | none => state

theorem Module.runs_runFor (module : Module) (floats : FloatArithmetic) (steps : Nat)
    (state : State) : module.Runs floats state (module.runFor floats steps state) := by
  induction steps generalizing state with
  | zero => exact .refl
  | succ steps induction =>
      rw [runFor]
      cases step : module.step floats state with
      | none => exact .refl
      | some next => exact .head step (induction next)

/-- The memory before anything has been called: global objects hold what they hold at first. -/
def Module.initialMemory (module : Module) : Memory where
  cells
    | .global name => (module.global? name).map fun global => some (.ofConstant global.initial)
    | .slot _ => none
  slots := 0

/-- The word that a machine has stopped with. -/
def State.result? : State → Option Word
  | finished word _ => some word
  | running _ _ _ => none

/-- Call a function of a module and run it for a number of steps. -/
def Module.call (module : Module) (floats : FloatArithmetic) (steps : Nat) (name : String)
    (arguments : List Word) : Option Word := do
  let frame ← module.enter? name arguments
  (module.runFor floats steps (.running frame [] module.initialMemory)).result?

end Minilang.Ir
