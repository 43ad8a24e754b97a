import Minilang.Lowering.Builder

/-!
# Outcomes of building steps

`Builds step before onResult onError` says what holds of the result of a step and of the function behind
it, and what holds of its error. The small steps of a builder get names of their own, so that laws about
larger steps can be put together from them.
-/

namespace Minilang

namespace Builder

/-- The function with one more block. -/
def addBlock (builder : Builder) (role : BlockRole) : Builder :=
  { builder with blocks := builder.blocks.push ⟨role, builder.countRole role, #[], none⟩ }

/-- The function going on in a block. -/
def goTo (builder : Builder) (block : Nat) : Builder := { builder with current := some block }

/-- The function with one more instruction in a block. -/
def push (builder : Builder) (block : Nat) (instruction : Ir.Instruction) : Builder :=
  { builder with
    blocks := builder.blocks.modify block fun open' =>
      { open' with instructions := open'.instructions.push instruction } }

/-- The function with a block closed. -/
def close (builder : Builder) (block : Nat) (terminator : Ir.Terminator) : Builder :=
  { builder with
    blocks := builder.blocks.modify block fun open' => { open' with terminator := some terminator }
    current := none }

/-- The function with one more temporary. -/
def countTemporary (builder : Builder) : Builder :=
  { builder with temporaries := builder.temporaries + 1 }

/-- The function with room for one more object, whose address is a new temporary. -/
def addAlloca (builder : Builder) (type : Ir.ValueType) : Builder :=
  { builder with
    allocas := builder.allocas.push ⟨some builder.temporaries, .alloca type⟩
    temporaries := builder.temporaries + 1 }

/-- The function in which one more name has a value. -/
def bind (builder : Builder) (declaration : DeclId) (value : Ir.Value) : Builder :=
  { builder with locals := (declaration, value) :: builder.locals }

/-- The function going on in a block that nothing leads to if the last one was closed. -/
def resume (builder : Builder) : Builder :=
  match builder.current with
  | some _ => builder
  | none => (builder.addBlock .unreachable).goTo builder.blocks.size

/-- The block that instructions are added to. -/
def currentIndex (builder : Builder) : Nat := builder.current.getD builder.blocks.size

/-- The function in which the block that building goes on in is closed. -/
def endWith (builder : Builder) (terminator : Ir.Terminator) : Builder :=
  builder.resume.close builder.currentIndex terminator

/-- The function with one more instruction where building goes on, whose result is a new temporary. -/
def emit (builder : Builder) (operation : Ir.Operation) : Builder :=
  builder.resume.countTemporary.push builder.currentIndex ⟨some builder.temporaries, operation⟩

/-- The function with one more instruction without a result where building goes on. -/
def perform (builder : Builder) (operation : Ir.Operation) : Builder :=
  builder.resume.push builder.currentIndex ⟨none, operation⟩

/-- The function in which the open block leads to another one. -/
def branchTo (builder : Builder) (target : Nat) : Builder :=
  match builder.current with
  | some block => builder.close block (.branch target)
  | none => builder

section Fields

variable (builder : Builder) (role : BlockRole) (block : Nat) (type : Ir.ValueType)
  (instruction : Ir.Instruction) (terminator : Ir.Terminator) (declaration : DeclId)
  (value : Ir.Value)

@[simp] theorem addBlock_current : (builder.addBlock role).current = builder.current := rfl

@[simp] theorem addBlock_locals : (builder.addBlock role).locals = builder.locals := rfl

@[simp] theorem addBlock_temporaries :
    (builder.addBlock role).temporaries = builder.temporaries := rfl

@[simp] theorem addBlock_allocas : (builder.addBlock role).allocas = builder.allocas := rfl

@[simp] theorem addBlock_size :
    (builder.addBlock role).blocks.size = builder.blocks.size + 1 := Array.size_push _

@[simp] theorem goTo_current : (builder.goTo block).current = some block := rfl

@[simp] theorem goTo_blocks : (builder.goTo block).blocks = builder.blocks := rfl

@[simp] theorem goTo_locals : (builder.goTo block).locals = builder.locals := rfl

@[simp] theorem goTo_temporaries : (builder.goTo block).temporaries = builder.temporaries := rfl

@[simp] theorem goTo_allocas : (builder.goTo block).allocas = builder.allocas := rfl

@[simp] theorem push_current : (builder.push block instruction).current = builder.current := rfl

@[simp] theorem push_locals : (builder.push block instruction).locals = builder.locals := rfl

@[simp] theorem push_temporaries :
    (builder.push block instruction).temporaries = builder.temporaries := rfl

@[simp] theorem push_allocas : (builder.push block instruction).allocas = builder.allocas := rfl

@[simp] theorem push_size :
    (builder.push block instruction).blocks.size = builder.blocks.size := Array.size_modify

@[simp] theorem close_current : (builder.close block terminator).current = none := rfl

@[simp] theorem close_locals : (builder.close block terminator).locals = builder.locals := rfl

@[simp] theorem close_temporaries :
    (builder.close block terminator).temporaries = builder.temporaries := rfl

@[simp] theorem close_allocas : (builder.close block terminator).allocas = builder.allocas := rfl

@[simp] theorem close_size :
    (builder.close block terminator).blocks.size = builder.blocks.size := Array.size_modify

@[simp] theorem countTemporary_current : builder.countTemporary.current = builder.current := rfl

@[simp] theorem countTemporary_blocks : builder.countTemporary.blocks = builder.blocks := rfl

@[simp] theorem countTemporary_locals : builder.countTemporary.locals = builder.locals := rfl

@[simp] theorem countTemporary_allocas : builder.countTemporary.allocas = builder.allocas := rfl

@[simp] theorem countTemporary_temporaries :
    builder.countTemporary.temporaries = builder.temporaries + 1 := rfl

@[simp] theorem addAlloca_current : (builder.addAlloca type).current = builder.current := rfl

@[simp] theorem addAlloca_blocks : (builder.addAlloca type).blocks = builder.blocks := rfl

@[simp] theorem addAlloca_locals : (builder.addAlloca type).locals = builder.locals := rfl

@[simp] theorem addAlloca_temporaries :
    (builder.addAlloca type).temporaries = builder.temporaries + 1 := rfl

@[simp] theorem bind_current : (builder.bind declaration value).current = builder.current := rfl

@[simp] theorem bind_blocks : (builder.bind declaration value).blocks = builder.blocks := rfl

@[simp] theorem bind_locals :
    (builder.bind declaration value).locals = (declaration, value) :: builder.locals := rfl

@[simp] theorem bind_temporaries :
    (builder.bind declaration value).temporaries = builder.temporaries := rfl

@[simp] theorem bind_allocas : (builder.bind declaration value).allocas = builder.allocas := rfl

@[simp] theorem resume_locals : builder.resume.locals = builder.locals := by
  rw [resume]
  cases builder.current <;> rfl

@[simp] theorem resume_temporaries : builder.resume.temporaries = builder.temporaries := by
  rw [resume]
  cases builder.current <;> rfl

@[simp] theorem resume_allocas : builder.resume.allocas = builder.allocas := by
  rw [resume]
  cases builder.current <;> rfl

@[simp] theorem resume_current : builder.resume.current = some builder.currentIndex := by
  rw [resume, currentIndex]
  cases current : builder.current with
  | none => rfl
  | some block => exact current

@[simp] theorem endWith_current : (builder.endWith terminator).current = none := rfl

@[simp] theorem endWith_locals : (builder.endWith terminator).locals = builder.locals :=
  builder.resume_locals

@[simp] theorem endWith_temporaries :
    (builder.endWith terminator).temporaries = builder.temporaries :=
  builder.resume_temporaries

@[simp] theorem branchTo_locals : (builder.branchTo block).locals = builder.locals := by
  rw [branchTo]
  cases builder.current <;> rfl

@[simp] theorem branchTo_temporaries :
    (builder.branchTo block).temporaries = builder.temporaries := by
  rw [branchTo]
  cases builder.current <;> rfl

@[simp] theorem branchTo_allocas : (builder.branchTo block).allocas = builder.allocas := by
  rw [branchTo]
  cases builder.current <;> rfl

@[simp] theorem branchTo_size : (builder.branchTo block).blocks.size = builder.blocks.size := by
  rw [branchTo]
  cases builder.current with
  | none => rfl
  | some other => exact close_size builder other _

@[simp] theorem endWith_allocas : (builder.endWith terminator).allocas = builder.allocas :=
  builder.resume_allocas

@[simp] theorem emit_current (operation : Ir.Operation) :
    (builder.emit operation).current = some builder.currentIndex := builder.resume_current

@[simp] theorem emit_locals (operation : Ir.Operation) :
    (builder.emit operation).locals = builder.locals := builder.resume_locals

@[simp] theorem emit_temporaries (operation : Ir.Operation) :
    (builder.emit operation).temporaries = builder.temporaries + 1 :=
  congrArg Nat.succ builder.resume_temporaries

@[simp] theorem perform_current (operation : Ir.Operation) :
    (builder.perform operation).current = some builder.currentIndex := builder.resume_current

@[simp] theorem perform_locals (operation : Ir.Operation) :
    (builder.perform operation).locals = builder.locals := builder.resume_locals

@[simp] theorem perform_temporaries (operation : Ir.Operation) :
    (builder.perform operation).temporaries = builder.temporaries := builder.resume_temporaries

/-- Counting a temporary does not matter for where building goes on. -/
theorem resume_countTemporary : builder.countTemporary.resume = builder.resume.countTemporary := by
  obtain ⟨blocks, current, allocas, locals, temporaries⟩ := builder
  cases current <;> rfl

end Fields

theorem currentIndex_of_current {builder : Builder} {block : Nat}
    (current : builder.current = some block) : builder.currentIndex = block := by
  rw [currentIndex, current, Option.getD_some]

theorem resume_of_current {builder : Builder} {block : Nat} (current : builder.current = some block) :
    builder.resume = builder := by
  rw [resume, current]

end Builder

namespace Lowering

/-- What holds behind a step that gives a result, and what holds of the error of one that fails. -/
def Builds {α : Type} (step : Build α) (before : Builder) (onResult : α → Builder → Prop)
    (onError : Diagnostic → Prop) : Prop :=
  match step.run before with
  | .ok (result, after) => onResult result after
  | .error error => onError error

variable {α β : Type} {before : Builder}

/-- Weaker conditions hold behind the same step. -/
theorem Builds.mono {step : Build α} {onResult weakerResult : α → Builder → Prop}
    {onError weakerError : Diagnostic → Prop} (builds : Builds step before onResult onError)
    (result_imp : ∀ result after, onResult result after → weakerResult result after)
    (error_imp : ∀ error, onError error → weakerError error) :
    Builds step before weakerResult weakerError := by
  unfold Builds at *
  split at builds
  · exact result_imp _ _ builds
  · exact error_imp _ builds

/-- What a step ensures holds of its result. -/
theorem Builds.result {step : Build α} {onResult : α → Builder → Prop}
    {onError : Diagnostic → Prop} (builds : Builds step before onResult onError) {result : α}
    {after : Builder} (run : step.run before = .ok (result, after)) : onResult result after := by
  simpa [Builds, run] using builds

/-- What a step ensures holds of its error. -/
theorem Builds.error {step : Build α} {onResult : α → Builder → Prop}
    {onError : Diagnostic → Prop} (builds : Builds step before onResult onError)
    {error : Diagnostic} (run : step.run before = .error error) : onError error := by
  simpa [Builds, run] using builds

/-- A step ensures together what it ensures apart. -/
theorem Builds.and {step : Build α} {onResult alsoResult : α → Builder → Prop}
    {onError alsoError : Diagnostic → Prop} (builds : Builds step before onResult onError)
    (also : Builds step before alsoResult alsoError) :
    Builds step before (fun result after => onResult result after ∧ alsoResult result after)
      fun error => onError error ∧ alsoError error := by
  unfold Builds at *
  split at builds
  · next run => rw [run] at also; exact ⟨builds, also⟩
  · next run => rw [run] at also; exact ⟨builds, also⟩

section Laws

variable {onResult : α → Builder → Prop} {onError : Diagnostic → Prop}

@[simp] theorem builds_pure (result : α) :
    Builds (pure result) before onResult onError ↔ onResult result before := Iff.rfl

@[simp] theorem builds_bind (first : Build β) (next : β → Build α) :
    Builds (first >>= next) before onResult onError ↔
      Builds first before (fun result after => Builds (next result) after onResult onError)
        onError := by
  unfold Builds
  simp only [StateT.run, Bind.bind, StateT.bind]
  cases run : first before with
  | ok outcome => rfl
  | error error => rfl

@[simp] theorem builds_refuse (error : InternalError) :
    Builds (refuse error : Build α) before onResult onError ↔ onError (.internal error) := Iff.rfl

@[simp] theorem builds_throw (error : Diagnostic) :
    Builds (throw error : Build α) before onResult onError ↔ onError error := Iff.rfl

end Laws

section Primitives

variable {onError : Diagnostic → Prop}

@[simp] theorem builds_get {onResult : Builder → Builder → Prop} :
    Builds get before onResult onError ↔ onResult before before := Iff.rfl

@[simp] theorem builds_newBlock (role : BlockRole) {onResult : Nat → Builder → Prop} :
    Builds (newBlock role) before onResult onError ↔
      onResult before.blocks.size (before.addBlock role) := Iff.rfl

@[simp] theorem builds_switchTo (block : Nat) {onResult : Unit → Builder → Prop} :
    Builds (switchTo block) before onResult onError ↔ onResult () (before.goTo block) := Iff.rfl

@[simp] theorem builds_bindLocal (declaration : DeclId) (value : Ir.Value)
    {onResult : Unit → Builder → Prop} :
    Builds (bindLocal declaration value) before onResult onError ↔
      onResult () (before.bind declaration value) := Iff.rfl

@[simp] theorem builds_newTemporary {onResult : Nat → Builder → Prop} :
    Builds newTemporary before onResult onError ↔
      onResult before.temporaries before.countTemporary := Iff.rfl

@[simp] theorem builds_allocate (type : Ir.ValueType) {onResult : Ir.Value → Builder → Prop} :
    Builds (allocate type) before onResult onError ↔
      onResult (.temp before.temporaries) (before.addAlloca type) := Iff.rfl

@[simp] theorem builds_currentBlock {onResult : Nat → Builder → Prop} :
    Builds currentBlock before onResult onError ↔
      onResult before.currentIndex before.resume := by
  rw [currentBlock, builds_bind, builds_get, Builder.currentIndex, Builder.resume]
  cases current : before.current with
  | none => exact Iff.rfl
  | some block => exact Iff.rfl

@[simp] theorem builds_append (instruction : Ir.Instruction) {onResult : Unit → Builder → Prop} :
    Builds (append instruction) before onResult onError ↔
      onResult () (before.resume.push before.currentIndex instruction) := by
  rw [append, builds_bind, builds_currentBlock]
  exact Iff.rfl

@[simp] theorem builds_terminate (terminator : Ir.Terminator) {onResult : Unit → Builder → Prop} :
    Builds (terminate terminator) before onResult onError ↔
      onResult () (before.endWith terminator) := by
  rw [terminate, builds_bind, builds_currentBlock]
  exact Iff.rfl

@[simp] theorem builds_emit (operation : Ir.Operation) {onResult : Ir.Value → Builder → Prop} :
    Builds (emit operation) before onResult onError ↔
      onResult (.temp before.temporaries) (before.emit operation) := by
  rw [emit, builds_bind, builds_newTemporary, builds_bind, builds_append, builds_pure,
    Builder.resume_countTemporary]
  exact Iff.rfl

@[simp] theorem builds_perform (operation : Ir.Operation) {onResult : Unit → Builder → Prop} :
    Builds (perform operation) before onResult onError ↔
      onResult () (before.perform operation) :=
  builds_append ⟨none, operation⟩

@[simp] theorem builds_branch (target : Nat) {onResult : Unit → Builder → Prop} :
    Builds (branch target) before onResult onError ↔ onResult () (before.branchTo target) := by
  rw [branch, builds_bind, builds_get, Builder.branchTo]
  cases current : before.current with
  | none => exact Iff.rfl
  | some block =>
      rw [if_pos Option.isSome_some, builds_terminate, Builder.endWith,
        Builder.resume_of_current current, Builder.currentIndex_of_current current]

end Primitives

end Lowering

end Minilang
