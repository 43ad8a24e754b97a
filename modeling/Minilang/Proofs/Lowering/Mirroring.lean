import Minilang.Proofs.Analysis.Correspondence
import Minilang.Proofs.Ir.Renaming
import Minilang.Proofs.Lowering.Outcome

/-!
# Mirrored building

Two functions that are built alike from programs that correspond have the same blocks and temporaries, with
the names of one program where the other one has its own.
-/

namespace Minilang

variable {correspondence : Correspondence}

/-- The same block in a function with other names. -/
def OpenBlock.rename (rename : String → String) (block : OpenBlock) : OpenBlock where
  role := block.role
  earlier := block.earlier
  instructions := block.instructions.map (Ir.Instruction.rename rename)
  terminator := block.terminator.map (Ir.Terminator.rename rename)

/-- The same function, built from the other program. -/
def Correspondence.builder (correspondence : Correspondence) (builder : Builder) : Builder where
  blocks := builder.blocks.map (OpenBlock.rename correspondence.rename)
  current := builder.current
  allocas := builder.allocas.map (Ir.Instruction.rename correspondence.rename)
  locals := builder.locals.map fun binding =>
    (correspondence.decl binding.1, binding.2.rename correspondence.rename)
  temporaries := builder.temporaries

/-- A value in a function that is built from the other program. -/
def Correspondence.value (correspondence : Correspondence) : Ir.Value → Ir.Value :=
  Ir.Value.rename correspondence.rename

namespace Builder

variable (builder : Builder)

@[simp] theorem builder_current :
    (correspondence.builder builder).current = builder.current := rfl

@[simp] theorem builder_temporaries :
    (correspondence.builder builder).temporaries = builder.temporaries := rfl

@[simp] theorem builder_size :
    (correspondence.builder builder).blocks.size = builder.blocks.size := Array.size_map

@[simp] theorem builder_currentIndex :
    (correspondence.builder builder).currentIndex = builder.currentIndex := by
  rw [currentIndex, currentIndex, builder_current, builder_size]

theorem builder_countRole (role : BlockRole) :
    (correspondence.builder builder).countRole role = builder.countRole role :=
  Array.countP_map ..

theorem builder_local? (declaration : DeclId) :
    (correspondence.builder builder).local? (correspondence.decl declaration) =
      (builder.local? declaration).map correspondence.value := by
  rw [local?, local?, Correspondence.builder]
  induction builder.locals with
  | nil => rfl
  | cons binding bindings induction =>
      obtain ⟨bound, value⟩ := binding
      rw [List.map_cons, List.lookup_cons, List.lookup_cons, induction]
      by_cases same : declaration = bound
      · rw [beq_iff_eq.2 same, beq_iff_eq.2 (congrArg correspondence.decl same)]
        rfl
      · have otherSame : correspondence.decl declaration ≠ correspondence.decl bound := by simpa
        rw [beq_eq_false_iff_ne.2 same, beq_eq_false_iff_ne.2 otherSame]

theorem builder_addBlock (role : BlockRole) :
    (correspondence.builder builder).addBlock role =
      correspondence.builder (builder.addBlock role) := by
  rw [addBlock, builder_countRole]
  simp [addBlock, Correspondence.builder, OpenBlock.rename]

theorem builder_goTo (block : Nat) :
    (correspondence.builder builder).goTo block = correspondence.builder (builder.goTo block) := rfl

/-- A block can be changed before or after all blocks get other names. -/
theorem map_modify {blocks : Array OpenBlock} {image change otherChange : OpenBlock → OpenBlock}
    (commute : ∀ block, otherChange (image block) = image (change block)) (index : Nat) :
    (blocks.map image).modify index otherChange = (blocks.modify index change).map image := by
  refine Array.ext (by simp) fun place _ _ => ?_
  rw [Array.getElem_modify, Array.getElem_map, Array.getElem_map, Array.getElem_modify]
  split
  · exact commute _
  · rfl

theorem builder_push (block : Nat) (instruction : Ir.Instruction) :
    (correspondence.builder builder).push block (instruction.rename correspondence.rename) =
      correspondence.builder (builder.push block instruction) := by
  have commute (other : OpenBlock) :
      { other.rename correspondence.rename with
        instructions := (other.rename correspondence.rename).instructions.push
          (instruction.rename correspondence.rename) } =
        OpenBlock.rename correspondence.rename
          { other with instructions := other.instructions.push instruction } := by
    simp only [OpenBlock.rename, Array.map_push]
  rw [push, Correspondence.builder, map_modify commute]
  rfl

theorem builder_close (block : Nat) (terminator : Ir.Terminator) :
    (correspondence.builder builder).close block (terminator.rename correspondence.rename) =
      correspondence.builder (builder.close block terminator) := by
  have commute (other : OpenBlock) :
      { other.rename correspondence.rename with
        terminator := some (terminator.rename correspondence.rename) } =
        OpenBlock.rename correspondence.rename { other with terminator := some terminator } := rfl
  rw [close, Correspondence.builder, map_modify commute]
  rfl

theorem builder_resume :
    (correspondence.builder builder).resume = correspondence.builder builder.resume := by
  rw [resume, resume, builder_current, builder_addBlock, builder_size, builder_goTo]
  cases builder.current <;> rfl

theorem builder_endWith (terminator : Ir.Terminator) :
    (correspondence.builder builder).endWith (terminator.rename correspondence.rename) =
      correspondence.builder (builder.endWith terminator) := by
  rw [endWith, builder_resume, builder_currentIndex, builder_close]
  rfl

theorem builder_emit (operation : Ir.Operation) :
    (correspondence.builder builder).emit (operation.rename correspondence.rename) =
      correspondence.builder (builder.emit operation) := by
  rw [emit, builder_resume, builder_currentIndex]
  exact builder_push builder.resume.countTemporary _ ⟨some builder.temporaries, operation⟩

theorem builder_perform (operation : Ir.Operation) :
    (correspondence.builder builder).perform (operation.rename correspondence.rename) =
      correspondence.builder (builder.perform operation) := by
  rw [perform, builder_resume, builder_currentIndex]
  exact builder_push builder.resume _ ⟨none, operation⟩

theorem builder_branchTo (target : Nat) :
    (correspondence.builder builder).branchTo target =
      correspondence.builder (builder.branchTo target) := by
  rw [branchTo, branchTo, builder_current]
  cases builder.current with
  | none => rfl
  | some block => exact builder_close builder block (.branch target)

theorem builder_addAlloca (type : Ir.ValueType) :
    (correspondence.builder builder).addAlloca type =
      correspondence.builder (builder.addAlloca type) := by
  simp [addAlloca, Correspondence.builder, Ir.Instruction.rename, Ir.Operation.rename]

theorem builder_bind (declaration : DeclId) (value : Ir.Value) :
    (correspondence.builder builder).bind (correspondence.decl declaration)
        (correspondence.value value) =
      correspondence.builder (builder.bind declaration value) := rfl

/-- The finished blocks are the same but for names. -/
theorem finish_builder (result : Ir.ValueType) :
    (correspondence.builder builder).finish result =
      (builder.finish result).map (Ir.Block.rename correspondence.rename) := by
  have closed (block : OpenBlock) :
      (block.rename correspondence.rename).close (.ret result (.const (.zero result))) =
        (block.close (.ret result (.const (.zero result)))).rename correspondence.rename := by
    rw [OpenBlock.close, OpenBlock.close, Ir.Block.rename, OpenBlock.rename]
    cases block.terminator <;> simp [Ir.Terminator.rename, Ir.Value.rename]
  rw [finish, finish, Correspondence.builder]
  simp only [Array.toList_map, List.map_map]
  cases builder.blocks.toList with
  | nil => rfl
  | cons entry others =>
      simp only [List.map_cons, Function.comp_apply, closed]
      rw [List.map_map]
      congr 1
      · simp [Ir.Block.rename]
      · exact List.map_congr_left fun block _ => closed block

end Builder

namespace Lowering

/-- Whether a step of building is mirrored by another one: they come from functions that are the same but
for names to such functions, with results that belong together, and fail alike if they have to. -/
def Mirrors {α β : Type} (correspondence : Correspondence) (alike : Prop) (step : Build α)
    (other : Build β) (image : α → β) : Prop :=
  ∀ before, Builds step before
    (fun result after => Builds other (correspondence.builder before)
      (fun otherResult otherAfter => otherResult = image result ∧
        otherAfter = correspondence.builder after) fun _ => False)
    fun error => alike → Builds other (correspondence.builder before) (fun _ _ => False)
      fun otherError => correspondence.Diagnostics error otherError

namespace Mirrors

variable {α β γ δ : Type} {alike : Prop}

theorem pure {image : α → β} {result : α} {otherResult : β} (same : otherResult = image result) :
    Mirrors correspondence alike (pure result) (pure otherResult) image :=
  fun _ => ⟨same, rfl⟩

theorem bind {step : Build α} {other : Build β} {next : α → Build γ} {otherNext : β → Build δ}
    {image : α → β} {imageNext : γ → δ} (mirrors : Mirrors correspondence alike step other image)
    (mirrorsNext : ∀ result,
      Mirrors correspondence alike (next result) (otherNext (image result)) imageNext) :
    Mirrors correspondence alike (step >>= next) (other >>= otherNext) imageNext := by
  intro before
  rw [builds_bind]
  refine (mirrors before).mono ?_ ?_
  · intro result middle ensures
    have continued {onResult : δ → Builder → Prop} {onError : Diagnostic → Prop}
        (rest : Builds (otherNext (image result)) (correspondence.builder middle) onResult
          onError) :
        Builds (other >>= otherNext) (correspondence.builder before) onResult onError := by
      rw [builds_bind]
      refine ensures.mono ?_ fun _ => False.elim
      rintro _ _ ⟨rfl, rfl⟩
      exact rest
    exact (mirrorsNext result middle).mono (fun _ _ => continued)
      fun _ fails same => continued (fails same)
  · intro error fails same
    rw [builds_bind]
    exact (fails same).mono (fun _ _ => False.elim) fun _ => id

theorem refuse (error other : InternalError) {image : α → β} :
    Mirrors correspondence alike (refuse error) (Lowering.refuse other) image :=
  fun _ _ => .internal error other

/-- Nothing happens behind a step that fails. -/
theorem refuse_bind (error other : InternalError) {next : α → Build γ} {otherNext : β → Build δ}
    {image : γ → δ} :
    Mirrors correspondence alike (Lowering.refuse error >>= next)
      (Lowering.refuse other >>= otherNext) image :=
  fun _ _ => .internal error other

theorem throw {error other : Diagnostic} (diagnostics : correspondence.Diagnostics error other)
    {image : α → β} : Mirrors correspondence alike (throw error) (throw other) image :=
  fun _ _ => diagnostics

theorem get : Mirrors correspondence alike get get correspondence.builder :=
  fun _ => ⟨rfl, rfl⟩

theorem newBlock (role : BlockRole) :
    Mirrors correspondence alike (newBlock role) (Lowering.newBlock role) id :=
  fun before => ⟨before.builder_size, before.builder_addBlock role⟩

theorem switchTo (block : Nat) :
    Mirrors correspondence alike (switchTo block) (Lowering.switchTo block) id :=
  fun _ => ⟨rfl, rfl⟩

theorem currentBlock :
    Mirrors correspondence alike currentBlock Lowering.currentBlock id := by
  intro before
  rw [builds_currentBlock, builds_currentBlock]
  exact ⟨before.builder_currentIndex, before.builder_resume⟩

theorem terminate (terminator : Ir.Terminator) :
    Mirrors correspondence alike (terminate terminator)
      (Lowering.terminate (terminator.rename correspondence.rename)) id := by
  intro before
  rw [builds_terminate, builds_terminate]
  exact ⟨rfl, before.builder_endWith terminator⟩

theorem branch (target : Nat) :
    Mirrors correspondence alike (branch target) (Lowering.branch target) id := by
  intro before
  rw [builds_branch, builds_branch]
  exact ⟨rfl, before.builder_branchTo target⟩

theorem emit (operation : Ir.Operation) :
    Mirrors correspondence alike (emit operation)
      (Lowering.emit (operation.rename correspondence.rename)) correspondence.value := by
  intro before
  rw [builds_emit, builds_emit]
  exact ⟨rfl, before.builder_emit operation⟩

theorem perform (operation : Ir.Operation) :
    Mirrors correspondence alike (perform operation)
      (Lowering.perform (operation.rename correspondence.rename)) id := by
  intro before
  rw [builds_perform, builds_perform]
  exact ⟨rfl, before.builder_perform operation⟩

theorem allocate (type : Ir.ValueType) :
    Mirrors correspondence alike (allocate type) (Lowering.allocate type)
      correspondence.value := by
  intro before
  rw [builds_allocate, builds_allocate]
  exact ⟨rfl, before.builder_addAlloca type⟩

theorem bindLocal (declaration : DeclId) (value : Ir.Value) :
    Mirrors correspondence alike (bindLocal declaration value)
      (Lowering.bindLocal (correspondence.decl declaration) (correspondence.value value)) id :=
  fun before => ⟨rfl, before.builder_bind declaration value⟩

end Mirrors

end Lowering

end Minilang
