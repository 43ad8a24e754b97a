import Minilang.Proofs.Ir.Typing
import Minilang.Proofs.Lowering.Branches

/-!
# Types in functions under construction

Whatever is added to a function under construction is typed by what has been built before it. Types are kept
as the function grows, since an instruction that defines a temporary stays where it is.
-/

namespace Minilang

/-- Whether what has been built in a block is typed. -/
structure OpenBlock.WellTyped (holds : Ir.Value → Ir.ValueType → Prop)
    (calls : String → Ir.Signature → Prop) (result : Ir.ValueType) (block : OpenBlock) : Prop where
  /-- Instructions are typed. -/
  instruction : ∀ instruction ∈ block.instructions.toList,
    instruction.operation.WellTyped holds calls
  /-- The terminator is typed if there is one. -/
  terminator : ∀ terminator, block.terminator = some terminator →
    terminator.WellTyped holds result

namespace Builder

/-- Whether an instruction has been built. -/
def Contains (builder : Builder) (instruction : Ir.Instruction) : Prop :=
  instruction ∈ builder.allocas.toList ∨ ∃ (index : Nat) (block : OpenBlock),
    builder.blocks[index]? = some block ∧ instruction ∈ block.instructions.toList

/-- The types of values in a function with arguments of the given types. -/
inductive Holds (arguments : List Ir.ValueType) (builder : Builder) :
    Ir.Value → Ir.ValueType → Prop
  | const (constant : Ir.Constant) : Holds arguments builder (.const constant) constant.type
  | temp {index : Nat} {operation : Ir.Operation} {type : Ir.ValueType} :
      index < builder.temporaries → builder.Contains ⟨some index, operation⟩ →
      operation.type? = some type → Holds arguments builder (.temp index) type
  | arg {index : Nat} {type : Ir.ValueType} :
      arguments[index]? = some type → Holds arguments builder (.arg index) type
  | global (name : String) : Holds arguments builder (.global name) .ptr
  | function (name : String) : Holds arguments builder (.function name) .ptr

/-- Whether everything in a function with a signature is typed. -/
structure WellTyped (signature : Ir.Signature) (calls : String → Ir.Signature → Prop)
    (builder : Builder) : Prop where
  /-- The function is in order. -/
  valid : builder.Valid
  /-- What has been built in the blocks is typed. -/
  block : ∀ (index : Nat) (block : OpenBlock), builder.blocks[index]? = some block →
    block.WellTyped (builder.Holds signature.arguments) calls signature.result

variable {builder before after : Builder} {arguments : List Ir.ValueType} {value : Ir.Value}
  {type : Ir.ValueType} {signature : Ir.Signature} {calls : String → Ir.Signature → Prop}

theorem Contains.mono {instruction : Ir.Instruction} (contains : before.Contains instruction)
    (includes : before.Includes after) : after.Contains instruction := by
  rcases contains with room | ⟨index, block, found, member⟩
  · exact .inl (includes.allocas_le.subset room)
  · obtain ⟨later, later_found, grows⟩ := includes.block_grows index block found
    exact .inr ⟨index, later, later_found, grows.instructions_le.subset member⟩

namespace Holds

theorem below (holds : builder.Holds arguments value type) : value.Below builder.temporaries := by
  cases holds with
  | temp bound => exact bound
  | const | arg | global | function => trivial

theorem mono (holds : before.Holds arguments value type) (includes : before.Includes after) :
    after.Holds arguments value type := by
  cases holds with
  | const constant => exact .const constant
  | temp bound contains typed =>
      exact .temp (bound.trans_le includes.temporaries_le) (contains.mono includes) typed
  | arg found => exact .arg found
  | global name => exact .global name
  | function name => exact .function name

theorem addBlock (holds : builder.Holds arguments value type) (role : BlockRole) :
    (builder.addBlock role).Holds arguments value type :=
  holds.mono (.addBlock builder role)

end Holds

end Builder

theorem OpenBlock.WellTyped.mono {before after : Builder} {arguments : List Ir.ValueType}
    {calls : String → Ir.Signature → Prop} {result : Ir.ValueType} {block : OpenBlock}
    (typed : block.WellTyped (before.Holds arguments) calls result)
    (includes : before.Includes after) :
    block.WellTyped (after.Holds arguments) calls result where
  instruction instruction member := (typed.instruction instruction member).mono
    (fun _ _ holds => holds.mono includes) fun _ _ called => called
  terminator terminator closed := (typed.terminator terminator closed).mono
    fun _ _ holds => holds.mono includes

/-- A block in which nothing has been built is typed. -/
theorem OpenBlock.WellTyped.of_fresh {holds : Ir.Value → Ir.ValueType → Prop}
    {calls : String → Ir.Signature → Prop} {result : Ir.ValueType} (role : BlockRole)
    (earlier : Nat) : OpenBlock.WellTyped holds calls result ⟨role, earlier, #[], none⟩ :=
  ⟨by simp, nofun⟩

namespace Builder

variable {builder before after : Builder} {arguments : List Ir.ValueType} {value : Ir.Value}
  {type : Ir.ValueType} {signature : Ir.Signature} {calls : String → Ir.Signature → Prop}

/-- The address of new room is an address. -/
theorem addAlloca_holds (builder : Builder) (type : Ir.ValueType) :
    (builder.addAlloca type).Holds arguments (.temp builder.temporaries) .ptr := by
  have room : (builder.addAlloca type).Contains ⟨some builder.temporaries, .alloca type⟩ :=
    .inl (by simp [Builder.addAlloca])
  exact .temp (Nat.lt_succ_self _) room rfl

namespace WellTyped

/-- A step that keeps all blocks keeps them typed. -/
theorem of_blocks_eq (typed : before.WellTyped signature calls) (includes : before.Includes after)
    (valid : after.Valid) (blocks_eq : after.blocks = before.blocks) :
    after.WellTyped signature calls := by
  refine ⟨valid, fun index block found => ?_⟩
  rw [blocks_eq] at found
  exact (typed.block index block found).mono includes

/-- A step that changes one block keeps all others typed. -/
theorem of_modify (typed : before.WellTyped signature calls) (includes : before.Includes after)
    (valid : after.Valid) {index : Nat} (change : OpenBlock → OpenBlock)
    (blocks_eq : after.blocks = before.blocks.modify index change)
    (changed : ∀ block : OpenBlock,
      block.WellTyped (after.Holds signature.arguments) calls signature.result →
      (change block).WellTyped (after.Holds signature.arguments) calls signature.result) :
    after.WellTyped signature calls := by
  refine ⟨valid, fun other block found => ?_⟩
  rw [blocks_eq, Array.getElem?_modify] at found
  by_cases same : index = other
  · rw [if_pos same] at found
    obtain ⟨earlier, earlier_found, rfl⟩ := Option.map_eq_some_iff.1 found
    exact changed earlier ((typed.block other earlier earlier_found).mono includes)
  · rw [if_neg same] at found
    exact (typed.block other block found).mono includes

theorem addBlock (typed : builder.WellTyped signature calls) (role : BlockRole) :
    (builder.addBlock role).WellTyped signature calls := by
  refine ⟨typed.valid.addBlock role, fun index block found => ?_⟩
  rw [Builder.addBlock, Array.getElem?_push] at found
  split at found
  · cases found
    exact .of_fresh role _
  · exact (typed.block index block found).mono (.addBlock builder role)

theorem goTo (typed : builder.WellTyped signature calls) {block : Nat}
    (awaits : builder.Awaits block) : (builder.goTo block).WellTyped signature calls := by
  apply typed.of_blocks_eq (.goTo builder block) ⟨?_, typed.valid.localsBelow⟩ rfl
  rintro _ ⟨rfl⟩
  obtain ⟨role, earlier, found⟩ := awaits.fresh
  exact ⟨_, found, rfl⟩

theorem resume (typed : builder.WellTyped signature calls) :
    builder.resume.WellTyped signature calls := by
  rw [Builder.resume]
  cases builder.current with
  | none => exact (typed.addBlock .unreachable).goTo (.added typed.valid .unreachable)
  | some block => exact typed

theorem includes_resume (typed : builder.WellTyped signature calls) :
    builder.Includes builder.resume := Grows.refl.resume.includes typed.valid.wellFormed

section Instructions

variable (typed : builder.WellTyped signature calls) {operation : Ir.Operation}
  (operands : operation.WellTyped (builder.Holds signature.arguments) calls)

include operands

/-- The operands of a typed instruction are there. -/
theorem operand_below : ∀ value ∈ operation.operands, value.Below builder.temporaries := by
  intro value member
  obtain ⟨_, holds⟩ := operands.operand value member
  exact holds.below

include typed

/-- A typed instruction with a result may be added. -/
theorem emit : (builder.emit operation).WellTyped signature calls := by
  have grows := Grows.refl.emitted (operand_below operands)
  have counted : builder.resume.countTemporary.WellFormed := typed.resume.valid.wellFormed
  have includes : builder.resume.Includes (builder.emit operation) :=
    (Includes.countTemporary _).trans (.push counted builder.resume_current _)
  apply typed.resume.of_modify includes (typed.valid.of_grows grows) (fun open' =>
    { open' with instructions := open'.instructions.push ⟨some builder.temporaries, operation⟩ }) rfl
  intro block earlier
  refine ⟨?_, earlier.terminator⟩
  rw [Array.toList_push, List.forall_mem_append, List.forall_mem_singleton]
  exact ⟨earlier.instruction, operands.mono
    (fun _ _ holds => (holds.mono typed.includes_resume).mono includes) fun _ _ called => called⟩

/-- A typed instruction without a result may be added. -/
theorem perform : (builder.perform operation).WellTyped signature calls := by
  have grows := Grows.refl.performed (operand_below operands)
  have includes : builder.resume.Includes (builder.perform operation) :=
    .push typed.resume.valid.wellFormed builder.resume_current _
  apply typed.resume.of_modify includes (typed.valid.of_grows grows) (fun open' =>
    { open' with instructions := open'.instructions.push ⟨none, operation⟩ }) rfl
  intro block earlier
  refine ⟨?_, earlier.terminator⟩
  rw [Array.toList_push, List.forall_mem_append, List.forall_mem_singleton]
  exact ⟨earlier.instruction, operands.mono
    (fun _ _ holds => (holds.mono typed.includes_resume).mono includes) fun _ _ called => called⟩

end Instructions

/-- The temporary of a new instruction has the type of the instruction. -/
theorem emit_holds (typed : builder.WellTyped signature calls) {operation : Ir.Operation}
    (type_eq : operation.type? = some type) :
    (builder.emit operation).Holds arguments (.temp builder.temporaries) type := by
  obtain ⟨open', found, _⟩ := typed.resume.valid.wellFormed _ builder.resume_current
  have pushed : (builder.emit operation).blocks[builder.currentIndex]? = some { open' with
      instructions := open'.instructions.push ⟨some builder.temporaries, operation⟩ } := by
    rw [Builder.emit, Builder.push, Array.getElem?_modify, if_pos rfl, countTemporary_blocks, found]
    rfl
  refine .temp ?_ (.inr ⟨builder.currentIndex, _, pushed, by simp⟩) type_eq
  rw [emit_temporaries]
  exact Nat.lt_succ_self _

/-- The open block may be closed by a typed terminator. -/
theorem close (typed : builder.WellTyped signature calls) {block : Nat}
    (current : builder.current = some block) {terminator : Ir.Terminator}
    (operands : terminator.WellTyped (builder.Holds signature.arguments) signature.result) :
    (builder.close block terminator).WellTyped signature calls := by
  have includes := Includes.close typed.valid.wellFormed current terminator
  apply typed.of_modify includes ⟨nofun, typed.valid.localsBelow⟩
    (fun open' => { open' with terminator := some terminator }) rfl
  intro block earlier
  refine ⟨earlier.instruction, ?_⟩
  rintro _ ⟨rfl⟩
  exact operands.mono fun _ _ holds => holds.mono includes

theorem endWith (typed : builder.WellTyped signature calls) {terminator : Ir.Terminator}
    (operands : terminator.WellTyped (builder.Holds signature.arguments) signature.result) :
    (builder.endWith terminator).WellTyped signature calls :=
  typed.resume.close builder.resume_current
    (operands.mono fun _ _ holds => holds.mono typed.includes_resume)

theorem branchTo (typed : builder.WellTyped signature calls) (target : Nat) :
    (builder.branchTo target).WellTyped signature calls := by
  rw [Builder.branchTo]
  cases current : builder.current with
  | none => exact typed
  | some block => exact typed.close current (.branch target)

theorem addAlloca (typed : builder.WellTyped signature calls) (type : Ir.ValueType) :
    (builder.addAlloca type).WellTyped signature calls := by
  have grows : builder.Grows (builder.addAlloca type) := .addAlloca type .refl
  exact typed.of_blocks_eq (grows.includes typed.valid.wellFormed) (typed.valid.of_grows grows) rfl

theorem bind (typed : builder.WellTyped signature calls) {declaration : DeclId} {value : Ir.Value}
    (unbound : builder.local? declaration = none) (below : value.Below builder.temporaries) :
    (builder.bind declaration value).WellTyped signature calls := by
  have grows : builder.Grows (builder.bind declaration value) := .bind .refl unbound below
  exact typed.of_blocks_eq (grows.includes typed.valid.wellFormed) (typed.valid.of_grows grows) rfl

/-- The open block is left for one that has awaited being built. -/
theorem leave (typed : builder.WellTyped signature calls) (target : Nat) {next : Nat}
    (awaits : builder.Awaits next) : (builder.leave target next).WellTyped signature calls :=
  (typed.branchTo target).goTo (awaits.branchTo target)

section Branches

variable (typed : builder.WellTyped signature calls) {condition : Ir.Value}
  (holds : builder.Holds signature.arguments condition .i1)

include typed holds

theorem splitLogical (isOr : Bool) :
    (builder.splitLogical isOr condition).WellTyped signature calls := by
  obtain ⟨start, next⟩ := Awaits.twoAdded typed.resume.valid (if isOr then .orRhs else .andRhs)
    (if isOr then .orEnd else .andEnd)
  have prepared := (typed.resume.addBlock (if isOr then .orRhs else .andRhs)).addBlock
    (if isOr then .orEnd else .andEnd)
  have kept := ((holds.mono typed.includes_resume).addBlock
    (if isOr then .orRhs else .andRhs)).addBlock (if isOr then .orEnd else .andEnd)
  refine (prepared.endWith ?_).goTo (start.endWith _)
  cases isOr with
  | false => exact .condBranch _ _ kept
  | true => exact .condBranch _ _ kept

theorem splitTwo (first second : BlockRole) :
    (builder.splitTwo first second condition).WellTyped signature calls := by
  obtain ⟨start, next⟩ := Awaits.twoAdded typed.valid first second
  exact (((typed.addBlock first).addBlock second).endWith (.condBranch _ _
    ((holds.addBlock first).addBlock second))).goTo (start.endWith _)

theorem splitThree (first second third : BlockRole) :
    (builder.splitThree first second third condition).WellTyped signature calls := by
  obtain ⟨start, next, last⟩ := Awaits.threeAdded typed.valid first second third
  exact ((((typed.addBlock first).addBlock second).addBlock third).endWith (.condBranch _ _
    (((holds.addBlock first).addBlock second).addBlock third))).goTo (start.endWith _)

end Branches

theorem startLoop (typed : builder.WellTyped signature calls) :
    builder.startLoop.WellTyped signature calls := by
  obtain ⟨start, next, last⟩ := Awaits.threeAdded typed.valid .whileCond .whileBody .whileEnd
  exact ((((typed.addBlock .whileCond).addBlock .whileBody).addBlock .whileEnd).endWith
    (.branch _)).goTo (start.endWith _)

end WellTyped

end Builder

end Minilang
