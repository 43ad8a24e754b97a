import Mathlib.Data.List.Nodup
import Minilang.Proofs.Lowering.Courses

/-!
# Every block is entered once and closed once

Blocks are made ahead of their use. While a function is built, every block but the current one either has been
closed or awaits being entered, and every step enters all blocks that it makes. So behind the last step no
block has been forgotten, and only the block in which building ends may have no terminator.
-/

namespace Minilang.Lowering

/-! ## What has been done with blocks -/

/-- Whether blocks have been treated in a possible order, and those that await being entered have been left
alone. -/
structure Orderly (past : List BlockStep) (awaited : List Nat) (size : Nat) : Prop where
  /-- Everything may precede what stands behind it. -/
  ordered : past.Pairwise BlockStep.MayPrecede
  /-- It was done with blocks that have been made. -/
  past_lt : ∀ step ∈ past, step.block < size
  /-- Nothing was done with a block that awaits being entered. -/
  untouched : ∀ step ∈ past, step.block ∉ awaited
  /-- Blocks that await being entered have been made. -/
  awaited_lt : ∀ block ∈ awaited, block < size
  /-- No block awaits it twice. -/
  nodup : awaited.Nodup

/-- Whether a block holds what has been done with it. -/
structure Reflects (past : List BlockStep) (index : Nat) (block : OpenBlock) : Prop where
  /-- It has a terminator if it has been closed. -/
  isSome_iff : block.terminator.isSome ↔ .close index ∈ past
  /-- It holds the instructions that were added to it. -/
  size_eq : block.instructions.size = past.count (.extend index)

section Past

variable {past : List BlockStep} {awaited others : List Nat} {size index : Nat} {later : BlockStep}
  {block : OpenBlock}

namespace Orderly

theorem empty : Orderly [] [] 0 := by
  constructor <;> simp

/-- Something more is done. -/
theorem andThen (orderly : Orderly past awaited size) (later_lt : later.block < size)
    (notAwaited : later.block ∉ awaited) (possible : ∀ step ∈ past, step.MayPrecede later) :
    Orderly (past ++ [later]) awaited size := by
  have all {holds : BlockStep → Prop} (earlier : ∀ step ∈ past, holds step) (last : holds later) :
      ∀ step ∈ past ++ [later], holds step := by
    intro step member
    rw [List.mem_append, List.mem_singleton] at member
    rcases member with member | rfl
    · exact earlier step member
    · exact last
  constructor
  · apply List.pairwise_append.2 ⟨orderly.ordered, List.pairwise_singleton _ _, _⟩
    intro step member last same
    rw [List.mem_singleton.1 same]
    exact possible step member
  · exact all orderly.past_lt later_lt
  · exact all orderly.untouched notAwaited
  · exact orderly.awaited_lt
  · exact orderly.nodup

/-- A block is made. -/
theorem await (orderly : Orderly past awaited size) : Orderly past (size :: awaited) (size + 1) := by
  constructor
  · exact orderly.ordered
  · intro step member
    have step_lt := orderly.past_lt step member
    omega
  · intro step member
    have step_lt := orderly.past_lt step member
    rw [List.mem_cons, not_or]
    exact ⟨by omega, orderly.untouched step member⟩
  · intro block member
    rcases List.mem_cons.1 member with rfl | member
    · exact Nat.lt_succ_self _
    · exact Nat.lt_succ_of_lt (orderly.awaited_lt block member)
  · apply List.nodup_cons.2 ⟨_, orderly.nodup⟩
    intro member
    exact Nat.lt_irrefl _ (orderly.awaited_lt size member)

/-- A block is entered. -/
theorem enter {block : Nat} (orderly : Orderly past (others ++ block :: awaited) size) :
    Orderly (past ++ [.enter block]) (others ++ awaited) size := by
  have awaits : block ∈ others ++ block :: awaited := by simp
  have nodup := List.nodup_cons.1 (List.nodup_middle.1 orderly.nodup)
  have fewer {other : Nat} (member : other ∈ others ++ awaited) :
      other ∈ others ++ block :: awaited := by
    rw [List.mem_append] at member
    rcases member with member | member <;> simp [member]
  have rest : Orderly past (others ++ awaited) size := by
    constructor
    · exact orderly.ordered
    · exact orderly.past_lt
    · exact fun step member awaits => orderly.untouched step member (fewer awaits)
    · exact fun other member => orderly.awaited_lt other (fewer member)
    · exact nodup.2
  have entered_lt : (BlockStep.enter block).block < size := orderly.awaited_lt block awaits
  apply rest.andThen entered_lt nodup.1
  intro step member
  have untouched := orderly.untouched step member
  cases step with
  | enter other | close other =>
      rintro rfl
      exact untouched awaits
  | extend => trivial

/-- Nothing has been done with a block that is not there. -/
theorem notMem (orderly : Orderly past awaited size) (later : BlockStep) (absent : size ≤ later.block) :
    later ∉ past := by
  intro member
  have later_lt := orderly.past_lt later member
  omega

end Orderly

namespace Reflects

theorem fresh (orderly : Orderly past awaited size) (role : BlockRole) (earlier : Nat) :
    Reflects past size ⟨role, earlier, #[], none⟩ := by
  constructor
  · simp [orderly.notMem (.close size) (Nat.le_refl _)]
  · rw [List.count_eq_zero.2 (orderly.notMem _ (Nat.le_refl _))]
    rfl

/-- Something is done with another block, or nothing is changed. -/
theorem other (records : Reflects past index block) (notClose : later ≠ .close index)
    (notExtend : later ≠ .extend index) : Reflects (past ++ [later]) index block := by
  constructor
  · rw [records.isSome_iff, List.mem_append, List.mem_singleton]
    simp [notClose.symm]
  · rw [records.size_eq, List.count_append, List.count_singleton]
    simp [notExtend]

theorem push (records : Reflects past index block) (instruction : Ir.Instruction) :
    Reflects (past ++ [.extend index]) index
      { block with instructions := block.instructions.push instruction } := by
  constructor
  · rw [records.isSome_iff, List.mem_append, List.mem_singleton]
    simp
  · rw [Array.size_push, records.size_eq, List.count_append, List.count_singleton_self]

theorem close (records : Reflects past index block) (terminator : Ir.Terminator) :
    Reflects (past ++ [.close index]) index { block with terminator := some terminator } := by
  constructor
  · simp
  · rw [records.size_eq, List.count_append, List.count_singleton]
    simp

/-- A block is changed by what is done with it. -/
theorem modify (later : BlockStep) {blocks : Array OpenBlock} {change : OpenBlock → OpenBlock}
    (records : ∀ index block, blocks[index]? = some block → Reflects past index block)
    (changed : ∀ block, Reflects past later.block block →
      Reflects (past ++ [later]) later.block (change block))
    (found : (blocks.modify later.block change)[index]? = some block) :
    Reflects (past ++ [later]) index block := by
  rw [Array.getElem?_modify] at found
  split at found
  · next same =>
    subst same
    obtain ⟨older, at_index, rfl⟩ := Option.map_eq_some_iff.1 found
    exact changed older (records _ older at_index)
  · next different =>
    apply (records index block found).other <;> rintro rfl <;> exact different rfl

end Reflects

end Past

/-! ## Where building underway -/

/-- What is said of what has been done with blocks and of the function they belong to. -/
abbrev Assertion := List BlockStep → Builder → Prop

/-- Where building stands between two steps, with the blocks that await being entered. -/
structure Underway (awaited : List Nat) (past : List BlockStep) (builder : Builder) : Prop where
  /-- What has been done is in order. -/
  orderly : Orderly past awaited builder.blocks.size
  /-- The current block has been made, and awaits nothing. -/
  current_lt (block : Nat) : builder.current = some block →
    block < builder.blocks.size ∧ block ∉ awaited
  /-- The blocks that await nothing have been entered. -/
  entered (block : Nat) : block < builder.blocks.size → block ∉ awaited → .enter block ∈ past
  /-- The other blocks that await nothing have been closed, and no other ones. -/
  closed_iff (block : Nat) : block < builder.blocks.size →
    (.close block ∈ past ↔ block ∉ awaited ∧ builder.current ≠ some block)
  /-- The blocks hold what has been done with them. -/
  records (index : Nat) (block : OpenBlock) : builder.blocks[index]? = some block →
    Reflects past index block

/-- Where building stands with no block that it goes on in. -/
def Paused (awaited : List Nat) (past : List BlockStep) (builder : Builder) : Prop :=
  Underway awaited past builder ∧ builder.current = none

namespace Underway

variable {awaited others : List Nat} {past : List BlockStep} {builder : Builder} {block : Nat}

theorem empty : Underway [] [] .empty :=
  ⟨.empty, by simp [Builder.empty], by simp [Builder.empty], by simp [Builder.empty],
    by simp [Builder.empty]⟩

theorem of_same {other : Builder} (underway : Underway awaited past builder)
    (blocks_eq : other.blocks = builder.blocks) (current_eq : other.current = builder.current) :
    Underway awaited past other := by
  obtain ⟨blocks, current, allocas, locals, temporaries⟩ := other
  subst blocks_eq current_eq
  exact ⟨underway.orderly, underway.current_lt, underway.entered, underway.closed_iff, underway.records⟩

theorem addBlock (underway : Underway awaited past builder) (role : BlockRole) :
    Underway (builder.blocks.size :: awaited) past (builder.addBlock role) := by
  constructor
  case orderly =>
    rw [Builder.addBlock_size]
    exact underway.orderly.await
  case current_lt =>
    intro block current
    obtain ⟨block_lt, notAwaited⟩ := underway.current_lt block current
    rw [Builder.addBlock_size, List.mem_cons, not_or]
    exact ⟨by omega, by omega, notAwaited⟩
  case entered =>
    intro block block_lt notAwaited
    rw [Builder.addBlock_size] at block_lt
    rw [List.mem_cons, not_or] at notAwaited
    exact underway.entered block (by omega) notAwaited.2
  case closed_iff =>
    intro block block_lt
    rw [Builder.addBlock_size, Nat.lt_succ_iff_lt_or_eq] at block_lt
    rw [List.mem_cons, not_or, Builder.addBlock_current]
    rcases block_lt with block_lt | rfl
    · rw [underway.closed_iff block block_lt]
      simp [Nat.ne_of_lt block_lt]
    · have absent := underway.orderly.notMem (.close _) (Nat.le_refl builder.blocks.size)
      exact ⟨fun member => absurd member absent, fun other => absurd rfl other.1.1⟩
  case records =>
    intro index block found
    rw [Builder.addBlock, Array.getElem?_push] at found
    split at found
    · next new =>
      cases found
      exact new ▸ .fresh underway.orderly role _
    · exact underway.records index block found

theorem goTo (underway : Underway (others ++ block :: awaited) past builder)
    (idle : builder.current = none) :
    Underway (others ++ awaited) (past ++ [.enter block]) (builder.goTo block) := by
  have orderly := underway.orderly.enter
  constructor
  case orderly => exact orderly
  case current_lt =>
    rintro _ ⟨rfl⟩
    exact ⟨orderly.past_lt (.enter block) (by simp), orderly.untouched (.enter block) (by simp)⟩
  case entered =>
    intro other other_lt notAwaited
    by_cases same : other = block
    · simp [same]
    · apply List.mem_append_left
      apply underway.entered other other_lt
      simp only [List.mem_append, List.mem_cons, not_or] at notAwaited ⊢
      exact ⟨notAwaited.1, same, notAwaited.2⟩
  case closed_iff =>
    intro other other_lt
    have closed_iff := underway.closed_iff other other_lt
    by_cases same : block = other <;> simp_all [eq_comm]
  case records =>
    intro index found at_index
    exact (underway.records index found at_index).other (by simp) (by simp)

/-- Anything but entering it may be done with the current block. -/
theorem mayPrecede (underway : Underway awaited past builder) (later : BlockStep)
    (current : builder.current = some later.block) (notEnter : later ≠ .enter later.block)
    {step : BlockStep} (member : step ∈ past) : step.MayPrecede later := by
  obtain ⟨block_lt, -⟩ := underway.current_lt _ current
  cases step with
  | enter other =>
      cases later with
      | enter entered => exact absurd rfl notEnter
      | extend | close => trivial
  | extend => trivial
  | close other =>
      rintro rfl
      exact ((underway.closed_iff _ block_lt).1 member).2 current

theorem push (underway : Underway awaited past builder) (current : builder.current = some block)
    (instruction : Ir.Instruction) :
    Underway awaited (past ++ [.extend block]) (builder.push block instruction) := by
  obtain ⟨block_lt, notAwaited⟩ := underway.current_lt block current
  have size_eq := builder.push_size block instruction
  constructor
  case orderly =>
    rw [size_eq]
    exact underway.orderly.andThen block_lt notAwaited fun step =>
      underway.mayPrecede (.extend block) current (by simp)
  case current_lt =>
    rw [size_eq]
    exact underway.current_lt
  case entered =>
    rw [size_eq]
    exact fun other other_lt notAwaited =>
      List.mem_append_left _ (underway.entered other other_lt notAwaited)
  case closed_iff =>
    rw [size_eq]
    intro other other_lt
    rw [Builder.push_current, ← underway.closed_iff other other_lt]
    simp
  case records =>
    intro index found at_index
    exact Reflects.modify (.extend block) underway.records
      (fun older records => records.push instruction) at_index

theorem close (underway : Underway awaited past builder) (current : builder.current = some block)
    (terminator : Ir.Terminator) :
    Underway awaited (past ++ [.close block]) (builder.close block terminator) := by
  obtain ⟨block_lt, notAwaited⟩ := underway.current_lt block current
  have size_eq := builder.close_size block terminator
  constructor
  case orderly =>
    rw [size_eq]
    exact underway.orderly.andThen block_lt notAwaited fun step =>
      underway.mayPrecede (.close block) current (by simp)
  case current_lt =>
    rintro _ ⟨⟩
  case entered =>
    rw [size_eq]
    exact fun other other_lt notAwaited =>
      List.mem_append_left _ (underway.entered other other_lt notAwaited)
  case closed_iff =>
    rw [size_eq]
    intro other other_lt
    rw [Builder.close_current, List.mem_append, underway.closed_iff other other_lt]
    by_cases same : other = block <;> simp_all [eq_comm]
  case records =>
    intro index found at_index
    exact Reflects.modify (.close block) underway.records
      (fun older records => records.close terminator) at_index

end Underway

namespace Course

/-! ## Courses lead from one place to another one -/

/-- Whether a course leads from where one thing is said to where another one is said. -/
def Leads {α : Type} {step : Build α} (course : Course step) (pre : Assertion)
    (post : α → Assertion) : Prop :=
  ∀ past before, pre past before → Builds step before
    (fun result after => post result (past ++ course.steps before) after) fun _ => True

/-- Whether a course enters all blocks that it makes and leaves those alone that await it. -/
def Settles {α : Type} {step : Build α} (course : Course step) : Prop :=
  ∀ awaited, course.Leads (Underway awaited) fun _ => Underway awaited

section Laws

variable {α β : Type} {first : Build β} {next : β → Build α} {pre : Assertion}

theorem Leads.bind {start : Course first} {rest : ∀ result, Course (next result)}
    {mid : β → Assertion} {post : α → Assertion} (leads : start.Leads pre mid)
    (others : ∀ result, (rest result).Leads (mid result) post) :
    (Course.bind start rest).Leads pre post := by
  intro past before holds
  have builds := leads past before holds
  rw [builds_bind]
  unfold Builds at builds ⊢
  cases run : first.run before with
  | error error => trivial
  | ok outcome =>
      rw [run] at builds
      dsimp only
      rw [steps_bind run, ← List.append_assoc]
      exact others outcome.1 _ outcome.2 builds

/-- A course may do nothing with blocks. -/
theorem leads_of_idle {step : Build α} {course : Course step} {post : α → Assertion}
    (idle : ∀ before, course.steps before = [])
    (builds : ∀ past before, pre past before →
      Builds step before (fun result after => post result past after) fun _ => True) :
    course.Leads pre post := by
  intro past before holds
  rw [idle, List.append_nil]
  exact builds past before holds

theorem pure_leads (result : α) {post : α → Assertion} :
    (Course.pure result).Leads (post result) post :=
  leads_of_idle (fun _ => rfl) fun _ _ holds => holds

theorem throw_leads (error : Diagnostic) (post : α → Assertion) :
    (@Course.throw α error).Leads pre post := fun _ _ _ => trivial

end Laws

/-! ## Building -/

section Building

variable {awaited : List Nat}

theorem get_leads (pre : Assertion) :
    Course.get.Leads pre fun seen past after => pre past after ∧ seen = after :=
  leads_of_idle (fun _ => rfl) fun _ _ holds => ⟨holds, rfl⟩

theorem newBlock_leads (role : BlockRole) :
    (Course.newBlock role).Leads (Underway awaited) fun block => Underway (block :: awaited) :=
  leads_of_idle (fun _ => rfl) fun _ _ underway => underway.addBlock role

theorem newBlock_paused (role : BlockRole) :
    (Course.newBlock role).Leads (Paused awaited) fun block => Paused (block :: awaited) :=
  leads_of_idle (fun _ => rfl) fun _ _ paused => ⟨paused.1.addBlock role, paused.2⟩

theorem enter_leads (others : List Nat) (block : Nat) (awaited : List Nat) :
    (Course.enter block).Leads (Paused (others ++ block :: awaited)) fun _ =>
      Underway (others ++ awaited) := by
  intro past before paused
  exact paused.1.goTo paused.2

theorem currentBlock_leads :
    currentBlock.Leads (Underway awaited) fun block past after =>
      Underway awaited past after ∧ after.current = some block := by
  apply (get_leads _).bind
  rintro builder past _ ⟨underway, rfl⟩
  cases current : builder.current with
  | some block =>
      have idle := List.append_nil past
      exact idle.symm ▸ And.intro underway current
  | none =>
      have entered := @Underway.goTo awaited [] past _ _ (underway.addBlock .unreachable) current
      exact And.intro entered rfl

theorem terminate_leads (terminator : Ir.Terminator) :
    (terminate terminator).Leads (Underway awaited) fun _ => Paused awaited := by
  apply currentBlock_leads.bind
  rintro block past before ⟨underway, current⟩
  exact ⟨underway.close current terminator, rfl⟩

theorem branch_leads (target : Nat) :
    (branch target).Leads (Underway awaited) fun _ => Paused awaited := by
  apply (get_leads _).bind
  rintro builder past _ ⟨underway, rfl⟩
  cases current : builder.current with
  | some block =>
      simp only [Option.isSome]
      exact terminate_leads (.branch target) past builder underway
  | none => exact pure_leads () past builder ⟨underway, current⟩

theorem append_settles (instruction : Ir.Instruction) : (append instruction).Settles := by
  intro awaited
  apply currentBlock_leads.bind
  rintro block past before ⟨underway, current⟩
  exact underway.push current instruction

theorem newTemporary_settles : Course.newTemporary.Settles :=
  fun _ => leads_of_idle (fun _ => rfl) fun _ _ underway => underway.of_same rfl rfl

theorem makeRoom_settles (temporary : Nat) (type : Ir.ValueType) :
    (Course.makeRoom temporary type).Settles :=
  fun _ => leads_of_idle (fun _ => rfl) fun _ _ underway => underway.of_same rfl rfl

theorem bindLocal_settles (declaration : DeclId) (value : Ir.Value) :
    (Course.bindLocal declaration value).Settles :=
  fun _ => leads_of_idle (fun _ => rfl) fun _ _ underway => underway.of_same rfl rfl

end Building

section Settling

variable {α β : Type}

theorem pure_settles (result : α) : (Course.pure result).Settles :=
  fun awaited => @pure_leads α result fun _ => Underway awaited

theorem throw_settles (error : Diagnostic) : (@Course.throw α error).Settles :=
  fun _ => throw_leads error _

theorem Settles.bind {first : Build β} {next : β → Build α} {start : Course first}
    {rest : ∀ result, Course (next result)} (settles : start.Settles)
    (others : ∀ result, (rest result).Settles) : (Course.bind start rest).Settles :=
  fun awaited => (settles awaited).bind fun result => others result awaited

theorem currentBlock_settles : currentBlock.Settles := by
  intro awaited past before underway
  exact (currentBlock_leads past before underway).mono (fun _ _ holds => holds.1) fun _ _ => trivial

theorem terminate_settles (terminator : Ir.Terminator) : (terminate terminator).Settles := by
  intro awaited past before underway
  exact (terminate_leads terminator past before underway).mono (fun _ _ paused => paused.1)
    fun _ _ => trivial

theorem emit_settles (operation : Ir.Operation) : (emit operation).Settles :=
  newTemporary_settles.bind fun _ => (append_settles _).bind fun _ => pure_settles _

theorem perform_settles (operation : Ir.Operation) : (perform operation).Settles := append_settles _

theorem allocate_settles (type : Ir.ValueType) : (allocate type).Settles :=
  newTemporary_settles.bind fun _ => (makeRoom_settles _ type).bind fun _ => pure_settles _

/-- Something is built in a block, from which building goes on elsewhere. -/
theorem arm_leads {body : Build α} {inner : Course body} (settles : inner.Settles)
    (others : List Nat) (block : Nat) (awaited : List Nat) (target : Nat) {next : Unit → Build β}
    {rest : ∀ result, Course (next result)} {post : β → Assertion}
    (leads : ∀ result, (rest result).Leads (Paused (others ++ awaited)) post) :
    (Course.bind (.enter block) fun _ => .bind inner fun _ => .bind (branch target) rest).Leads
      (Paused (others ++ block :: awaited)) post := by
  apply (enter_leads others block awaited).bind
  intro _
  apply (settles _).bind
  intro _
  exact (branch_leads target).bind leads

/-- A value is computed in a block, from which building goes on elsewhere. -/
theorem valueArm_leads {body : Build α} {inner : Course body} (settles : inner.Settles)
    (others : List Nat) (block : Nat) (awaited : List Nat) (target : Nat)
    {next : α → Nat → Unit → Build β} {rest : ∀ value last result, Course (next value last result)}
    {post : β → Assertion}
    (leads : ∀ value last result, (rest value last result).Leads (Paused (others ++ awaited)) post) :
    (Course.bind (.enter block) fun _ => .bind inner fun value => .bind currentBlock fun last =>
      .bind (branch target) (rest value last)).Leads (Paused (others ++ block :: awaited)) post := by
  apply (enter_leads others block awaited).bind
  intro _
  apply (settles _).bind
  intro value
  apply (currentBlock_settles _).bind
  intro last
  exact (branch_leads target).bind (leads value last)

end Settling

/-! ## Expressions -/

theorem initializer_settles (decl : Decl) : (initializer decl).Settles := by
  obtain ⟨name, location, kind⟩ := decl
  cases kind with
  | object kind type found =>
      cases found with
      | none => exact throw_settles _
      | some found => exact pure_settles found
  | parameter | function | program => exact throw_settles _

section Expressions

variable {lowerExpr : ExprId → Build Ir.Value} {operand : ∀ id, Course (lowerExpr id)}
  (settles : ∀ id, (operand id).Settles)

include settles

theorem constant_settles (decl : Decl) : (constant operand decl).Settles := by
  unfold constant
  cases decl.kind.isConstant with
  | true => exact (initializer_settles decl).bind settles
  | false => exact throw_settles _

theorem name_settles (program : Program) (id : DeclId) : (name operand program id).Settles := by
  intro awaited
  apply (get_leads _).bind
  rintro builder past _ ⟨underway, rfl⟩
  cases isLocal : builder.local? id with
  | some value => exact pure_settles value awaited past builder underway
  | none =>
      cases isSymbol : program.symbol? id with
      | some value => exact pure_settles value awaited past builder underway
      | none => exact constant_settles settles _ awaited past builder underway

theorem logical_settles (isOr : Bool) (left right : ExprId) :
    (logical operand isOr left right).Settles := by
  intro awaited
  apply (settles left awaited).bind
  intro leftValue
  apply (currentBlock_settles awaited).bind
  intro leftBlock
  apply (newBlock_leads _).bind
  intro rightStart
  apply (newBlock_leads _).bind
  intro endBlock
  apply (terminate_leads _).bind
  intro _
  apply valueArm_leads (settles right) [endBlock] rightStart awaited endBlock
  intro rightValue rightEnd _
  apply (enter_leads [] endBlock awaited).bind
  intro _
  exact emit_settles _ awaited

theorem conditional_settles (type : Ir.ValueType) (guard whenTrue whenFalse : ExprId) :
    (conditional operand type guard whenTrue whenFalse).Settles := by
  intro awaited
  apply (settles guard awaited).bind
  intro condition
  apply (newBlock_leads _).bind
  intro trueStart
  apply (newBlock_leads _).bind
  intro falseStart
  apply (newBlock_leads _).bind
  intro endBlock
  apply (terminate_leads _).bind
  intro _
  apply valueArm_leads (settles whenTrue) [endBlock, falseStart] trueStart awaited endBlock
  intro trueValue trueEnd _
  apply valueArm_leads (settles whenFalse) [endBlock] falseStart awaited endBlock
  intro falseValue falseEnd _
  apply (enter_leads [] endBlock awaited).bind
  intro _
  exact emit_settles _ awaited

theorem binary_settles (ast : Ast) (operator : BinaryOperator) (left right : ExprId) :
    (binary operand ast operator left right).Settles := by
  apply (settles left).bind
  intro leftValue
  apply (settles right).bind
  intro rightValue
  cases operator.operation? (valueType ast left) leftValue rightValue with
  | some operation => exact emit_settles operation
  | none => exact throw_settles _

theorem arguments_settles (ast : Ast) (ids : List ExprId) :
    (arguments operand ast ids).Settles := by
  induction ids with
  | nil => exact pure_settles []
  | cons id ids induction =>
      apply (settles id).bind
      intro value
      exact induction.bind fun _ => pure_settles _

theorem assignment_settles (ast : Ast) (target value : ExprId) :
    (assignment operand ast target value).Settles := by
  apply (settles target).bind
  intro pointer
  apply (settles value).bind
  intro stored
  exact (perform_settles _).bind fun _ => pure_settles pointer

/-- An expression is built in order if its operands are. -/
theorem kind_settles (program : Program) (expr : Expr) : (kind operand program expr).Settles := by
  obtain ⟨kind, type, location⟩ := expr
  cases kind with
  | bool | int | float | char => exact pure_settles _
  | name declaration => exact name_settles settles program declaration
  | unary operator id => exact (settles id).bind fun _ => emit_settles _
  | binary operator left right =>
      cases operator
      case logicalAnd => exact logical_settles settles false left right
      case logicalOr => exact logical_settles settles true left right
      all_goals
        unfold kind
        exact binary_settles settles program.ast _ left right
  | call callee ids =>
      apply (settles callee).bind
      intro _
      exact (arguments_settles settles program.ast ids).bind fun _ => emit_settles _
  | index => exact throw_settles _
  | cast id => exact settles id
  | assign target value => exact assignment_settles settles program.ast target value
  | conditional guard whenTrue whenFalse =>
      exact conditional_settles settles _ guard whenTrue whenFalse
  | convert conversion id => exact (settles id).bind fun _ => emit_settles _

end Expressions

theorem exprWithin_settles (program : Program) (fuel : Nat) (id : ExprId) :
    (exprWithin program fuel id).Settles := by
  induction fuel generalizing id with
  | zero => exact throw_settles _
  | succ fuel induction => exact kind_settles induction program (program.ast.expr id)

theorem expr_settles (program : Program) (id : ExprId) : (expr program id).Settles :=
  exprWithin_settles program _ id

/-! ## Statements -/

theorem object_settles (program : Program) (id : DeclId) : (object program id).Settles := by
  unfold object lowerLocal
  generalize program.ast.decl id = decl
  obtain ⟨name, location, kind⟩ := decl
  cases kind with
  | object kind type found =>
      cases kind with
      | var =>
          apply (allocate_settles _).bind
          intro slot
          apply (bindLocal_settles id slot).bind
          intro _
          apply (initializer_settles _).bind
          intro initializer
          exact (expr_settles program initializer).bind fun _ => perform_settles _
      | const | value =>
          apply (initializer_settles _).bind
          intro initializer
          exact (expr_settles program initializer).bind fun _ => bindLocal_settles id _
  | parameter | function | program => exact throw_settles _

section Statements

variable (program : Program) (guard : ExprId)

theorem when_settles {body : Build Unit} {whenTrue : Course body} (settles : whenTrue.Settles) :
    (when program guard whenTrue).Settles := by
  intro awaited
  apply (expr_settles program guard awaited).bind
  intro condition
  apply (newBlock_leads _).bind
  intro thenBlock
  apply (newBlock_leads _).bind
  intro endBlock
  apply (terminate_leads _).bind
  intro _
  apply arm_leads settles [endBlock] thenBlock awaited endBlock
  intro _
  exact enter_leads [] endBlock awaited

theorem ifElse_settles {left right : Build Unit} {whenTrue : Course left} {whenFalse : Course right}
    (trueSettles : whenTrue.Settles) (falseSettles : whenFalse.Settles) :
    (ifElse program guard whenTrue whenFalse).Settles := by
  intro awaited
  apply (expr_settles program guard awaited).bind
  intro condition
  apply (newBlock_leads _).bind
  intro thenBlock
  apply (newBlock_leads _).bind
  intro elseBlock
  apply (newBlock_leads _).bind
  intro endBlock
  apply (terminate_leads _).bind
  intro _
  apply arm_leads trueSettles [endBlock, elseBlock] thenBlock awaited endBlock
  intro _
  apply arm_leads falseSettles [endBlock] elseBlock awaited endBlock
  intro _
  exact enter_leads [] endBlock awaited

theorem whileLoop_settles {body : LoopTargets → Build Unit} {whileTrue : ∀ targets, Course (body targets)}
    (settles : ∀ targets, (whileTrue targets).Settles) : (whileLoop program guard whileTrue).Settles := by
  intro awaited
  apply (newBlock_leads _).bind
  intro condBlock
  apply (newBlock_leads _).bind
  intro bodyBlock
  apply (newBlock_leads _).bind
  intro endBlock
  apply (terminate_leads _).bind
  intro _
  apply (enter_leads [endBlock, bodyBlock] condBlock awaited).bind
  intro _
  apply (expr_settles program guard _).bind
  intro condition
  apply (terminate_leads _).bind
  intro _
  apply arm_leads (settles ⟨condBlock, endBlock⟩) [endBlock] bodyBlock awaited condBlock
  intro _
  exact enter_leads [] endBlock awaited

end Statements

theorem jump_settles (loop : Option LoopTargets) (target : LoopTargets → Nat) (location : Location)
    (error : SemanticError) : (jump loop target location error).Settles := by
  cases loop with
  | some targets => exact terminate_settles _
  | none => exact throw_settles _

theorem sequence_settles {lowerStmt : StmtId → Build Unit} {statement : ∀ id, Course (lowerStmt id)}
    (settles : ∀ id, (statement id).Settles) (ids : List StmtId) :
    (sequence statement ids).Settles := by
  induction ids with
  | nil => exact pure_settles ()
  | cons id ids induction => exact (settles id).bind fun _ => induction

/-- A statement is built in order if the statements within it are. -/
theorem form_settles (program : Program) (result : Ir.ValueType)
    {lowerStmt : Option LoopTargets → StmtId → Build Unit}
    {statement : ∀ loop id, Course (lowerStmt loop id)}
    (settles : ∀ loop id, (statement loop id).Settles) (loop : Option LoopTargets) (stmt : Stmt) :
    (form program result statement loop stmt).Settles := by
  cases stmt with
  | block ids => exact sequence_settles (settles loop) ids
  | whenTrue guard body => exact when_settles program guard (settles loop body)
  | ifElse guard whenTrue whenFalse =>
      exact ifElse_settles program guard (settles loop whenTrue) (settles loop whenFalse)
  | whileTrue guard body =>
      unfold form
      exact whileLoop_settles program guard fun targets => settles (some targets) body
  | breakLoop location => exact jump_settles loop _ location _
  | continueLoop location => exact jump_settles loop _ location _
  | returnValue value => exact (expr_settles program value).bind fun _ => terminate_settles _
  | declaration declaration => exact object_settles program declaration
  | expression expression => exact (expr_settles program expression).bind fun _ => pure_settles ()

theorem stmtWithin_settles (program : Program) (result : Ir.ValueType) (fuel : Nat)
    (loop : Option LoopTargets) (id : StmtId) : (stmtWithin program result fuel loop id).Settles := by
  induction fuel generalizing loop id with
  | zero => exact throw_settles _
  | succ fuel induction => exact form_settles program result induction loop (program.ast.stmt id)

theorem stmt_settles (program : Program) (result : Ir.ValueType) (id : StmtId) :
    (stmt program result id).Settles := stmtWithin_settles program result _ none id

/-! ## Functions -/

theorem parameter_settles (program : Program) (index : Nat) (id : DeclId) :
    (parameter program index id).Settles := by
  unfold parameter lowerParameter
  generalize program.ast.decl id = decl
  obtain ⟨name, location, kind⟩ := decl
  cases kind with
  | object | parameter | function =>
      apply (allocate_settles _).bind
      intro slot
      apply (perform_settles _).bind
      intro _
      exact (bindLocal_settles id slot).bind fun _ => pure_settles _
  | program => exact throw_settles _

theorem parameters_settles (program : Program) (index : Nat) (ids : List DeclId) :
    (parameters program index ids).Settles := by
  induction ids generalizing index with
  | nil => exact pure_settles []
  | cons id ids induction =>
      apply (parameter_settles program index id).bind
      intro _
      exact (induction (index + 1)).bind fun _ => pure_settles _

theorem functionBody_settles (decl : Decl) : (functionBody decl).Settles := by
  obtain ⟨name, location, kind⟩ := decl
  cases kind with
  | function type parameters found =>
      cases found with
      | none => exact throw_settles _
      | some body => exact pure_settles body
  | object | parameter | program => exact throw_settles _

/-- Building a function leaves no block behind. -/
theorem function_leads (program : Program) (result : Ir.ValueType) (decl : Decl) :
    (function program result decl).Leads (Paused []) fun _ => Underway [] := by
  apply (newBlock_paused _).bind
  intro entry
  apply (enter_leads [] entry []).bind
  intro _
  apply (parameters_settles program 0 decl.kind.parameters []).bind
  intro _
  apply (functionBody_settles decl []).bind
  intro body
  apply (stmt_settles program result body []).bind
  intro _
  exact pure_settles _ []

end Course

/-! ## Lowered functions -/

/-- Where elements with a property are at one place, there is at most one. -/
theorem countP_le_one {α : Type} {p : α → Bool} {elements : List α}
    (unique : ∀ (i j : Nat) (x y : α), elements[i]? = some x → elements[j]? = some y →
      p x = true → p y = true → i = j) : elements.countP p ≤ 1 := by
  induction elements with
  | nil => simp
  | cons first rest induction =>
      rw [List.countP_cons]
      split
      · next holds =>
        have none : rest.countP p = 0 := by
          rw [List.countP_eq_zero]
          intro other member also
          obtain ⟨index, found⟩ := List.getElem?_of_mem member
          exact absurd (unique 0 (index + 1) first other rfl found holds also) (by omega)
        omega
      · apply induction
        intro i j x y left right holds also
        exact Nat.succ_inj.1 (unique (i + 1) (j + 1) x y left right holds also)

theorem Underway.terminator_eq_none_iff {past : List BlockStep} {builder : Builder}
    (underway : Underway [] past builder) {index : Nat} {block : OpenBlock}
    (found : builder.blocks[index]? = some block) :
    block.terminator = none ↔ builder.current = some index := by
  have index_lt := (Array.getElem?_eq_some_iff.1 found).1
  rw [← Option.not_isSome_iff_eq_none, (underway.records index block found).isSome_iff,
    underway.closed_iff index index_lt]
  simp

/-- Where nothing awaits being entered, at most one block has no terminator. -/
theorem Underway.countP_le_one {past : List BlockStep} {builder : Builder}
    (underway : Underway [] past builder) :
    builder.blocks.toList.countP (fun block => block.terminator.isNone) ≤ 1 := by
  apply Lowering.countP_le_one
  intro first second block other at_first at_second isOpen alsoOpen
  rw [Array.getElem?_toList] at at_first at_second
  rw [Option.isNone_iff_eq_none, underway.terminator_eq_none_iff at_first] at isOpen
  rw [Option.isNone_iff_eq_none, underway.terminator_eq_none_iff at_second, isOpen] at alsoOpen
  exact Option.some.inj alsoOpen

/-- The blocks of a lowered function are those that have been built. -/
theorem buildFunction_of_lowered {program : Program} {id : DeclId} {function : Ir.Function}
    (lowered : lowerFunction program id = .ok function) :
    ∃ parameters builder,
      (buildFunction program function.result (program.ast.decl id)).run .empty =
        .ok (parameters, builder) ∧ function.blocks = builder.finish function.result := by
  rw [lowerFunction] at lowered
  dsimp only at lowered
  split at lowered
  · next result types typed =>
    cases run : (buildFunction program (.ofTy result) (program.ast.decl id)).run .empty with
    | error error =>
        rw [run] at lowered
        cases lowered
    | ok built =>
        rw [run] at lowered
        cases lowered
        exact ⟨built.1, built.2, run, rfl⟩
  · cases lowered

/-- While a function is built, no block is entered twice, closed twice, or given an instruction when it has
been closed. In the end all blocks have been entered, hold what was done with them, and have got a terminator
of their own, but for the current one. So at most one block ends with a return that nothing in the function
asks for: the one in which building ends. -/
theorem lowerFunction_disciplined {program : Program} {id : DeclId} {function : Ir.Function}
    (lowered : lowerFunction program id = .ok function) :
    let decl := program.ast.decl id
    let steps := (Course.function program function.result decl).steps .empty
    steps.Pairwise BlockStep.MayPrecede ∧
      ∃ parameters builder,
        (buildFunction program function.result decl).run .empty = .ok (parameters, builder) ∧
        function.blocks = builder.finish function.result ∧
        (∀ index block, builder.blocks[index]? = some block →
          .enter index ∈ steps ∧ Reflects steps index block ∧
            (block.terminator = none ↔ builder.current = some index)) ∧
        builder.blocks.toList.countP (fun block => block.terminator.isNone) ≤ 1 := by
  obtain ⟨parameters, builder, run, blocks_eq⟩ := buildFunction_of_lowered lowered
  have underway := (Course.function_leads program function.result (program.ast.decl id) [] .empty
    ⟨.empty, rfl⟩).result run
  rw [List.nil_append] at underway
  refine ⟨underway.orderly.ordered, parameters, builder, run, blocks_eq, ?_, underway.countP_le_one⟩
  intro index block found
  have index_lt := (Array.getElem?_eq_some_iff.1 found).1
  constructor
  · exact underway.entered index index_lt (by simp)
  · exact ⟨underway.records index block found, underway.terminator_eq_none_iff found⟩

/-- A function with a loop that it leaves at once, behind which stands code that is never reached. -/
def leftLoop : Program where
  ast := {
    exprs := #[⟨.bool true, .bool, .unknown⟩, ⟨.int 1, .int, .unknown⟩]
    stmts := #[.breakLoop .unknown, .returnValue ⟨1⟩, .block [⟨0⟩, ⟨1⟩], .whileTrue ⟨0⟩ ⟨2⟩]
    decls := #[⟨"f", .unknown, .function (.function .int []) [] (some ⟨3⟩)⟩,
      ⟨"t", .unknown, .program [⟨0⟩]⟩] }
  root := ⟨1⟩

/-- The blocks of the loop are made in front of the block that nothing leads to, which is entered and closed
in between. Building ends in the block behind the loop. -/
theorem lowerFunction_disciplined_of_leftLoop :
    ∃ function, lowerFunction leftLoop ⟨0⟩ = .ok function ∧
      let steps := (Course.function leftLoop function.result (leftLoop.ast.decl ⟨0⟩)).steps .empty
      steps = [.enter 0, .close 0, .enter 1, .close 1, .enter 2, .close 2, .enter 4, .close 4, .enter 3] ∧
        steps.Pairwise BlockStep.MayPrecede := by
  cases lowered : lowerFunction leftLoop ⟨0⟩ with
  | error error =>
      have succeeds : (lowerFunction leftLoop ⟨0⟩).toOption.isSome = true := by decide +kernel
      rw [lowered] at succeeds
      cases succeeds
  | ok function =>
      have result_eq : (lowerFunction leftLoop ⟨0⟩).toOption.map Ir.Function.result = some .i32 := by
        decide +kernel
      rw [lowered] at result_eq
      have result_eq : function.result = .i32 := Option.some.inj result_eq
      refine ⟨function, rfl, ?_, (lowerFunction_disciplined lowered).1⟩
      rw [result_eq]
      decide +kernel

end Minilang.Lowering
