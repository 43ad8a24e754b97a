import Minilang.Proofs.Ir.ControlFlow
import Minilang.Proofs.Lowering.Branches

/-!
# Control flow in functions under construction

A branch leads to blocks that were made as its targets, and while the parts of a form are built, nothing
new leads to the blocks that await their end. So a `phi`, which comes first in a block where two ways meet,
names exactly these two ways, and what is built later leads elsewhere.
-/

namespace Minilang

namespace BlockRole

/-- Whether blocks of a role are made as the targets of branches. -/
def isTarget : BlockRole → Bool
  | entry | unreachable => false
  | _ => true

/-- Whether the values of two ways meet in blocks of a role. -/
def isJoin : BlockRole → Bool
  | andEnd | orEnd | condEnd => true
  | _ => false

end BlockRole

namespace Builder

/-- Whether one block leads to another one. -/
def Leads (builder : Builder) (source target : Nat) : Prop :=
  ∃ block terminator, builder.blocks[source]? = some block ∧
    block.terminator = some terminator ∧ target ∈ terminator.successors

/-- Whether a block was made for a role. -/
def HasRole (builder : Builder) (index : Nat) (role : BlockRole) : Prop :=
  ∃ block, builder.blocks[index]? = some block ∧ block.role = role

/-- Whether a block of a role has nothing in it, while building goes on elsewhere. -/
structure Reserves (builder : Builder) (index : Nat) (role : BlockRole) : Prop where
  /-- Nothing has been built in the block. -/
  empty : ∃ earlier, builder.blocks[index]? = some ⟨role, earlier, #[], none⟩
  /-- Building goes on elsewhere. -/
  elsewhere : builder.current ≠ some index

/-- Whether a branch may lead to a block: it was made as a target, and no `phi` has counted its ways. -/
def Admits (builder : Builder) (target : Nat) : Prop :=
  ∃ block, builder.blocks[target]? = some block ∧ block.role.isTarget = true ∧
    ∀ instruction ∈ block.instructions.toList, instruction.operation.isPhi = false

/-- Whether the values that meet in an operation come from the two blocks that lead to its block. -/
def Joins (builder : Builder) (index : Nat) (operation : Ir.Operation) : Prop :=
  ∃ firstValue firstBlock secondValue secondBlock,
    operation.incoming = [(firstValue, firstBlock), (secondValue, secondBlock)] ∧
    firstBlock ≠ secondBlock ∧
    ∀ source, builder.Leads source index ↔ source = firstBlock ∨ source = secondBlock

/-- Whether values may meet in an operation at the start of a block that has nothing in it. -/
def MayJoin (builder : Builder) (index : Nat) (operation : Ir.Operation) : Prop :=
  (∃ role earlier, builder.blocks[index]? = some ⟨role, earlier, #[], none⟩ ∧ role.isJoin = true) ∧
    builder.Joins index operation

/-- Whether what has been built is well connected. -/
structure Connected (builder : Builder) : Prop where
  /-- The block that building goes on in is there and open. -/
  wellFormed : builder.WellFormed
  /-- Branches lead to blocks that were made as targets. -/
  target : ∀ source target, builder.Leads source target →
    ∃ role, builder.HasRole target role ∧ role.isTarget = true
  /-- Room is made apart from the blocks. -/
  room : ∀ instruction ∈ builder.allocas.toList, instruction.operation.isAlloca = true
  /-- The blocks make no room. -/
  noRoom : ∀ (index : Nat) (block : OpenBlock), builder.blocks[index]? = some block →
    ∀ instruction ∈ block.instructions.toList, instruction.operation.isAlloca = false
  /-- A `phi` comes first in a block where two ways meet. -/
  phi : ∀ (index : Nat) (block : OpenBlock), builder.blocks[index]? = some block →
    ∀ first instruction rest, block.instructions.toList = first ++ instruction :: rest →
    instruction.operation.isPhi = true →
    first = [] ∧ block.role.isJoin = true ∧ builder.Joins index instruction.operation

/-- What a function becomes by building on with branches that lead to new blocks and to certain older
ones. -/
inductive Connects (older : Nat → Prop) (before : Builder) : Builder → Prop
  | refl : Connects older before before
  | addBlock {after : Builder} (role : BlockRole) :
      Connects older before after → Connects older before (after.addBlock role)
  /-- Building goes on in a new block in which nothing has been built. -/
  | goTo {after : Builder} {index : Nat} {role : BlockRole} :
      Connects older before after → before.blocks.size ≤ index → after.Reserves index role →
      Connects older before (after.goTo index)
  /-- An instruction is added, and a `phi` only where nothing stands before it and two ways meet. -/
  | push {after : Builder} {index : Nat} {instruction : Ir.Instruction} :
      Connects older before after → after.current = some index →
      instruction.operation.isAlloca = false →
      (instruction.operation.isPhi = true → after.MayJoin index instruction.operation) →
      Connects older before (after.push index instruction)
  | close {after : Builder} {index : Nat} {terminator : Ir.Terminator} :
      Connects older before after → after.current = some index →
      (∀ target ∈ terminator.successors,
        (before.blocks.size ≤ target ∨ older target) ∧ after.Admits target) →
      Connects older before (after.close index terminator)
  | addAlloca {after : Builder} (type : Ir.ValueType) :
      Connects older before after → Connects older before (after.addAlloca type)
  | countTemporary {after : Builder} :
      Connects older before after → Connects older before after.countTemporary
  | bind {after : Builder} (declaration : DeclId) (value : Ir.Value) :
      Connects older before after → Connects older before (after.bind declaration value)

section Steps

variable {builder : Builder}

/-- Closing the open block adds its branches and no others. -/
theorem leads_close (wellFormed : builder.WellFormed) {index : Nat}
    (current : builder.current = some index) {terminator : Ir.Terminator} {source target : Nat} :
    (builder.close index terminator).Leads source target ↔
      builder.Leads source target ∨ source = index ∧ target ∈ terminator.successors := by
  obtain ⟨open', found, isOpen⟩ := wellFormed index current
  have at_eq : (builder.close index terminator).blocks[source]? =
      if index = source then builder.blocks[source]?.map
        fun block => { block with terminator := some terminator }
      else builder.blocks[source]? := by
    rw [Builder.close, Array.getElem?_modify]
  rw [Leads, Leads, at_eq]
  by_cases same : index = source
  · subst same
    rw [if_pos rfl, found, Option.map_some]
    constructor
    · rintro ⟨_, _, ⟨rfl⟩, ⟨rfl⟩, member⟩
      exact .inr ⟨rfl, member⟩
    · rintro (⟨_, _, ⟨rfl⟩, closed, -⟩ | ⟨-, member⟩)
      · rw [isOpen] at closed
        cases closed
      · exact ⟨_, _, rfl, rfl, member⟩
  · rw [if_neg same]
    constructor
    · exact .inl
    · rintro (leads | ⟨rfl, -⟩)
      · exact leads
      · exact absurd rfl same

/-- Instructions change no branches. -/
theorem leads_push {index source target : Nat} {instruction : Ir.Instruction} :
    (builder.push index instruction).Leads source target ↔ builder.Leads source target := by
  have at_eq : (builder.push index instruction).blocks[source]? =
      if index = source then builder.blocks[source]?.map
        fun block => { block with instructions := block.instructions.push instruction }
      else builder.blocks[source]? := by
    rw [push, Array.getElem?_modify]
  rw [Leads, Leads, at_eq]
  split
  · cases found : builder.blocks[source]? with
    | none => simp
    | some block => simp
  · exact Iff.rfl

theorem blocks_addBlock_of_lt {index : Nat} (bound : index < builder.blocks.size)
    (role : BlockRole) : (builder.addBlock role).blocks[index]? = builder.blocks[index]? := by
  rw [addBlock, Array.getElem?_push_lt bound, Array.getElem?_eq_getElem bound]

theorem blocks_addBlock_self (builder : Builder) (role : BlockRole) :
    (builder.addBlock role).blocks[builder.blocks.size]? =
      some ⟨role, builder.countRole role, #[], none⟩ := by
  simp [addBlock]

/-- A new block leads nowhere. -/
theorem leads_addBlock {role : BlockRole} {source target : Nat} :
    (builder.addBlock role).Leads source target ↔ builder.Leads source target := by
  rw [Leads, Leads, addBlock, Array.getElem?_push]
  split
  · next last =>
    subst last
    simp
  · exact Iff.rfl

/-- A block keeps its role. -/
theorem HasRole.of_includes {before after : Builder} {index : Nat} {role : BlockRole}
    (hasRole : before.HasRole index role) (includes : before.Includes after) :
    after.HasRole index role := by
  obtain ⟨block, found, rfl⟩ := hasRole
  obtain ⟨later, later_found, grows⟩ := includes.block_grows index block found
  exact ⟨later, later_found, grows.role_eq⟩

theorem HasRole.lt_size {index : Nat} {role : BlockRole} (hasRole : builder.HasRole index role) :
    index < builder.blocks.size := by
  obtain ⟨block, found, -⟩ := hasRole
  exact (Array.getElem?_eq_some_iff.1 found).1

/-- Only blocks that are there lead anywhere. -/
theorem Leads.source_lt {source target : Nat} (leads : builder.Leads source target) :
    source < builder.blocks.size := by
  obtain ⟨block, -, found, -⟩ := leads
  exact (Array.getElem?_eq_some_iff.1 found).1

namespace Reserves

variable {index : Nat} {role : BlockRole}

theorem lt_size (reserves : builder.Reserves index role) : index < builder.blocks.size := by
  obtain ⟨earlier, found⟩ := reserves.empty
  exact (Array.getElem?_eq_some_iff.1 found).1

/-- A branch may lead to a block that was made as a target and awaits being built. -/
theorem admits (reserves : builder.Reserves index role) (isTarget : role.isTarget = true) :
    builder.Admits index := by
  obtain ⟨earlier, found⟩ := reserves.empty
  exact ⟨_, found, isTarget, fun instruction member => by simp at member⟩

theorem added (wellFormed : builder.WellFormed) (role : BlockRole) :
    (builder.addBlock role).Reserves builder.blocks.size role := by
  refine ⟨⟨_, blocks_addBlock_self builder role⟩, fun current => ?_⟩
  obtain ⟨block, found, -⟩ := wellFormed _ current
  exact Nat.lt_irrefl _ (Array.getElem?_eq_some_iff.1 found).1

theorem addBlock (reserves : builder.Reserves index role) (other : BlockRole) :
    (builder.addBlock other).Reserves index role := by
  refine ⟨?_, reserves.elsewhere⟩
  rw [blocks_addBlock_of_lt reserves.lt_size]
  exact reserves.empty

theorem goTo (reserves : builder.Reserves index role) {other : Nat} (different : other ≠ index) :
    (builder.goTo other).Reserves index role :=
  ⟨reserves.empty, fun same => different (Option.some.inj same)⟩

theorem close (reserves : builder.Reserves index role) {other : Nat}
    (current : builder.current = some other) (terminator : Ir.Terminator) :
    (builder.close other terminator).Reserves index role := by
  have different : other ≠ index := by
    rintro rfl
    exact reserves.elsewhere current
  refine ⟨?_, fun isCurrent => by cases isCurrent⟩
  rw [Builder.close, Array.getElem?_modify, if_neg different]
  exact reserves.empty

theorem resume (reserves : builder.Reserves index role) : builder.resume.Reserves index role := by
  rw [Builder.resume]
  cases current : builder.current with
  | none => exact (reserves.addBlock _).goTo (Nat.ne_of_gt reserves.lt_size)
  | some other => exact reserves

theorem endWith (reserves : builder.Reserves index role) (terminator : Ir.Terminator) :
    (builder.endWith terminator).Reserves index role :=
  reserves.resume.close builder.resume_current terminator

theorem branchTo (reserves : builder.Reserves index role) (target : Nat) :
    (builder.branchTo target).Reserves index role := by
  rw [Builder.branchTo]
  cases current : builder.current with
  | none => exact reserves
  | some other => exact reserves.close current _

/-- Nothing leads to a new block. -/
theorem unled_added (connected : builder.Connected) {role : BlockRole} {source : Nat} :
    ¬ (builder.addBlock role).Leads source builder.blocks.size := by
  rw [leads_addBlock]
  intro leads
  obtain ⟨role, hasRole, -⟩ := connected.target _ _ leads
  exact Nat.lt_irrefl _ hasRole.lt_size

end Reserves

end Steps

namespace Connected

variable {builder after : Builder}

/-- A step that keeps all blocks and makes nothing but room keeps them connected. -/
theorem of_blocks_eq (connected : builder.Connected) (blocks_eq : after.blocks = builder.blocks)
    (current_eq : after.current = builder.current)
    (room : ∀ instruction ∈ after.allocas.toList, instruction.operation.isAlloca = true) :
    after.Connected := by
  obtain ⟨blocks, current, allocas, locals, temporaries⟩ := after
  cases blocks_eq
  cases current_eq
  exact ⟨connected.wellFormed, connected.target, room, connected.noRoom, connected.phi⟩

theorem addBlock (connected : builder.Connected) (role : BlockRole) :
    (builder.addBlock role).Connected := by
  have found_eq {index : Nat} {block : OpenBlock}
      (found : (builder.addBlock role).blocks[index]? = some block) :
      builder.blocks[index]? = some block ∨ block.instructions = #[] ∧ block.terminator = none := by
    rw [Builder.addBlock, Array.getElem?_push] at found
    split at found
    · cases found
      exact .inr ⟨rfl, rfl⟩
    · exact .inl found
  refine ⟨?_, ?_, connected.room, ?_, ?_⟩
  · intro index current
    obtain ⟨block, found, isOpen⟩ := connected.wellFormed index current
    refine ⟨block, ?_, isOpen⟩
    rw [blocks_addBlock_of_lt (Array.getElem?_eq_some_iff.1 found).1]
    exact found
  · intro source target leads
    obtain ⟨other, hasRole, isTarget⟩ := connected.target source target (leads_addBlock.1 leads)
    exact ⟨other, hasRole.of_includes (.addBlock builder role), isTarget⟩
  · intro index block found instruction member
    obtain old | ⟨empty, -⟩ := found_eq found
    · exact connected.noRoom index block old instruction member
    · rw [empty] at member
      cases member
  · intro index block found first instruction rest split isPhi
    obtain old | ⟨empty, -⟩ := found_eq found
    · obtain ⟨atStart, isJoin, firstValue, firstBlock, secondValue, secondBlock, incoming, apart,
        ways⟩ := connected.phi index block old first instruction rest split isPhi
      exact ⟨atStart, isJoin, firstValue, firstBlock, secondValue, secondBlock, incoming, apart,
        fun source => leads_addBlock.trans (ways source)⟩
    · rw [empty] at split
      simp at split

theorem goTo (connected : builder.Connected) {index : Nat} {role : BlockRole}
    (reserves : builder.Reserves index role) : (builder.goTo index).Connected := by
  refine ⟨?_, connected.target, connected.room, connected.noRoom, connected.phi⟩
  rintro _ ⟨rfl⟩
  obtain ⟨earlier, found⟩ := reserves.empty
  exact ⟨_, found, rfl⟩

/-- A new instruction changes its block and no other one. -/
theorem found_push {index other : Nat} {instruction : Ir.Instruction} {block : OpenBlock}
    (found : (builder.push index instruction).blocks[other]? = some block) :
    ∃ earlier, builder.blocks[other]? = some earlier ∧ (block = earlier ∨ index = other ∧
      block = { earlier with instructions := earlier.instructions.push instruction }) := by
  rw [Builder.push, Array.getElem?_modify] at found
  split at found
  · next same =>
    obtain ⟨earlier, earlier_found, rfl⟩ := Option.map_eq_some_iff.1 found
    exact ⟨earlier, earlier_found, .inr ⟨same, rfl⟩⟩
  · exact ⟨block, found, .inl rfl⟩

/-- Closing a block adds no instructions. -/
theorem found_close {index other : Nat} {terminator : Ir.Terminator} {block : OpenBlock}
    (found : (builder.close index terminator).blocks[other]? = some block) :
    ∃ earlier, builder.blocks[other]? = some earlier ∧
      earlier.instructions = block.instructions ∧ earlier.role = block.role := by
  rw [Builder.close, Array.getElem?_modify] at found
  split at found
  · obtain ⟨earlier, earlier_found, rfl⟩ := Option.map_eq_some_iff.1 found
    exact ⟨earlier, earlier_found, rfl, rfl⟩
  · exact ⟨block, found, rfl, rfl⟩

theorem push (connected : builder.Connected) {index : Nat} {instruction : Ir.Instruction}
    (current : builder.current = some index) (noRoom : instruction.operation.isAlloca = false)
    (meets : instruction.operation.isPhi = true → builder.MayJoin index instruction.operation) :
    (builder.push index instruction).Connected := by
  have includes := Includes.push connected.wellFormed current instruction
  have kept {other : Nat} {operation : Ir.Operation} (joins : builder.Joins other operation) :
      (builder.push index instruction).Joins other operation := by
    obtain ⟨firstValue, firstBlock, secondValue, secondBlock, incoming, apart, ways⟩ := joins
    exact ⟨firstValue, firstBlock, secondValue, secondBlock, incoming, apart,
      fun source => leads_push.trans (ways source)⟩
  refine ⟨?_, ?_, connected.room, ?_, ?_⟩
  · intro other other_current
    obtain ⟨block, found, isOpen⟩ := connected.wellFormed other other_current
    rw [Builder.push, Array.getElem?_modify, found]
    split
    · exact ⟨_, rfl, isOpen⟩
    · exact ⟨block, rfl, isOpen⟩
  · intro source target leads
    obtain ⟨role, hasRole, isTarget⟩ := connected.target source target (leads_push.1 leads)
    exact ⟨role, hasRole.of_includes includes, isTarget⟩
  · intro other block found added member
    obtain ⟨earlier, earlier_found, rfl | ⟨-, rfl⟩⟩ := found_push found
    · exact connected.noRoom other _ earlier_found added member
    · rw [Array.toList_push, List.mem_append, List.mem_singleton] at member
      obtain old | rfl := member
      · exact connected.noRoom other earlier earlier_found added old
      · exact noRoom
  · intro other block found first added rest split isPhi
    obtain ⟨earlier, earlier_found, rfl | ⟨same, rfl⟩⟩ := found_push found
    · obtain ⟨atStart, isJoin, joins⟩ :=
        connected.phi other _ earlier_found first added rest split isPhi
      exact ⟨atStart, isJoin, kept joins⟩
    · rw [Array.toList_push] at split
      obtain rfl | ⟨others, last, rfl⟩ := List.eq_nil_or_concat rest
      · obtain ⟨first_eq, added_eq⟩ := List.append_inj' split rfl
        cases added_eq
        obtain ⟨⟨role, number, empty, isJoin⟩, joins⟩ := meets isPhi
        rw [same, earlier_found] at empty
        cases empty
        exact ⟨first_eq.symm, isJoin, kept (same ▸ joins)⟩
      · rw [List.concat_eq_append, ← List.cons_append, ← List.append_assoc] at split
        obtain ⟨split, -⟩ := List.append_inj' split rfl
        obtain ⟨atStart, isJoin, joins⟩ :=
          connected.phi other earlier earlier_found first added others split isPhi
        exact ⟨atStart, isJoin, kept joins⟩

theorem close (connected : builder.Connected) {index : Nat} {terminator : Ir.Terminator}
    (current : builder.current = some index)
    (targets : ∀ target ∈ terminator.successors, builder.Admits target) :
    (builder.close index terminator).Connected := by
  have includes := Includes.close connected.wellFormed current terminator
  have leads_iff {source target : Nat} : (builder.close index terminator).Leads source target ↔
      builder.Leads source target ∨ source = index ∧ target ∈ terminator.successors :=
    leads_close connected.wellFormed current
  refine ⟨?_, ?_, connected.room, ?_, ?_⟩
  · intro other isCurrent
    cases isCurrent
  · intro source target leads
    obtain old | ⟨-, member⟩ := leads_iff.1 leads
    · obtain ⟨role, hasRole, isTarget⟩ := connected.target source target old
      exact ⟨role, hasRole.of_includes includes, isTarget⟩
    · obtain ⟨block, found, isTarget, -⟩ := targets target member
      have hasRole : builder.HasRole target block.role := ⟨block, found, rfl⟩
      exact ⟨block.role, hasRole.of_includes includes, isTarget⟩
  · intro other block found instruction member
    obtain ⟨earlier, earlier_found, instructions_eq, -⟩ := found_close found
    rw [← instructions_eq] at member
    exact connected.noRoom other earlier earlier_found instruction member
  · intro other block found first instruction rest split isPhi
    obtain ⟨earlier, earlier_found, instructions_eq, role_eq⟩ := found_close found
    rw [← instructions_eq] at split
    obtain ⟨atStart, isJoin, firstValue, firstBlock, secondValue, secondBlock, incoming, apart,
      ways⟩ := connected.phi other earlier earlier_found first instruction rest split isPhi
    refine ⟨atStart, role_eq ▸ isJoin, firstValue, firstBlock, secondValue, secondBlock, incoming,
      apart, fun source => ?_⟩
    rw [leads_iff, ways source]
    -- A block whose ways have been counted is no target of a new branch.
    refine ⟨fun leads => leads.resolve_right fun new => ?_, .inl⟩
    obtain ⟨same, same_found, -, noPhi⟩ := targets other new.2
    rw [earlier_found] at same_found
    cases same_found
    rw [noPhi instruction (by rw [split]; simp)] at isPhi
    cases isPhi

end Connected

namespace Connects

variable {older : Nat → Prop} {before middle after : Builder}

theorem size_le (connects : before.Connects older after) :
    before.blocks.size ≤ after.blocks.size := by
  induction connects with
  | refl => exact le_rfl
  | addBlock role _ induction =>
      rw [addBlock_size]
      exact induction.trans (Nat.le_succ _)
  | push _ _ _ _ induction => rwa [push_size]
  | close _ _ _ induction => rwa [close_size]
  | goTo _ _ _ induction => exact induction
  | addAlloca _ _ induction => exact induction
  | countTemporary _ induction => exact induction
  | bind _ _ _ induction => exact induction

/-- Building goes on where it was, or in a new block. -/
theorem current_new (connects : before.Connects older after) {index : Nat}
    (current : after.current = some index) :
    before.current = some index ∨ before.blocks.size ≤ index := by
  induction connects with
  | refl => exact .inl current
  | goTo _ new _ _ =>
      cases current
      exact .inr new
  | close => cases current
  | addBlock _ _ induction => exact induction current
  | push _ _ _ _ induction => exact induction current
  | addAlloca _ _ induction => exact induction current
  | countTemporary _ induction => exact induction current
  | bind _ _ _ induction => exact induction current

/-- Blocks that building did not go on in are left alone. -/
theorem fixed (connects : before.Connects older after) {index : Nat}
    (bound : index < before.blocks.size) (elsewhere : before.current ≠ some index) :
    after.blocks[index]? = before.blocks[index]? := by
  have other {builder : Builder} {current : Nat} (connects : before.Connects older builder)
      (at' : builder.current = some current) : current ≠ index := by
    rintro rfl
    obtain same | new := connects.current_new at'
    · exact elsewhere same
    · exact absurd bound (Nat.not_lt_of_le new)
  induction connects with
  | refl => rfl
  | addBlock role connects induction =>
      rw [blocks_addBlock_of_lt (bound.trans_le connects.size_le), induction]
  | push connects current _ _ induction =>
      rw [Builder.push, Array.getElem?_modify, if_neg (other connects current), induction]
  | close connects current _ induction =>
      rw [Builder.close, Array.getElem?_modify, if_neg (other connects current), induction]
  | goTo _ _ _ induction => exact induction
  | addAlloca _ _ induction => exact induction
  | countTemporary _ induction => exact induction
  | bind _ _ _ induction => exact induction

/-- A block that awaits being built is left alone. -/
theorem reserves (connects : before.Connects older after) {index : Nat} {role : BlockRole}
    (reserves : before.Reserves index role) : after.Reserves index role := by
  refine ⟨?_, fun current => ?_⟩
  · rw [connects.fixed reserves.lt_size reserves.elsewhere]
    exact reserves.empty
  · obtain same | new := connects.current_new current
    · exact reserves.elsewhere same
    · exact absurd reserves.lt_size (Nat.not_lt_of_le new)

/-- Building on keeps what has been built connected. -/
theorem connected (connects : before.Connects older after) (connected : before.Connected) :
    after.Connected := by
  induction connects with
  | refl => exact connected
  | addBlock role _ induction => exact induction.addBlock role
  | goTo _ _ reserves induction => exact induction.goTo reserves
  | push _ current noRoom meets induction => exact induction.push current noRoom meets
  | close _ current targets induction =>
      exact induction.close current fun target member => (targets target member).2
  | addAlloca type _ induction =>
      refine induction.of_blocks_eq rfl rfl fun instruction member => ?_
      rw [Builder.addAlloca, Array.toList_push, List.mem_append, List.mem_singleton] at member
      obtain old | rfl := member
      · exact induction.room instruction old
      · rfl
  | countTemporary _ induction => exact induction.of_blocks_eq rfl rfl induction.room
  | bind _ _ _ induction => exact induction.of_blocks_eq rfl rfl induction.room

/-- What has been built is kept. -/
theorem includes (connects : before.Connects older after) (connected : before.Connected) :
    before.Includes after := by
  induction connects with
  | refl => exact .refl before
  | addBlock role _ induction => exact induction.trans (.addBlock _ role)
  | goTo _ _ _ induction => exact induction.trans (.goTo _ _)
  | push connects current _ _ induction =>
      exact induction.trans (.push (connects.connected connected).wellFormed current _)
  | close connects current _ induction =>
      exact induction.trans (.close (connects.connected connected).wellFormed current _)
  | @addAlloca after type _ induction =>
      refine induction.trans ⟨fun _ block found => ⟨block, found, .refl block⟩, ?_, Nat.le_succ _⟩
      simp [Builder.addAlloca]
  | countTemporary _ induction => exact induction.trans (.countTemporary _)
  | bind _ _ _ induction =>
      exact induction.trans ⟨fun _ block found => ⟨block, found, .refl block⟩, List.prefix_rfl,
        le_rfl⟩

/-- Nothing new leads to older blocks, but for certain ones. -/
theorem leads_older (connects : before.Connects older after) (connected : before.Connected)
    {source target : Nat} (bound : target < before.blocks.size) (closed : ¬ older target) :
    after.Leads source target ↔ before.Leads source target := by
  induction connects with
  | refl => exact Iff.rfl
  | addBlock role _ induction => exact leads_addBlock.trans induction
  | push _ _ _ _ induction => exact leads_push.trans induction
  | close connects current targets induction =>
      rw [leads_close (connects.connected connected).wellFormed current, induction]
      refine ⟨fun leads => leads.resolve_right fun new => ?_, .inl⟩
      obtain young | old := (targets target new.2).1
      · exact absurd bound (Nat.not_lt_of_le young)
      · exact closed old
  | goTo _ _ _ induction => exact induction
  | addAlloca _ _ induction => exact induction
  | countTemporary _ induction => exact induction
  | bind _ _ _ induction => exact induction

/-- Branches may lead to more older blocks, if these are known to be old or new. -/
theorem trans {inner : Nat → Prop} (first : before.Connects older middle)
    (second : middle.Connects inner after)
    (allowed : ∀ target, inner target → before.blocks.size ≤ target ∨ older target) :
    before.Connects older after := by
  induction second with
  | refl => exact first
  | addBlock role _ induction => exact .addBlock role induction
  | goTo _ new reserves induction => exact .goTo induction (first.size_le.trans new) reserves
  | push _ current noRoom meets induction => exact .push induction current noRoom meets
  | close _ current targets induction =>
      refine .close induction current fun target member => ⟨?_, (targets target member).2⟩
      obtain young | old := (targets target member).1
      · exact .inl (first.size_le.trans young)
      · exact allowed target old
  | addAlloca type _ induction => exact .addAlloca type induction
  | countTemporary _ induction => exact .countTemporary induction
  | bind declaration value _ induction => exact .bind declaration value induction

end Connects

end Builder

end Minilang
