import Minilang.Proofs.Ir.Initialization
import Minilang.Proofs.Lowering.Branches

/-!
# Room that is written while a function is built

For one temporary that is the address of room for an object, the blocks are known that control comes to only
behind a store to that room. Where the room is written already, whatever is built next keeps this. Where it
is not, control must not lead to such a block, and nothing may read the room.
-/

namespace Minilang.Builder

/-- Whether a block writes to the address in a temporary. -/
def Stores (builder : Builder) (slot block : Nat) : Prop :=
  ∃ open', builder.blocks[block]? = some open' ∧ Ir.Writes slot open'.instructions.toList

/-- Whether the room of a temporary is written behind what has been built in a block, where some blocks are
given it written. -/
def Leaves (builder : Builder) (slot : Nat) (given : Nat → Prop) (block : Nat) : Prop :=
  given block ∨ builder.Stores slot block

/-- Whether the room of a temporary is written where building goes on. It is where nothing leads to. -/
def Written (builder : Builder) (slot : Nat) (given : Nat → Prop) : Prop :=
  ∀ block, builder.current = some block → builder.Leaves slot given block

/-- Whether blocks that are given the room of a temporary written are led to only from where it is written,
and all blocks read it only if it is. -/
structure Guards (builder : Builder) (slot : Nat) (given : Nat → Prop) : Prop where
  read : ∀ index block, builder.blocks[index]? = some block → ∀ first instruction rest,
    block.instructions.toList = first ++ instruction :: rest →
    instruction.operation.read? = some slot → given index ∨ Ir.Writes slot first
  edge : ∀ index block, builder.blocks[index]? = some block →
    ∀ terminator, block.terminator = some terminator → ∀ target ∈ terminator.successors,
      given target → builder.Leaves slot given index
  untouched : ∀ index, builder.blocks.size ≤ index → given index

/-- What is given once a block is given the room written only under a condition. -/
def restrict (given : Nat → Prop) (block : Nat) (condition : Prop) : Nat → Prop :=
  fun other => given other ∧ (other = block → condition)

variable {builder before middle after : Builder} {slot block : Nat} {given : Nat → Prop}

theorem restrict_of_ne {other : Nat} {condition : Prop} (different : other ≠ block) :
    restrict given block condition other = given other := by
  simp [restrict, different]

/-- Changing a block without taking writes away takes no writes away. -/
theorem Leaves.of_modify (leaves : before.Leaves slot given block) {index : Nat}
    (change : OpenBlock → OpenBlock) (blocks_eq : after.blocks = before.blocks.modify index change)
    (writes : ∀ open', Ir.Writes slot open'.instructions.toList →
      Ir.Writes slot (change open').instructions.toList) : after.Leaves slot given block := by
  refine leaves.imp_right ?_
  rintro ⟨open', found, stored⟩
  rw [Stores, blocks_eq, Array.getElem?_modify]
  split
  · exact ⟨change open', by rw [found, Option.map_some], writes open' stored⟩
  · exact ⟨open', found, stored⟩

theorem Leaves.addBlock (leaves : builder.Leaves slot given block) (role : BlockRole) :
    (builder.addBlock role).Leaves slot given block := by
  refine leaves.imp_right ?_
  rintro ⟨open', found, stored⟩
  refine ⟨open', ?_, stored⟩
  have bound := (Array.getElem?_eq_some_iff.1 found).1
  rw [Builder.addBlock, Array.getElem?_push_lt bound, ← found, Array.getElem?_eq_getElem bound]

theorem Leaves.push (leaves : builder.Leaves slot given block) (other : Nat)
    (instruction : Ir.Instruction) : (builder.push other instruction).Leaves slot given block :=
  leaves.of_modify
    (fun open' => { open' with instructions := open'.instructions.push instruction }) rfl
    fun open' writes => writes.mono (by simp)

namespace Guards

/-- Only the blocks matter. -/
theorem of_blocks_eq (guards : before.Guards slot given) (blocks_eq : after.blocks = before.blocks) :
    after.Guards slot given := by
  obtain ⟨read, edge, untouched⟩ := guards
  refine ⟨?_, ?_, ?_⟩
  · rwa [blocks_eq]
  · unfold Leaves Stores at edge ⊢
    rwa [blocks_eq]
  · rwa [blocks_eq]

/-- A step that changes one block keeps all others guarded. -/
theorem of_modify (guards : before.Guards slot given) {index : Nat}
    (change : OpenBlock → OpenBlock)
    (blocks_eq : after.blocks = before.blocks.modify index change)
    (writes : ∀ open', Ir.Writes slot open'.instructions.toList →
      Ir.Writes slot (change open').instructions.toList)
    (read : ∀ block, before.blocks[index]? = some block → ∀ first instruction rest,
      (change block).instructions.toList = first ++ instruction :: rest →
      instruction.operation.read? = some slot → given index ∨ Ir.Writes slot first)
    (edge : ∀ block, before.blocks[index]? = some block →
      ∀ terminator, (change block).terminator = some terminator → ∀ target ∈ terminator.successors,
        given target → before.Leaves slot given index) : after.Guards slot given := by
  have kept {other : Nat} {block : OpenBlock} (found : after.blocks[other]? = some block) :
      before.blocks[other]? = some block ∨
        index = other ∧ ∃ earlier, before.blocks[other]? = some earlier ∧ block = change earlier := by
    rw [blocks_eq, Array.getElem?_modify] at found
    split at found
    · next same =>
      obtain ⟨earlier, earlier_found, rfl⟩ := Option.map_eq_some_iff.1 found
      exact .inr ⟨same, earlier, earlier_found, rfl⟩
    · exact .inl found
  refine ⟨fun other block found => ?_, fun other block found terminator closed target successor
    isGiven => ?_, fun other bound => ?_⟩
  · obtain found | ⟨rfl, earlier, earlier_found, rfl⟩ := kept found
    · exact guards.read other block found
    · exact read earlier earlier_found
  · obtain found | ⟨rfl, earlier, earlier_found, rfl⟩ := kept found
    · exact (guards.edge other block found terminator closed target successor isGiven).of_modify
        change blocks_eq writes
    · exact (edge earlier earlier_found terminator closed target successor isGiven).of_modify
        change blocks_eq writes
  · rw [blocks_eq, Array.size_modify] at bound
    exact guards.untouched other bound

theorem addBlock (guards : builder.Guards slot given) (role : BlockRole) :
    (builder.addBlock role).Guards slot given := by
  have added {index : Nat} {block : OpenBlock}
      (found : (builder.addBlock role).blocks[index]? = some block) :
      builder.blocks[index]? = some block ∨ block = ⟨role, builder.countRole role, #[], none⟩ := by
    rw [Builder.addBlock, Array.getElem?_push] at found
    split at found
    · exact .inr (Option.some.inj found).symm
    · exact .inl found
  refine ⟨fun index block found first instruction rest split => ?_,
    fun index block found terminator closed target successor isGiven => ?_, fun index bound => ?_⟩
  · obtain found | rfl := added found
    · exact guards.read index block found first instruction rest split
    · simp at split
  · obtain found | rfl := added found
    · exact (guards.edge index block found terminator closed target successor isGiven).addBlock role
    · cases closed
  · rw [addBlock_size] at bound
    exact guards.untouched index (Nat.le_of_succ_le bound)

/-- A block to which building has not come yet may be given less. -/
theorem narrow (guards : builder.Guards slot given) (fresh : builder.Fresh block)
    (condition : Prop) : builder.Guards slot (restrict given block condition) := by
  have fresh_lt := fresh.lt_size
  obtain ⟨role, earlier, fresh⟩ := fresh
  have elsewhere {index : Nat} {open' : OpenBlock} (found : builder.blocks[index]? = some open')
      (used : open' ≠ ⟨role, earlier, #[], none⟩) : index ≠ block := by
    rintro rfl
    exact used (Option.some.inj (found.symm.trans fresh))
  refine ⟨fun index open' found first instruction rest split => ?_,
    fun index open' found terminator closed target successor isGiven => ?_, fun index bound => ?_⟩
  · rw [restrict_of_ne (elsewhere found (by rintro rfl; simp at split))]
    exact guards.read index open' found first instruction rest split
  · rw [Leaves, restrict_of_ne (elsewhere found (by rintro rfl; cases closed))]
    exact guards.edge index open' found terminator closed target successor isGiven.1
  · rw [restrict_of_ne (Nat.ne_of_gt (fresh_lt.trans_le bound))]
    exact guards.untouched index bound

/-- An instruction may be added where the room is written, or if it does not read it. -/
theorem push (guards : builder.Guards slot given) {instruction : Ir.Instruction}
    (read : instruction.operation.read? = some slot → builder.Leaves slot given block) :
    (builder.push block instruction).Guards slot given := by
  refine guards.of_modify
    (fun open' => { open' with instructions := open'.instructions.push instruction }) rfl
    (fun open' writes => writes.mono (by simp)) ?_ (guards.edge block)
  intro open' found first last rest split reads
  rw [Array.toList_push] at split
  rcases List.eq_nil_or_concat rest with rfl | ⟨others, final, rfl⟩
  · obtain ⟨first_eq, last_eq⟩ := List.append_inj' split rfl
    cases last_eq
    refine (read reads).imp_right ?_
    rintro ⟨same, same_found, writes⟩
    rw [found] at same_found
    cases same_found
    exact first_eq ▸ writes
  · rw [List.concat_eq_append, ← List.cons_append, ← List.append_assoc] at split
    obtain ⟨split, _⟩ := List.append_inj' split rfl
    exact guards.read block open' found first last others split reads

/-- The open block may be closed if it leads only to blocks that are given no more than there is. -/
theorem close (guards : builder.Guards slot given) {terminator : Ir.Terminator}
    (edge : ∀ target ∈ terminator.successors, given target → builder.Leaves slot given block) :
    (builder.close block terminator).Guards slot given := by
  refine guards.of_modify (fun open' => { open' with terminator := some terminator }) rfl
    (fun _ writes => writes) (guards.read block) ?_
  rintro open' found _ ⟨rfl⟩
  exact edge

theorem resume (guards : builder.Guards slot given) : builder.resume.Guards slot given := by
  rw [Builder.resume]
  cases builder.current with
  | none => exact (guards.addBlock .unreachable).of_blocks_eq rfl
  | some block => exact guards

/-- Where nothing leads to, the room counts as written. -/
theorem written_resume (guards : builder.Guards slot given) (written : builder.Written slot given) :
    builder.resume.Leaves slot given builder.currentIndex := by
  rw [Builder.resume, Builder.currentIndex]
  cases current : builder.current with
  | none => exact .inl (guards.untouched _ le_rfl)
  | some block => exact written block current

section Ends

variable (guards : builder.Guards slot given) {terminator : Ir.Terminator} {target next : Nat}

include guards

/-- Building ends in a block that leads only to blocks that are given no more than there is. -/
theorem endWith (edge : ∀ target ∈ terminator.successors, given target →
      builder.Written slot given) : (builder.endWith terminator).Guards slot given :=
  guards.resume.close fun target successor isGiven =>
    guards.written_resume (edge target successor isGiven)

theorem branchTo (edge : given target → builder.Written slot given) :
    (builder.branchTo target).Guards slot given := by
  rw [Builder.branchTo]
  cases current : builder.current with
  | none => exact guards
  | some block =>
      refine guards.close fun other successor isGiven => ?_
      rw [Ir.Terminator.successors, List.mem_singleton] at successor
      exact edge (successor ▸ isGiven) block current

theorem leave (edge : given target → builder.Written slot given) :
    (builder.leave target next).Guards slot given :=
  (guards.branchTo edge).of_blocks_eq rfl

end Ends

/-- A condition leads to two new blocks that are given nothing, and a third one awaits being led to. -/
theorem splitThree (guards : builder.Guards slot given) (valid : builder.Valid)
    (first second third : BlockRole) (condition : Ir.Value) :
    ∃ later, (builder.splitThree first second third condition).Guards slot later ∧
      (∀ index < builder.blocks.size, later index = given index) ∧
      later (builder.blocks.size + 2) := by
  obtain ⟨start, next, _⟩ := Awaits.threeAdded valid first second third
  have prepared := ((((guards.addBlock first).addBlock second).addBlock third).narrow start.fresh
    False).narrow next.fresh False
  refine ⟨_, (prepared.endWith (List.forall_mem_cons.2
    ⟨?_, List.forall_mem_singleton.2 ?_⟩)).of_blocks_eq rfl, fun index bound => ?_, ?_⟩
  · exact fun isGiven => (isGiven.1.2 rfl).elim
  · exact fun isGiven => (isGiven.2 rfl).elim
  · rw [restrict_of_ne (Nat.ne_of_lt (Nat.lt_succ_of_lt bound)), restrict_of_ne (Nat.ne_of_lt bound)]
  · rw [restrict_of_ne (Nat.succ_ne_self _), restrict_of_ne (by omega)]
    exact guards.untouched _ (Nat.le_add_right _ 2)

end Guards

/-- What other blocks are given does not matter where building goes on. -/
theorem Written.restrict (written : builder.Written slot given)
    (elsewhere : builder.current ≠ some block) (condition : Prop) :
    builder.Written slot (restrict given block condition) := by
  intro other current
  have different : other ≠ block := fun same => elsewhere (same ▸ current)
  rw [Leaves, restrict_of_ne different]
  exact written other current

/-- A store writes where building goes on. -/
theorem written_perform_store (valid : builder.Valid) (given : Nat → Prop) (type : Ir.ValueType)
    (value : Ir.Value) (slot : Nat) :
    (builder.perform (.store type value (.temp slot))).Written slot given := by
  intro other current
  rw [perform_current] at current
  cases current
  obtain ⟨open', found, _⟩ := valid.resume.wellFormed _ builder.resume_current
  refine .inr ⟨{ open' with
      instructions := open'.instructions.push ⟨none, .store type value (.temp slot)⟩ }, ?_,
    ⟨none, .store type value (.temp slot)⟩, by simp, rfl⟩
  rw [Builder.perform, Builder.push, Array.getElem?_modify, if_pos rfl, found]
  rfl

/-- Where the room is written, whatever is built next keeps it so. -/
theorem Grows.guards (grows : before.Grows after) (guards : before.Guards slot given)
    (written : before.Written slot given) :
    after.Guards slot given ∧ after.Written slot given := by
  induction grows with
  | refl => exact ⟨guards, written⟩
  | addBlock role _ induction =>
      exact ⟨induction.1.addBlock role, fun block current =>
        (induction.2 block current).addBlock role⟩
  | goTo _ new _ induction =>
      refine ⟨induction.1.of_blocks_eq rfl, ?_⟩
      rintro _ ⟨rfl⟩
      exact .inl (guards.untouched _ new)
  | perform _ current _ induction =>
      exact ⟨induction.1.push fun _ => induction.2 _ current,
        fun block same => (induction.2 block same).push _ _⟩
  | @emit after block operation _ current _ induction =>
      have counted : after.countTemporary.Guards slot given := induction.1.of_blocks_eq rfl
      have leaves {other : Nat} (same : after.current = some other) :
          after.countTemporary.Leaves slot given other := induction.2 other same
      exact ⟨counted.push fun _ => leaves current, fun other same => (leaves same).push _ _⟩
  | close _ current _ _ induction =>
      exact ⟨induction.1.close fun _ _ _ => induction.2 _ current, nofun⟩
  | addAlloca _ _ induction => exact ⟨induction.1.of_blocks_eq rfl, induction.2⟩
  | bind _ _ _ induction => exact ⟨induction.1.of_blocks_eq rfl, induction.2⟩

/-- What a function becomes by building on without reading the room of a temporary, and without leading to
any block that was there. -/
inductive Aside (slot : Nat) (before : Builder) : Builder → Prop
  | refl : Aside slot before before
  | keep {middle after : Builder} :
      Aside slot before middle → after.blocks = middle.blocks → Aside slot before after
  | addBlock {after : Builder} (role : BlockRole) :
      Aside slot before after → Aside slot before (after.addBlock role)
  | push {after : Builder} (block : Nat) {instruction : Ir.Instruction} :
      Aside slot before after → instruction.operation.read? ≠ some slot →
      Aside slot before (after.push block instruction)
  | close {after : Builder} (block : Nat) {terminator : Ir.Terminator} :
      Aside slot before after →
      (∀ target ∈ terminator.successors,
        before.blocks.size ≤ target ∧ target < after.blocks.size) →
      Aside slot before (after.close block terminator)

namespace Aside

theorem size_le (aside : Aside slot before after) : before.blocks.size ≤ after.blocks.size := by
  induction aside with
  | refl => exact le_rfl
  | keep _ blocks_eq induction => exact blocks_eq ▸ induction
  | addBlock role _ induction => exact addBlock_size .. ▸ Nat.le_succ_of_le induction
  | push _ _ _ induction =>
      rw [push_size]
      exact induction
  | close _ _ _ induction =>
      rw [close_size]
      exact induction

theorem trans (first : Aside slot before middle) (second : Aside slot middle after) :
    Aside slot before after := by
  induction second with
  | refl => exact first
  | keep _ blocks_eq induction => exact .keep induction blocks_eq
  | addBlock role _ induction => exact .addBlock role induction
  | push block _ reads induction => exact .push block induction reads
  | close block _ targets induction =>
      exact .close block induction fun target successor =>
        ⟨first.size_le.trans (targets target successor).1, (targets target successor).2⟩

theorem resume (aside : Aside slot before after) : Aside slot before after.resume := by
  rw [Builder.resume]
  cases after.current with
  | none => exact .keep (.addBlock .unreachable aside) rfl
  | some block => exact aside

theorem emit (aside : Aside slot before after) {operation : Ir.Operation}
    (reads : operation.read? ≠ some slot) : Aside slot before (after.emit operation) :=
  .push _ (.keep aside.resume rfl) reads

theorem perform (aside : Aside slot before after) {operation : Ir.Operation}
    (reads : operation.read? ≠ some slot) : Aside slot before (after.perform operation) :=
  .push _ aside.resume reads

theorem endWith (aside : Aside slot before after) {terminator : Ir.Terminator}
    (targets : ∀ target ∈ terminator.successors,
      before.blocks.size ≤ target ∧ target < after.blocks.size) :
    Aside slot before (after.endWith terminator) := by
  have resume_le : after.blocks.size ≤ after.resume.blocks.size := Grows.refl.resume.size_le
  exact .close _ aside.resume fun target successor =>
    (targets target successor).imp_right fun bound => bound.trans_le resume_le

/-- The open block is left for a new one. -/
theorem leave (aside : Aside slot before after) {target : Nat} (new : before.blocks.size ≤ target)
    (bound : target < after.blocks.size) (next : Nat) :
    Aside slot before (after.leave target next) := by
  rw [Builder.leave, Builder.branchTo]
  cases after.current with
  | none => exact .keep aside rfl
  | some block =>
      have closed : Aside slot before (after.close block (.branch target)) :=
        .close block aside (List.forall_mem_singleton.2 ⟨new, bound⟩)
      exact .keep closed rfl

theorem splitLogical (builder : Builder) (slot : Nat) (isOr : Bool) (left : Ir.Value) :
    Aside slot builder (builder.splitLogical isOr left) := by
  have prepared : Aside slot builder builder.resume := refl.resume
  have new := prepared.size_le
  refine .keep (.endWith (.addBlock _ (.addBlock _ prepared)) ?_) rfl
  intro target successor
  have targets : target = builder.resume.blocks.size ∨ target = builder.resume.blocks.size + 1 := by
    cases isOr <;> simpa [Ir.Terminator.successors, or_comm] using successor
  rw [addBlock_size, addBlock_size]
  omega

theorem splitTwo (builder : Builder) (slot : Nat) (first second : BlockRole)
    (condition : Ir.Value) : Aside slot builder (builder.splitTwo first second condition) := by
  refine .keep (.endWith (.addBlock _ (.addBlock _ .refl)) ?_) rfl
  rw [Ir.Terminator.successors, List.forall_mem_cons, List.forall_mem_singleton, addBlock_size,
    addBlock_size]
  omega

theorem splitThree (builder : Builder) (slot : Nat) (first second third : BlockRole)
    (condition : Ir.Value) :
    Aside slot builder (builder.splitThree first second third condition) := by
  refine .keep (.endWith (.addBlock _ (.addBlock _ (.addBlock _ .refl))) ?_) rfl
  rw [Ir.Terminator.successors, List.forall_mem_cons, List.forall_mem_singleton, addBlock_size,
    addBlock_size, addBlock_size]
  omega

theorem startLoop (builder : Builder) (slot : Nat) : Aside slot builder builder.startLoop := by
  refine .keep (.endWith (.addBlock _ (.addBlock _ (.addBlock _ .refl))) ?_) rfl
  rw [Ir.Terminator.successors, List.forall_mem_singleton, addBlock_size, addBlock_size,
    addBlock_size]
  omega

/-- The blocks that are there keep what they are given, and no new block is given the room written. -/
theorem guards (aside : Aside slot before after) (guards : before.Guards slot given) :
    after.Guards slot fun index =>
      given index ∧ (index < before.blocks.size ∨ after.blocks.size ≤ index) := by
  induction aside with
  | refl =>
      have all (index : Nat) : index < before.blocks.size ∨ before.blocks.size ≤ index :=
        Nat.lt_or_ge index _
      simpa only [all, and_true] using guards
  | keep _ blocks_eq induction =>
      rw [blocks_eq]
      exact induction.of_blocks_eq blocks_eq
  | @addBlock middle role aside induction =>
      have size_le := aside.size_le
      refine (congrArg _ (funext fun index => propext ?_)).mp
        ((induction.addBlock role).narrow (.added middle role) False)
      rw [restrict, addBlock_size]
      grind
  | push block _ reads induction =>
      rw [push_size]
      exact induction.push fun same => absurd same reads
  | close block aside targets induction =>
      rw [close_size]
      refine induction.close fun target successor isGiven => ?_
      obtain ⟨new, bound⟩ := targets target successor
      exact absurd isGiven.2 (not_or.2 ⟨Nat.not_lt_of_le new, Nat.not_le_of_lt bound⟩)

end Aside

end Minilang.Builder
