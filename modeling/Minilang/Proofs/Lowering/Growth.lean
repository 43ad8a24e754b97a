import Mathlib.Data.List.Nodup
import Mathlib.Order.Lattice
import Mathlib.Tactic.Common
import Minilang.Proofs.Ir.Dominance
import Minilang.Proofs.Lowering.Outcome

/-!
# Growing functions

Whatever is lowered, a function grows by small steps: blocks are added, the open block gets instructions
over temporaries that exist already, and a block that was closed is never touched again. Building goes on
in new blocks only.
-/

namespace Minilang

/-- One block under construction is what another one has become. -/
structure OpenBlock.Grows (before after : OpenBlock) : Prop where
  /-- The label stays the same. -/
  role_eq : after.role = before.role
  /-- The label stays the same. -/
  earlier_eq : after.earlier = before.earlier
  /-- Instructions are added at the end. -/
  instructions_le : before.instructions.toList <+: after.instructions.toList
  /-- A closed block is left alone. -/
  closed : before.terminator.isSome = true → after = before

theorem OpenBlock.Grows.refl (block : OpenBlock) : block.Grows block :=
  ⟨rfl, rfl, List.prefix_rfl, fun _ => rfl⟩

theorem OpenBlock.Grows.trans {before middle after : OpenBlock} (first : before.Grows middle)
    (second : middle.Grows after) : before.Grows after where
  role_eq := second.role_eq.trans first.role_eq
  earlier_eq := second.earlier_eq.trans first.earlier_eq
  instructions_le := first.instructions_le.trans second.instructions_le
  closed isClosed := by
    have same := first.closed isClosed
    rw [same] at second
    exact second.closed isClosed

namespace Builder

/-- Whether nothing has been built in a block. -/
def Fresh (builder : Builder) (block : Nat) : Prop :=
  ∃ role earlier, builder.blocks[block]? = some ⟨role, earlier, #[], none⟩

namespace Fresh

variable {builder : Builder} {block : Nat}

theorem lt_size (fresh : builder.Fresh block) : block < builder.blocks.size := by
  obtain ⟨role, earlier, found⟩ := fresh
  exact (Array.getElem?_eq_some_iff.1 found).1

theorem added (builder : Builder) (role : BlockRole) :
    (builder.addBlock role).Fresh builder.blocks.size :=
  ⟨role, builder.countRole role, by simp [addBlock]⟩

theorem addBlock (fresh : builder.Fresh block) (role : BlockRole) :
    (builder.addBlock role).Fresh block := by
  have bound := fresh.lt_size
  obtain ⟨other, earlier, found⟩ := fresh
  refine ⟨other, earlier, ?_⟩
  rw [Builder.addBlock, Array.getElem?_push_lt bound, ← found, Array.getElem?_eq_getElem bound]

theorem close (fresh : builder.Fresh block) {other : Nat} (different : other ≠ block)
    (terminator : Ir.Terminator) : (builder.close other terminator).Fresh block := by
  obtain ⟨role, earlier, found⟩ := fresh
  refine ⟨role, earlier, ?_⟩
  rw [Builder.close, Array.getElem?_modify, if_neg different, found]

theorem branchTo (fresh : builder.Fresh block) (elsewhere : builder.current ≠ some block)
    (target : Nat) : (builder.branchTo target).Fresh block := by
  rw [Builder.branchTo]
  cases current : builder.current with
  | none => exact fresh
  | some other => exact fresh.close (fun same => elsewhere (same ▸ current)) _

end Fresh

/-- What a function becomes by building on. -/
inductive Grows (before : Builder) : Builder → Prop
  | refl : Grows before before
  | addBlock {after : Builder} (role : BlockRole) :
      Grows before after → Grows before (after.addBlock role)
  /-- Building goes on in a new block in which nothing has been built. -/
  | goTo {after : Builder} {block : Nat} :
      Grows before after → before.blocks.size ≤ block → after.Fresh block →
      Grows before (after.goTo block)
  | perform {after : Builder} {block : Nat} {operation : Ir.Operation} :
      Grows before after → after.current = some block →
      (∀ value ∈ operation.operands, value.Below after.temporaries) →
      Grows before (after.push block ⟨none, operation⟩)
  | emit {after : Builder} {block : Nat} {operation : Ir.Operation} :
      Grows before after → after.current = some block →
      (∀ value ∈ operation.operands, value.Below after.temporaries) →
      Grows before (after.countTemporary.push block ⟨some after.temporaries, operation⟩)
  | close {after : Builder} {block : Nat} {terminator : Ir.Terminator} :
      Grows before after → after.current = some block →
      (∀ value ∈ terminator.operands, value.Below after.temporaries) →
      (∀ target ∈ terminator.successors, target < after.blocks.size) →
      Grows before (after.close block terminator)
  | addAlloca {after : Builder} (type : Ir.ValueType) :
      Grows before after → Grows before (after.addAlloca type)
  /-- A name gets one value. -/
  | bind {after : Builder} {declaration : DeclId} {value : Ir.Value} :
      Grows before after → after.local? declaration = none → value.Below after.temporaries →
      Grows before (after.bind declaration value)

namespace Grows

variable {before middle after : Builder}

theorem size_le (grows : before.Grows after) : before.blocks.size ≤ after.blocks.size := by
  induction grows with
  | refl => exact le_rfl
  | addBlock role _ induction =>
      rw [Builder.addBlock, Array.size_push]
      exact induction.trans (Nat.le_succ _)
  | goTo _ _ _ induction => exact induction
  | perform _ _ _ induction => simpa [push] using induction
  | emit _ _ _ induction => simpa [push, countTemporary] using induction
  | close _ _ _ _ induction => simpa [Builder.close] using induction
  | addAlloca _ _ induction => exact induction
  | bind _ _ _ induction => exact induction

theorem temporaries_le (grows : before.Grows after) : before.temporaries ≤ after.temporaries := by
  induction grows with
  | refl => exact le_rfl
  | emit _ _ _ induction => exact induction.trans (Nat.le_succ _)
  | addAlloca _ _ induction => exact induction.trans (Nat.le_succ _)
  | addBlock _ _ induction => exact induction
  | goTo _ _ _ induction => exact induction
  | perform _ _ _ induction => exact induction
  | close _ _ _ _ induction => exact induction
  | bind _ _ _ induction => exact induction

theorem allocas_le (grows : before.Grows after) :
    before.allocas.toList <+: after.allocas.toList := by
  induction grows with
  | refl => exact List.prefix_rfl
  | addAlloca type _ induction =>
      exact induction.trans (by simp [Builder.addAlloca])
  | addBlock _ _ induction => exact induction
  | goTo _ _ _ induction => exact induction
  | perform _ _ _ induction => exact induction
  | emit _ _ _ induction => exact induction
  | close _ _ _ _ induction => exact induction
  | bind _ _ _ induction => exact induction

theorem trans (first : before.Grows middle) (second : middle.Grows after) : before.Grows after := by
  induction second with
  | refl => exact first
  | addBlock role _ induction => exact .addBlock role induction
  | goTo _ new fresh induction => exact .goTo induction (first.size_le.trans new) fresh
  | perform _ current operands induction => exact .perform induction current operands
  | emit _ current operands induction => exact .emit induction current operands
  | close _ current operands targets induction => exact .close induction current operands targets
  | addAlloca type _ induction => exact .addAlloca type induction
  | bind _ unbound below induction => exact .bind induction unbound below

/-- Building goes on where it was, or in a new block. -/
theorem current_new (grows : before.Grows after) {block : Nat}
    (current : after.current = some block) :
    before.current = some block ∨ before.blocks.size ≤ block := by
  induction grows with
  | refl => exact .inl current
  | goTo _ new _ _ =>
      cases current
      exact .inr new
  | close => cases current
  | addBlock _ _ induction => exact induction current
  | perform _ _ _ induction => exact induction current
  | emit _ _ _ induction => exact induction current
  | addAlloca _ _ induction => exact induction current
  | bind _ _ _ induction => exact induction current

/-- Blocks that building did not go on in are left alone. -/
theorem fixed (grows : before.Grows after) {block : Nat} (earlier : block < before.blocks.size)
    (elsewhere : before.current ≠ some block) : after.blocks[block]? = before.blocks[block]? := by
  have other {builder : Builder} {current : Nat} (grows : before.Grows builder)
      (at' : builder.current = some current) : current ≠ block := by
    rintro rfl
    obtain same | new := grows.current_new at'
    · exact elsewhere same
    · exact absurd earlier (Nat.not_lt_of_le new)
  induction grows with
  | refl => rfl
  | addBlock role grows induction =>
      rw [Builder.addBlock, Array.getElem?_push_lt (earlier.trans_le grows.size_le), ← induction,
        Array.getElem?_eq_getElem (earlier.trans_le grows.size_le)]
  | goTo _ _ _ induction => exact induction
  | perform grows current _ induction =>
      rw [push, Array.getElem?_modify, if_neg (other grows current), induction]
  | emit grows current _ induction =>
      rw [push, countTemporary, Array.getElem?_modify, if_neg (other grows current), induction]
  | close grows current _ _ induction =>
      rw [Builder.close, Array.getElem?_modify, if_neg (other grows current), induction]
  | addAlloca _ _ induction => exact induction
  | bind _ _ _ induction => exact induction

theorem fresh (grows : before.Grows after) {block : Nat} (fresh : before.Fresh block)
    (elsewhere : before.current ≠ some block) : after.Fresh block := by
  have bound := fresh.lt_size
  obtain ⟨role, earlier, found⟩ := fresh
  exact ⟨role, earlier, (grows.fixed bound elsewhere).trans found⟩

/-- Building does not come back to an older block. -/
theorem elsewhere (grows : before.Grows after) {block : Nat} (earlier : block < before.blocks.size)
    (elsewhere : before.current ≠ some block) : after.current ≠ some block := by
  intro current
  obtain same | new := grows.current_new current
  · exact elsewhere same
  · exact absurd earlier (Nat.not_lt_of_le new)

/-- Building may go on behind a terminator, in a new block. -/
theorem resume (grows : before.Grows after) : before.Grows after.resume := by
  rw [Builder.resume]
  cases after.current with
  | none => exact .goTo (.addBlock _ grows) grows.size_le (.added after _)
  | some block => exact grows

/-- An instruction over what is there may be added where building goes on. -/
theorem emitted (grows : before.Grows after) {operation : Ir.Operation}
    (operands : ∀ value ∈ operation.operands, value.Below after.temporaries) :
    before.Grows (after.emit operation) := by
  rw [Builder.emit, ← resume_temporaries]
  refine .emit grows.resume after.resume_current ?_
  rw [resume_temporaries]
  exact operands

theorem performed (grows : before.Grows after) {operation : Ir.Operation}
    (operands : ∀ value ∈ operation.operands, value.Below after.temporaries) :
    before.Grows (after.perform operation) := by
  refine .perform grows.resume after.resume_current ?_
  rw [resume_temporaries]
  exact operands

/-- The block that building goes on in may be closed. -/
theorem endWith (grows : before.Grows after) (terminator : Ir.Terminator)
    (operands : ∀ value ∈ terminator.operands, value.Below after.temporaries)
    (targets : ∀ target ∈ terminator.successors, target < after.blocks.size) :
    before.Grows (after.endWith terminator) := by
  have size_le : after.blocks.size ≤ after.resume.blocks.size := Grows.refl.resume.size_le
  refine .close grows.resume after.resume_current ?_ fun target member =>
    (targets target member).trans_le size_le
  rw [resume_temporaries]
  exact operands

/-- The open block may lead to another one. -/
theorem branchTo (grows : before.Grows after) {target : Nat} (bound : target < after.blocks.size) :
    before.Grows (after.branchTo target) := by
  rw [Builder.branchTo]
  cases current : after.current with
  | none => exact grows
  | some block =>
      exact .close grows current (by simp [Ir.Terminator.operands])
        (by simpa [Ir.Terminator.successors] using bound)

theorem local_kept (grows : before.Grows after) {declaration : DeclId} {value : Ir.Value}
    (found : before.local? declaration = some value) : after.local? declaration = some value := by
  induction grows with
  | refl => exact found
  | @bind after other otherValue _ unbound _ induction =>
      rw [local?, Builder.bind, List.lookup_cons]
      by_cases same : declaration = other
      · rw [← same, induction] at unbound
        cases unbound
      · rw [beq_eq_false_iff_ne.2 same]
        exact induction
  | addBlock _ _ induction => exact induction
  | goTo _ _ _ induction => exact induction
  | perform _ _ _ induction => exact induction
  | emit _ _ _ induction => exact induction
  | close _ _ _ _ induction => exact induction
  | addAlloca _ _ induction => exact induction

end Grows

/-- Whether the block that building goes on in is there and open. -/
def WellFormed (builder : Builder) : Prop :=
  ∀ block, builder.current = some block →
    ∃ open', builder.blocks[block]? = some open' ∧ open'.terminator = none

theorem Grows.wellFormed {before after : Builder} (grows : before.Grows after)
    (wellFormed : before.WellFormed) : after.WellFormed := by
  induction grows with
  | refl => exact wellFormed
  | @addBlock after role _ induction =>
      intro block current
      obtain ⟨open', found, isOpen⟩ := induction block current
      have bound : block < after.blocks.size := (Array.getElem?_eq_some_iff.1 found).1
      refine ⟨open', ?_, isOpen⟩
      rw [Builder.addBlock, Array.getElem?_push_lt bound, ← found,
        Array.getElem?_eq_getElem bound]
  | goTo _ _ fresh _ =>
      rintro _ ⟨rfl⟩
      obtain ⟨role, earlier, found⟩ := fresh
      exact ⟨_, found, rfl⟩
  | perform _ at' _ induction =>
      intro block current
      obtain ⟨open', found, isOpen⟩ := induction block current
      rw [push, Array.getElem?_modify, found]
      split
      · exact ⟨_, rfl, isOpen⟩
      · exact ⟨_, rfl, isOpen⟩
  | emit _ at' _ induction =>
      intro block current
      obtain ⟨open', found, isOpen⟩ := induction block current
      rw [push, countTemporary, Array.getElem?_modify, found]
      split
      · exact ⟨_, rfl, isOpen⟩
      · exact ⟨_, rfl, isOpen⟩
  | close => exact fun block current => by cases current
  | addAlloca _ _ induction => exact induction
  | bind _ _ _ induction => exact induction

/-- Whether the values of names need no temporaries but those there are. -/
def LocalsBelow (builder : Builder) : Prop :=
  ∀ declaration value, builder.local? declaration = some value → value.Below builder.temporaries

theorem Grows.localsBelow {before after : Builder} (grows : before.Grows after)
    (locals : before.LocalsBelow) : after.LocalsBelow := by
  induction grows with
  | refl => exact locals
  | addBlock _ _ induction => exact induction
  | goTo _ _ _ induction => exact induction
  | perform _ _ _ induction => exact induction
  | emit _ _ _ induction =>
      exact fun declaration value found => (induction declaration value found).mono (Nat.le_succ _)
  | close _ _ _ _ induction => exact induction
  | addAlloca _ _ induction =>
      exact fun declaration value found => (induction declaration value found).mono (Nat.le_succ _)
  | @bind after other otherValue _ _ below induction =>
      intro declaration value found
      rw [local?, Builder.bind, List.lookup_cons] at found
      by_cases same : declaration = other
      · simp only [same, beq_self_eq_true, Option.some.injEq] at found
        exact found ▸ below
      · rw [beq_eq_false_iff_ne.2 same] at found
        exact induction declaration value found

/-- What holds of a function between two steps of building it. -/
structure Valid (builder : Builder) : Prop where
  /-- The block that building goes on in is there and open. -/
  wellFormed : builder.WellFormed
  /-- The values of names are there. -/
  localsBelow : builder.LocalsBelow

namespace Valid

variable {builder before after : Builder}

theorem of_grows (valid : before.Valid) (grows : before.Grows after) : after.Valid :=
  ⟨grows.wellFormed valid.wellFormed, grows.localsBelow valid.localsBelow⟩

theorem current_lt (valid : builder.Valid) {block : Nat} (current : builder.current = some block) :
    block < builder.blocks.size := by
  obtain ⟨open', found, _⟩ := valid.wellFormed block current
  exact (Array.getElem?_eq_some_iff.1 found).1

theorem resume (valid : builder.Valid) : builder.resume.Valid :=
  valid.of_grows (Grows.refl.resume)

theorem addBlock (valid : builder.Valid) (role : BlockRole) : (builder.addBlock role).Valid :=
  valid.of_grows (.addBlock role .refl)

end Valid

/-- Whether a block is there in which nothing has been built, while building goes on elsewhere. -/
structure Awaits (builder : Builder) (block : Nat) : Prop where
  /-- Nothing has been built in the block. -/
  fresh : builder.Fresh block
  /-- Building goes on elsewhere. -/
  elsewhere : builder.current ≠ some block

namespace Awaits

variable {builder before after : Builder} {block : Nat}

/-- Building elsewhere leaves the block alone. -/
theorem of_grows (awaits : before.Awaits block) (grows : before.Grows after) : after.Awaits block :=
  ⟨grows.fresh awaits.fresh awaits.elsewhere,
    grows.elsewhere awaits.fresh.lt_size awaits.elsewhere⟩

/-- A new block awaits being built. -/
theorem added (valid : builder.Valid) (role : BlockRole) :
    (builder.addBlock role).Awaits builder.blocks.size :=
  ⟨.added builder role, fun current => Nat.lt_irrefl _ (valid.current_lt current)⟩

theorem addBlock (awaits : builder.Awaits block) (role : BlockRole) :
    (builder.addBlock role).Awaits block :=
  ⟨awaits.fresh.addBlock role, awaits.elsewhere⟩

theorem close (awaits : builder.Awaits block) {other : Nat} (current : builder.current = some other)
    (terminator : Ir.Terminator) : (builder.close other terminator).Awaits block :=
  ⟨awaits.fresh.close (fun same => awaits.elsewhere (same ▸ current)) terminator, nofun⟩

theorem resume (awaits : builder.Awaits block) : builder.resume.Awaits block :=
  awaits.of_grows (Grows.refl.resume)

theorem endWith (awaits : builder.Awaits block) (terminator : Ir.Terminator) :
    (builder.endWith terminator).Awaits block :=
  awaits.resume.close builder.resume_current terminator

theorem branchTo (awaits : builder.Awaits block) (target : Nat) :
    (builder.branchTo target).Awaits block := by
  refine ⟨awaits.fresh.branchTo awaits.elsewhere target, ?_⟩
  rw [Builder.branchTo]
  cases current : builder.current with
  | none => exact awaits.elsewhere
  | some other => exact fun same => by cases same

theorem goTo (awaits : builder.Awaits block) {other : Nat} (different : other ≠ block) :
    (builder.goTo other).Awaits block :=
  ⟨awaits.fresh, fun same => different (Option.some.inj same)⟩

end Awaits

/-- One function under construction holds all that another one holds. -/
structure Includes (before after : Builder) : Prop where
  /-- Blocks have grown. -/
  block_grows : ∀ (index : Nat) (block : OpenBlock), before.blocks[index]? = some block →
    ∃ later, after.blocks[index]? = some later ∧ block.Grows later
  /-- Room for objects is kept. -/
  allocas_le : before.allocas.toList <+: after.allocas.toList
  /-- Temporaries are kept. -/
  temporaries_le : before.temporaries ≤ after.temporaries

namespace Includes

variable {before middle after : Builder}

theorem refl (builder : Builder) : builder.Includes builder :=
  ⟨fun _ block found => ⟨block, found, .refl block⟩, List.prefix_rfl, le_rfl⟩

theorem trans (first : before.Includes middle) (second : middle.Includes after) :
    before.Includes after := by
  refine ⟨?_, first.allocas_le.trans second.allocas_le,
    first.temporaries_le.trans second.temporaries_le⟩
  intro index block found
  obtain ⟨later, later_found, grows⟩ := first.block_grows index block found
  obtain ⟨last, last_found, last_grows⟩ := second.block_grows index later later_found
  exact ⟨last, last_found, grows.trans last_grows⟩

/-- Adding a block keeps all others. -/
theorem addBlock (builder : Builder) (role : BlockRole) :
    builder.Includes (builder.addBlock role) := by
  refine ⟨fun index block found => ⟨block, ?_, .refl block⟩, List.prefix_rfl, le_rfl⟩
  have bound := (Array.getElem?_eq_some_iff.1 found).1
  rw [Builder.addBlock, Array.getElem?_push_lt bound, ← found, Array.getElem?_eq_getElem bound]

/-- Going on elsewhere keeps all blocks. -/
theorem goTo (builder : Builder) (block : Nat) : builder.Includes (builder.goTo block) :=
  ⟨fun _ block found => ⟨block, found, .refl block⟩, List.prefix_rfl, le_rfl⟩

/-- Changing an open block keeps what has been built. -/
theorem modify {builder : Builder} {index : Nat} {block : OpenBlock}
    (found : builder.blocks[index]? = some block) (isOpen : block.terminator = none)
    (change : OpenBlock → OpenBlock) (role_eq : (change block).role = block.role)
    (earlier_eq : (change block).earlier = block.earlier)
    (instructions_le : block.instructions.toList <+: (change block).instructions.toList)
    {after : Builder} (blocks_eq : after.blocks = builder.blocks.modify index change)
    (allocas_eq : after.allocas = builder.allocas)
    (temporaries_le : builder.temporaries ≤ after.temporaries) : builder.Includes after := by
  refine ⟨?_, allocas_eq ▸ List.prefix_rfl, temporaries_le⟩
  intro other otherBlock otherFound
  rw [blocks_eq, Array.getElem?_modify]
  by_cases same : index = other
  · subst same
    rw [if_pos rfl, found, Option.map_some]
    cases found.symm.trans otherFound
    refine ⟨_, rfl, role_eq, earlier_eq, instructions_le, fun isClosed => ?_⟩
    rw [isOpen] at isClosed
    cases isClosed
  · rw [if_neg same]
    exact ⟨otherBlock, otherFound, .refl otherBlock⟩

end Includes

/-- An instruction behind the ones there are keeps what has been built. -/
theorem Includes.push {builder : Builder} (wellFormed : builder.WellFormed) {block : Nat}
    (current : builder.current = some block) (instruction : Ir.Instruction) :
    builder.Includes (builder.push block instruction) := by
  obtain ⟨open', found, isOpen⟩ := wellFormed block current
  refine .modify found isOpen (fun open' =>
    { open' with instructions := open'.instructions.push instruction }) rfl rfl ?_ rfl rfl le_rfl
  simp

/-- Counting a temporary keeps what has been built. -/
theorem Includes.countTemporary (builder : Builder) : builder.Includes builder.countTemporary :=
  ⟨fun _ block found => ⟨block, found, .refl block⟩, List.prefix_rfl, Nat.le_succ _⟩

theorem Includes.close {builder : Builder} (wellFormed : builder.WellFormed) {block : Nat}
    (current : builder.current = some block) (terminator : Ir.Terminator) :
    builder.Includes (builder.close block terminator) := by
  obtain ⟨open', found, isOpen⟩ := wellFormed block current
  exact .modify found isOpen (fun open' => { open' with terminator := some terminator }) rfl rfl
    List.prefix_rfl rfl rfl le_rfl

/-- What has been built is kept. -/
theorem Grows.includes {before after : Builder} (grows : before.Grows after)
    (wellFormed : before.WellFormed) : before.Includes after := by
  induction grows with
  | refl => exact .refl before
  | addBlock role _ induction => exact induction.trans (.addBlock _ role)
  | goTo _ _ _ induction => exact induction.trans (.goTo _ _)
  | perform grows current _ induction =>
      exact induction.trans (.push (grows.wellFormed wellFormed) current _)
  | @emit after block operation grows current _ induction =>
      have counted : after.countTemporary.WellFormed := grows.wellFormed wellFormed
      exact (induction.trans (.countTemporary after)).trans (.push counted current _)
  | close grows current _ _ induction =>
      exact induction.trans (.close (grows.wellFormed wellFormed) current _)
  | @addAlloca after type _ induction =>
      refine induction.trans ⟨fun _ block found => ⟨block, found, .refl block⟩, ?_, Nat.le_succ _⟩
      simp [Builder.addAlloca]
  | bind _ _ _ induction =>
      exact induction.trans ⟨fun _ block found => ⟨block, found, .refl block⟩, List.prefix_rfl,
        le_rfl⟩

end Builder

end Minilang
