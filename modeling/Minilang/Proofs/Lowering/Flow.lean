import Minilang.Proofs.Lowering.Branches

/-!
# Flow of temporaries

While a function is being built, every block is given the temporaries that are defined on all ways to it.
A block may use these, those of the room for objects, and those that its own instructions define before the
use. The blocks behind a branch are given no more than what the branch offers, and a block to which nothing
leads yet is given everything.
-/

namespace Minilang

/-- The temporaries that blocks are given. -/
abbrev Entries := Nat → Nat → Prop

/-- What is given once a block gets no more than certain temporaries. -/
def Entries.narrow (entries : Entries) (block : Nat) (offered : Nat → Prop) : Entries :=
  fun other temporary => entries other temporary ∧ (other = block → offered temporary)

theorem Entries.narrow_of_ne {entries : Entries} {block other : Nat} {offered : Nat → Prop}
    (different : other ≠ block) : entries.narrow block offered other = entries other := by
  funext temporary
  simp [narrow, different]

namespace Builder

/-- Whether a temporary is defined behind what has been built in a block. -/
def Offers (builder : Builder) (entries : Entries) (block temporary : Nat) : Prop :=
  temporary ∈ Ir.results builder.allocas.toList ∨ entries block temporary ∨
    ∃ open', builder.blocks[block]? = some open' ∧
      temporary ∈ Ir.results open'.instructions.toList

/-- Whether a temporary is defined where building goes on. Everything is where nothing leads to. -/
def Offered (builder : Builder) (entries : Entries) (temporary : Nat) : Prop :=
  ∀ block, builder.current = some block → builder.Offers entries block temporary

/-- Whether a block has got its terminator. -/
def Closed (builder : Builder) (block : Nat) : Prop :=
  ∃ open', builder.blocks[block]? = some open' ∧ open'.terminator.isSome = true

/-- Whether a block uses only what it may use, and leads only to blocks that are given no more than it
offers. -/
structure Justifies (builder : Builder) (entries : Entries) (index : Nat) (block : OpenBlock) :
    Prop where
  instruction : ∀ first instruction rest,
    block.instructions.toList = first ++ instruction :: rest →
    instruction.operation.isPhi = false →
    ∀ temporary, .temp temporary ∈ instruction.operation.operands →
      temporary ∈ Ir.results builder.allocas.toList ∨ entries index temporary ∨
        temporary ∈ Ir.results first
  incoming : ∀ instruction ∈ block.instructions.toList, ∀ temporary source,
    (.temp temporary, source) ∈ instruction.operation.incoming →
    builder.Closed source ∧ builder.Offers entries source temporary
  operand : ∀ terminator, block.terminator = some terminator →
    ∀ temporary, .temp temporary ∈ terminator.operands → builder.Offers entries index temporary
  edge : ∀ terminator, block.terminator = some terminator → ∀ target ∈ terminator.successors,
    ∀ temporary, entries target temporary → builder.Offers entries index temporary

/-- Whether all blocks of a function use only what they may use. -/
structure Flowing (builder : Builder) (entries : Entries) : Prop where
  valid : builder.Valid
  justified : ∀ (index : Nat) (block : OpenBlock), builder.blocks[index]? = some block →
    builder.Justifies entries index block
  untouched : ∀ index temporary, builder.blocks.size ≤ index → entries index temporary

variable {builder before after : Builder} {entries : Entries}

theorem Offers.mono {block temporary : Nat} (offers : before.Offers entries block temporary)
    (includes : before.Includes after) : after.Offers entries block temporary := by
  rcases offers with room | given | ⟨open', found, defined⟩
  · exact .inl ((includes.allocas_le.filterMap _).subset room)
  · exact .inr (.inl given)
  · obtain ⟨later, later_found, grows⟩ := includes.block_grows block open' found
    exact .inr (.inr ⟨later, later_found, (grows.instructions_le.filterMap _).subset defined⟩)

theorem Offers.of_given_eq {later : Entries} {block temporary : Nat}
    (offers : builder.Offers entries block temporary) (same : later block = entries block) :
    builder.Offers later block temporary := by
  rw [Offers, same]
  exact offers

theorem Closed.mono {block : Nat} (closed : before.Closed block)
    (includes : before.Includes after) : after.Closed block := by
  obtain ⟨open', found, isClosed⟩ := closed
  obtain ⟨later, later_found, grows⟩ := includes.block_grows block open' found
  refine ⟨later, later_found, ?_⟩
  rw [grows.closed isClosed]
  exact isClosed

theorem Closed.lt_size {block : Nat} (closed : builder.Closed block) :
    block < builder.blocks.size := by
  obtain ⟨open', found, _⟩ := closed
  exact (Array.getElem?_eq_some_iff.1 found).1

theorem Fresh.not_closed {block : Nat} (fresh : builder.Fresh block) : ¬builder.Closed block := by
  obtain ⟨role, earlier, found⟩ := fresh
  rintro ⟨open', found', isClosed⟩
  rw [found] at found'
  cases found'
  cases isClosed

theorem Justifies.mono {index : Nat} {block : OpenBlock}
    (justifies : before.Justifies entries index block) (includes : before.Includes after) :
    after.Justifies entries index block where
  instruction first instruction rest split isPhi temporary operand := by
    rcases justifies.instruction first instruction rest split isPhi temporary operand
      with room | defined
    · exact .inl ((includes.allocas_le.filterMap _).subset room)
    · exact .inr defined
  incoming instruction member temporary source operand :=
    have ⟨closed, offers⟩ := justifies.incoming instruction member temporary source operand
    ⟨closed.mono includes, offers.mono includes⟩
  operand terminator closed temporary operand :=
    (justifies.operand terminator closed temporary operand).mono includes
  edge terminator closed target successor temporary given :=
    (justifies.edge terminator closed target successor temporary given).mono includes

/-- A block in which nothing has been built uses nothing. -/
theorem Justifies.of_fresh {index : Nat} (role : BlockRole) (earlier : Nat) :
    builder.Justifies entries index ⟨role, earlier, #[], none⟩ where
  instruction first instruction rest split := by simp at split
  incoming instruction member := by simp at member
  operand terminator closed := by cases closed
  edge terminator closed := by cases closed

theorem closed_close (wellFormed : builder.WellFormed) {block : Nat}
    (current : builder.current = some block) (terminator : Ir.Terminator) :
    (builder.close block terminator).Closed block := by
  obtain ⟨open', found, _⟩ := wellFormed block current
  refine ⟨⟨open'.role, open'.earlier, open'.instructions, some terminator⟩, ?_, rfl⟩
  rw [Builder.close, Array.getElem?_modify, if_pos rfl, found]
  rfl

/-- A block that is left is closed, and what is built is kept. -/
theorem closed_leave (wellFormed : builder.WellFormed) {block : Nat}
    (current : builder.current = some block) (target next : Nat) :
    (builder.leave target next).Closed block ∧ builder.Includes (builder.leave target next) := by
  rw [leave, branchTo, current]
  exact ⟨closed_close wellFormed current _,
    (Includes.close wellFormed current _).trans (.goTo _ next)⟩

namespace Flowing

/-- A step that changes one block keeps all others justified. -/
theorem of_modify (flowing : before.Flowing entries) (includes : before.Includes after)
    (valid : after.Valid) {index : Nat} (change : OpenBlock → OpenBlock)
    (blocks_eq : after.blocks = before.blocks.modify index change)
    (changed : ∀ block, before.blocks[index]? = some block →
      before.Justifies entries index block → after.Justifies entries index (change block)) :
    after.Flowing entries := by
  refine ⟨valid, ?_, ?_⟩
  · intro other block found
    rw [blocks_eq, Array.getElem?_modify] at found
    by_cases same : index = other
    · subst same
      rw [if_pos rfl] at found
      obtain ⟨earlier, earlier_found, rfl⟩ := Option.map_eq_some_iff.1 found
      exact changed earlier earlier_found (flowing.justified index earlier earlier_found)
    · rw [if_neg same] at found
      exact (flowing.justified other block found).mono includes
  · intro other temporary bound
    apply flowing.untouched
    rwa [blocks_eq, Array.size_modify] at bound

theorem addBlock (flowing : builder.Flowing entries) (role : BlockRole) :
    (builder.addBlock role).Flowing entries := by
  have grows : builder.Grows (builder.addBlock role) := .addBlock role .refl
  refine ⟨flowing.valid.of_grows grows, ?_, ?_⟩
  · intro index block found
    rw [Builder.addBlock, Array.getElem?_push] at found
    split at found
    · cases found
      exact .of_fresh role _
    · exact (flowing.justified index block found).mono (grows.includes flowing.valid.wellFormed)
  · intro index temporary bound
    rw [addBlock_size] at bound
    exact flowing.untouched index temporary (Nat.le_of_succ_le bound)

theorem goTo (flowing : builder.Flowing entries) {block : Nat} (awaits : builder.Awaits block) :
    (builder.goTo block).Flowing entries := by
  refine ⟨⟨?_, flowing.valid.localsBelow⟩, ?_, flowing.untouched⟩
  · rintro _ ⟨rfl⟩
    obtain ⟨role, earlier, found⟩ := awaits.fresh
    exact ⟨_, found, rfl⟩
  · intro index open' found
    exact (flowing.justified index open' found).mono (.goTo builder block)

theorem resume (flowing : builder.Flowing entries) : builder.resume.Flowing entries := by
  rw [Builder.resume]
  cases builder.current with
  | none => exact (flowing.addBlock .unreachable).goTo (.added flowing.valid .unreachable)
  | some block => exact flowing

/-- What is offered is offered where building is resumed. -/
theorem offered_resume (flowing : builder.Flowing entries) {temporary : Nat}
    (offered : builder.Offered entries temporary) : builder.resume.Offered entries temporary := by
  rw [Builder.resume]
  cases current : builder.current with
  | none =>
      rintro _ ⟨rfl⟩
      exact .inr (.inl (flowing.untouched _ temporary le_rfl))
  | some block => exact offered

/-- An instruction may be added over what is offered. -/
theorem push (flowing : builder.Flowing entries) {block : Nat} {instruction : Ir.Instruction}
    (includes : builder.Includes after) (valid : after.Valid)
    (blocks_eq : after.blocks = (builder.push block instruction).blocks) (operands : instruction.operation.isPhi = false →
      ∀ temporary, .temp temporary ∈ instruction.operation.operands →
        builder.Offers entries block temporary)
    (incoming : ∀ temporary source, (.temp temporary, source) ∈ instruction.operation.incoming →
      builder.Closed source ∧ builder.Offers entries source temporary) :
    after.Flowing entries := by
  apply flowing.of_modify includes valid
    (fun open' => { open' with instructions := open'.instructions.push instruction }) blocks_eq
  intro open' found justifies
  have later := justifies.mono includes
  refine ⟨?_, ?_, later.operand, later.edge⟩
  · intro first added rest split isPhi temporary operand
    rw [Array.toList_push] at split
    rcases List.eq_nil_or_concat rest with rfl | ⟨others, last, rfl⟩
    · obtain ⟨first_eq, added_eq⟩ := List.append_inj' split rfl
      cases added_eq
      rcases operands isPhi temporary operand with room | given | ⟨same, same_found, defined⟩
      · exact .inl ((includes.allocas_le.filterMap _).subset room)
      · exact .inr (.inl given)
      · rw [found] at same_found
        cases same_found
        exact .inr (.inr (first_eq ▸ defined))
    · rw [List.concat_eq_append, ← List.cons_append, ← List.append_assoc] at split
      obtain ⟨split, _⟩ := List.append_inj' split rfl
      exact later.instruction first added others split isPhi temporary operand
  · intro added member temporary source operand
    rw [Array.toList_push, List.mem_append, List.mem_singleton] at member
    rcases member with member | rfl
    · exact later.incoming added member temporary source operand
    · obtain ⟨closed, offers⟩ := incoming temporary source operand
      exact ⟨closed.mono includes, offers.mono includes⟩

theorem addAlloca (flowing : builder.Flowing entries) (type : Ir.ValueType) :
    (builder.addAlloca type).Flowing entries := by
  have grows : builder.Grows (builder.addAlloca type) := .addAlloca type .refl
  exact ⟨flowing.valid.of_grows grows, fun index block found =>
    (flowing.justified index block found).mono (grows.includes flowing.valid.wellFormed),
    flowing.untouched⟩

theorem bind (flowing : builder.Flowing entries) {declaration : DeclId} {value : Ir.Value}
    (unbound : builder.local? declaration = none) (below : value.Below builder.temporaries) :
    (builder.bind declaration value).Flowing entries := by
  have grows : builder.Grows (builder.bind declaration value) := .bind .refl unbound below
  exact ⟨flowing.valid.of_grows grows, fun index block found =>
    (flowing.justified index block found).mono (grows.includes flowing.valid.wellFormed),
    flowing.untouched⟩

/-- A block to which building has not come yet may be given less. -/
theorem narrow (flowing : builder.Flowing entries) {block : Nat} (awaits : builder.Awaits block)
    (offered : Nat → Prop) : builder.Flowing (entries.narrow block offered) := by
  refine ⟨flowing.valid, ?_, ?_⟩
  · intro index open' found
    have justifies := flowing.justified index open' found
    by_cases same : index = block
    · obtain ⟨role, earlier, fresh⟩ := awaits.fresh
      rw [same, fresh] at found
      cases found
      exact .of_fresh role earlier
    have keep {other temporary : Nat} (different : other ≠ block)
        (offers : builder.Offers entries other temporary) :
        builder.Offers (entries.narrow block offered) other temporary := by
      rw [Offers, Entries.narrow_of_ne different]
      exact offers
    constructor
    · rw [Entries.narrow_of_ne same]
      exact justifies.instruction
    · intro instruction member temporary source operand
      obtain ⟨closed, offers⟩ := justifies.incoming instruction member temporary source operand
      refine ⟨closed, keep ?_ offers⟩
      rintro rfl
      exact awaits.fresh.not_closed closed
    · intro terminator closed temporary operand
      exact keep same (justifies.operand terminator closed temporary operand)
    · intro terminator closed target successor temporary given
      exact keep same (justifies.edge terminator closed target successor temporary given.1)
  · intro index temporary bound
    refine ⟨flowing.untouched index temporary bound, ?_⟩
    rintro rfl
    exact absurd awaits.fresh.lt_size (Nat.not_lt_of_le bound)

/-- A block may be closed if it offers what the terminator uses and what the next blocks are given. -/
theorem endWith (flowing : builder.Flowing entries) (terminator : Ir.Terminator)
    (grows : builder.Grows (builder.endWith terminator))
    (operands : ∀ temporary, .temp temporary ∈ terminator.operands →
      builder.Offered entries temporary)
    (edges : ∀ target ∈ terminator.successors, ∀ temporary, entries target temporary →
      builder.Offered entries temporary) :
    (builder.endWith terminator).Flowing entries := by
  have resumed := flowing.resume
  have offers {temporary : Nat} (offered : builder.Offered entries temporary) :
      builder.resume.Offers entries builder.currentIndex temporary :=
    flowing.offered_resume offered _ builder.resume_current
  obtain ⟨open', found, isOpen⟩ := resumed.valid.wellFormed _ builder.resume_current
  have includes : builder.resume.Includes (builder.endWith terminator) :=
    .close resumed.valid.wellFormed builder.resume_current terminator
  refine ⟨flowing.valid.of_grows grows, ?_, ?_⟩
  · intro index block block_found
    rw [Builder.endWith, Builder.close, Array.getElem?_modify] at block_found
    by_cases same : builder.currentIndex = index
    · subst same
      rw [if_pos rfl, found] at block_found
      cases block_found
      have later := (resumed.justified _ open' found).mono includes
      refine ⟨later.instruction, later.incoming, ?_, ?_⟩
      · rintro _ ⟨rfl⟩ temporary operand
        exact (offers (operands temporary operand)).mono includes
      · rintro _ ⟨rfl⟩ target successor temporary given
        exact (offers (edges target successor temporary given)).mono includes
    · rw [if_neg same] at block_found
      exact (resumed.justified index block block_found).mono includes
  · intro index temporary bound
    apply resumed.untouched
    rwa [Builder.endWith, close_size] at bound

/-- The open block may be left for a block that is given no more than what is offered. -/
theorem branchTo (flowing : builder.Flowing entries) {target : Nat}
    (bound : target < builder.blocks.size)
    (edge : ∀ temporary, entries target temporary → builder.Offered entries temporary) :
    (builder.branchTo target).Flowing entries := by
  have grows := Grows.refl.branchTo bound
  rw [Builder.branchTo] at grows ⊢
  cases current : builder.current with
  | none => exact flowing
  | some block =>
      have ended := flowing.endWith (.branch target)
        (Grows.refl.endWith _ (by simp [Ir.Terminator.operands])
          (by simpa [Ir.Terminator.successors] using bound))
        (by simp [Ir.Terminator.operands]) (by simpa [Ir.Terminator.successors] using edge)
      rwa [Builder.endWith, resume_of_current current, currentIndex_of_current current] at ended

end Flowing

/-- A block to which building has not come does not matter for what is offered. -/
theorem offered_narrow {block : Nat} (awaits : builder.Awaits block) (offered : Nat → Prop)
    (temporary : Nat) : builder.Offered (entries.narrow block offered) temporary ↔
      builder.Offered entries temporary := by
  refine forall_congr' fun current => imp_congr_right fun isCurrent => ?_
  have different : current ≠ block := fun same => awaits.elsewhere (same ▸ isCurrent)
  rw [Offers, Offers, Entries.narrow_of_ne different]

/-- What a block is given is offered where building goes on in it. -/
theorem offered_goTo {block temporary : Nat} (given : entries block temporary) :
    (builder.goTo block).Offered entries temporary := by
  rintro _ ⟨rfl⟩
  exact .inr (.inl given)

/-- A step that goes on in the same block offers what was offered. -/
theorem Includes.offered (includes : before.Includes after)
    (current_eq : after.current = before.current) {temporary : Nat}
    (offered : before.Offered entries temporary) : after.Offered entries temporary :=
  fun block current => (offered block (current_eq ▸ current)).mono includes

/-- A function that has grown gives blocks that are there what they were given, and offers what it
offered. -/
structure Carries (before : Builder) (entries : Entries) (after : Builder) (later : Entries) :
    Prop where
  grows : before.Grows after
  flowing : after.Flowing later
  kept : ∀ block < before.blocks.size, later block = entries block
  offered : ∀ temporary, before.Offered entries temporary → after.Offered later temporary

namespace Carries

variable {middle : Builder} {between later : Entries}

theorem refl (flowing : builder.Flowing entries) : builder.Carries entries builder entries :=
  ⟨.refl, flowing, fun _ _ => rfl, fun _ offered => offered⟩

theorem trans (first : before.Carries entries middle between)
    (second : middle.Carries between after later) : before.Carries entries after later where
  grows := first.grows.trans second.grows
  flowing := second.flowing
  kept block bound := (second.kept block (bound.trans_le first.grows.size_le)).trans
    (first.kept block bound)
  offered temporary offered := second.offered temporary (first.offered temporary offered)

theorem addBlock (flowing : builder.Flowing entries) (role : BlockRole) :
    builder.Carries entries (builder.addBlock role) entries :=
  ⟨.addBlock role .refl, flowing.addBlock role, fun _ _ => rfl,
    fun _ offered => (Includes.addBlock builder role).offered rfl offered⟩

theorem resume (flowing : builder.Flowing entries) :
    builder.Carries entries builder.resume entries :=
  ⟨Grows.refl.resume, flowing.resume, fun _ _ => rfl, fun _ => flowing.offered_resume⟩

theorem addAlloca (flowing : builder.Flowing entries) (type : Ir.ValueType) :
    builder.Carries entries (builder.addAlloca type) entries := by
  have grows : builder.Grows (builder.addAlloca type) := .addAlloca type .refl
  exact ⟨grows, flowing.addAlloca type, fun _ _ => rfl,
    fun _ offered => (grows.includes flowing.valid.wellFormed).offered rfl offered⟩

theorem bind (flowing : builder.Flowing entries) {declaration : DeclId} {value : Ir.Value}
    (unbound : builder.local? declaration = none) (below : value.Below builder.temporaries) :
    builder.Carries entries (builder.bind declaration value) entries := by
  have grows : builder.Grows (builder.bind declaration value) := .bind .refl unbound below
  exact ⟨grows, flowing.bind unbound below, fun _ _ => rfl,
    fun _ offered => (grows.includes flowing.valid.wellFormed).offered rfl offered⟩

/-- An instruction is added over what is offered, or over what comes in from closed blocks. -/
theorem emit (flowing : builder.Flowing entries) {operation : Ir.Operation}
    (below : ∀ value ∈ operation.operands, value.Below builder.temporaries)
    (operands : operation.isPhi = false → ∀ temporary, .temp temporary ∈ operation.operands →
      builder.Offered entries temporary)
    (incoming : ∀ temporary source, (.temp temporary, source) ∈ operation.incoming →
      builder.Closed source ∧ builder.Offers entries source temporary) :
    builder.Carries entries (builder.emit operation) entries ∧
      (builder.emit operation).Offered entries builder.temporaries := by
  have resumed := flowing.resume
  have counted : builder.resume.countTemporary.WellFormed := resumed.valid.wellFormed
  have grows := Grows.refl.emitted below
  have includes : builder.resume.Includes (builder.emit operation) :=
    (Includes.countTemporary _).trans (.push counted builder.resume_current _)
  have offers {temporary : Nat} (offered : builder.Offered entries temporary) :
      builder.resume.Offers entries builder.currentIndex temporary :=
    flowing.offered_resume offered _ builder.resume_current
  have resume_includes := Grows.refl.resume.includes flowing.valid.wellFormed
  constructor
  · refine ⟨grows, ?_, fun _ _ => rfl, fun temporary offered => ?_⟩
    · exact resumed.push includes (flowing.valid.of_grows grows) rfl
        (fun notPhi temporary operand => offers (operands notPhi temporary operand))
        fun temporary source member =>
          have ⟨closed, given⟩ := incoming temporary source member
          ⟨closed.mono resume_includes, given.mono resume_includes⟩
    · exact includes.offered ((builder.emit_current operation).trans builder.resume_current.symm)
        (flowing.offered_resume offered)
  · intro block current
    rw [emit_current] at current
    cases current
    obtain ⟨open', found, isOpen⟩ := resumed.valid.wellFormed _ builder.resume_current
    refine .inr (.inr ⟨⟨open'.role, open'.earlier,
      open'.instructions.push ⟨some builder.temporaries, operation⟩, open'.terminator⟩, ?_, by simp⟩)
    rw [Builder.emit, Builder.push, Array.getElem?_modify, if_pos rfl, countTemporary_blocks, found]
    rfl

theorem perform (flowing : builder.Flowing entries) (operation : Ir.Operation)
    (below : ∀ value ∈ operation.operands, value.Below builder.temporaries)
    (notPhi : operation.incoming = [])
    (operands : ∀ temporary, .temp temporary ∈ operation.operands →
      builder.Offered entries temporary) :
    builder.Carries entries (builder.perform operation) entries := by
  have resumed := flowing.resume
  have grows := Grows.refl.performed below
  have includes : builder.resume.Includes (builder.perform operation) :=
    .push resumed.valid.wellFormed builder.resume_current _
  refine ⟨grows, ?_, fun _ _ => rfl, fun temporary offered => ?_⟩
  · refine resumed.push includes (flowing.valid.of_grows grows) rfl
      (fun _ temporary operand =>
        flowing.offered_resume (operands temporary operand) _ builder.resume_current) ?_
    intro temporary source member
    rw [notPhi] at member
    cases member
  · exact includes.offered ((builder.perform_current operation).trans builder.resume_current.symm)
      (flowing.offered_resume offered)

/-- A block is closed with a way to two others, neither of which is given more than what is offered, and
building goes on in the first of them. -/
theorem fork {prepared : Builder} (carries : before.Carries entries prepared later)
    (terminator : Ir.Terminator) {first second : Nat}
    (below : ∀ value ∈ terminator.operands, value.Below prepared.temporaries)
    (operands : ∀ temporary, .temp temporary ∈ terminator.operands →
      prepared.Offered later temporary)
    (successors : ∀ target ∈ terminator.successors, target = first ∨ target = second)
    (awaitsFirst : prepared.Awaits first) (awaitsSecond : prepared.Awaits second)
    (newFirst : before.blocks.size ≤ first) (newSecond : before.blocks.size ≤ second)
    (given : ∀ temporary, later first temporary) :
    ∃ forked, before.Carries entries ((prepared.endWith terminator).goTo first) forked ∧
      (∀ block, block ≠ first → block ≠ second → forked block = later block) ∧
      (∀ temporary, prepared.Offered later temporary →
        forked first temporary ∧ (later second temporary → forked second temporary)) ∧
      ∀ temporary, forked second temporary → forked first temporary := by
  set offered := prepared.Offered later
  set forked := (later.narrow first offered).narrow second offered
  have forked_offered (temporary : Nat) (isOffered : offered temporary) :
      prepared.Offered forked temporary :=
    (offered_narrow awaitsSecond offered temporary).2
      ((offered_narrow awaitsFirst offered temporary).2 isOffered)
  have targets_lt : ∀ target ∈ terminator.successors, target < prepared.blocks.size := by
    intro target successor
    rcases successors target successor with rfl | rfl
    · exact awaitsFirst.fresh.lt_size
    · exact awaitsSecond.fresh.lt_size
  have grows := Grows.refl.endWith terminator below targets_lt
  have narrowed : prepared.Flowing forked :=
    (carries.flowing.narrow awaitsFirst offered).narrow awaitsSecond offered
  have closed : (prepared.endWith terminator).Flowing forked := by
    refine narrowed.endWith terminator grows
      (fun temporary operand => forked_offered temporary (operands temporary operand)) ?_
    intro target successor temporary isGiven
    rcases successors target successor with rfl | rfl
    · exact forked_offered temporary (isGiven.1.2 rfl)
    · exact forked_offered temporary (isGiven.2 rfl)
  have keep {block : Nat} (notFirst : block ≠ first) (notSecond : block ≠ second) :
      forked block = later block :=
    (Entries.narrow_of_ne notSecond).trans (Entries.narrow_of_ne notFirst)
  have forked_first (temporary : Nat) (isOffered : offered temporary) : forked first temporary :=
    ⟨⟨given temporary, fun _ => isOffered⟩, fun _ => isOffered⟩
  refine ⟨forked, ⟨(carries.grows.trans grows).enter (awaitsFirst.endWith terminator) newFirst,
    closed.goTo (awaitsFirst.endWith terminator), ?_, ?_⟩, fun block => keep, ?_, ?_⟩
  · intro block bound
    rw [keep (Nat.ne_of_lt (bound.trans_le newFirst)) (Nat.ne_of_lt (bound.trans_le newSecond)),
      carries.kept block bound]
  · intro temporary wasOffered
    exact offered_goTo (forked_first temporary (carries.offered temporary wasOffered))
  · intro temporary isOffered
    exact ⟨forked_first temporary isOffered,
      fun isGiven => ⟨⟨isGiven, fun _ => isOffered⟩, fun _ => isOffered⟩⟩
  · exact fun temporary isGiven => forked_first temporary (isGiven.2 rfl)

/-- The open block is left for a block that is given no more than what is offered, and building goes on in
another one. -/
theorem leave {target next : Nat} (grows : before.Grows builder) (flowing : builder.Flowing later)
    (kept : ∀ block < before.blocks.size, later block = entries block)
    (target_lt : target < builder.blocks.size)
    (edge : ∀ temporary, later target temporary → builder.Offered later temporary)
    (awaits : builder.Awaits next) (new : before.blocks.size ≤ next)
    (given : ∀ temporary, before.Offered entries temporary → later next temporary) :
    before.Carries entries (builder.leave target next) later where
  grows := grows.leave target_lt awaits new
  flowing := (flowing.branchTo target_lt edge).goTo (awaits.branchTo target)
  kept := kept
  offered temporary offered := offered_goTo (given temporary offered)

/-- The open block is left for one that has awaited being built, which from then on is given no more than
what is offered. -/
theorem join {target next : Nat} (grows : before.Grows builder) (flowing : builder.Flowing later)
    (kept : ∀ block < before.blocks.size, later block = entries block)
    (awaitsTarget : builder.Awaits target) (newTarget : before.blocks.size ≤ target)
    (awaits : builder.Awaits next) (new : before.blocks.size ≤ next)
    (given : ∀ temporary, before.Offered entries temporary → later next temporary)
    (offered : ∀ temporary, before.Offered entries temporary → builder.Offered later temporary) :
    before.Carries entries (builder.leave target next)
      (later.narrow target (builder.Offered later)) := by
  refine .leave grows (flowing.narrow awaitsTarget _) ?_ awaitsTarget.fresh.lt_size ?_ awaits new ?_
  · intro block bound
    rw [Entries.narrow_of_ne (Nat.ne_of_lt (bound.trans_le newTarget)), kept block bound]
  · exact fun temporary isGiven =>
      (offered_narrow awaitsTarget _ temporary).2 (isGiven.2 rfl)
  · exact fun temporary wasOffered =>
      ⟨given temporary wasOffered, fun _ => offered temporary wasOffered⟩

section Splits

variable {condition : Ir.Value} (flowing : builder.Flowing entries)
  (below : condition.Below builder.temporaries)
  (offered : ∀ temporary, condition = .temp temporary → builder.Offered entries temporary)

include flowing below offered

theorem splitLogical (isOr : Bool) :
    ∃ forked, builder.Carries entries (builder.splitLogical isOr condition) forked ∧
      ∀ temporary, builder.Offered entries temporary →
        forked (builder.resume.blocks.size + 1) temporary := by
  have valid := flowing.resume.valid
  have resumed := Carries.resume flowing
  have prepared := (resumed.trans (.addBlock flowing.resume (if isOr then .orRhs else .andRhs))).trans
    (.addBlock (flowing.resume.addBlock _) (if isOr then .orEnd else .andEnd))
  obtain ⟨start, next⟩ := Awaits.twoAdded valid (if isOr then .orRhs else .andRhs)
    (if isOr then .orEnd else .andEnd)
  have untouched (index temporary : Nat) (bound : builder.resume.blocks.size ≤ index) :
      entries index temporary := flowing.resume.untouched index temporary bound
  have size_le := resumed.grows.size_le
  obtain ⟨forked, carries, _, second, _⟩ := prepared.fork
    (if isOr
      then .condBranch condition (builder.resume.blocks.size + 1) builder.resume.blocks.size
      else .condBranch condition builder.resume.blocks.size (builder.resume.blocks.size + 1))
    (by cases isOr <;> simpa [Ir.Terminator.operands] using below)
    (fun temporary operand => prepared.offered temporary (offered temporary
      (by cases isOr <;> simpa [Ir.Terminator.operands, eq_comm] using operand)))
    (by cases isOr <;> simp [Ir.Terminator.successors]) start next size_le
    (size_le.trans (Nat.le_succ _)) (fun temporary => untouched _ temporary le_rfl)
  exact ⟨forked, carries, fun temporary isOffered => (second temporary
    (prepared.offered temporary isOffered)).2 (untouched _ temporary (Nat.le_succ _))⟩

theorem splitTwo (first second : BlockRole) :
    ∃ forked, builder.Carries entries (builder.splitTwo first second condition) forked ∧
      ∀ temporary, builder.Offered entries temporary →
        forked (builder.blocks.size + 1) temporary := by
  have prepared := (Carries.addBlock flowing first).trans
    (.addBlock (flowing.addBlock first) second)
  obtain ⟨start, next⟩ := Awaits.twoAdded flowing.valid first second
  obtain ⟨forked, carries, _, onward, _⟩ := prepared.fork
    (.condBranch condition builder.blocks.size (builder.blocks.size + 1))
    (by simpa [Ir.Terminator.operands] using below)
    (fun temporary operand => prepared.offered temporary (offered temporary
      (by simpa [Ir.Terminator.operands, eq_comm] using operand)))
    (by simp [Ir.Terminator.successors]) start next le_rfl (Nat.le_succ _)
    (fun temporary => flowing.untouched _ temporary le_rfl)
  exact ⟨forked, carries, fun temporary isOffered => (onward temporary
    (prepared.offered temporary isOffered)).2 (flowing.untouched _ temporary (Nat.le_succ _))⟩

theorem splitThree (first second third : BlockRole) :
    ∃ forked, builder.Carries entries (builder.splitThree first second third condition) forked ∧
      (∀ temporary, builder.Offered entries temporary →
        forked (builder.blocks.size + 1) temporary) ∧
      ∀ temporary, forked (builder.blocks.size + 2) temporary := by
  have prepared := ((Carries.addBlock flowing first).trans
    (.addBlock (flowing.addBlock first) second)).trans
    (.addBlock ((flowing.addBlock first).addBlock second) third)
  obtain ⟨start, next, _⟩ := Awaits.threeAdded flowing.valid first second third
  obtain ⟨forked, carries, keep, onward, _⟩ := prepared.fork
    (.condBranch condition builder.blocks.size (builder.blocks.size + 1))
    (by simpa [Ir.Terminator.operands] using below)
    (fun temporary operand => prepared.offered temporary (offered temporary
      (by simpa [Ir.Terminator.operands, eq_comm] using operand)))
    (by simp [Ir.Terminator.successors]) start next le_rfl (Nat.le_succ _)
    (fun temporary => flowing.untouched _ temporary le_rfl)
  refine ⟨forked, carries, fun temporary isOffered => (onward temporary
    (prepared.offered temporary isOffered)).2 (flowing.untouched _ temporary (Nat.le_succ _)),
    fun temporary => ?_⟩
  rw [keep _ (by omega) (by omega)]
  exact flowing.untouched _ temporary (by omega)

end Splits

theorem startLoop (flowing : builder.Flowing entries) :
    ∃ forked, builder.Carries entries builder.startLoop forked ∧
      ∀ temporary, forked (builder.blocks.size + 1) temporary ∧
        forked (builder.blocks.size + 2) temporary := by
  have prepared := ((Carries.addBlock flowing .whileCond).trans
    (.addBlock (flowing.addBlock .whileCond) .whileBody)).trans
    (.addBlock ((flowing.addBlock .whileCond).addBlock .whileBody) .whileEnd)
  obtain ⟨start, _, _⟩ := Awaits.threeAdded flowing.valid .whileCond .whileBody .whileEnd
  obtain ⟨forked, carries, keep, _, _⟩ := prepared.fork (.branch builder.blocks.size)
    (by simp [Ir.Terminator.operands]) (by simp [Ir.Terminator.operands])
    (by simp [Ir.Terminator.successors]) start start le_rfl le_rfl
    (fun temporary => flowing.untouched _ temporary le_rfl)
  refine ⟨forked, carries, fun temporary => ?_⟩
  rw [keep _ (by omega) (by omega), keep _ (by omega) (by omega)]
  exact ⟨flowing.untouched _ temporary (by omega), flowing.untouched _ temporary (by omega)⟩

end Carries

end Builder

end Minilang
